import Shipment.Outcome
import Shipment.Run.Inspect
import Shipment.Run.Perform

/-!
# The new request flow

The flow fetches the base, and the default branch too when it starts there.  It
stops when there is nothing to ship.  It settles a free branch name.  On the
default branch it refuses commits `origin` has not seen, and fast-forwards.
Then it cuts the branch, commits what is changed and pushes.  A failure up to
the push is undone.  Last it opens a request, unless the branch has one.
-/

namespace Shipment

/-- What a run has settled before its flow starts. -/
structure Setting where
  /-- The accepted description. -/
  description : Description
  /-- The branch the run starts on. -/
  current : String
  /-- The default branch. -/
  default : String
  /-- The base branch. -/
  base : String
deriving DecidableEq, Repr

namespace Setting

/-- The request to open for a branch. -/
def draftFor (head : String) (draft : Bool) (w : Setting) : RequestDraft where
  title := RequestDraft.titleOf w.description.text
  body := RequestDraft.bodyOf w.description.text
  base := w.base
  head := head
  draft := draft

end Setting

namespace Ship

/-- End a run that has nothing to do. -/
def finishNoOp (flow : Flow) (branch base : String) (reason : NoOpReason) : Ship Outcome := do
  enter .noOp
  return { flow, branch, base, notices := ← notices, result := .noOp reason }

/-- End a run that shipped. -/
def finishShipped (flow : Flow) (branch base : String) (result : RunResult) : Ship Outcome := do
  enter .completed
  return { flow, branch, base, notices := ← notices, result }

/-- A generated name. -/
def generateName (d : Description) : Ship String := fun s =>
  let out := s.namer.generate d.text
  .done (.ok out.1, { s with namer := out.2 })

/-- The name asked for, or a generated one.  A name asked for is checked. -/
def chooseName (d : Description) : Option String → Ship String
  | some name => do
      let refused : Failure := .unusableName name .invalidRefName
      if BranchName.hasForbiddenChars name then fail refused
      else if ← ask (.isValidBranchName name) then return name
      else fail refused
  | none => generateName d

/-- The name of the new branch.  No branch, local or on `origin`, has it. -/
def resolveName (d : Description) (asked : Option String) : Ship String := do
  let name ← chooseName d asked
  if ← ask (.localBranchExists name) then fail (.unusableName name .existsLocally)
  else if ← ask (.remoteBranchExists name) then fail (.unusableName name .existsOnRemote)
  else return name

/-- Bring the default branch up to date, if nothing on it would be lost. -/
def syncDefault (default : String) : Ship Unit := do
  enter .syncingDefaultBranch
  let commits ← unpushed default
  if commits.isEmpty then execute (.fastForward default)
  else fail (.unpushedCommits default commits)

/-- Commit every change, if there are any.  Gives whether there were. -/
def commitChanges (d : Description) (branch : String) : Ship Bool := do
  if ← isDirty then
    enter .committing
    execute .stageAll
    if ← ask .hasStagedChanges then
      execute (.commit d.text)
      return true
    else
      fail (.emptyCommit branch)
  else
    return false

/-- Commit every change and push the new branch.  Gives whether it committed. -/
def commitAndPush (d : Description) (branch : String) : Ship Bool := do
  let committed ← commitChanges d branch
  enter .pushing
  execute (.push branch .tracking)
  return committed

/-- Undo what a piece left behind if it fails, and fail with its failure. -/
def orGoBack {α : Type} (m : Ship α) : Ship α := do
  match ← attempt m with
  | .ok a => return a
  | .error e => do
      match ← rollback with
      | some notice => updateRecord (RunRecord.addNotice notice)
      | none => pure ()
      fail e

/-- Cut the branch, commit and push.  Gives whether it committed. -/
def cutBranch (w : Setting) (branch : String) : Ship Bool := do
  enter .creatingBranch
  let start ← ask .headCommit
  execute (.createBranch branch)
  arm { prior := w.current, created := branch, start }
  let committed ← orGoBack (commitAndPush w.description branch)
  disarm
  return committed

/-- Find the open request of the new branch or open one. -/
def requestForNew (w : Setting) (branch : String) (draft : Bool) : Ship RequestResult := do
  enter .openingRequest
  match ← openRequestUrl branch with
  | some url => return .alreadyExists url
  | none => return .created (← openRequest (w.draftFor branch draft))

/-- Ship a new branch, with everything fetched and something to ship. -/
def shipNew (w : Setting) (o : Options) : Ship Outcome := do
  enter .resolvingBranchName
  let branch ← resolveName w.description o.branch
  if w.current = w.default then syncDefault w.default
  let committed ← cutBranch w branch
  let request ← requestForNew w branch o.draft
  finishShipped .newRequest branch w.base (.shipped committed (some .tracking) request)

/-- The new request flow. -/
def newRequest (w : Setting) (o : Options) : Ship Outcome := do
  let onDefault := decide (w.current = w.default)
  enter .fetchingBase
  execute (.fetch w.base)
  if onDefault && w.base != w.default then execute (.fetch w.default)
  enter .inspectingTree
  let seen ← snapshot w.base
  match newRequestNoOp onDefault o.new seen.dirty seen.ahead with
  | some reason => finishNoOp .newRequest w.current w.base reason
  | none => shipNew w o

end Ship

end Shipment
