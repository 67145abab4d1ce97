import Shipment.Run.NewRequest

/-!
# The update flow

The flow looks at the request of the branch and refuses a merged one.  It
fetches the base, and the branch itself if `origin` has it.  A sync needs a
clean tree and a remote branch with nothing the local one lacks, and rebases
onto the base.  Then the flow stages everything and stops when there is nothing
to push.  It commits what is staged, pushes, and finds or opens the request.

What is ahead is counted against the branch on `origin`, and against the base
when `origin` does not have the branch.
-/

namespace Shipment.Ship

/-- Look at the request of the branch. -/
def checkRequest (branch : String) : Ship Unit := do
  enter .checkingRequestState
  match ← ask (.findRequest branch) with
  | none => return ()
  | some pr =>
      match pr.state with
      | .merged => fail (.mergedRequest branch (some pr.url))
      | .closed => notify (.closedRequest branch pr.url)
      | .opened | .absent => return ()

/-- Fetch the base and tell how far behind it the branch is. -/
def compareWithBase (base : String) (sync : Bool) : Ship Unit := do
  enter .checkingBehind
  execute (.fetch base)
  let commits ← behind base
  if commits > 0 && !sync then notify (.behindBase base commits)

/-- Refuse a dirty tree. -/
def requireClean : Ship Unit := do
  enter .syncing
  if ← isDirty then fail .dirtyTreeDuringSync

/-- Fetch the branch if `origin` has it.  Gives its tracking ref. -/
def fetchCounterpart (branch : String) : Ship (Option String) := do
  if ← ask (.remoteBranchExists branch) then
    execute (.fetch branch)
    return some (trackingRef branch)
  else
    return none

/-- Rebase onto the base, if no commit on `origin` would be lost. -/
def rebaseOnto (branch base : String) (counterpart : Option String) : Ship Unit := do
  match counterpart with
  | some remote =>
      if ← ask (.isAncestor remote "HEAD") then pure () else fail (.unseenCommits branch)
  | none => pure ()
  execute (.rebase base)

/-- Commit what is staged and count again what is ahead. -/
def commitStaged (d : Description) (reference : String) (staged : Bool) (ahead : Nat) :
    Ship Nat := do
  if staged then
    enter .committing
    execute (.commit d.text)
    ask (.countCommits reference "HEAD")
  else
    return ahead

/-- Find the open request of the branch or open one. -/
def requestForUpdate (w : Setting) (draft : Bool) : Ship RequestResult := do
  enter .finalizingRequest
  match ← openRequestUrl w.current with
  | some url => return .updated url
  | none => return .created (← openRequest (w.draftFor w.current draft))

/-- Commit, push and settle the request.  `ahead` was counted against
`reference` before the commit. -/
def shipUpdate (w : Setting) (o : Options) (reference : String) (staged : Bool) (ahead : Nat) :
    Ship Outcome := do
  let ahead ← commitStaged w.description reference staged ahead
  enter .pushingUpdate
  let pushed := updatePushMode o.sync ahead
  match pushed with
  | some mode => execute (.push w.current mode)
  | none => pure ()
  let request ← requestForUpdate w o.draft
  finishShipped .updateExisting w.current w.base (.shipped staged pushed request)

/-- The update flow. -/
def updateExisting (w : Setting) (o : Options) : Ship Outcome := do
  checkRequest w.current
  compareWithBase w.base o.sync
  if o.sync then requireClean
  let counterpart ← fetchCounterpart w.current
  if o.sync then rebaseOnto w.current w.base counterpart
  enter .staging
  execute .stageAll
  let staged ← ask .hasStagedChanges
  let reference := counterpart.getD (trackingRef w.base)
  let ahead ← ask (.countCommits reference "HEAD")
  if updateIsNoOp staged ahead o.sync then
    finishNoOp .updateExisting w.current w.base .nothingToPush
  else
    shipUpdate w o reference staged ahead

end Shipment.Ship
