import Shipment.Flow

/-!
# Steps and the record of a run

A run passes through steps and keeps a record of them.  The record starts at
`validatingIntent`.  Entering a step adds a transition.  Entering a terminal
step also sets the status and the time the run was over.  Times are milliseconds
since the start of 1970 and have no other use than the duration.
-/

namespace Shipment

/-- The steps of a run, in the order a run can visit them. -/
inductive Step where
  /-- Is the description acceptable? -/
  | validatingIntent
  /-- Do the prerequisites hold? -/
  | checkingPreconditions
  /-- Which branch is the base? -/
  | resolvingBase
  /-- Which flow is it? -/
  | selectingFlow
  /-- New request: fetch the base. -/
  | fetchingBase
  /-- New request: look at the tree. -/
  | inspectingTree
  /-- New request: settle the branch name. -/
  | resolvingBranchName
  /-- New request: bring the default branch up to date. -/
  | syncingDefaultBranch
  /-- New request: cut the branch. -/
  | creatingBranch
  /-- Both flows: commit. -/
  | committing
  /-- New request: push the branch. -/
  | pushing
  /-- New request: open the request. -/
  | openingRequest
  /-- Update: look at the request of the branch. -/
  | checkingRequestState
  /-- Update: compare with the base. -/
  | checkingBehind
  /-- Update: rebase. -/
  | syncing
  /-- Update: stage everything. -/
  | staging
  /-- Update: push the branch. -/
  | pushingUpdate
  /-- Update: find or open the request. -/
  | finalizingRequest
  /-- The run shipped. -/
  | completed
  /-- The run had nothing to do. -/
  | noOp
  /-- The run failed. -/
  | failed
deriving DecidableEq, Repr

namespace Step

/-- The step in words. -/
def text : Step → String
  | validatingIntent => "Validating change description"
  | checkingPreconditions => "Checking preconditions"
  | resolvingBase => "Resolving base branch"
  | selectingFlow => "Selecting flow"
  | fetchingBase => "Fetching base branch"
  | inspectingTree => "Inspecting working tree"
  | resolvingBranchName => "Resolving branch name"
  | syncingDefaultBranch => "Fast-forwarding default branch"
  | creatingBranch => "Creating branch"
  | committing => "Committing changes"
  | pushing => "Pushing branch"
  | openingRequest => "Opening pull request"
  | checkingRequestState => "Checking pull request state"
  | checkingBehind => "Comparing with base branch"
  | syncing => "Rebasing onto base branch"
  | staging => "Staging changes"
  | pushingUpdate => "Pushing update"
  | finalizingRequest => "Finalizing pull request"
  | completed => "Completed"
  | noOp => "Nothing to do"
  | failed => "Failed"

/-- The name of the step in a document. -/
def name : Step → String
  | validatingIntent => "validating-intent"
  | checkingPreconditions => "checking-preconditions"
  | resolvingBase => "resolving-base"
  | selectingFlow => "selecting-flow"
  | fetchingBase => "fetching-base"
  | inspectingTree => "inspecting-tree"
  | resolvingBranchName => "resolving-branch-name"
  | syncingDefaultBranch => "syncing-default-branch"
  | creatingBranch => "creating-branch"
  | committing => "committing"
  | pushing => "pushing"
  | openingRequest => "opening-request"
  | checkingRequestState => "checking-request-state"
  | checkingBehind => "checking-behind"
  | syncing => "syncing"
  | staging => "staging"
  | pushingUpdate => "pushing-update"
  | finalizingRequest => "finalizing-request"
  | completed => "completed"
  | noOp => "no-op"
  | failed => "failed"

/-- Every step, in order. -/
def all : List Step :=
  [validatingIntent, checkingPreconditions, resolvingBase, selectingFlow, fetchingBase,
    inspectingTree, resolvingBranchName, syncingDefaultBranch, creatingBranch, committing,
    pushing, openingRequest, checkingRequestState, checkingBehind, syncing, staging,
    pushingUpdate, finalizingRequest, completed, noOp, failed]

/-- Whether a run is over once it enters the step. -/
def isTerminal : Step → Bool
  | completed | noOp | failed => true
  | _ => false

end Step

/-- How a run stands. -/
inductive RunStatus where
  /-- It goes on. -/
  | running
  /-- It shipped. -/
  | completed
  /-- It had nothing to do. -/
  | noOp
  /-- It failed. -/
  | failed
deriving DecidableEq, Repr

namespace RunStatus

/-- The name of the status in a document. -/
def name : RunStatus → String
  | running => "running"
  | completed => "completed"
  | noOp => "no-op"
  | failed => "failed"

/-- The status a step leads to, if it is terminal. -/
def ofStep : Step → Option RunStatus
  | .completed => some completed
  | .noOp => some noOp
  | .failed => some failed
  | _ => none

end RunStatus

/-- The record of one run. -/
structure RunRecord where
  /-- How the run stands. -/
  status : RunStatus := .running
  /-- The step it is in. -/
  step : Step := .validatingIntent
  /-- The flow it selected. -/
  flow : Option Flow := none
  /-- When it started. -/
  startedAt : Int := 0
  /-- When it was over. -/
  finishedAt : Option Int := none
  /-- The transitions it made, in order. -/
  history : List (Step × Step) := []
  /-- The notices it gave, in order. -/
  notices : List Notice := []
deriving DecidableEq, Repr

namespace RunRecord

/-- Enter a step at a time. -/
def enter (now : Int) (step : Step) (r : RunRecord) : RunRecord :=
  { r with
    history := r.history ++ [(r.step, step)]
    step := step
    status := (RunStatus.ofStep step).getD r.status
    finishedAt := if step.isTerminal then some now else r.finishedAt }

/-- Record the flow. -/
def selectFlow (flow : Flow) (r : RunRecord) : RunRecord := { r with flow := some flow }

/-- Record a notice. -/
def addNotice (notice : Notice) (r : RunRecord) : RunRecord :=
  { r with notices := r.notices ++ [notice] }

/-- Whether the run was ever in a step. -/
def visited (step : Step) (r : RunRecord) : Bool :=
  r.step == step || r.history.any fun t => t.1 == step || t.2 == step

/-- The steps of the run, in order. -/
def path (r : RunRecord) : List Step :=
  match r.history with
  | [] => [r.step]
  | t :: ts => t.1 :: (t :: ts).map (·.2)

/-- The whole seconds from start to end, none if the end comes first. -/
def duration (endsAt : Int) (r : RunRecord) : Nat :=
  ((r.finishedAt.getD endsAt - r.startedAt).tdiv 1000).toNat

end RunRecord

end Shipment
