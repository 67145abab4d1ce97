import Shipment.Run.Session

/-!
# Looking at the repository

Pieces of a run that only ask.  Nothing is kept between them, so a value read
before a change is never used after it.
-/

namespace Shipment

/-- The repository beside a base branch, at one moment. -/
structure Snapshot where
  /-- The branch `HEAD` is on. -/
  current : String
  /-- The default branch. -/
  default : String
  /-- Whether the tree has changes. -/
  dirty : Bool
  /-- The commits of `HEAD` the base lacks. -/
  ahead : Nat
  /-- The commits of the base `HEAD` lacks. -/
  behind : Nat
  /-- The commits of the default branch `origin` lacks, if `HEAD` is on it. -/
  unpushedDefault : Nat
deriving DecidableEq, Repr

namespace Ship

/-- The branch `HEAD` is on.  A detached `HEAD` is a missing prerequisite. -/
def currentBranch : Ship String := do
  match ← ask .currentBranch with
  | some branch => return branch
  | none => fail (.missingPrerequisite .namedBranch)

/-- Whether the tree has changes. -/
def isDirty : Ship Bool := do
  return !(← ask .isClean)

/-- How many commits of `HEAD` a branch on `origin` lacks. -/
def aheadOf (branch : String) : Ship Nat := ask (.countCommits (trackingRef branch) "HEAD")

/-- How many commits of a branch on `origin` `HEAD` lacks. -/
def behind (branch : String) : Ship Nat := ask (.countCommits "HEAD" (trackingRef branch))

/-- The commits of a local branch its own branch on `origin` lacks. -/
def unpushed (branch : String) : Ship (List Commit) :=
  ask (.listCommits (trackingRef branch) branch)

/-- The repository beside a base that was fetched. -/
def snapshot (base : String) : Ship Snapshot := do
  let current ← currentBranch
  let default ← ask .defaultBranch
  let unpushedDefault ←
    if current = default then ask (.countCommits (trackingRef default) default) else pure 0
  let dirty ← isDirty
  let ahead ← aheadOf base
  let behind ← behind base
  return { current, default, dirty, ahead, behind, unpushedDefault }

/-- The address of the open request of a branch, if it has one. -/
def openRequestUrl (head : String) : Ship (Option String) := do
  return (← ask (.findRequest head)).bind PullRequest.openUrl

end Ship

end Shipment
