import Shipment.Run.Session

/-!
# Doing actions and going back

`perform` does one action.  It tells the start and the end of it, and a commit
made while a checkpoint is set is noted there.  A failure of the version control
system becomes the failure of the guard that asked for the action.

`rollback` undoes a branch that was created but not pushed.  It moves the branch
back to the commit it started from if a commit was made, returns to the branch
before it, and deletes it.  It stops at the first of these that fails.  Only a
full return gives a notice.
-/

namespace Shipment.Ship

/-- The failure a fast-forward of a branch ends with. -/
def asDivergence (branch : String) : Failure → Failure
  | .vcs detail => .unexpectedDivergence branch detail
  | e => e

/-- The failure a rebase onto a branch ends with. -/
def asConflict (onto : String) : Failure → Failure
  | .vcs detail => .rebaseConflict (trackingRef onto) detail
  | e => e

/-- The failure a push of a branch ends with. -/
def asRejection (branch : String) : Failure → Failure
  | .vcs detail => .pushRejected branch detail
  | e => e

/-- Rename the failure of a piece. -/
def orFail {α : Type} (m : Ship α) (rename : Failure → Failure) : Ship α := do
  match ← attempt m with
  | .ok a => pure a
  | .error e => fail (rename e)

/-- Make the call of an action.  Only an opened request gives an address. -/
def carryOut : Action → Ship (Option String)
  | .fetch branch => do
      ask (.fetch branch)
      return none
  | .fastForward branch => do
      orFail (ask (.mergeFastForward (trackingRef branch))) (asDivergence branch)
      return none
  | .createBranch name => do
      ask (.createBranch name)
      return none
  | .stageAll => do
      ask .stageAll
      return none
  | .commit message => do
      ask (.commit message)
      return none
  | .rebase onto => do
      orFail (ask (.rebase (trackingRef onto))) (asConflict onto)
      return none
  | .push branch mode => do
      orFail (ask (.push branch mode)) (asRejection branch)
      return none
  | .openRequest draft => do
      let url ← ask (.createRequest draft)
      return some url

/-- Note a commit in the checkpoint, if one is set. -/
def noteCommit : Action → Ship Unit
  | .commit _ =>
      update fun s =>
        { s with checkpoint := s.checkpoint.map fun c => { c with committed := true } }
  | _ => pure ()

/-- Do an action and tell how it went. -/
def perform (a : Action) : Ship (Option String) := do
  tell (.action a .started)
  match ← attempt (carryOut a) with
  | .ok url =>
      noteCommit a
      tell (.action a .succeeded)
      return url
  | .error e =>
      tell (.action a (.failed e.text))
      fail e

/-- Do an action for its effect. -/
def execute (a : Action) : Ship Unit := do
  let _ ← perform a
  return ()

/-- Open a request and give its address. -/
def openRequest (draft : RequestDraft) : Ship String := do
  match ← perform (.openRequest draft) with
  | some url => return url
  | none => fail (.host "gh did not report a pull request URL")

/-- Set the checkpoint. -/
def arm (c : Checkpoint) : Ship Unit := update fun s => { s with checkpoint := some c }

/-- Clear the checkpoint. -/
def disarm : Ship Unit := update fun s => { s with checkpoint := none }

/-- Go back to a checkpoint.  Gives whether every call of it succeeded. -/
def goBack (c : Checkpoint) : Ship Bool := do
  let steps : Ship Unit := do
    if c.committed then ask (.resetSoft c.start)
    ask (.checkout c.prior)
    ask (.deleteBranch c.created)
  match ← attempt steps with
  | .ok _ => return true
  | .error _ => return false

/-- Go back to the checkpoint and clear it. -/
def rollback : Ship (Option Notice) := do
  match (← session).checkpoint with
  | none => return none
  | some c =>
      disarm
      if ← goBack c then
        let notice := Notice.rolledBack c.created c.prior
        tell (.notice notice)
        return some notice
      else
        return none

end Shipment.Ship
