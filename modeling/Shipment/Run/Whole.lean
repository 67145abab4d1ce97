import Shipment.Run.UpdateExisting

/-!
# Whole runs

A run accepts the description, checks the prerequisites, settles the base and
the flow, and follows the flow.  Nothing is changed before all of that has
succeeded.  A run that fails enters the step `failed` last.  `Ship.start` is a
run with a fresh record.
-/

namespace Shipment.Ship

/-- Accept the description and tell if force was needed. -/
def acceptDescription (raw : String) (force : Bool) : Ship Description := do
  let (d, verdict) ← ofExcept (Description.accept raw force)
  if verdict = .acceptedWithWarning then notify (.intentOverridden d.text)
  return d

/-- Check the prerequisites.  Gives the branch `HEAD` is on. -/
def checkPrerequisites : Ship String := do
  enter .checkingPreconditions
  if ← ask .isAuthenticated then pure ()
  else fail (.missingPrerequisite .hostAuthentication)
  if ← ask .hasOrigin then pure ()
  else fail (.missingPrerequisite .originRemote)
  match ← ask .operationInProgress with
  | some op => fail (.missingPrerequisite (.noOperation op))
  | none => currentBranch

/-- The base branch: the one asked for, if `origin` has it, or the default. -/
def resolveBase (asked : Option String) (default : String) : Ship String := do
  match asked with
  | none => return default
  | some base =>
      if ← ask (.remoteBranchExists base) then return base else fail (.unknownBase base)

/-- Settle the flow. -/
def selectFlow (current default : String) (new : Bool) : Ship Flow := do
  enter .selectingFlow
  let flow := Flow.select current default new
  updateRecord (RunRecord.selectFlow flow)
  tell (.flow flow)
  return flow

/-- Everything between the start of a run and its end. -/
def drive (raw : String) (o : Options) : Ship Outcome := do
  let description ← acceptDescription raw o.force
  let current ← checkPrerequisites
  enter .resolvingBase
  let default ← ask .defaultBranch
  let base ← resolveBase o.base default
  let flow ← selectFlow current default o.new
  let w : Setting := { description, current, default, base }
  match flow with
  | .newRequest => newRequest w o
  | .updateExisting => updateExisting w o

/-- A whole run, with a fresh record and no checkpoint. -/
def start (raw : String) (o : Options) : Ship Outcome := do
  update fun s => { s with record := { startedAt := s.time }, checkpoint := none }
  tell (.step .validatingIntent)
  match ← attempt (drive raw o) with
  | .ok outcome => return outcome
  | .error e => do
      enter .failed
      fail e

end Shipment.Ship
