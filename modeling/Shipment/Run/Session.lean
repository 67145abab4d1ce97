import Shipment.Backend
import Shipment.BranchName

/-!
# Sessions

A run keeps a session: the record of its steps, the source of branch names, and
the checkpoint to go back to.  `Ship α` is a piece of a run.  From a session it
makes calls and tells events, and ends with a value or a failure and with the
session it has reached.  A failure keeps the session, so that what was recorded
before it is not lost.
-/

namespace Shipment

/-- What to go back to if a run fails after it has created its branch. -/
structure Checkpoint where
  /-- The branch the run came from. -/
  prior : String
  /-- The branch it created. -/
  created : String
  /-- The commit it started from. -/
  start : String
  /-- Whether it has committed since. -/
  committed : Bool := false
deriving DecidableEq, Repr

/-- What a run keeps while it works. -/
structure Session where
  /-- The record of its steps. -/
  record : RunRecord := {}
  /-- The source of branch names. -/
  namer : Namer
  /-- Where to go back to, if anywhere. -/
  checkpoint : Option Checkpoint := none
deriving DecidableEq, Repr

/-- The time of the session in milliseconds. -/
def Session.time (s : Session) : Int := s.namer.now.seconds * 1000

/-- A piece of a run. -/
def Ship (α : Type) : Type := Session → Program shipping (Except Failure α × Session)

namespace Ship

variable {α β γ : Type}

/-! ## Sequencing -/

/-- Do nothing and give a value. -/
def done (a : α) : Ship α := fun s => .done (.ok a, s)

/-- Go on with the value of a piece, unless it failed. -/
def bind (m : Ship α) (f : α → Ship β) : Ship β := fun s =>
  (m s).bind fun out =>
    match out.1 with
    | .ok a => f a out.2
    | .error e => .done (.error e, out.2)

instance : Monad Ship where
  pure := done
  bind := bind

theorem bind_done (m : Ship α) : m.bind done = m := by
  funext s
  refine Eq.trans ?_ (Program.bind_done (m s))
  refine congrArg (Program.bind (m s)) (funext fun out => ?_)
  rcases out with ⟨r, s'⟩
  cases r <;> rfl

theorem bind_assoc (m : Ship α) (f : α → Ship β) (g : β → Ship γ) :
    (m.bind f).bind g = m.bind fun a => (f a).bind g := by
  funext s
  refine Eq.trans (Program.bind_assoc _ _ _) ?_
  refine congrArg (Program.bind (m s)) (funext fun out => ?_)
  rcases out with ⟨r, s'⟩
  cases r <;> rfl

instance : LawfulMonad Ship :=
  LawfulMonad.mk' Ship (fun m => bind_done m) (fun _ _ => rfl) (fun m f g => bind_assoc m f g)

/-! ## What a piece can do -/

/-- Stop with a failure. -/
def fail (e : Failure) : Ship α := fun s => .done (.error e, s)

/-- Give a value or stop with a failure. -/
def ofExcept : Except Failure α → Ship α
  | .ok a => done a
  | .error e => fail e

/-- Make a call and stop if it fails. -/
def ask (c : Call) : Ship c.Answer := fun s =>
  .call (I := shipping) c fun reply => .done (reply, s)

/-- Make a call and give its failure as a value. -/
def attempt (m : Ship α) : Ship (Except Failure α) := fun s =>
  (m s).bind fun out => .done (.ok out.1, out.2)

/-- Tell an event. -/
def tell (e : Event) : Ship Unit := fun s =>
  .tell (I := shipping) e (.done (.ok (), s))

/-- The session. -/
def session : Ship Session := fun s => .done (.ok s, s)

/-- Change the session. -/
def update (f : Session → Session) : Ship Unit := fun s => .done (.ok (), f s)

/-- Change the record. -/
def updateRecord (f : RunRecord → RunRecord) : Ship Unit :=
  update fun s => { s with record := f s.record }

/-- Enter a step and tell it. -/
def enter (step : Step) : Ship Unit := do
  let s ← session
  updateRecord (RunRecord.enter s.time step)
  tell (.step step)

/-- Tell a notice and record it. -/
def notify (n : Notice) : Ship Unit := do
  tell (.notice n)
  updateRecord (RunRecord.addNotice n)

/-- The notices recorded so far. -/
def notices : Ship (List Notice) := do
  return (← session).record.notices

end Ship

end Shipment
