import Shipment.Proofs.Run.Woven

/-!
# What a run leaves in its trace

`Program.Ensures` does not see the events of a run.  `Program.Traces` does.  It says of every
run of a program that its trace and its value are in `Q`, and it is a recursion over the
program too.  The building blocks of a run have one law each.
-/

namespace Shipment

/-- What an action tells of the reply to its call. -/
def Action.ending (a : Action) : Except Failure a.call.Answer → ActionStatus
  | .ok _ => .succeeded
  | .error e => .failed (a.failure e).text

namespace Program

variable {I : Interface} {α β : Type}

/-- Whatever a program is answered, its trace and its value are in `Q`. -/
def Traces : Program I α → (Trace I → α → Prop) → Prop
  | done a, Q => Q [] a
  | call c next, Q => ∀ r, (next r).Traces fun t => Q (.called c r :: t)
  | tell e next, Q => next.Traces fun t => Q (.told e :: t)

/-- What is so of the traces of a program is so of its runs. -/
theorem Traces.runs {p : Program I α} {Q : Trace I → α → Prop} {t : Trace I} {a : α}
    (h : p.Traces Q) (ht : Runs p t a) : Q t a := by
  induction ht generalizing Q with
  | done a => exact h
  | call r ht ih => exact ih (h r)
  | tell ht ih => exact ih h

theorem Traces.mono {p : Program I α} {Q Q' : Trace I → α → Prop} (h : p.Traces Q)
    (hQ : ∀ t a, Q t a → Q' t a) : p.Traces Q' := by
  induction p generalizing Q Q' with
  | done a => exact hQ [] a h
  | call c next ih => exact fun r => ih r (h r) fun t => hQ (.called c r :: t)
  | tell e next ih => exact ih h fun t => hQ (.told e :: t)

theorem traces_bind {p : Program I α} {f : α → Program I β} {Q : Trace I → β → Prop} :
    (p.bind f).Traces Q ↔ p.Traces fun t a => (f a).Traces fun t' => Q (t ++ t') := by
  induction p generalizing Q with
  | done a => exact Iff.rfl
  | call c next ih => exact forall_congr' fun r => ih r
  | tell e next ih => exact ih

end Program

namespace Ship

variable {α β : Type} {x : Session}

/-- Whatever a piece is answered, its trace and its end are in `Q`. -/
def Traces (m : Ship α) (x : Session) (Q : Trace shipping → Except Failure α × Session → Prop) :
    Prop :=
  (m x).Traces Q

theorem Traces.mono {m : Ship α} {Q Q' : Trace shipping → Except Failure α × Session → Prop}
    (h : m.Traces x Q) (hQ : ∀ t out, Q t out → Q' t out) : m.Traces x Q' :=
  Program.Traces.mono h hQ

/-- A piece followed by another, which only runs on a value. -/
theorem Traces.bind {m : Ship α} {f : α → Ship β}
    {R : Trace shipping → Except Failure α × Session → Prop}
    {Q : Trace shipping → Except Failure β × Session → Prop} (h : m.Traces x R)
    (he : ∀ t e x', R t (.error e, x') → Q t (.error e, x'))
    (hf : ∀ t a x', R t (.ok a, x') → (f a).Traces x' fun t' => Q (t ++ t')) :
    (m >>= f).Traces x Q := by
  refine Program.traces_bind.mpr (Program.Traces.mono h ?_)
  rintro t ⟨r, x'⟩ hr
  cases r with
  | ok a => exact hf t a x' hr
  | error e =>
      show Q (t ++ []) _
      rw [List.append_nil]
      exact he t e x' hr

theorem traces_attempt {m : Ship α}
    {Q : Trace shipping → Except Failure (Except Failure α) × Session → Prop} :
    (attempt m).Traces x Q ↔ m.Traces x fun t out => Q t (.ok out.1, out.2) := by
  refine Program.traces_bind.trans (iff_of_eq (congrArg (Program.Traces (m x)) ?_))
  funext t out
  show Q (t ++ []) _ = _
  rw [List.append_nil]

/-! ## Building blocks -/

theorem traces_ask {c : Call} {Q : Trace shipping → Except Failure c.Answer × Session → Prop} :
    (ask c).Traces x Q ↔ ∀ r, Q [.called c r] (r, x) := Iff.rfl

theorem traces_enter {step : Step} {Q : Trace shipping → Except Failure Unit × Session → Prop} :
    (enter step).Traces x Q ↔ Q [.told (.step step)] (.ok (), x.entered step) := Iff.rfl

theorem traces_notify {n : Notice} {Q : Trace shipping → Except Failure Unit × Session → Prop} :
    (notify n).Traces x Q ↔ Q [.told (.notice n)] (.ok (), x.noticed n) := Iff.rfl

/-- What happens when an action is done, by the reply to its call. -/
def doing (a : Action) (r : Except Failure a.call.Answer) : Trace shipping :=
  [.told (.action a .started), .called a.call r, .told (.action a (a.ending r))]

/-- How an action that was done ends, by the reply to its call. -/
def doneWith (a : Action) (x : Session) :
    Except Failure a.call.Answer → Except Failure Unit × Session
  | .ok _ => (.ok (), x.noted a)
  | .error e => (.error (a.failure e), x)

theorem traces_execute {a : Action}
    {Q : Trace shipping → Except Failure Unit × Session → Prop} :
    (execute a).Traces x Q ↔ ∀ r, Q (doing a r) (doneWith a x r) := by
  cases a with
  | _ =>
      refine forall_congr' fun r => ?_
      cases r with
      | ok v => exact Iff.rfl
      | error e => exact Iff.rfl

theorem traces_openRequest {d : RequestDraft}
    {Q : Trace shipping → Except Failure String × Session → Prop} :
    (openRequest d).Traces x Q ↔ ∀ r, Q (doing (.openRequest d) r) (r, x) := by
  refine forall_congr' fun r => ?_
  cases r with
  | ok url => exact Iff.rfl
  | error e => exact Iff.rfl

end Ship

end Shipment
