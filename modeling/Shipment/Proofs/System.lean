import Shipment.Proofs.Program
import Shipment.System

/-!
# What a piece of a command does

Against a handler a piece of a command ends with a value or a failure, leaves a state behind,
and has printed something.  `Work.ends` is the first two of these, and `Work.printed` the last.
Each building block has one law for either, and a proof about a command goes through its text
with them.
-/

namespace Shipment.Work

variable {α β σ : Type} {h : Handler system σ} {s s' : σ} {a : α} {e : Failure}
variable {m : Work α} {f : α → Work β}

/-- How a piece ends against a handler, and what it leaves behind. -/
def ends (h : Handler system σ) (m : Work α) (s : σ) : Except Failure α × σ :=
  ((m.run.run h s).value, (m.run.run h s).world)

/-- What a piece prints against a handler. -/
def printed (h : Handler system σ) (m : Work α) (s : σ) : List Printed :=
  (m.run.run h s).trace.events

/-! ## Sequencing -/

theorem run_bind_eq (m : Work α) (f : α → Work β) : (m >>= f).run =
    m.run.bind fun r => match r with
      | .ok a => (f a).run
      | .error e => .done (.error e) := by
  show m.run.bind (ExceptT.bindCont f) = _
  refine congrArg _ (funext fun r => ?_)
  cases r <;> rfl

theorem ends_bind : ends h (m >>= f) s = match ends h m s with
    | (.ok a, s') => ends h (f a) s'
    | (.error e, s') => (.error e, s') := by
  simp only [ends, run_bind_eq, Program.run_bind, Execution.followedBy]
  cases (m.run.run h s).value <;> rfl

/-- A piece goes on behind one that gave a value. -/
theorem ends_bind_ok (hm : ends h m s = (.ok a, s')) : ends h (m >>= f) s = ends h (f a) s' := by
  rw [ends_bind, hm]

/-- A piece that failed is not gone on from. -/
theorem ends_bind_error (hm : ends h m s = (.error e, s')) :
    ends h (m >>= f) s = (.error e, s') := by
  rw [ends_bind, hm]

/-- A piece with a value got there by way of one. -/
theorem exists_of_ends_bind {b : β} {s'' : σ} (hm : ends h (m >>= f) s = (.ok b, s'')) :
    ∃ a s', ends h m s = (.ok a, s') ∧ ends h (f a) s' = (.ok b, s'') := by
  rw [ends_bind] at hm
  generalize ends h m s = out at hm ⊢
  obtain ⟨r, s'⟩ := out
  cases r with
  | ok a => exact ⟨a, s', rfl, hm⟩
  | error e => cases hm

/-! ## Building blocks -/

@[simp] theorem ends_pure : ends h (pure a : Work α) s = (.ok a, s) := rfl

@[simp] theorem ends_fail : ends h (fail e : Work α) s = (.error e, s) := rfl

@[simp] theorem ends_ofExcept {r : Except Failure α} : ends h (ofExcept r) s = (r, s) := rfl

@[simp] theorem ends_ofSystem {r : Except IoProblem α} :
    ends h (ofSystem r) s = (r.mapError .io, s) := by
  cases r <;> rfl

@[simp] theorem ends_ask {c : SystemCall} : ends h (ask c) s = (.ok (h c s).1, (h c s).2) := rfl

@[simp] theorem ends_print {p : Printed} : ends h (print p) s = (.ok (), s) := rfl

theorem run_attempt (m : Work α) (s : σ) : (attempt m).run.run h s =
    ⟨(m.run.run h s).trace, .ok (m.run.run h s).value, (m.run.run h s).world⟩ :=
  Program.run_bind_done h m.run (fun r => (.ok r : Except Failure (Except Failure α))) s

/-! ## Printing -/

theorem printed_bind : printed h (m >>= f) s = printed h m s ++ match ends h m s with
    | (.ok a, s') => printed h (f a) s'
    | (.error _, _) => [] := by
  simp only [printed, ends, run_bind_eq, Program.run_bind, Execution.followedBy,
    Trace.events_append]
  cases (m.run.run h s).value <;> rfl

/-- A piece behind one that gave a value prints behind it. -/
theorem printed_bind_ok (hm : ends h m s = (.ok a, s')) :
    printed h (m >>= f) s = printed h m s ++ printed h (f a) s' := by
  rw [printed_bind, hm]

@[simp] theorem printed_pure : printed h (pure a : Work α) s = [] := rfl

@[simp] theorem printed_ofExcept {r : Except Failure α} : printed h (ofExcept r) s = [] := rfl

@[simp] theorem printed_ofSystem {r : Except IoProblem α} : printed h (ofSystem r) s = [] := by
  cases r <;> rfl

@[simp] theorem printed_ask {c : SystemCall} : printed h (ask c) s = [] := rfl

@[simp] theorem printed_print {p : Printed} : printed h (print p) s = [p] := rfl

@[simp] theorem printed_attempt : printed h (attempt m) s = printed h m s := by
  rw [printed, run_attempt, printed]

/-! ## Calls -/

/-- Every system call of a piece is of a kind. -/
def Uses (P : SystemCall → Prop) (m : Work α) : Prop := Program.Uses (I := system) P m.run

namespace Uses

variable {P : SystemCall → Prop}

theorem bind (hm : Uses P m) (hf : ∀ a, Uses P (f a)) : Uses P (m >>= f) := by
  rw [Uses, run_bind_eq]
  refine Program.Uses.bind hm fun r => ?_
  cases r with
  | ok a => exact hf a
  | error e => trivial

theorem pure (a : α) : Uses P (Pure.pure a : Work α) := trivial

theorem ofExcept (r : Except Failure α) : Uses P (ofExcept r) := trivial

theorem ofSystem (r : Except IoProblem α) : Uses P (ofSystem r) := by cases r <;> trivial

theorem ask {c : SystemCall} (h : P c) : Uses P (ask c) := ⟨h, fun _ => trivial⟩

theorem print (p : Printed) : Uses P (print p) := trivial

theorem mono {P' : SystemCall → Prop} (hm : Uses P m) (hP : ∀ c, P c → P' c) : Uses P' m :=
  Program.Uses.mono hm hP

theorem attempt (h : Uses P m) : Uses P (attempt m) := Program.Uses.bind h fun _ => trivial

end Uses

end Shipment.Work
