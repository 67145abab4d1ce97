/-!
# Programs that talk to their surroundings

An *interface* says which calls a program may make, what type the reply to each
call has, and which events the program may tell.  A call waits for its reply and
an event does not.  A *program* over an interface is a tree: it is done with a
value, or makes a call and goes on by the reply, or tells an event and goes on.

The tree says nothing about the surroundings.  `Runs` is every run a program can
make, whatever it is answered.  `run` is the one run against surroundings given
as a handler.  Both keep the whole trace, so what happened before a run stopped
is never lost.  `run_runs` says that the one is an instance of the other.
-/

namespace Shipment

/-- The calls and events of a program. -/
structure Interface where
  /-- What may be asked of the surroundings. -/
  Call : Type
  /-- What a call is answered with. -/
  Reply : Call → Type
  /-- What may be told to the surroundings. -/
  Event : Type

/-- A program over an interface. -/
inductive Program (I : Interface) (α : Type) where
  /-- The program is over and has a value. -/
  | done (a : α)
  /-- A call, and how to go on by its reply. -/
  | call (c : I.Call) (next : I.Reply c → Program I α)
  /-- An event, and how to go on. -/
  | tell (e : I.Event) (next : Program I α)

/-- One thing that happened in a run. -/
inductive Entry (I : Interface) where
  /-- A call was made and answered. -/
  | called (c : I.Call) (r : I.Reply c)
  /-- An event was told. -/
  | told (e : I.Event)

/-- What happened in a run, in order. -/
abbrev Trace (I : Interface) := List (Entry I)

/-- The calls of a trace, in order. -/
def Trace.calls {I : Interface} : Trace I → List I.Call
  | [] => []
  | .called c _ :: t => c :: Trace.calls t
  | .told _ :: t => Trace.calls t

/-- The events of a trace, in order. -/
def Trace.events {I : Interface} : Trace I → List I.Event
  | [] => []
  | .called _ _ :: t => Trace.events t
  | .told e :: t => e :: Trace.events t

namespace Program

variable {I J : Interface} {α β γ σ : Type}

/-! ## Sequencing -/

/-- Go on with the value of a program. -/
def bind : Program I α → (α → Program I β) → Program I β
  | done a, f => f a
  | call c next, f => call c fun r => (next r).bind f
  | tell e next, f => tell e (next.bind f)

instance : Monad (Program I) where
  pure := done
  bind := bind

theorem bind_done (p : Program I α) : p.bind done = p := by
  induction p with
  | done a => rfl
  | call c next ih => simp only [bind, ih]
  | tell e next ih => simp only [bind, ih]

theorem bind_assoc (p : Program I α) (f : α → Program I β) (g : β → Program I γ) :
    (p.bind f).bind g = p.bind fun a => (f a).bind g := by
  induction p with
  | done a => rfl
  | call c next ih => simp only [bind, ih]
  | tell e next ih => simp only [bind, ih]

instance : LawfulMonad (Program I) :=
  LawfulMonad.mk' (Program I) (fun p => bind_done p) (fun _ _ => rfl)
    (fun p f g => bind_assoc p f g)

/-! ## Runs -/

/-- The runs of a program: the trace and the value, for any replies. -/
inductive Runs : Program I α → Trace I → α → Prop where
  | done (a : α) : Runs (.done a) [] a
  | call {c : I.Call} {next : I.Reply c → Program I α} {t : Trace I} {a : α} (r : I.Reply c) :
      Runs (next r) t a → Runs (.call c next) (.called c r :: t) a
  | tell {e : I.Event} {next : Program I α} {t : Trace I} {a : α} :
      Runs next t a → Runs (.tell e next) (.told e :: t) a

/-- A run of two programs in sequence is a run of the first and one of the
second. -/
theorem runs_bind {p : Program I α} {f : α → Program I β} {t : Trace I} {b : β} :
    Runs (p.bind f) t b ↔ ∃ t₁ t₂ a, t = t₁ ++ t₂ ∧ Runs p t₁ a ∧ Runs (f a) t₂ b := by
  induction p generalizing t with
  | done a =>
      constructor
      · intro h
        exact ⟨[], t, a, rfl, .done a, h⟩
      · rintro ⟨_, _, _, rfl, h, h'⟩
        cases h
        exact h'
  | call c next ih =>
      constructor
      · intro h
        cases h with
        | call r h =>
            obtain ⟨t₁, t₂, a, rfl, h₁, h₂⟩ := (ih r).mp h
            exact ⟨_, t₂, a, rfl, .call r h₁, h₂⟩
      · rintro ⟨_, t₂, a, rfl, h, h'⟩
        cases h with
        | call r h => exact .call r ((ih r).mpr ⟨_, t₂, a, rfl, h, h'⟩)
  | tell e next ih =>
      constructor
      · intro h
        cases h with
        | tell h =>
            obtain ⟨t₁, t₂, a, rfl, h₁, h₂⟩ := ih.mp h
            exact ⟨_, t₂, a, rfl, .tell h₁, h₂⟩
      · rintro ⟨_, t₂, a, rfl, h, h'⟩
        cases h with
        | tell h => exact .tell (ih.mpr ⟨_, t₂, a, rfl, h, h'⟩)

/-! ## Surroundings -/

end Program

/-- Surroundings that answer every call from a state of their own. -/
def Handler (I : Interface) (σ : Type) := (c : I.Call) → σ → I.Reply c × σ

/-- A finished run against a handler. -/
structure Execution (I : Interface) (σ α : Type) where
  /-- What happened. -/
  trace : Trace I
  /-- The value of the program. -/
  value : α
  /-- The state the surroundings were left in. -/
  world : σ

namespace Program

variable {I J : Interface} {α β γ σ : Type}

/-- Run a program against a handler. -/
def run (h : Handler I σ) : Program I α → σ → Execution I σ α
  | done a, s => ⟨[], a, s⟩
  | call c next, s =>
      let answer := h c s
      let rest := (next answer.1).run h answer.2
      { rest with trace := .called c answer.1 :: rest.trace }
  | tell e next, s =>
      let rest := next.run h s
      { rest with trace := .told e :: rest.trace }

/-- A run against a handler is a run. -/
theorem run_runs (h : Handler I σ) (p : Program I α) (s : σ) :
    Runs p (p.run h s).trace (p.run h s).value := by
  induction p generalizing s with
  | done a => exact .done a
  | call c next ih => exact .call _ (ih _ _)
  | tell e next ih => exact .tell (ih _)

/-- Answer every call of a program by a program over another interface, and
retell its events there. -/
def through (answer : (c : I.Call) → Program J (I.Reply c)) (retell : I.Event → Program J Unit) :
    Program I α → Program J α
  | done a => .done a
  | call c next => (answer c).bind fun r => (next r).through answer retell
  | tell e next => (retell e).bind fun _ => next.through answer retell

end Program

end Shipment
