import Shipment.Program

/-!
# What a program ensures

Surroundings need not be a function.  `Surroundings` says which answers a call may
get and what each leaves behind, so one value of it stands for a handler, for a
handler whose calls may fail, or for one that others disturb.  Events leave nothing
behind.  `Program.Ensures`
is the weakest condition on the first state under which every run of a program
ends well.  It is a recursion over the program, so its laws are equations.

A *moment* is one call of a run with the states around it.  `Program.moments`
lists the moments of a run against a handler, and `Surroundings.logged` keeps
them while the surroundings answer.  `ensures_run` carries what is ensured over
to the run itself: the value, the last state and every moment.

`Program.Uses` says which calls a program makes.  `Uses.relates` reads a frame off
it: a relation that every such call respects holds between the ends of a run.
-/

namespace Shipment

/-- Surroundings that may answer a call in several ways. -/
structure Surroundings (I : Interface) (σ : Type) where
  /-- Whether a call may get an answer, and with which state behind it. -/
  answers : (c : I.Call) → σ → I.Reply c → σ → Prop

/-- One call of a run, with the states around it. -/
structure Moment (I : Interface) (σ : Type) where
  call : I.Call
  before : σ
  reply : I.Reply call
  after : σ

namespace Moment

variable {I : Interface} {σ τ : Type}

/-- A moment with its states seen through a view. -/
def map (view : τ → σ) (m : Moment I τ) : Moment I σ :=
  ⟨m.call, view m.before, m.reply, view m.after⟩

end Moment

namespace Surroundings

variable {I : Interface} {σ : Type}

/-- Surroundings that also keep a log of their moments. -/
def logged (W : Surroundings I σ) : Surroundings I (List (Moment I σ) × σ) where
  answers c z r z' := ∃ s', W.answers c z.2 r s' ∧ z' = (z.1 ++ [⟨c, z.2, r, s'⟩], s')

end Surroundings

theorem Trace.events_append {I : Interface} (t t' : Trace I) :
    Trace.events (t ++ t') = t.events ++ t'.events := by
  induction t with
  | nil => rfl
  | cons e t ih => cases e with
    | called c r => exact ih
    | told e => exact congrArg (e :: ·) ih

/-- A run and one behind it. -/
def Execution.followedBy {I : Interface} {σ α β : Type} (first : Execution I σ α)
    (second : Execution I σ β) : Execution I σ β :=
  { second with trace := first.trace ++ second.trace }

namespace Program

variable {I : Interface} {α β σ τ : Type} {W : Surroundings I σ}

/-! ## Ensuring -/

/-- Whatever the surroundings answer, the program ends in `Q`. -/
def Ensures (W : Surroundings I σ) : Program I α → (α → σ → Prop) → σ → Prop
  | done a, Q, s => Q a s
  | call c next, Q, s => ∀ r s', W.answers c s r s' → (next r).Ensures W Q s'
  | tell _ next, Q, s => next.Ensures W Q s

theorem ensures_bind {p : Program I α} {f : α → Program I β} {Q : β → σ → Prop} {s : σ} :
    (p.bind f).Ensures W Q s ↔ p.Ensures W (fun a s' => (f a).Ensures W Q s') s := by
  induction p generalizing s with
  | done a => rfl
  | call c next ih => exact forall_congr' fun r => forall₂_congr fun s' _ => ih r
  | tell e next ih => exact ih

theorem Ensures.mono {p : Program I α} {Q Q' : α → σ → Prop} {s : σ}
    (h : p.Ensures W Q s) (hQ : ∀ a s', Q a s' → Q' a s') : p.Ensures W Q' s := by
  induction p generalizing s with
  | done a => exact hQ a s h
  | call c next ih => exact fun r s' ha => ih r (h r s' ha)
  | tell e next ih => exact ih h

theorem Ensures.and {p : Program I α} {Q Q' : α → σ → Prop} {s : σ}
    (h : p.Ensures W Q s) (h' : p.Ensures W Q' s) :
    p.Ensures W (fun a s' => Q a s' ∧ Q' a s') s := by
  induction p generalizing s with
  | done a => exact ⟨h, h'⟩
  | call c next ih => exact fun r s' ha => ih r (h r s' ha) (h' r s' ha)
  | tell e next ih => exact ih h h'

theorem Ensures.of_forall {p : Program I α} {Q : α → σ → Prop} {s : σ} (h : ∀ a s, Q a s) :
    p.Ensures W Q s := by
  induction p generalizing s with
  | done a => exact h a s
  | call c next ih => exact fun r _ _ => ih r
  | tell e next ih => exact ih

/-! ## Logs -/

/-- What is ensured without a log is ensured with one. -/
theorem Ensures.logged {p : Program I α} {Q : α → σ → Prop} {l : List (Moment I σ)} {s : σ}
    (h : p.Ensures W Q s) : p.Ensures W.logged (fun a z => Q a z.2) (l, s) := by
  induction p generalizing l s with
  | done a => exact h
  | call c next ih =>
      intro r _ hend
      obtain ⟨s', ha, rfl⟩ := hend
      exact ih r (h r s' ha)
  | tell e next ih => exact ih h

/-- What is ensured with a log, and does not read it, is ensured without one. -/
theorem Ensures.unlogged {p : Program I α} {Q : α → σ → Prop} {l : List (Moment I σ)} {s : σ}
    (h : p.Ensures W.logged (fun a z => Q a z.2) (l, s)) : p.Ensures W Q s := by
  induction p generalizing l s with
  | done a => exact h
  | call c next ih => exact fun r s' ha => ih r (h r _ ⟨s', ha, rfl⟩)
  | tell e next ih => exact ih h

/-! ## Uses -/

/-- Every call of a program is of a kind, whatever it is answered. -/
def Uses (P : I.Call → Prop) : Program I α → Prop
  | done _ => True
  | call c next => P c ∧ ∀ r, (next r).Uses P
  | tell _ next => next.Uses P

theorem Uses.bind {P : I.Call → Prop} {p : Program I α} {f : α → Program I β} (h : p.Uses P)
    (hf : ∀ a, (f a).Uses P) : (p.bind f).Uses P := by
  induction p with
  | done a => exact hf a
  | call c next ih => exact ⟨h.1, fun r => ih r (h.2 r)⟩
  | tell e next ih => exact ih h

theorem Uses.mono {P P' : I.Call → Prop} {p : Program I α} (h : p.Uses P)
    (hP : ∀ c, P c → P' c) : p.Uses P' := by
  induction p with
  | done a => trivial
  | call c next ih => exact ⟨hP c h.1, fun r => ih r (h.2 r)⟩
  | tell e next ih => exact ih h

/-- Every program uses calls. -/
theorem uses_true (p : Program I α) : p.Uses fun _ => True := by
  induction p with
  | done a => trivial
  | call c next ih => exact ⟨trivial, ih⟩
  | tell e next ih => exact ih

/-- A log grows by moments of which all holds that holds of a call of the kind and its answer. -/
theorem Uses.logs_of {P : I.Call → Prop} {M : Moment I σ → Prop}
    (step : ∀ {c s r s'}, P c → W.answers c s r s' → M ⟨c, s, r, s'⟩) {p : Program I α}
    (h : p.Uses P) {l : List (Moment I σ)} {s : σ} :
    p.Ensures W.logged (fun _ z => ∃ new, z.1 = l ++ new ∧ ∀ m ∈ new, M m) (l, s) := by
  induction p generalizing l s with
  | done a => exact ⟨[], (List.append_nil l).symm, by simp⟩
  | call c next ih =>
      intro r _ hend
      obtain ⟨s', ha, rfl⟩ := hend
      refine (ih r (h.2 r)).mono ?_
      intro a z hend
      obtain ⟨new, hz, hn⟩ := hend
      refine ⟨⟨c, s, r, s'⟩ :: new, by rw [hz, List.append_assoc]; rfl, ?_⟩
      exact List.forall_mem_cons.mpr ⟨step h.1 ha, hn⟩
  | tell e next ih => exact ih h

/-- A log grows by calls of that kind. -/
theorem Uses.logs {P : I.Call → Prop} {p : Program I α} (h : p.Uses P)
    {l : List (Moment I σ)} {s : σ} :
    p.Ensures W.logged (fun _ z => ∃ new, z.1 = l ++ new ∧ ∀ m ∈ new, P m.call) (l, s) :=
  h.logs_of fun hc _ => hc

/-- A log grows by what the surroundings answer. -/
theorem ensures_answered {p : Program I α} {l : List (Moment I σ)} {s : σ} :
    p.Ensures W.logged (fun _ z => ∃ new, z.1 = l ++ new ∧
      ∀ m ∈ new, W.answers m.call m.before m.reply m.after) (l, s) :=
  p.uses_true.logs_of fun _ ha => ha

/-- A relation that every call of the kind respects holds between the ends. -/
theorem Uses.relates {P : I.Call → Prop} {T : σ → σ → Prop} (refl : ∀ s, T s s)
    (trans : ∀ {s s' s''}, T s s' → T s' s'' → T s s'')
    (step : ∀ {c s r s'}, P c → W.answers c s r s' → T s s') {p : Program I α} (h : p.Uses P)
    {s : σ} : p.Ensures W (fun _ s' => T s s') s := by
  induction p generalizing s with
  | done a => exact refl s
  | call c next ih => exact fun r s' ha => (ih r (h.2 r)).mono fun _ _ => trans (step h.1 ha)
  | tell e next ih => exact ih h

/-! ## Runs against a handler -/

/-- A relation that a handler respects at every call of the kind holds between the ends of a
run against it. -/
theorem Uses.relates_run {P : I.Call → Prop} {h : Handler I σ} {T : σ → σ → Prop}
    (refl : ∀ s, T s s) (trans : ∀ {s s' s''}, T s s' → T s' s'' → T s s'')
    (step : ∀ {c s}, P c → T s (h c s).2) {p : Program I α} (hp : p.Uses P) (s : σ) :
    T s (p.run h s).world := by
  induction p generalizing s with
  | done a => exact refl s
  | call c next ih => exact trans (step hp.1) (ih _ (hp.2 _) _)
  | tell e next ih => exact ih hp s

/-- Runs from related states have the same value, if every call of the kind is answered alike
there. -/
theorem Uses.run_congr {P : I.Call → Prop} {h : Handler I σ} {T : σ → σ → Prop}
    (step : ∀ {c s s'}, P c → T s s' → (h c s').1 = (h c s).1 ∧ T (h c s).2 (h c s').2)
    {p : Program I α} (hp : p.Uses P) {s s' : σ} (hs : T s s') :
    (p.run h s').value = (p.run h s).value ∧ T (p.run h s).world (p.run h s').world := by
  induction p generalizing s s' with
  | done a => exact ⟨rfl, hs⟩
  | call c next ih =>
      obtain ⟨hreply, hnext⟩ := step hp.1 hs
      have hrun := ih _ (hp.2 (h c s).1) hnext
      rw [run, run, hreply]
      exact hrun
  | tell e next ih => exact ih hp hs

/-- The calls of a run against a handler, with the states around them. -/
def moments (h : Handler I σ) : Program I α → σ → List (Moment I σ)
  | done _, _ => []
  | call c next, s =>
      let answer := h c s
      ⟨c, s, answer.1, answer.2⟩ :: (next answer.1).moments h answer.2
  | tell _ next, s => next.moments h s

/-- What is ensured holds of the run against a handler that the surroundings
allow.  The handler may keep more than the surroundings see of it. -/
theorem ensures_run {h : Handler I τ} (view : τ → σ) (Inv : τ → Prop)
    (step : ∀ c t, Inv t → W.answers c (view t) (h c t).1 (view (h c t).2) ∧ Inv (h c t).2)
    {p : Program I α} {Q : α → List (Moment I σ) × σ → Prop} {l : List (Moment I σ)} {t : τ}
    (ht : Inv t) (hp : p.Ensures W.logged Q (l, view t)) :
    Q (p.run h t).value (l ++ (p.moments h t).map (Moment.map view), view (p.run h t).world) := by
  induction p generalizing l t with
  | done a =>
      rw [moments, List.map_nil, List.append_nil]
      exact hp
  | call c next ih =>
      obtain ⟨ha, hi⟩ := step c t ht
      have hQ := ih (h c t).1 hi (hp (h c t).1 _ ⟨view (h c t).2, ha, rfl⟩)
      rwa [List.append_assoc] at hQ
  | tell e next ih => exact ih ht hp

/-- A run of two programs in sequence is a run of the first and then one of the second. -/
theorem run_bind (h : Handler I σ) (p : Program I α) (f : α → Program I β) (s : σ) :
    (p.bind f).run h s =
      (p.run h s).followedBy ((f (p.run h s).value).run h (p.run h s).world) := by
  induction p generalizing s with
  | done a => rfl
  | call c next ih =>
      rw [bind, run, ih]
      rfl
  | tell e next ih =>
      rw [bind, run, ih]
      rfl

/-- A run whose value is changed in the end. -/
theorem run_bind_done (h : Handler I σ) (p : Program I α) (f : α → β) (s : σ) :
    (p.bind fun a => .done (f a)).run h s =
      ⟨(p.run h s).trace, f (p.run h s).value, (p.run h s).world⟩ := by
  rw [run_bind]
  exact congrArg (Execution.mk · _ _) (List.append_nil _)

end Program

end Shipment
