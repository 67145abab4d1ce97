import Shipment.Proofs.Program
import Shipment.Run.Perform

/-!
# What a piece of a run ensures

A piece of a run ends with a value or with a failure, so it is given two
conditions: `Q` for its value and `E` for its failure.  Each of them also sees the
session and the state of the surroundings it ended with.  `Ship.Ensures` is the
weakest condition under which every run of the piece meets them.

Each building block of a run has one law here, and so has `perform`.  An action
makes one call, `Action.call`, and its failure is the call's under the name that
`Action.failure` gives it.  Nothing after this module opens `carryOut`.

`Ship.Uses` says which calls a piece makes, and has a law for each building block too.
-/

namespace Shipment

namespace Session

/-- A session that has entered a step. -/
def entered (step : Step) (x : Session) : Session :=
  { x with record := x.record.enter x.time step }

/-- A session that has recorded a notice. -/
def noticed (n : Notice) (x : Session) : Session :=
  { x with record := x.record.addNotice n }

/-- A session behind an action that succeeded. -/
def noted (a : Action) (x : Session) : Session :=
  match a with
  | .commit _ =>
      { x with checkpoint := x.checkpoint.map fun c => { c with committed := true } }
  | _ => x

@[simp] theorem entered_notices (step : Step) (x : Session) :
    (x.entered step).record.notices = x.record.notices := rfl

@[simp] theorem noticed_notices (n : Notice) (x : Session) :
    (x.noticed n).record.notices = x.record.notices ++ [n] := rfl

@[simp] theorem entered_namer (step : Step) (x : Session) :
    (x.entered step).namer = x.namer := rfl

@[simp] theorem noted_namer (a : Action) (x : Session) : (x.noted a).namer = x.namer := by
  cases a <;> rfl

@[simp] theorem noted_record (a : Action) (x : Session) : (x.noted a).record = x.record := by
  cases a <;> rfl

end Session

namespace Action

/-- The call of an action. -/
def call : Action → Call
  | fetch branch => .fetch branch
  | fastForward branch => .mergeFastForward (trackingRef branch)
  | createBranch name => .createBranch name
  | stageAll => .stageAll
  | commit message => .commit message
  | rebase onto => .rebase (trackingRef onto)
  | push branch mode => .push branch mode
  | openRequest draft => .createRequest draft

/-- The failure of an action whose call failed. -/
def failure : Action → Failure → Failure
  | fastForward branch => Ship.asDivergence branch
  | rebase onto => Ship.asConflict onto
  | push branch _ => Ship.asRejection branch
  | _ => id

/-- The address an action gives. -/
def address : (a : Action) → a.call.Answer → Option String
  | openRequest _, url => some url
  | fetch _, _ | fastForward _, _ | createBranch _, _ | stageAll, _ => none
  | commit _, _ | rebase _, _ | push _ _, _ => none

end Action

namespace Ship

variable {α β σ : Type} {W : Surroundings shipping σ}
variable {Q : α → Session → σ → Prop} {E : Failure → Session → σ → Prop}
variable {x : Session} {s : σ}

/-- The end of a piece meets its two conditions. -/
def Ends (Q : α → Session → σ → Prop) (E : Failure → Session → σ → Prop) :
    Except Failure α × Session → σ → Prop
  | (.ok a, x), s => Q a x s
  | (.error e, x), s => E e x s

/-- Whatever the surroundings answer, the piece ends in `Q` or fails in `E`. -/
def Ensures (W : Surroundings shipping σ) (m : Ship α) (Q : α → Session → σ → Prop)
    (E : Failure → Session → σ → Prop) (x : Session) (s : σ) : Prop :=
  (m x).Ensures W (Ends Q E) s

/-! ## Rules -/

/-- A condition that does not care how the piece ended. -/
theorem ends_both {R : Session → σ → Prop} {out : Except Failure α × Session} :
    Ends (fun _ => R) (fun _ => R) out s ↔ R out.2 s := by
  obtain ⟨r, x'⟩ := out
  cases r with
  | ok a => exact Iff.rfl
  | error e => exact Iff.rfl

/-- What a piece that ended with a value meets. -/
theorem Ends.ok {out : Except Failure α × Session} {a : α} (h : Ends Q E out s)
    (ha : out.1 = .ok a) : Q a out.2 s := by
  obtain ⟨r, x'⟩ := out
  cases ha
  exact h

/-- What a piece that failed meets. -/
theorem Ends.error {out : Except Failure α × Session} {e : Failure} (h : Ends Q E out s)
    (he : out.1 = .error e) : E e out.2 s := by
  obtain ⟨r, x'⟩ := out
  cases he
  exact h

theorem Ensures.mono {m : Ship α} {Q' : α → Session → σ → Prop}
    {E' : Failure → Session → σ → Prop} (h : m.Ensures W Q E x s)
    (hQ : ∀ a x s, Q a x s → Q' a x s) (hE : ∀ e x s, E e x s → E' e x s) :
    m.Ensures W Q' E' x s := by
  refine Program.Ensures.mono h ?_
  intro out s' h'
  obtain ⟨r, x'⟩ := out
  cases r with
  | ok a => exact hQ a x' s' h'
  | error e => exact hE e x' s' h'

theorem ensures_true {m : Ship α} :
    m.Ensures W (fun _ _ _ => True) (fun _ _ _ => True) x s :=
  Program.Ensures.of_forall fun _ _ => ends_both.mpr trivial

/-- Weaken a condition that does not care how the piece ended. -/
theorem Ensures.weaken {m : Ship α} {R R' : Session → σ → Prop}
    (h : m.Ensures W (fun _ => R) (fun _ => R) x s) (hR : ∀ x s, R x s → R' x s) :
    m.Ensures W (fun _ => R') (fun _ => R') x s :=
  h.mono (fun _ => hR) fun _ => hR

theorem Ensures.and {m : Ship α} {Q' : α → Session → σ → Prop}
    {E' : Failure → Session → σ → Prop} (h : m.Ensures W Q E x s)
    (h' : m.Ensures W Q' E' x s) :
    m.Ensures W (fun a x s => Q a x s ∧ Q' a x s) (fun e x s => E e x s ∧ E' e x s) x s := by
  refine (Program.Ensures.and h h').mono ?_
  intro out s' h
  obtain ⟨r, x'⟩ := out
  cases r with
  | ok a => exact h
  | error e => exact h

/-- What is ensured without a log is ensured with one. -/
theorem Ensures.logged {m : Ship α} {l : List (Moment shipping σ)} (h : m.Ensures W Q E x s) :
    m.Ensures W.logged (fun a x z => Q a x z.2) (fun e x z => E e x z.2) x (l, s) := by
  refine (Program.Ensures.logged (l := l) h).mono ?_
  intro out z h
  obtain ⟨r, x'⟩ := out
  cases r with
  | ok a => exact h
  | error e => exact h

/-- What is ensured with a log, and does not read it, is ensured without one. -/
theorem Ensures.unlogged {m : Ship α} {l : List (Moment shipping σ)}
    (h : m.Ensures W.logged (fun a x z => Q a x z.2) (fun e x z => E e x z.2) x (l, s)) :
    m.Ensures W Q E x s := by
  refine Program.Ensures.unlogged (l := l) (Program.Ensures.mono h ?_)
  intro out z h
  obtain ⟨r, x'⟩ := out
  cases r with
  | ok a => exact h
  | error e => exact h

theorem ensures_bind {m : Ship α} {f : α → Ship β} {Q : β → Session → σ → Prop} :
    (m >>= f).Ensures W Q E x s ↔
      m.Ensures W (fun a x s => (f a).Ensures W Q E x s) E x s := by
  refine Program.ensures_bind.trans (iff_of_eq ?_)
  refine congrArg (fun R => (m x).Ensures W R s) (funext fun out => ?_)
  rcases out with ⟨r, x'⟩
  cases r <;> rfl

/-- A piece followed by another, each with conditions of its own. -/
theorem Ensures.bind {m : Ship α} {f : α → Ship β} {R : α → Session → σ → Prop}
    {F : Failure → Session → σ → Prop} {Q : β → Session → σ → Prop} (h : m.Ensures W R F x s)
    (hF : ∀ e x s, F e x s → E e x s) (hf : ∀ a x s, R a x s → (f a).Ensures W Q E x s) :
    (m >>= f).Ensures W Q E x s :=
  ensures_bind.mpr (h.mono hf hF)

/-- A piece that is done only on a condition, followed by another. -/
theorem Ensures.when {c : Prop} [Decidable c] {m : Ship Unit} {k : Unit → Ship α}
    {R : Session → σ → Prop} {F : Failure → Session → σ → Prop}
    (h : c → m.Ensures W (fun _ => R) F x s) (hF : ∀ e x s, F e x s → E e x s)
    (hn : ¬c → R x s) (hk : ∀ x s, R x s → (k ()).Ensures W Q E x s) :
    (if c then m >>= k else k ()).Ensures W Q E x s := by
  by_cases hc : c
  · rw [if_pos hc]
    exact (h hc).bind hF fun _ => hk
  · rw [if_neg hc]
    exact hk x s (hn hc)

/-- A piece that fails unless a condition holds, followed by another. -/
theorem Ensures.orElse {c : Prop} [Decidable c] {e : Failure} {k : Unit → Ship α}
    (h : ¬c → E e x s) (hk : c → (k ()).Ensures W Q E x s) :
    (if c then k () else (fail e : Ship Unit) >>= k).Ensures W Q E x s := by
  by_cases hc : c
  · rw [if_pos hc]
    exact hk hc
  · rw [if_neg hc]
    exact h hc

/-! ## Building blocks -/

@[simp] theorem ensures_pure {a : α} : (pure a : Ship α).Ensures W Q E x s ↔ Q a x s := Iff.rfl

@[simp] theorem ensures_fail {e : Failure} : (fail e : Ship α).Ensures W Q E x s ↔ E e x s :=
  Iff.rfl

theorem ensures_ask {c : Call} {Q : c.Answer → Session → σ → Prop} :
    (ask c).Ensures W Q E x s ↔ ∀ r s', W.answers c s r s' → Ends Q E (r, x) s' := Iff.rfl

theorem ensures_attempt {m : Ship α} {Q : Except Failure α → Session → σ → Prop} :
    (attempt m).Ensures W Q E x s ↔
      m.Ensures W (fun a => Q (.ok a)) (fun e => Q (.error e)) x s := by
  refine Program.ensures_bind.trans (iff_of_eq ?_)
  refine congrArg (fun R => (m x).Ensures W R s) (funext fun out => ?_)
  rcases out with ⟨r, x'⟩
  cases r <;> rfl

theorem ensures_ofExcept {r : Except Failure α} :
    (ofExcept r).Ensures W Q E x s ↔ Ends Q E (r, x) s := by
  cases r <;> rfl

@[simp] theorem ensures_session {Q : Session → Session → σ → Prop} :
    session.Ensures W Q E x s ↔ Q x x s := Iff.rfl

@[simp] theorem ensures_update {f : Session → Session} {Q : Unit → Session → σ → Prop} :
    (update f).Ensures W Q E x s ↔ Q () (f x) s := Iff.rfl

@[simp] theorem ensures_updateRecord {f : RunRecord → RunRecord}
    {Q : Unit → Session → σ → Prop} :
    (updateRecord f).Ensures W Q E x s ↔ Q () { x with record := f x.record } s := Iff.rfl

@[simp] theorem ensures_notices {Q : List Notice → Session → σ → Prop} :
    notices.Ensures W Q E x s ↔ Q x.record.notices x s := Iff.rfl

@[simp] theorem ensures_arm {c : Checkpoint} {Q : Unit → Session → σ → Prop} :
    (arm c).Ensures W Q E x s ↔ Q () { x with checkpoint := some c } s := Iff.rfl

@[simp] theorem ensures_disarm {Q : Unit → Session → σ → Prop} :
    disarm.Ensures W Q E x s ↔ Q () { x with checkpoint := none } s := Iff.rfl

theorem ensures_orFail {m : Ship α} {rename : Failure → Failure} :
    (orFail m rename).Ensures W Q E x s ↔ m.Ensures W Q (fun e => E (rename e)) x s := by
  rw [orFail, ensures_bind, ensures_attempt]
  rfl

/-! ## Actions -/

/-- What the answer to the call of an action must meet. -/
def ActionEnds (a : Action) (Q : Option String → Session → σ → Prop)
    (E : Failure → Session → σ → Prop) (x : Session) : Except Failure a.call.Answer → σ → Prop
  | .ok v, s => Q (a.address v) (x.noted a) s
  | .error e, s => E (a.failure e) x s

theorem ensures_carryOut {a : Action} {Q : Option String → Session → σ → Prop} :
    (carryOut a).Ensures W Q E x s ↔ ∀ r s', W.answers a.call s r s' →
      Ends (fun v => Q (a.address v)) (fun e => E (a.failure e)) (r, x) s' := by
  cases a <;> simp only [carryOut, ensures_bind, ensures_orFail] <;> rfl

theorem ensures_noteCommit {a : Action} {Q : Unit → Session → σ → Prop} :
    (noteCommit a).Ensures W Q E x s ↔ Q () (x.noted a) s := by
  cases a <;> rfl

/-! ## Pieces that tell -/

@[simp] theorem ensures_tell {e : Event} {Q : Unit → Session → σ → Prop} :
    (tell e).Ensures W Q E x s ↔ Q () x s := Iff.rfl

@[simp] theorem ensures_enter {step : Step} {Q : Unit → Session → σ → Prop} :
    (enter step).Ensures W Q E x s ↔ Q () (x.entered step) s := by
  simp only [enter, ensures_bind, ensures_session, ensures_updateRecord, ensures_tell]
  rfl

@[simp] theorem ensures_notify {n : Notice} {Q : Unit → Session → σ → Prop} :
    (notify n).Ensures W Q E x s ↔ Q () (x.noticed n) s := by
  simp only [notify, ensures_bind, ensures_updateRecord, ensures_tell]
  rfl

theorem ensures_perform {a : Action} {Q : Option String → Session → σ → Prop} :
    (perform a).Ensures W Q E x s ↔
      ∀ r s', W.answers a.call s r s' → ActionEnds a Q E x r s' := by
  simp only [perform, ensures_bind, ensures_tell, ensures_attempt, ensures_carryOut]
  refine forall₃_congr fun r s' _ => ?_
  cases r with
  | ok v => simp only [Ends, ActionEnds, ensures_noteCommit, ensures_pure]
  | error e => simp only [Ends, ActionEnds, ensures_fail]

theorem ensures_execute {a : Action} {Q : Unit → Session → σ → Prop} :
    (execute a).Ensures W Q E x s ↔
      ∀ r s', W.answers a.call s r s' → ActionEnds a (fun _ => Q ()) E x r s' := by
  simp only [execute, ensures_bind, ensures_perform]
  rfl

theorem ensures_openRequest {d : RequestDraft} {Q : String → Session → σ → Prop} :
    (openRequest d).Ensures W Q E x s ↔
      ∀ r s', W.answers (.createRequest d) s r s' → Ends Q E (r, x) s' := by
  simp only [openRequest, ensures_bind, ensures_perform]
  refine forall₃_congr fun r s' _ => ?_
  cases r <;> rfl

end Ship

end Shipment
