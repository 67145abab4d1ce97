import Shipment.Proofs.Call
import Shipment.Proofs.Run.Ensures
import Shipment.Run.Whole

/-!
# Footprints

`Ship.Uses` says which calls a piece of a run makes, whatever it is answered.  A
*footprint* says more.  If the piece ends with a value, every call was answered.
If it fails, its log `Halts`: all but its last call were answered, and either the
last one failed and gave the failure its name, or every call was answered and the
piece refused to go on.  A piece with a footprint gives no notice of a rollback and
leaves the place a checkpoint goes back to.

`Footprint.bind` joins footprints, so a piece has the footprint of its parts, and
each lemma below follows the text of the piece it is about.  Only the pieces that go
back after a failure have no footprint.  They make more calls after a failed one.
-/

namespace Shipment

namespace Call

/-- The branch a tracking ref is about. -/
def branchOf (rev : String) : String :=
  match Text.after? (trackingRef "").toList rev.toList with
  | some branch => String.ofList branch
  | none => rev

/-- The failure of a run whose call failed. -/
def failure : Call → Failure → Failure
  | mergeFastForward rev => Ship.asDivergence (branchOf rev)
  | rebase rev => Ship.asConflict (branchOf rev)
  | push branch _ => Ship.asRejection branch
  | _ => id

theorem failure_of_asks {c : Call} (h : c.Asks) (e : Failure) :
    c.failure e = e := by
  cases c <;> first | rfl | cases h

end Call

/-- A tracking ref is about the branch it is made from. -/
theorem Call.branchOf_trackingRef (branch : String) : branchOf (trackingRef branch) = branch := by
  rw [branchOf, toList_trackingRef branch, Text.after?_append]
  exact String.ofList_toList

/-- An action names its failure after its call. -/
theorem Action.failure_call (a : Action) : a.call.failure = a.failure := by
  cases a <;> simp only [Action.call, Call.failure, Action.failure, Call.branchOf_trackingRef]

/-! ## Logs -/

namespace Moment

variable {σ : Type}

/-- Whether the call was answered. -/
def Answered (m : Moment shipping σ) : Prop := ∃ a, m.reply = .ok a

instance (m : Moment shipping σ) : Decidable m.Answered :=
  match h : m.reply with
  | .ok a => isTrue ⟨a, h⟩
  | .error _ => isFalse fun ⟨_, ha⟩ => by rw [h] at ha; cases ha

theorem not_answered {m : Moment shipping σ} : ¬m.Answered ↔ ∃ e, m.reply = .error e := by
  unfold Answered
  cases m.reply with
  | ok a => simp
  | error e => simp

end Moment

/-- The log of a piece that ended with a failure. -/
inductive Halts {σ : Type} : List (Moment shipping σ) → Failure → Prop where
  /-- Every call was answered, and a guard refused. -/
  | refused {l : List (Moment shipping σ)} {e : Failure} : (∀ m ∈ l, m.Answered) → Halts l e
  /-- The last call failed. -/
  | failed {l : List (Moment shipping σ)} {m : Moment shipping σ} {e : Failure} :
      (∀ m ∈ l, m.Answered) → m.reply = .error e → Halts (l ++ [m]) (m.call.failure e)

theorem Halts.append {σ : Type} {l k : List (Moment shipping σ)} {e : Failure}
    (hl : ∀ m ∈ l, m.Answered) (h : Halts k e) : Halts (l ++ k) e := by
  cases h with
  | refused hk => exact .refused (List.forall_mem_append.mpr ⟨hl, hk⟩)
  | failed hk hr =>
      rw [← List.append_assoc]
      exact .failed (List.forall_mem_append.mpr ⟨hl, hk⟩) hr

/-! ## Sessions -/

/-- Whether a notice tells of a rollback. -/
def Notice.isRollback : Notice → Bool
  | rolledBack _ _ => true
  | _ => false

/-- Where a checkpoint goes back to, and from where. -/
def Checkpoint.place (c : Checkpoint) : String × String × String := (c.prior, c.created, c.start)

/-- Neither rollbacks nor the place to go back to have changed. -/
structure Session.Keeps (x x' : Session) : Prop where
  rollbacks : x'.record.notices.filter Notice.isRollback =
    x.record.notices.filter Notice.isRollback
  place : x'.checkpoint.map Checkpoint.place = x.checkpoint.map Checkpoint.place

namespace Session.Keeps

variable {x x' x'' : Session}

theorem refl (x : Session) : x.Keeps x := ⟨rfl, rfl⟩

theorem trans (h : x.Keeps x') (h' : x'.Keeps x'') : x.Keeps x'' :=
  ⟨h'.rollbacks.trans h.rollbacks, h'.place.trans h.place⟩

theorem entered (step : Step) (x : Session) : x.Keeps (x.entered step) := ⟨rfl, rfl⟩

theorem noticed {n : Notice} (h : n.isRollback = false) (x : Session) :
    x.Keeps (x.noticed n) := by
  refine ⟨?_, rfl⟩
  rw [noticed_notices, List.filter_append, List.filter_cons, h]
  simp

theorem noted (a : Action) (x : Session) : x.Keeps (x.noted a) := by
  refine ⟨by rw [noted_record], ?_⟩
  cases a with
  | commit m =>
      cases hx : x.checkpoint with
      | none => simp [Session.noted, hx]
      | some c => simp [Session.noted, hx, Checkpoint.place]
  | _ => rfl

end Session.Keeps

namespace Ship

variable {α β : Type} {P P' : Call → Prop}

/-! ## Uses -/

/-- Every call of a piece is of a kind, whatever it is answered. -/
def Uses (P : Call → Prop) (m : Ship α) : Prop := ∀ x, (m x).Uses P

namespace Uses

theorem mono {m : Ship α} (h : Uses P m) (hP : ∀ c, P c → P' c) : Uses P' m :=
  fun x => (h x).mono hP

theorem bind {m : Ship α} {f : α → Ship β} (h : Uses P m) (hf : ∀ a, Uses P (f a)) :
    Uses P (m >>= f) := by
  intro x
  refine (h x).bind ?_
  rintro ⟨r, x'⟩
  cases r with
  | ok a => exact hf a x'
  | error e => trivial

theorem ite {c : Prop} [Decidable c] {m n : Ship α} (hm : c → Uses P m) (hn : ¬c → Uses P n) :
    Uses P (if c then m else n) := by
  by_cases hc : c
  · rw [if_pos hc]
    exact hm hc
  · rw [if_neg hc]
    exact hn hc

theorem ask {c : Call} (hP : P c) : Uses P (ask c) := fun _ => ⟨hP, fun _ => trivial⟩

theorem attempt {m : Ship α} (h : Uses P m) : Uses P (attempt m) :=
  fun x => (h x).bind fun _ => trivial

theorem orFail {m : Ship α} {rename : Failure → Failure} (h : Uses P m) :
    Uses P (orFail m rename) := by
  refine h.attempt.bind fun r => ?_
  cases r with
  | ok a => exact fun _ => trivial
  | error e => exact fun _ => trivial

theorem carryOut {a : Action} (hP : P a.call) : Uses P (carryOut a) := by
  cases a with
  | fastForward branch => exact (orFail (ask hP)).bind fun _ _ => trivial
  | rebase onto => exact (orFail (ask hP)).bind fun _ _ => trivial
  | push branch mode => exact (orFail (ask hP)).bind fun _ _ => trivial
  | _ => exact (ask hP).bind fun _ _ => trivial

theorem perform {a : Action} (hP : P a.call) : Uses P (perform a) := by
  refine bind (fun _ => trivial) fun _ => (carryOut hP).attempt.bind fun r => ?_
  cases r with
  | ok url =>
      refine bind (fun _ => ?_) fun _ => bind (fun _ => trivial) fun _ _ => trivial
      cases a <;> trivial
  | error e => exact bind (fun _ => trivial) fun _ _ => trivial

/-- The log of a piece grows by calls of that kind. -/
theorem logs {m : Ship α} (h : Uses P m) {σ : Type} {W : Surroundings shipping σ} {x : Session}
    {l : List (Moment shipping σ)} {s : σ} :
    m.Ensures W.logged (fun _ _ z => ∃ new, z.1 = l ++ new ∧ ∀ m ∈ new, P m.call)
      (fun _ _ z => ∃ new, z.1 = l ++ new ∧ ∀ m ∈ new, P m.call) x (l, s) := by
  exact Program.Ensures.mono (h x).logs fun _ _ hz => ends_both.mpr hz

/-- A relation that every call of that kind respects holds between the ends of a piece. -/
theorem relates {m : Ship α} (h : Uses P m) {σ : Type} {W : Surroundings shipping σ}
    {T : σ → σ → Prop} (refl : ∀ s, T s s) (trans : ∀ {s s' s''}, T s s' → T s' s'' → T s s'')
    (step : ∀ {c s r s'}, P c → W.answers c s r s' → T s s') {x : Session} {s : σ} :
    m.Ensures W (fun _ _ s' => T s s') (fun _ _ s' => T s s') x s := by
  exact Program.Ensures.mono ((h x).relates refl trans step) fun _ _ hs => ends_both.mpr hs

end Uses

/-- The log of an action grows by its call, which fails if the action does. -/
theorem ensures_execute_log {a : Action} {σ : Type} {W : Surroundings shipping σ} {x : Session}
    {l : List (Moment shipping σ)} {s : σ} :
    (execute a).Ensures W.logged (fun _ _ z => ∃ m, z.1 = l ++ [m] ∧ m.call = a.call ∧ m.Answered)
      (fun _ _ z => ∃ m, z.1 = l ++ [m] ∧ ¬m.Answered) x (l, s) := by
  refine ensures_execute.mpr ?_
  rintro r _ ⟨s', -, rfl⟩
  cases r with
  | ok v => exact ⟨_, rfl, rfl, v, rfl⟩
  | error e => exact ⟨_, rfl, Moment.not_answered.mpr ⟨e, rfl⟩⟩

/-! ## Footprints -/

/-- The calls of a piece are of a kind, and it ends as they do. -/
structure Footprint (P : Call → Prop) (m : Ship α) : Prop where
  uses : Uses P m
  halts : ∀ {σ : Type} {W : Surroundings shipping σ} {x : Session}
    {l : List (Moment shipping σ)} {s : σ},
    m.Ensures W.logged
      (fun _ x' z => x.Keeps x' ∧ ∃ new, z.1 = l ++ new ∧ ∀ m ∈ new, m.Answered)
      (fun e x' z => x.Keeps x' ∧ ∃ new, z.1 = l ++ new ∧ Halts new e) x (l, s)

namespace Footprint

/-! ### Rules -/

/-- What a piece with a footprint ensures without a log, and what its log shows. -/
theorem along {m : Ship α} (hm : Footprint P m) {σ : Type} {W : Surroundings shipping σ}
    {Q : α → Session → σ → Prop} {E : Failure → Session → σ → Prop} {x : Session}
    {l : List (Moment shipping σ)} {s : σ} (h : m.Ensures W Q E x s) :
    m.Ensures W.logged
      (fun a x' z => Q a x' z.2 ∧ x.Keeps x' ∧
        ∃ new, z.1 = l ++ new ∧ ∀ k ∈ new, P k.call ∧ k.Answered)
      (fun e x' z => E e x' z.2 ∧ x.Keeps x' ∧
        ∃ new, z.1 = l ++ new ∧ (∀ k ∈ new, P k.call) ∧ Halts new e) x (l, s) := by
  refine ((hm.halts.and hm.uses.logs).and h.logged).mono ?_ ?_
  · intro a x' z hend
    obtain ⟨⟨⟨hx, new, hz, hn⟩, new', hz', hp⟩, hq⟩ := hend
    cases List.append_cancel_left (hz.symm.trans hz')
    exact ⟨hq, hx, new, hz, fun k hk => ⟨hp k hk, hn k hk⟩⟩
  · intro e x' z hend
    obtain ⟨⟨⟨hx, new, hz, hn⟩, new', hz', hp⟩, he⟩ := hend
    cases List.append_cancel_left (hz.symm.trans hz')
    exact ⟨he, hx, new, hz, hp, hn⟩

theorem mono {m : Ship α} (h : Footprint P m) (hP : ∀ c, P c → P' c) : Footprint P' m :=
  ⟨h.uses.mono hP, h.halts⟩

/-- A piece behind another leaves a footprint of both.  Only the last call of the two can be the
failed one. -/
theorem bind {m : Ship α} {f : α → Ship β} (h : Footprint P m)
    (hf : ∀ a, Footprint P (f a)) : Footprint P (m >>= f) := by
  refine ⟨h.uses.bind fun a => (hf a).uses, ?_⟩
  intro σ W x l s
  refine h.halts.bind (fun _ _ _ h => h) ?_
  intro a x' z hend
  obtain ⟨_, s'⟩ := z
  obtain ⟨hx, new, rfl, hn⟩ := hend
  refine (hf a).halts.mono ?_ ?_
  · intro b x'' z hend
    obtain ⟨hx', new', hz, hn'⟩ := hend
    exact ⟨hx.trans hx', new ++ new', by rw [hz, List.append_assoc],
      List.forall_mem_append.mpr ⟨hn, hn'⟩⟩
  · intro e x'' z hend
    obtain ⟨hx', new', hz, hh⟩ := hend
    exact ⟨hx.trans hx', new ++ new', by rw [hz, List.append_assoc], hh.append hn⟩

theorem ite {c : Prop} [Decidable c] {m n : Ship α} (hm : c → Footprint P m)
    (hn : ¬c → Footprint P n) : Footprint P (if c then m else n) := by
  by_cases hc : c
  · rw [if_pos hc]
    exact hm hc
  · rw [if_neg hc]
    exact hn hc

/-- One of two pieces and then a third. -/
theorem fork {c : Prop} [Decidable c] {m n : Ship α} {k : α → Ship β} (hm : Footprint P m)
    (hn : Footprint P n) (hk : ∀ a, Footprint P (k a)) :
    Footprint P (if c then m >>= k else n >>= k) :=
  .ite (fun _ => hm.bind hk) fun _ => hn.bind hk

/-- A piece that is done only on a condition. -/
theorem when {c : Prop} [Decidable c] {m : Ship Unit} {k : Unit → Ship α}
    (hm : Footprint P m) (hk : Footprint P (k ())) :
    Footprint P (if c then m >>= k else k ()) :=
  .ite (fun _ => hm.bind fun _ => hk) fun _ => hk

/-- A piece that is done only if a condition fails. -/
theorem orElse {c : Prop} [Decidable c] {m : Ship Unit} {k : Unit → Ship α}
    (hm : Footprint P m) (hk : Footprint P (k ())) :
    Footprint P (if c then k () else m >>= k) :=
  .ite (fun _ => hk) fun _ => hm.bind fun _ => hk

/-- A piece that makes no call and ends at once. -/
theorem quiet {m : Ship α} {f : Session → Except Failure α × Session}
    (hm : ∀ x, m x = .done (f x)) (hf : ∀ x : Session, x.Keeps (f x).2) : Footprint P m := by
  refine ⟨fun x => by rw [hm]; trivial, ?_⟩
  intro σ W x l s
  have hx := hf x
  unfold Ensures
  rw [hm]
  rcases hfx : f x with ⟨r, x'⟩
  rw [hfx] at hx
  cases r with
  | ok a => exact ⟨hx, [], (List.append_nil l).symm, by simp⟩
  | error e => exact ⟨hx, [], (List.append_nil l).symm, .refused (by simp)⟩

/-! ### Building blocks -/

theorem pure (a : α) : Footprint P (Pure.pure a : Ship α) := quiet (fun _ => rfl) .refl

theorem fail (e : Failure) : Footprint P (Ship.fail e : Ship α) := quiet (fun _ => rfl) .refl

theorem ofExcept (r : Except Failure α) : Footprint P (Ship.ofExcept r) := by
  cases r with
  | ok a => exact pure a
  | error e => exact fail e

theorem session : Footprint P Ship.session := quiet (fun _ => rfl) .refl

theorem notices : Footprint P Ship.notices := session.bind fun x => pure x.record.notices

theorem tell (e : Event) : Footprint P (Ship.tell e) := by
  refine ⟨fun _ => trivial, ?_⟩
  intro σ W x l s
  exact ensures_tell.mpr ⟨.refl x, [], (List.append_nil l).symm, by simp⟩

/-- One call, with the failure its name gives. -/
theorem halts_moment {σ : Type} (l : List (Moment shipping σ)) (s s' : σ) {c : Call}
    (r : Except Failure c.Answer) :
    match r with
    | .ok _ => ∃ new, l ++ [(⟨c, s, r, s'⟩ : Moment shipping σ)] = l ++ new ∧
        ∀ m ∈ new, m.Answered
    | .error e => ∃ new, l ++ [(⟨c, s, r, s'⟩ : Moment shipping σ)] = l ++ new ∧
        Halts new (c.failure e) := by
  cases r with
  | ok a => exact ⟨_, rfl, fun m hm => by cases List.mem_singleton.mp hm; exact ⟨a, rfl⟩⟩
  | error e => exact ⟨_, rfl, .failed (l := []) (by simp) rfl⟩

theorem ask {c : Call} (hc : c.failure = id) (hP : P c) : Footprint P (ask c) := by
  refine ⟨.ask hP, ?_⟩
  intro σ W x l s r _ hend
  obtain ⟨s', _, rfl⟩ := hend
  have h := halts_moment l s s' r
  cases r with
  | ok a => exact ⟨.refl x, h⟩
  | error e =>
      rw [hc] at h
      exact ⟨.refl x, h⟩

theorem execute {a : Action} (hP : P a.call) : Footprint P (execute a) := by
  refine ⟨(Uses.perform hP).bind fun _ _ => trivial, ?_⟩
  intro σ W x l s
  refine ensures_execute.mpr ?_
  intro r _ hend
  obtain ⟨s', _, rfl⟩ := hend
  have h := halts_moment l s s' r
  cases r with
  | ok v => exact ⟨.noted a x, h⟩
  | error e =>
      rw [Action.failure_call] at h
      exact ⟨.refl x, h⟩

theorem openRequest {d : RequestDraft} (hP : P (.createRequest d)) :
    Footprint P (openRequest d) := by
  refine ⟨(Uses.perform hP).bind fun url => ?_, ?_⟩
  · cases url <;> exact fun _ => trivial
  · intro σ W x l s
    refine ensures_openRequest.mpr ?_
    intro r _ hend
    obtain ⟨s', _, rfl⟩ := hend
    have h := halts_moment l s s' r
    cases r with
    | ok url => exact ⟨.refl x, h⟩
    | error e => exact ⟨.refl x, h⟩

end Footprint

end Ship

end Shipment
