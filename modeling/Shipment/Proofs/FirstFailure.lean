import Shipment.Proofs.Clearance
import Shipment.Proofs.Run.Refusal

/-!
# The first failure ends a run

A run goes on as long as its calls are answered and its guards let it.  The first call that
fails, or the first guard that refuses, ends it with that failure.  Only a run that has cut
its branch and not pushed it makes more calls, and these take the branch back.  `Ending` is
what the two parts of the log show.
-/

namespace Shipment

/-! ## What a log shows -/

/-- The calls up to a failure: the last one failed, or a guard refused. -/
structure Stops (l : Log) (e : Failure) : Prop where
  halts : Halts l e
  refuses : (∀ m ∈ l, m.Answered) → e.Refuses

theorem Stops.append {l k : Log} {e : Failure} (hl : ∀ m ∈ l, m.Answered) (h : Stops k e) :
    Stops (l ++ k) e where
  halts := h.halts.append hl
  refuses hall := h.refuses fun m hm => hall m (List.mem_append_right l hm)

theorem Stops.failed {l : Log} {m : Moment shipping Unit} {e : Failure}
    (hl : ∀ k ∈ l, k.Answered) (hr : m.reply = .error e) : Stops (l ++ [m]) (m.call.failure e) where
  halts := .failed hl hr
  refuses hall := absurd (hall m (by simp)) (Moment.not_answered.mpr ⟨e, hr⟩)

/-- The calls of a list, made in order up to the first that fails. -/
inductive Takes : List Call → Log → Prop where
  | nil : Takes [] []
  | answered {c : Call} {a : c.Answer} {cs : List Call} {l : Log} :
      Takes cs l → Takes (c :: cs) (.ok c a :: l)
  | failed {c : Call} {cs : List Call} {e : Failure} : Takes (c :: cs) [⟨c, (), .error e, ()⟩]

/-- The calls that go back to a checkpoint. -/
def Checkpoint.wayBack (cp : Checkpoint) : List Call :=
  (if cp.committed then [.resetSoft cp.start] else []) ++
    [.checkout cp.prior, .deleteBranch cp.created]

/-- A branch was cut and not pushed. -/
def Unpushed (l : Log) : Prop :=
  (∃ m ∈ l, ∃ branch, m.call = .createBranch branch ∧ m.Answered) ∧ ¬Pushed l

/-- Whether a call commits. -/
def Call.isCommit : Call → Bool
  | commit _ => true
  | _ => false

/-- Whether a commit was made. -/
def Moment.commits (m : Moment shipping Unit) : Bool := m.call.isCommit && decide m.Answered

/-- The checkpoint of the branch that was cut in a log. -/
structure CutFrom (o : Options) (l : Log) (cp : Checkpoint) : Prop where
  /-- The prior branch is the one the run was on when it was cleared. -/
  prior : ∃ default, clearance o cp.prior default <+: l
  /-- The start was read right before the branch was created, and no other was. -/
  created : ∃ before after,
    l = before ++ .ok .headCommit cp.start :: .ok (.createBranch cp.created) () :: after ∧
    ∀ m ∈ before ++ after, ∀ branch, m.call ≠ .createBranch branch
  committed : cp.committed = l.any Moment.commits

/-- How a run ended: what it did, and what it undid then. -/
structure Ending (o : Options) (done undo : Log) (result : Except Failure Outcome) : Prop where
  forth : ∀ m ∈ done, m.call.undoes = false
  failed : ∀ e, result = .error e → Stops done e
  succeeded : ∀ out, result = .ok out → undo = [] ∧ ∀ m ∈ done, m.Answered
  back : undo ≠ [] ↔ Unpushed done
  wayBack : Unpushed done → ∃ cp, CutFrom o done cp ∧ Takes cp.wayBack undo

/-- A log is that of a run that ended so. -/
def Ended (o : Options) (l : Log) (result : Except Failure Outcome) : Prop :=
  ∃ done undo, l = done ++ undo ∧ Ending o done undo result

namespace Ended

variable {o : Options} {l : Log}

theorem of_stops {e : Failure} (hl : ∀ m ∈ l, m.call.undoes = false) (h : Stops l e)
    (hu : ¬Unpushed l) : Ended o l (.error e) :=
  ⟨l, [], (List.append_nil l).symm, hl, fun e' he => by cases he; exact h, nofun,
    ⟨fun h => absurd rfl h, fun h => absurd h hu⟩, fun h => absurd h hu⟩

end Ended

theorem not_unpushed_of_uncut {l : Log}
    (h : ∀ m ∈ l, ∀ branch, m.call = .createBranch branch → ¬m.Answered) : ¬Unpushed l := by
  rintro ⟨⟨m, hm, branch, hc, ha⟩, -⟩
  exact h m hm branch hc ha

theorem Takes.ne_nil {cp : Checkpoint} {l : Log} (h : Takes cp.wayBack l) : l ≠ [] := by
  rintro rfl
  generalize hcs : cp.wayBack = cs at h
  cases h
  simp [Checkpoint.wayBack] at hcs

namespace Ship

open Call

variable {α β : Type} {x : Session} {l : Log}

/-- A piece that makes the calls of a list up to the first that fails. -/
def Walks (cs : List Call) (m : Ship α) : Prop :=
  ∀ x l, m.Ensures Surroundings.any.logged (fun _ _ z => ∃ new, z.1 = l ++ new ∧ Takes cs new)
    (fun _ _ z => ∃ new, z.1 = l ++ new ∧ Takes cs new) x (l, ())

namespace Walks

theorem ask (c : Call) : Walks [c] (Ship.ask c) := by
  rintro x l r _ ⟨_, -, rfl⟩
  cases r with
  | error e => exact ⟨_, rfl, .failed⟩
  | ok a => exact ⟨_, rfl, .answered .nil⟩

theorem ask_bind {c : Call} {cs : List Call} {f : c.Answer → Ship α} (h : ∀ a, Walks cs (f a)) :
    Walks (c :: cs) (Ship.ask c >>= f) := by
  intro x l
  refine ensures_bind.mpr ?_
  rintro r _ ⟨_, -, rfl⟩
  cases r with
  | error e => exact ⟨_, rfl, .failed⟩
  | ok a =>
      refine (h a x _).weaken ?_
      rintro _ z ⟨new, hz, ht⟩
      exact ⟨.ok c a :: new, by rw [hz, List.append_assoc]; rfl, .answered ht⟩

theorem stepsBack (cp : Checkpoint) : Walks cp.wayBack (Ship.stepsBack cp) := by
  rw [stepsBack_eq, Checkpoint.wayBack]
  cases cp.committed with
  | false => exact ask_bind fun _ => ask _
  | true => exact ask_bind fun _ => ask_bind fun _ => ask _

end Walks

/-- Behind some calls, none of them a push, the checkpoint knows whether one committed. -/
def Marked (x : Session) (l : Log) (x' : Session) (l' : Log) : Prop :=
  ∃ new, l' = l ++ new ∧ (∀ m ∈ new, m.call.isPush = false) ∧
    x'.checkpoint = x.checkpoint.map fun c =>
      { c with committed := c.committed || new.any Moment.commits }

theorem Marked.refl (x : Session) (l : Log) : Marked x l x l :=
  ⟨[], (List.append_nil l).symm, by simp, by simp⟩

theorem Marked.trans {x' x'' : Session} {l' l'' : Log} (h : Marked x l x' l')
    (h' : Marked x' l' x'' l'') : Marked x l x'' l'' := by
  obtain ⟨new, rfl, hn, hx⟩ := h
  obtain ⟨new', rfl, hn', hx'⟩ := h'
  refine ⟨new ++ new', List.append_assoc .., List.forall_mem_append.mpr ⟨hn, hn'⟩, ?_⟩
  rw [hx', hx, Option.map_map]
  congr 1
  funext c
  simp [Bool.or_assoc]

/-- A piece behind which the checkpoint knows whether it committed. -/
def Marks (m : Ship α) : Prop :=
  ∀ x l, m.Ensures Surroundings.any.logged (fun _ x' z => Marked x l x' z.1)
    (fun _ x' z => Marked x l x' z.1) x (l, ())

namespace Marks

theorem bind {m : Ship α} {f : α → Ship β} (h : Marks m) (hf : ∀ a, Marks (f a)) :
    Marks (m >>= f) := by
  intro x l
  refine (h x l).bind (fun _ _ _ h => h) ?_
  rintro a x' ⟨l', u⟩ hm
  exact (hf a x' l').weaken fun _ _ => hm.trans

theorem ite {c : Prop} [Decidable c] {m n : Ship α} (hm : Marks m) (hn : Marks n) :
    Marks (if c then m else n) := by
  by_cases hc : c
  · rwa [if_pos hc]
  · rwa [if_neg hc]

theorem pure (a : α) : Marks (Pure.pure a : Ship α) := fun x l => Marked.refl x l

theorem fail (e : Failure) : Marks (Ship.fail e : Ship α) := fun x l => Marked.refl x l

theorem enter (step : Step) : Marks (Ship.enter step) :=
  fun x l => ensures_enter.mpr (Marked.refl x l)

theorem ask {c : Call} (hp : c.isPush = false) (hc : c.isCommit = false) : Marks (Ship.ask c) := by
  rintro x l r _ ⟨_, -, rfl⟩
  have hm : Marked x l x (l ++ [⟨c, (), r, ()⟩]) :=
    ⟨_, rfl, by simpa using hp, by simp [Moment.commits, hc]⟩
  cases r with
  | ok a => exact hm
  | error e => exact hm

/-- An action that does not push is marked by the session, which knows whether it committed. -/
theorem execute {a : Action} (hp : a.call.isPush = false) : Marks (Ship.execute a) := by
  intro x l
  refine ensures_execute.mpr ?_
  rintro r _ ⟨_, -, rfl⟩
  cases r with
  | error e =>
      refine ⟨_, rfl, by simpa using hp, ?_⟩
      simp [Moment.commits, Moment.Answered]
  | ok v =>
      refine ⟨_, rfl, by simpa using hp, ?_⟩
      cases a with
      | commit message =>
          have hc : Moment.commits ⟨(Action.commit message).call, (), .ok v, ()⟩ = true :=
            (Bool.true_and _).trans (decide_eq_true ⟨v, rfl⟩)
          simp [hc, Session.noted]
      | _ => simp [Moment.commits, Session.noted, Action.call, isCommit]

theorem commitChanges (d : Description) (branch : String) :
    Marks (Ship.commitChanges d branch) := by
  refine ((ask rfl rfl).bind fun _ => pure _).bind fun dirty => .ite ?_ (pure false)
  refine (enter _).bind fun _ => (execute rfl).bind fun _ => (ask rfl rfl).bind fun staged => ?_
  exact .ite ((execute rfl).bind fun _ => pure true) (fail _)

end Marks

variable {P : Call → Prop} {w : Setting} {o : Options} {branch : String}

/-- A log that prepares a cut, behind the clearance. -/
structure Prepared (o : Options) (w : Setting) (l : Log) : Prop where
  cleared : clearance o w.current w.default <+: l
  prepares : ∀ k ∈ l, k.call.Prepares ∧ k.Answered

namespace Prepared

theorem append (h : Prepared o w l) {new : Log} (hn : ∀ k ∈ new, k.call.Prepares ∧ k.Answered) :
    Prepared o w (l ++ new) where
  cleared := h.cleared.trans (List.prefix_append l new)
  prepares := List.forall_mem_append.mpr ⟨h.prepares, hn⟩

theorem undoes (h : Prepared o w l) : ∀ k ∈ l, k.call.undoes = false :=
  fun k hk => undoes_of_prepares (h.prepares k hk).1

theorem uncut (h : Prepared o w l) : ∀ k ∈ l, ∀ branch, k.call ≠ .createBranch branch :=
  fun k hk => not_createBranch_of_prepares (h.prepares k hk).1

/-- A run that stops before it cuts its branch undoes nothing. -/
theorem ended (h : Prepared o w l) {new : Log} {e : Failure}
    (hn : ∀ k ∈ new, k.call.undoes = false)
    (hc : ∀ k ∈ new, ∀ branch, k.call = .createBranch branch → ¬k.Answered)
    (hs : Stops new e) : Ended o (l ++ new) (.error e) := by
  refine .of_stops (List.forall_mem_append.mpr ⟨h.undoes, hn⟩)
    (hs.append fun k hk => (h.prepares k hk).2) (not_unpushed_of_uncut ?_)
  exact List.forall_mem_append.mpr ⟨fun k hk branch hk' => absurd hk' (h.uncut k hk branch), hc⟩

end Prepared

theorem isPush_of_prepares {c : Call} (h : c.Prepares) : c.isPush = false := by
  rcases h with (h | ⟨branch, rfl⟩) | ⟨rev, rfl⟩
  · cases c <;> first | rfl | cases h
  · rfl
  · rfl

theorem isCommit_of_prepares {c : Call} (h : c.Prepares) : c.isCommit = false := by
  rcases h with (h | ⟨branch, rfl⟩) | ⟨rev, rfl⟩
  · cases c <;> first | rfl | cases h
  · rfl
  · rfl

/-- The log of a run that cut its branch and could not ship it. -/
theorem Prepared.unpushed (h : Prepared o w l) (start : String) {new : Log}
    (hships : ∀ k ∈ new, ∀ name, k.call ≠ .createBranch name) (hpush : ¬Pushed new) :
    let done := l ++ [.ok .headCommit start] ++ [.ok (.createBranch branch) ()] ++ new
    Unpushed done ∧ CutFrom o done ⟨w.current, branch, start, new.any Moment.commits⟩ := by
  refine ⟨⟨⟨.ok (.createBranch branch) (), by simp, branch, rfl, (), rfl⟩, ?_⟩,
    ⟨⟨w.default, ?_⟩, ?_, ?_⟩⟩
  · rintro ⟨k, hk, hp, ha⟩
    simp only [List.mem_append, List.mem_singleton, or_assoc] at hk
    rcases hk with hk | rfl | rfl | hk
    · rw [isPush_of_prepares (h.prepares k hk).1] at hp
      cases hp
    · cases hp
    · cases hp
    · exact hpush ⟨k, hk, hp, ha⟩
  · simp only [List.append_assoc]
    exact h.cleared.trans (List.prefix_append l _)
  · exact ⟨l, new, by simp, List.forall_mem_append.mpr ⟨h.uncut, hships⟩⟩
  · have hl : l.any Moment.commits = false := by
      refine List.any_eq_false.mpr fun k hk => ?_
      simp [Moment.commits, isCommit_of_prepares (h.prepares k hk).1]
    simp [hl, Moment.commits, isCommit]

/-- Up to the cut, nothing was undone and nothing failed. -/
theorem Prepared.cut (h : Prepared o w l) (start : String) :
    ∀ k ∈ l ++ [.ok .headCommit start] ++ [.ok (.createBranch branch) ()],
      k.call.undoes = false ∧ k.Answered := by
  rw [List.append_assoc]
  refine List.forall_mem_append.mpr ⟨fun k hk => ⟨h.undoes k hk, (h.prepares k hk).2⟩, ?_⟩
  simp [Call.undoes, Moment.Answered, Moment.ok]

end Ship

end Shipment
