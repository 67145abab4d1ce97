import Shipment.Proofs.Run.Cut
import Shipment.Proofs.Run.Woven

/-!
# Sound records

A record is kept by `RunRecord.enter`, `RunRecord.addNotice` and `RunRecord.selectFlow` alone.
`RunRecord.Sound` ties its fields to its path, and each of the three respects it.  A woven
piece uses the first two, so it keeps a record sound and leaves the flow alone.
-/

namespace Shipment

namespace RunStatus

theorem exists_ofStep {s : Step} (h : s.isTerminal = true) : ∃ st, ofStep s = some st := by
  cases s with
  | completed | noOp | failed => exact ⟨_, rfl⟩
  | _ => cases h

theorem ofStep_eq_none {s : Step} (h : s.isTerminal = false) : ofStep s = none := by
  cases s with
  | completed | noOp | failed => cases h
  | _ => rfl

theorem filterMap_ofStep_eq_nil {l : List Step} (h : ∀ s ∈ l, s.isTerminal = false) :
    l.filterMap ofStep = [] :=
  List.filterMap_eq_nil_iff.mpr fun s hs => ofStep_eq_none (h s hs)

end RunStatus

namespace RunRecord

variable {r : RunRecord}

theorem path_enter (now : Int) (step : Step) (r : RunRecord) :
    (r.enter now step).path = r.path ++ [step] := by
  unfold path enter
  cases r.history <;> simp

/-- What the record says of the end of the run is what its path says. -/
structure Sound (r : RunRecord) : Prop where
  last : r.path.getLast? = some r.step
  history : r.history = r.path.zip r.path.tail
  status : r.status = (r.path.filterMap RunStatus.ofStep).getLast?.getD .running
  finished : r.finishedAt.isSome = r.path.any Step.isTerminal

theorem zip_tail_concat {l : List Step} {a b : Step} (h : l.getLast? = some a) :
    (l ++ [b]).zip (l ++ [b]).tail = l.zip l.tail ++ [(a, b)] := by
  induction l with
  | nil => cases h
  | cons c l ih =>
      cases l with
      | nil =>
          cases h
          rfl
      | cons d l => simpa using ih (by simpa using h)

theorem Sound.enter (h : r.Sound) (now : Int) (step : Step) : (r.enter now step).Sound := by
  refine ⟨?_, ?_, ?_, ?_⟩
  · rw [path_enter, List.getLast?_append]
    rfl
  · rw [path_enter, zip_tail_concat h.last, ← h.history]
    rfl
  · rw [path_enter, List.filterMap_append]
    cases step <;> simp [RunRecord.enter, RunStatus.ofStep, h.status]
  · rw [path_enter, List.any_append, ← h.finished]
    cases step <;> simp [RunRecord.enter, Step.isTerminal]

theorem Sound.addNotice (h : r.Sound) (n : Notice) : (r.addNotice n).Sound :=
  ⟨h.last, h.history, h.status, h.finished⟩

theorem Sound.selectFlow (h : r.Sound) (flow : Flow) : (r.selectFlow flow).Sound :=
  ⟨h.last, h.history, h.status, h.finished⟩

/-- The last terminal step on the path tells how the run stands. -/
theorem Sound.ofStep_last (h : r.Sound) {front back : List Step} {s : Step}
    (hpath : r.path = front ++ s :: back) (hs : s.isTerminal = true)
    (hback : ∀ t ∈ back, t.isTerminal = false) : RunStatus.ofStep s = some r.status := by
  obtain ⟨st, hst⟩ := RunStatus.exists_ofStep hs
  have hlast : r.path.filterMap RunStatus.ofStep = front.filterMap RunStatus.ofStep ++ [st] := by
    rw [hpath, List.filterMap_append, List.filterMap_cons_some hst,
      RunStatus.filterMap_ofStep_eq_nil hback]
  rw [h.status, hlast, List.getLast?_concat]
  exact hst

/-- A record sound and ended, whatever the result. -/
theorem Sound.closed {r : RunRecord} (h : r.Sound) {front : List Step} {s : Step}
    (hpath : r.path = front ++ [s]) (hs : s.isTerminal = true) :
    r.step = s ∧ RunStatus.ofStep r.step = some r.status ∧ r.finishedAt.isSome = true := by
  have hlast : r.step = s := by
    have := h.last
    rw [hpath, List.getLast?_append] at this
    simpa using this.symm
  refine ⟨hlast, ?_, ?_⟩
  · rw [hlast]
    exact h.ofStep_last hpath hs (List.forall_mem_nil _)
  · rw [h.finished, hpath, List.any_append]
    simp [hs]

end RunRecord

namespace Ship

variable {α : Type} {σ : Type} {W : Surroundings shipping σ} {x : Session} {s : σ}
variable {draft : Bool} {draws : Prop} {m m' : Ship α}

/-- A relation that entering a step and adding a notice respect holds between the records at
the ends of a woven piece. -/
theorem Woven.records {T : RunRecord → RunRecord → Prop}
    (refl : ∀ r, T r r) (trans : ∀ {r r' r''}, T r r' → T r' r'' → T r r'')
    (enter : ∀ r now step, step ≠ .selectingFlow → T r (r.enter now step))
    (notice : ∀ r n, T r (r.addNotice n)) (h : Woven draft draws m m') :
    m.Ensures W (fun _ x' _ => T x.record x'.record) (fun _ x' _ => T x.record x'.record) x s := by
  induction h generalizing x s with
  | pure a => exact refl _
  | fail e => exact refl _
  | notices => exact ensures_notices.mpr (refl _)
  | ask c hc => exact ensures_ask.mpr fun r _ _ => ends_both.mpr (refl _)
  | enter step hs => exact ensures_enter.mpr (enter _ _ _ hs)
  | notify n => exact ensures_notify.mpr (notice _ _)
  | execute a ha =>
      refine ensures_execute.mpr fun r _ _ => ?_
      cases r with
      | ok v =>
          show T x.record (x.noted a).record
          rw [Session.noted_record]
          exact refl _
      | error e => exact refl _
  | openRequest d => exact ensures_openRequest.mpr fun r _ _ => ends_both.mpr (refl _)
  | generateName d hd => exact refl _
  | arm c => exact ensures_arm.mpr (refl _)
  | disarm => exact ensures_disarm.mpr (refl _)
  | orGoBack h ih =>
      refine ensures_orGoBack.mpr (ih.mono (fun _ _ _ hr => hr) ?_)
      intro e x' s' hr
      refine ensures_rollback_record.mono ?_ fun _ _ _ h => h.elim
      intro n x'' _ hn
      cases n with
      | none => exact hn ▸ hr
      | some n => exact trans (hn ▸ hr) (notice _ _)
  | bind h hk ih ihk =>
      refine ih.bind (fun _ _ _ hr => hr) fun a x' s' hr => ?_
      exact (ihk a).weaken fun _ _ => trans hr

/-- A woven piece leaves the flow alone and keeps a sound record sound. -/
theorem Woven.sound (h : Woven draft draws m m') :
    m.Ensures W (fun _ x' _ => (x.record.Sound → x'.record.Sound) ∧ x'.record.flow = x.record.flow)
      (fun _ x' _ => (x.record.Sound → x'.record.Sound) ∧ x'.record.flow = x.record.flow) x s :=
  h.records (T := fun r r' => (r.Sound → r'.Sound) ∧ r'.flow = r.flow) (fun _ => ⟨id, rfl⟩)
    (fun h h' => ⟨h'.1 ∘ h.1, h'.2.trans h.2⟩) (fun _ _ _ _ => ⟨fun h => h.enter _ _, rfl⟩)
    fun _ _ => ⟨fun h => h.addNotice _, rfl⟩

end Ship

end Shipment
