import Shipment.Config
import Shipment.Proofs.Confined

/-!
# A branch that is its own base

A run has one branch to push and to open a request for, and a base for the request to go
into.  A branch that a new request cuts is never its base, since its base is on `origin` and
its own name is not.  An update ships the branch it stands on.  That is not the default
branch, but the base need not be the default branch either, and nothing compares the two.
So an update that stands on the base it is given, by an option or by the configuration,
pushes to its base and requests that branch for itself.  `OnOwnBase` is that case, and there
is no other.
-/

namespace Shipment

/-- No new request was asked for, on a branch that was asked for as the base and is not the
default one. -/
def OnOwnBase (o : Options) (r : Repository) : Prop :=
  o.new = false ∧ ∃ branch, o.base = some branch ∧ r.current = some branch ∧ branch ≠ r.default

namespace Ship

open Site Repository

variable {s : Site} {w : Setting} {o : Options} {shipped : Option String} {flow : Flow}
variable {accepted : Except Failure (Description × Verdict)}

/-- The new request flow is never on its own base. -/
theorem not_onOwnBase (hfits : w.Fits accepted o s .newRequest) : ¬OnOwnBase o s.repo := by
  rintro ⟨hnew, branch, -, hc, hne⟩
  cases hc.symm.trans hfits.current
  have hflow := hfits.flow
  rw [Flow.select, hfits.default, hnew, Bool.or_false, if_neg (by simpa using hne)] at hflow
  cases hflow

/-- An update is on its own base if that is the branch it stands on. -/
theorem current_eq_base_iff (hfits : w.Fits accepted o s .updateExisting) :
    w.current = w.base ↔ OnOwnBase o s.repo := by
  obtain ⟨hne, hnew⟩ := hfits.away
  rw [hfits.base]
  cases hb : o.base with
  | none =>
      -- The base is the default branch then, and an update is never on that.
      refine ⟨fun h => absurd (h.trans hfits.default) hne, ?_⟩
      rintro ⟨-, branch, hbase, -⟩
      cases hb.symm.trans hbase
  | some base =>
      constructor
      · rintro rfl
        exact ⟨hnew, _, hb, hfits.current, hne⟩
      · rintro ⟨-, branch, hbase, hc, -⟩
        cases hb.symm.trans hbase
        exact Option.some.inj (hfits.current.symm.trans hc)

namespace RunsTo

variable {z : List (Moment shipping Site) × Site}

/-- The calls of a run are about one branch, which is its base in one case. -/
theorem within (h : RunsTo accepted o s z) {m : Moment shipping Site} (hm : m ∈ z.1) :
    m.call.Asks ∨ ∃ w shipped, m.call.Within w shipped ∧ w.base = o.base.getD s.repo.default ∧
      ∀ branch, shipped = some branch → (branch = w.base ↔ OnOwnBase o s.repo) := by
  cases h with
  | unsettled hasks hs => exact .inl (hasks m hm)
  | @cut w shipped hfits h =>
      obtain ⟨new, hz, hwithin⟩ := h.traced.log
      rw [hz, List.nil_append] at hm
      refine .inr ⟨w, shipped, hwithin m hm, hfits.default ▸ hfits.base, ?_⟩
      intro branch hb
      exact iff_of_false (h.fresh branch hb).base (not_onOwnBase hfits)
  | @updated w hfits ht honly =>
      obtain ⟨new, hz, hwithin⟩ := ht.log
      rw [hz, List.nil_append] at hm
      refine .inr ⟨w, some w.current, hwithin m hm, hfits.default ▸ hfits.base, ?_⟩
      rintro _ ⟨⟩
      exact current_eq_base_iff hfits

end RunsTo

/-- Whatever calls fail, a run pushes to its base if and only if it is on its own base, and so
with the head of the request that it opens. -/
theorem ships_base_iff (raw : String) (o : Options) (x : Session) (s : Site)
    (faults : List Fault) (hf : ∀ f ∈ faults, f.OnlyFails) :
    ∀ m ∈ (start raw o).logWithFaults x faults s,
      (∀ branch mode, m.call = .push branch mode →
        (branch = o.base.getD s.repo.default ↔ OnOwnBase o s.repo)) ∧
      ∀ d, m.call = .createRequest d → d.base = o.base.getD s.repo.default ∧
        (d.head = d.base ↔ OnOwnBase o s.repo) := by
  rw [start_eq]
  generalize Description.accept raw o.force = accepted
  intro m hm
  have hrun : RunsTo accepted o s (_, _) := runsTo_run (x := x) hf
  rcases hrun.within hm with hasks | ⟨w, shipped, hwithin, hbase, hown⟩
  · refine ⟨fun branch mode hc => ?_, fun d hc => ?_⟩
    · rw [hc] at hasks
      cases hasks
    · rw [hc] at hasks
      cases hasks
  · refine ⟨fun branch mode hc => ?_, fun d hc => ?_⟩
    · rw [hc] at hwithin
      exact hbase ▸ hown branch hwithin
    · rw [hc] at hwithin
      obtain ⟨hhead, hdraft⟩ := hwithin
      exact ⟨hdraft.trans hbase, hdraft ▸ hown d.head hhead⟩

/-- Changes on a branch beside the default one, and a configuration that makes it the base. -/
def developing : Site where
  repo :=
    { current := some "develop"
      dirty := true
      branches := [("main", ["c0"]), ("develop", ["c0", "c1"])]
      remote := [("main", ["c0"]), ("develop", ["c0", "c1"])] }

/-- A configuration with that branch for its base. -/
def developed : Config := { base := some "develop" }

/-- A run on its own base pushes to it, and opens a request from it into itself. -/
theorem push_targets_base :
    let log := (start "feat: add widget" (developed.applyTo {})).logWithFaults .sample [] developing
    (developed.applyTo {}).base = some "develop" ∧
      (∃ m ∈ log, m.call = .push "develop" .tracking ∧ m.Answered) ∧
      ∃ m ∈ log, m.call = .createRequest (.ofText "feat: add widget" "develop" "develop" false) ∧
        m.Answered := by
  decide +kernel

/-- The run is on its own base as long as it is not asked for a new request. -/
theorem ships_base_iff_developing :
    let log := fun o => (start "feat: add widget" o).logWithFaults .sample [] developing
    let o := developed.applyTo {}
    (∃ m ∈ log o, m.call = .push "develop" .tracking) ∧ OnOwnBase o developing.repo ∧
      (∃ m ∈ log { o with new := true }, m.call.isPush = true) ∧
      ∀ m ∈ log { o with new := true }, ∀ branch mode, m.call = .push branch mode →
        branch ≠ "develop" := by
  intro log o
  have hf : ∀ f ∈ ([] : List Fault), f.OnlyFails := by simp
  have hpush : ∃ m ∈ log o, m.call = .push "develop" .tracking := by decide +kernel
  have hcut : ∃ m ∈ log { o with new := true }, m.call.isPush = true := by decide +kernel
  refine ⟨hpush, ?_, hcut, fun m hm branch mode hc e => ?_⟩
  · obtain ⟨m, hm, hc⟩ := hpush
    exact ((ships_base_iff "feat: add widget" o .sample developing [] hf m hm).1 _ _ hc).mp rfl
  · have hown := (ships_base_iff "feat: add widget" { o with new := true } .sample developing []
      hf m hm).1 branch mode hc
    exact absurd (hown.mp e).1 (by decide)

end Ship

end Shipment
