import Mathlib.Data.List.Nodup
import Shipment.Proofs.Requests

/-!
# The request that describes a branch

`Best` says which request describes a branch: one with the best state there is, and among those
the one with the highest number.  Numbers are given once, so that there is at most one such
request.  It is the one that is found, and the order in which the requests are listed does not
matter (`forHead_eq_some_iff`).

`HasIn` is whether a branch has a request in some state.  The request that is found is in a state
if and only if there is one, and there is none in a better state (`forHead_state_iff`).
-/

namespace Shipment

namespace ReviewState

variable {a b : ReviewState}

/-- The states, the best first. -/
def preference : List ReviewState := [.opened, .merged, .closed, .absent]

/-- A state is better than another one. -/
def Before (a b : ReviewState) : Prop := preference.idxOf a < preference.idxOf b

instance : Decidable (Before a b) := inferInstanceAs (Decidable (_ < _))

theorem before_iff : a.Before b ↔ b.rank < a.rank := by
  cases a <;> cases b <;> decide

theorem rank_inj (h : a.rank = b.rank) : a = b := by
  cases a <;> cases b <;> first | rfl | cases h

end ReviewState

namespace PullRequest

variable {pr pr' : PullRequest} {prs prs' : List PullRequest} {head : String}
variable {state : ReviewState}

/-! ## The best request -/

/-- The request of a branch in a state with the highest number. -/
structure Top (state : ReviewState) (head : String) (prs : List PullRequest) (pr : PullRequest) :
    Prop where
  mem : pr ∈ prs
  heads : pr.head = head
  inState : pr.state = state
  top : ∀ q ∈ prs, q.head = head → q.state = state → q.number ≤ pr.number

/-- The request that describes a branch. -/
structure Best (head : String) (prs : List PullRequest) (pr : PullRequest) : Prop
    extends Top pr.state head prs pr where
  best : ∀ q ∈ prs, q.head = head → ¬q.state.Before pr.state

/-- Requests with distinct numbers are told apart by them. -/
theorem eq_of_number_eq (hprs : (prs.map number).Nodup) (hpr : pr ∈ prs) (hpr' : pr' ∈ prs)
    (h : pr.number = pr'.number) : pr = pr' :=
  List.inj_on_of_nodup_map hprs hpr hpr' h

theorem Top.unique (hprs : (prs.map number).Nodup) (h : Top state head prs pr)
    (h' : Top state head prs pr') : pr = pr' :=
  eq_of_number_eq hprs h.mem h'.mem (Nat.le_antisymm (h'.top pr h.mem h.heads h.inState)
    (h.top pr' h'.mem h'.heads h'.inState))

theorem Best.unique (hprs : (prs.map number).Nodup) (h : Best head prs pr)
    (h' : Best head prs pr') : pr = pr' := by
  have hstate : pr.state = pr'.state := by
    have hle := h.best pr' h'.mem h'.heads
    have hge := h'.best pr h.mem h.heads
    rw [ReviewState.before_iff] at hle hge
    exact ReviewState.rank_inj (by omega)
  exact h.toTop.unique hprs (hstate ▸ h'.toTop)

/-- The request that is found for a branch is the best one. -/
theorem best_of_forHead (h : forHead head prs = some pr) : Best head prs pr := by
  obtain ⟨hmem, hmax⟩ := mostRelevant_max h
  obtain ⟨hmem, hhead⟩ := List.mem_filter.mp hmem
  have hle {q : PullRequest} (hq : q ∈ prs) (hh : q.head = head) :=
    atMost_iff.mp (hmax q (List.mem_filter.mpr ⟨hq, by simpa using hh⟩))
  refine ⟨⟨hmem, by simpa using hhead, rfl, fun q hq hh hs => ?_⟩, fun q hq hh => ?_⟩
  · have := hle hq hh
    rw [hs] at this
    omega
  · have := hle hq hh
    rw [ReviewState.before_iff]
    omega

theorem forHead_eq_none_iff : forHead head prs = none ↔ ∀ pr ∈ prs, pr.head ≠ head := by
  rw [forHead, mostRelevant_eq_none, List.filter_eq_nil_iff]
  simp

/-- The request that is found is the best one. -/
theorem forHead_eq_some_iff (hprs : (prs.map number).Nodup) :
    forHead head prs = some pr ↔ Best head prs pr := by
  refine ⟨best_of_forHead, fun h => ?_⟩
  cases hf : forHead head prs with
  | none => exact absurd h.heads (forHead_eq_none_iff.mp hf pr h.mem)
  | some found => rw [(best_of_forHead hf).unique hprs h]

theorem Best.of_perm (hp : prs.Perm prs') (h : Best head prs pr) : Best head prs' pr :=
  ⟨⟨hp.mem_iff.mp h.mem, h.heads, rfl, fun q hq => h.top q (hp.mem_iff.mpr hq)⟩,
    fun q hq => h.best q (hp.mem_iff.mpr hq)⟩

/-- The order of the requests does not matter. -/
theorem forHead_perm (hprs : (prs.map number).Nodup) (hp : prs'.Perm prs) :
    forHead head prs' = forHead head prs := by
  have hprs' : (prs'.map number).Nodup := (hp.map _).nodup_iff.mpr hprs
  cases hf : forHead head prs with
  | none =>
      rw [forHead_eq_none_iff] at hf ⊢
      exact fun pr hpr => hf pr (hp.mem_iff.mp hpr)
  | some pr => exact (forHead_eq_some_iff hprs').mpr ((best_of_forHead hf).of_perm hp.symm)

/-! ## States -/

/-- A branch has a request in a state. -/
def HasIn (state : ReviewState) (head : String) (prs : List PullRequest) : Prop :=
  ∃ pr ∈ prs, pr.head = head ∧ pr.state = state

instance : Decidable (HasIn state head prs) :=
  inferInstanceAs (Decidable (∃ pr ∈ prs, pr.head = head ∧ pr.state = state))

/-- The request of a branch has a state exactly if some request has it and none has a better one. -/
theorem forHead_state_iff : (∃ pr, forHead head prs = some pr ∧ pr.state = state) ↔
    HasIn state head prs ∧ ∀ state', state'.Before state → ¬HasIn state' head prs := by
  constructor
  · rintro ⟨pr, hpr, rfl⟩
    have h := best_of_forHead hpr
    refine ⟨⟨pr, h.mem, h.heads, rfl⟩, ?_⟩
    rintro _ hbefore ⟨q, hq, hh, rfl⟩
    exact h.best q hq hh hbefore
  · rintro ⟨⟨q, hq, hh, rfl⟩, hnone⟩
    cases hf : forHead head prs with
    | none => exact absurd hh (forHead_eq_none_iff.mp hf q hq)
    | some pr =>
        have h := best_of_forHead hf
        have hle := h.best q hq hh
        have hge : ¬pr.state.Before q.state := fun hb =>
          hnone pr.state hb ⟨pr, h.mem, h.heads, rfl⟩
        rw [ReviewState.before_iff] at hle hge
        exact ⟨pr, rfl, ReviewState.rank_inj (by omega)⟩

theorem forHead_merged_iff : (∃ pr, forHead head prs = some pr ∧ pr.state = .merged) ↔
    HasIn .merged head prs ∧ ¬HasIn .opened head prs := by
  rw [forHead_state_iff]
  refine and_congr_right fun _ => ⟨fun h => h _ (by decide), fun h state hb => ?_⟩
  cases state with
  | opened => exact h
  | _ => exact absurd hb (by decide)

theorem forHead_closed_iff : (∃ pr, forHead head prs = some pr ∧ pr.state = .closed) ↔
    HasIn .closed head prs ∧ ¬HasIn .opened head prs ∧ ¬HasIn .merged head prs := by
  rw [forHead_state_iff]
  refine and_congr_right fun _ =>
    ⟨fun h => ⟨h _ (by decide), h _ (by decide)⟩, fun h state hb => ?_⟩
  cases state with
  | opened => exact h.1
  | merged => exact h.2
  | _ => exact absurd hb (by decide)

end PullRequest

end Shipment
