import Shipment.Proofs.Repository.World
import Shipment.Proofs.Run.Pieces

/-!
# The requests of a branch

`mostRelevant` is a maximum for the rank of the state, and then for the number.  So a
branch that has an open request is described by the open one with the highest number.
Both flows end by looking for an open request and opening one if there is none, and leave
the repository alone.
-/

namespace Shipment

namespace PullRequest

variable {a b c pr best : PullRequest} {prs : List PullRequest} {head : String}

/-! ## The order of requests -/

theorem atMost_iff : a.atMost b = true ↔
    a.state.rank < b.state.rank ∨ a.state.rank = b.state.rank ∧ a.number ≤ b.number := by
  simp [atMost]

theorem atMost_refl (a : PullRequest) : a.atMost a = true := by simp [atMost]

theorem atMost_trans (h : a.atMost b = true) (h' : b.atMost c = true) : a.atMost c = true := by
  rw [atMost_iff] at *
  omega

theorem atMost_total (h : ¬a.atMost b = true) : b.atMost a = true := by
  rw [atMost_iff] at *
  omega

theorem mostRelevant_eq_none : mostRelevant prs = none ↔ prs = [] := by
  cases prs with
  | nil => simp [mostRelevant]
  | cons p prs =>
      unfold mostRelevant
      cases mostRelevant prs with
      | none => simp
      | some best => by_cases hp : p.atMost best = true <;> simp [hp]

/-- The request that describes a branch is a maximum. -/
theorem mostRelevant_max (h : mostRelevant prs = some best) :
    best ∈ prs ∧ ∀ pr ∈ prs, pr.atMost best = true := by
  induction prs generalizing best with
  | nil => cases h
  | cons p prs ih =>
      unfold mostRelevant at h
      cases hm : mostRelevant prs with
      | none =>
          rw [hm] at h
          cases h
          rw [mostRelevant_eq_none.mp hm]
          exact ⟨List.mem_singleton.mpr rfl, List.forall_mem_singleton.mpr (atMost_refl p)⟩
      | some top =>
          obtain ⟨hmem, hmax⟩ := ih hm
          rw [hm] at h
          by_cases hp : p.atMost top = true
          · cases (if_pos hp).symm.trans h
            exact ⟨List.mem_cons_of_mem p hmem, List.forall_mem_cons.mpr ⟨hp, hmax⟩⟩
          · cases (if_neg hp).symm.trans h
            refine ⟨List.mem_cons_self, List.forall_mem_cons.mpr ⟨atMost_refl p, ?_⟩⟩
            exact fun pr hpr => atMost_trans (hmax pr hpr) (atMost_total hp)

/-- No request has a state of higher rank than the one that describes the branch. -/
theorem rank_le_of_mostRelevant (h : pr ∈ prs) :
    ∃ best, mostRelevant prs = some best ∧ pr.state.rank ≤ best.state.rank := by
  cases hm : mostRelevant prs with
  | none =>
      rw [mostRelevant_eq_none.mp hm] at h
      cases h
  | some best =>
      refine ⟨best, rfl, ?_⟩
      have hmax := atMost_iff.mp ((mostRelevant_max hm).2 pr h)
      omega

/-- Whether the request that describes a branch is open. -/
def OpenFor (head : String) (prs : List PullRequest) : Prop :=
  ∃ pr, forHead head prs = some pr ∧ pr.state = .opened

/-- A branch that has an open request is described by an open one. -/
theorem openFor_of_mem (h : pr ∈ prs) (hh : pr.head = head) (ho : pr.state = .opened) :
    OpenFor head prs := by
  have hm : pr ∈ prs.filter fun pr => pr.head == head :=
    List.mem_filter.mpr ⟨h, by simpa using hh⟩
  obtain ⟨best, hb, hr⟩ := rank_le_of_mostRelevant hm
  refine ⟨best, hb, ?_⟩
  rw [ho] at hr
  cases hs : best.state with
  | opened => rfl
  | merged => rw [hs] at hr; exact absurd hr (by decide)
  | closed => rw [hs] at hr; exact absurd hr (by decide)
  | absent => rw [hs] at hr; exact absurd hr (by decide)

theorem openUrl_eq_some {url : String} (h : pr.openUrl = some url) :
    pr.state = .opened ∧ pr.url = url := by
  unfold openUrl at h
  split at h
  · exact ⟨‹_›, Option.some.inj h⟩
  · cases h

/-- The open request of a branch with the highest number. -/
structure TopOpen (head : String) (prs : List PullRequest) (pr : PullRequest) : Prop where
  mem : pr ∈ prs
  heads : pr.head = head
  opened : pr.state = .opened
  top : ∀ q ∈ prs, q.head = head → q.state = .opened → q.number ≤ pr.number

/-- The address that is found is that of the open request with the highest number. -/
theorem topOpen_of_openUrl {url : String} (h : (forHead head prs).bind openUrl = some url) :
    ∃ pr, TopOpen head prs pr ∧ pr.url = url := by
  obtain ⟨pr, hpr, hurl⟩ := Option.bind_eq_some_iff.mp h
  obtain ⟨hopen, hurl⟩ := openUrl_eq_some hurl
  obtain ⟨hmem, hmax⟩ := mostRelevant_max hpr
  obtain ⟨hmem, hhead⟩ := List.mem_filter.mp hmem
  refine ⟨pr, ⟨hmem, by simpa using hhead, hopen, fun q hq hh ho => ?_⟩, hurl⟩
  have hle := atMost_iff.mp (hmax q (List.mem_filter.mpr ⟨hq, by simpa using hh⟩))
  rw [ho, hopen] at hle
  exact (hle.resolve_left (Nat.lt_irrefl _)).2

/-- A branch has no open request. -/
def Unopened (head : String) (prs : List PullRequest) : Prop :=
  ∀ pr ∈ prs, pr.head = head → pr.state ≠ .opened

/-- If no address is found the branch has no open request. -/
theorem unopened_of_openUrl (h : (forHead head prs).bind openUrl = none) : Unopened head prs := by
  intro pr hpr hh ho
  obtain ⟨best, hbest, hb⟩ := openFor_of_mem hpr hh ho
  simp [hbest, openUrl, hb] at h

end PullRequest

/-! ## Finding or opening one -/

namespace Ship

open Site

variable {F : Prop} {x : Session} {s : Site}

/-- A repository left alone, and a host where the branch has an open request. -/
structure Requested (head : String) (s s' : Site) : Prop where
  /-- The repository is left alone. -/
  repo : s'.repo = s.repo
  /-- The branch has an open request. -/
  request : PullRequest.OpenFor head s'.host.requests

theorem ensures_openRequestUrl {head : String} :
    (openRequestUrl head).Ensures (world F)
      (fun url _ s' => s' = s ∧
        (url.isSome = true → PullRequest.OpenFor head s.host.requests))
      (fun _ _ s' => s' = s) x s := by
  refine ensures_bind.mpr ((ensures_question rfl).mpr ⟨⟨rfl, fun h => ?_⟩, fun _ _ => rfl⟩)
  obtain ⟨url, hu⟩ := Option.isSome_iff_exists.mp h
  obtain ⟨pr, hpr, hurl⟩ := Option.bind_eq_some_iff.mp hu
  exact ⟨pr, hpr, (PullRequest.openUrl_eq_some hurl).1⟩

theorem ensures_openRequest_world {d : RequestDraft} :
    (openRequest d).Ensures (world F) (fun _ _ s' => Requested d.head s s')
      (fun _ _ s' => s' = s) x s := by
  refine ensures_openRequest.mpr ?_
  intro r s' ha
  rcases ha with h | ⟨-, rfl, e, rfl⟩
  · cases h
    exact ⟨rfl, PullRequest.openFor_of_mem (List.mem_append_right _ (List.mem_singleton.mpr rfl))
      rfl rfl⟩
  · exact rfl

theorem ensures_settleRequest {step : Step} {found : String → RequestResult}
    {d : RequestDraft} :
    (settleRequest step found d).Ensures (world F) (fun _ _ s' => Requested d.head s s')
      (fun _ _ s' => s' = s) x s := by
  refine ensures_bind.mpr (ensures_enter.mpr ?_)
  refine ensures_openRequestUrl.bind (fun _ _ _ h => h) ?_
  intro url x' s' hend
  obtain ⟨rfl, hu⟩ := hend
  cases url with
  | some url => exact ⟨rfl, hu rfl⟩
  | none => exact ensures_bind.mpr ensures_openRequest_world

theorem ensures_requestForNew {w : Setting} {branch : String} {draft : Bool} :
    (requestForNew w branch draft).Ensures (world F) (fun _ _ s' => Requested branch s s')
      (fun _ _ s' => s' = s) x s := by
  rw [requestForNew_eq]
  exact ensures_settleRequest

theorem ensures_requestForUpdate {w : Setting} {draft : Bool} :
    (requestForUpdate w draft).Ensures (world F) (fun _ _ s' => Requested w.current s s')
      (fun _ _ s' => s' = s) x s := by
  rw [requestForUpdate_eq]
  exact ensures_settleRequest

end Ship

end Shipment
