import Shipment.Proofs.Repository.World

/-!
# What is here

A repository has a part that is here, the local branches and the tree, and a part that
is about `origin`.  `Local` relates repositories with the same part here.  Questions,
fetches, pushes and new requests keep it.  `Grows` is weaker.  A branch may have got
more commits.  `OnlyHead` is what an update keeps: the branches that `HEAD` is not on.
-/

namespace Shipment

namespace Repository

variable {r r' r'' : Repository}

/-- The two differ at most in what is about `origin`. -/
def Local (r r' : Repository) : Prop := ∃ tracking remote, r' = { r with tracking, remote }

namespace Local

theorem refl (r : Repository) : r.Local r := ⟨r.tracking, r.remote, rfl⟩

theorem trans (h : r.Local r') (h' : r'.Local r'') : r.Local r'' := by
  obtain ⟨_, _, rfl⟩ := h
  obtain ⟨tracking, remote, rfl⟩ := h'
  exact ⟨tracking, remote, rfl⟩

end Local

theorem Effect.local {c : Call} {reply : Except Failure c.Answer} (h : Effect r c reply r')
    (hc : c.Afar) : r.Local r' := by
  cases h with
  | failed e => exact .refl r
  | asked a hq => exact .refl r
  | requested url => exact .refl r
  | fetched hf => exact ⟨_, _, rfl⟩
  | pushed hv hf => exact ⟨_, _, rfl⟩
  | nothing hd => exact .refl r
  | _ => simp [Call.Afar, Call.Looks, Call.Asks, Call.isQuestion] at hc

/-- Looking moves tracking refs only. -/
theorem Effect.looked {c : Call} {reply : Except Failure c.Answer} (h : Effect r c reply r')
    (hc : c.Looks) : ∃ tracking, r' = { r with tracking } := by
  cases h with
  | failed e => exact ⟨_, rfl⟩
  | asked a hq => exact ⟨_, rfl⟩
  | requested url => exact ⟨_, rfl⟩
  | fetched hf => exact ⟨_, rfl⟩
  | nothing hd => exact ⟨_, rfl⟩
  | _ => simp [Call.Looks, Call.Asks, Call.isQuestion] at hc

/-- Every local branch is still there, and may have got more commits. -/
def Kept (r r' : Repository) : Prop :=
  ∀ branch h, r.branches.get? branch = some h → ∃ h', r'.branches.get? branch = some h' ∧ h <+: h'

theorem Kept.trans (h : r.Kept r') (h' : r'.Kept r'') : r.Kept r'' := by
  intro branch k hk
  obtain ⟨k', hk', hp⟩ := h branch k hk
  obtain ⟨k'', hk'', hp'⟩ := h' branch k' hk'
  exact ⟨k'', hk'', hp.trans hp'⟩

/-- Branches that are the same are kept. -/
theorem Kept.of_eq (h : ∀ branch k, r.branches.get? branch = some k →
    r'.branches.get? branch = some k) : r.Kept r' :=
  fun branch k hk => ⟨k, h branch k hk, List.prefix_rfl⟩

/-- The local branches have grown, and nothing else that is here has changed. -/
structure Grows (r r' : Repository) : Prop where
  current : r'.current = r.current
  tree : r'.isClean = r.isClean
  kept : r.Kept r'
  absent : ∀ branch, r.branches.get? branch = none → r'.branches.get? branch = none

namespace Grows

theorem refl (r : Repository) : r.Grows r := ⟨rfl, rfl, .of_eq fun _ _ h => h, fun _ h => h⟩

theorem of_local (h : r.Local r') : r.Grows r' := by
  obtain ⟨_, _, rfl⟩ := h
  exact ⟨rfl, rfl, .of_eq fun _ _ h => h, fun _ h => h⟩

theorem trans (h : r.Grows r') (h' : r'.Grows r'') : r.Grows r'' where
  current := h'.current.trans h.current
  tree := h'.tree.trans h.tree
  kept := h.kept.trans h'.kept
  absent branch hb := h'.absent branch (h.absent branch hb)

/-- `HEAD` stays on a branch, and its history grows. -/
theorem head (h : r.Grows r') {current : String} {k : History} (hc : r.current = some current)
    (hk : r.branches.get? current = some k) :
    ∃ k', r'.branches.get? current = some k' ∧ r'.head = k' ∧ k <+: k' := by
  obtain ⟨k', hk', hp⟩ := h.kept current k hk
  exact ⟨k', hk', head_eq (h.current.trans hc) hk', hp⟩

end Grows

/-- A fast-forward grows the branch `HEAD` is on. -/
theorem grows_of_forwarded {current : String} {h k : History}
    (hk : r.branches.get? current = some k) (hp : k <+: h) :
    r.Grows { r with branches := r.branches.set current h } := by
  refine ⟨rfl, rfl, fun branch j hj => ?_, fun branch hb => ?_⟩
  · by_cases e : branch = current
    · rw [e, hk] at hj
      cases hj
      exact ⟨h, by rw [e, Table.get?_set_self], hp⟩
    · exact ⟨j, (Table.get?_set_of_ne (Ne.symm e) h r.branches).trans hj, List.prefix_rfl⟩
  · have e : current ≠ branch := by
      intro e
      rw [e, hb] at hk
      cases hk
    exact (Table.get?_set_of_ne e h r.branches).trans hb

/-- `HEAD` has stayed, and only its branch may have changed. -/
structure OnlyHead (r r' : Repository) : Prop where
  current : r'.current = r.current
  others : ∀ k, r.current ≠ some k → r'.branches.get? k = r.branches.get? k

namespace OnlyHead

theorem refl (r : Repository) : OnlyHead r r := ⟨rfl, fun _ _ => rfl⟩

theorem trans (h : OnlyHead r r') (h' : OnlyHead r' r'') : OnlyHead r r'' where
  current := h'.current.trans h.current
  others k hk := (h'.others k (h.current ▸ hk)).trans (h.others k hk)

end OnlyHead

/-- A call of an update changes no local branch but the one at `HEAD`. -/
theorem Effect.onlyHead {c : Call} {reply : Except Failure c.Answer} (h : Effect r c reply r')
    (hc : c.Updates) : OnlyHead r r' := by
  have set {branch : String} (hcur : r.current = some branch) (h : History) (k : String)
      (hk : r.current ≠ some k) : (r.branches.set branch h).get? k = r.branches.get? k := by
    refine Table.get?_set_of_ne ?_ _ _
    rintro rfl
    exact hk hcur
  cases h with
  | committed hs hcur => exact ⟨rfl, set hcur _⟩
  | rebased hv hcur =>
      obtain ⟨messages, e⟩ := replay_eq _ (missing _ r.head) r
      rw [e]
      exact ⟨rfl, set hcur _⟩
  | forwarded hv hp hcur => exact ⟨rfl, set hcur _⟩
  | reset hu hcur => exact ⟨rfl, set hcur _⟩
  | created => simp [Call.Updates, Call.Looks, Call.Asks, Call.isQuestion] at hc
  | checkedOut hb => simp [Call.Updates, Call.Looks, Call.Asks, Call.isQuestion] at hc
  | deleted hb => simp [Call.Updates, Call.Looks, Call.Asks, Call.isQuestion] at hc
  | _ => exact ⟨rfl, fun _ _ => rfl⟩

end Repository

/-- The two sites differ at most in their tracking refs. -/
def Site.Looked (s s' : Site) : Prop := ∃ tracking, s' = { s with repo := { s.repo with tracking } }

namespace Site.Looked

variable {s s' s'' : Site}

theorem refl (s : Site) : s.Looked s := ⟨s.repo.tracking, rfl⟩

theorem trans (h : s.Looked s') (h' : s'.Looked s'') : s.Looked s'' := by
  obtain ⟨_, rfl⟩ := h
  obtain ⟨tracking, rfl⟩ := h'
  exact ⟨tracking, rfl⟩

theorem current (h : s.Looked s') : s'.repo.current = s.repo.current := by
  obtain ⟨_, rfl⟩ := h
  rfl

theorem isClean (h : s.Looked s') : s'.repo.isClean = s.repo.isClean := by
  obtain ⟨_, rfl⟩ := h
  rfl

end Site.Looked

namespace Ship

open Site Repository

variable {α : Type} {F : Prop} {x : Session} {s : Site}

/-- A piece whose calls change nothing here. -/
theorem Uses.local {m : Ship α} (h : Uses Call.Afar m) :
    m.Ensures (world F) (fun _ _ s' => s.repo.Local s'.repo)
      (fun _ _ s' => s.repo.Local s'.repo) x s :=
  h.relates (T := fun s s' : Site => s.repo.Local s'.repo) (fun s => .refl s.repo) .trans
    fun hc ha => (effect_of_answers ha).local hc

/-- A piece that looks moves tracking refs only. -/
theorem Uses.sees {m : Ship α} (h : Uses Call.Looks m) :
    m.Ensures (world F) (fun _ _ s' => s.Looked s') (fun _ _ s' => s.Looked s') x s := by
  refine h.relates .refl .trans ?_
  intro c s r s' hc ha
  obtain ⟨tracking, e⟩ := (effect_of_answers ha).looked hc
  have hh := host_of_answers ha fun draft e => by
    subst e
    simp [Call.Looks, Call.Asks, Call.isQuestion] at hc
  exact ⟨tracking, by rw [← e, ← hh]⟩

theorem Uses.looked {m : Ship α} (h : Uses Call.Looks m) :
    m.Ensures (world F) (fun _ _ s' => ∃ tracking, s'.repo = { s.repo with tracking })
      (fun _ _ s' => ∃ tracking, s'.repo = { s.repo with tracking }) x s :=
  h.sees.weaken fun _ _ ⟨tracking, e⟩ => ⟨tracking, congrArg Site.repo e⟩

/-- An update stays on its branch and leaves the others. -/
theorem Uses.onlyHead {m : Ship α} (h : Uses Call.Updates m) :
    m.Ensures (world F) (fun _ _ s' => OnlyHead s.repo s'.repo)
      (fun _ _ s' => OnlyHead s.repo s'.repo) x s :=
  h.relates (T := fun s s' : Site => OnlyHead s.repo s'.repo) (fun s => .refl s.repo) .trans
    fun hc ha => (effect_of_answers ha).onlyHead hc

end Ship

end Shipment
