import Shipment.Proofs.Run.Ready
import Shipment.Proofs.Run.Whole
import Shipment.Proofs.Requests

/-!
# The work of the user survives

A run keeps the commits of every local branch, and keeps uncommitted changes or ends
with the commit of them.  That is so whatever calls fail, and also if the calls that go
back fail.  `Safe` relates a repository to one that lost nothing.  Only a sync rewrites
commits, and it has refused by then if there were uncommitted changes.
-/

namespace Shipment

namespace Repository

variable {r r' r'' : Repository} {message branch : String}

/-! ## Safety -/

/-- `HEAD` is on a branch that ends in a commit with the message. -/
def EndsIn (id message : String) (r : Repository) : Prop :=
  ∃ current h, r.current = some current ∧ r.branches.get? current = some (h ++ [id]) ∧
    r.message id = message

/-- No commit is lost, and no change that was not committed. -/
structure Safe (message : String) (r r' : Repository) : Prop where
  /-- Every branch is kept. -/
  kept : r.Kept r'
  /-- Changes are still there, or were committed. -/
  work : r.isClean = false →
    r'.isClean = false ∨ ∃ k, r.issued < k ∧ r'.EndsIn (idOf k) message

namespace Safe

theorem of_grows (h : r.Grows r') : r.Safe message r' :=
  ⟨h.kept, fun hd => .inl (h.tree.trans hd)⟩

theorem refl (r : Repository) : r.Safe message r := of_grows (.refl r)

theorem of_local (h : r.Local r') : r.Safe message r' := of_grows (.of_local h)

/-- Whatever happened on `origin` since. -/
theorem local_right (h : r.Safe message r') (hl : r'.Local r'') : r.Safe message r'' := by
  obtain ⟨_, _, rfl⟩ := hl
  exact ⟨h.kept, h.work⟩

/-- Whatever the branches have grown before. -/
theorem kept_left (hk : r.Kept r') (ht : r'.isClean = r.isClean) (hi : r.issued ≤ r'.issued)
    (h : r'.Safe message r'') : r.Safe message r'' := by
  refine ⟨hk.trans h.kept, fun hd => ?_⟩
  rcases h.work (ht.trans hd) with hd' | ⟨k, hk, he⟩
  · exact .inl hd'
  · exact .inr ⟨k, Nat.lt_of_le_of_lt hi hk, he⟩

end Safe

/-! ## Committing -/

namespace Progress

variable {b : Bool}

theorem others (h : r.Progress message branch b r') {k : String} (hk : k ≠ branch) :
    r'.branches.get? k = r.branches.get? k := by
  cases h with
  | untouched => rfl
  | staged hcl => rfl
  | committed hcl => exact Table.get?_set_of_ne (Ne.symm hk) _ _

/-- Changes are in the tree until they are committed. -/
theorem tree (h : r.Progress message branch b r') (hd : r.isClean = false) :
    r'.isClean = b := by
  cases h with
  | untouched => exact hd
  | staged hcl => exact Bool.and_false _
  | committed hcl => rfl

/-- A clean tree has nothing to commit. -/
theorem eq_of_isClean (h : r.Progress message branch b r') (hcl : r.isClean = true) : r' = r := by
  cases h with
  | untouched => rfl
  | staged hd => rw [hcl] at hd; cases hd
  | committed hd => rw [hcl] at hd; cases hd

/-- However far a cut branch has come, nothing is lost. -/
theorem safe (h : r.Progress message branch b r') {k : History} (hc : r.current = some branch)
    (hk : r.branches.get? branch = some k) : r.Safe message r' := by
  cases h with
  | untouched => exact .refl r
  | staged hd => exact ⟨.of_eq fun _ _ h => h, fun _ => .inl (Bool.and_false _)⟩
  | committed hd =>
      have hset : (r.committed branch message).branches.get? branch = some (k ++ [r.nextId]) := by
        rw [← head_eq hc hk]
        exact Table.get?_set_self _ _ _
      refine ⟨fun branch' h hh => ?_, fun _ => .inr ⟨r.issued + 1, Nat.lt_succ_self _, ?_⟩⟩
      · by_cases e : branch' = branch
        · rw [e, hk] at hh
          cases hh
          rw [e]
          exact ⟨_, hset, List.prefix_append _ _⟩
        · exact ⟨h, (Table.get?_set_of_ne (Ne.symm e) _ _).trans hh, List.prefix_rfl⟩
      · exact ⟨branch, k, hc, hset, message_issue message r⟩

end Progress

end Repository

namespace Ship

open Site Repository

variable {F : Prop} {x : Session} {s : Site} {w : Setting} {o : Options}

/-! ## The new request flow -/

theorem kept_createBranch {r : Repository} {branch : String}
    (hfree : r.branches.get? branch = none) : r.Kept (r.createBranch branch) := by
  refine .of_eq fun k h hk => ?_
  have e : branch ≠ k := by
    intro e
    rw [e, hk] at hfree
    cases hfree
  exact (Table.get?_set_of_ne e _ _).trans hk

/-- A new branch that has come some way loses nothing. -/
theorem safe_of_progress {r r' : Repository} {message branch : String} {b : Bool}
    (hfree : r.branches.get? branch = none)
    (h : (r.createBranch branch).Progress message branch b r') : r.Safe message r' := by
  have hbranch : (r.createBranch branch).branches.get? branch = some r.head :=
    Table.get?_set_self _ _ _
  exact .kept_left (kept_createBranch hfree) rfl (Nat.le_refl _) (h.safe rfl hbranch)

/-- Going back loses nothing. -/
theorem Uncut.safe {message branch : String} {s' : Site}
    (hfree : s.repo.branches.get? branch = none) (h : Uncut message branch s s') :
    s.repo.Safe message s'.repo := by
  obtain ⟨b, repo, hp, hg⟩ := h.undone
  have hsafe := safe_of_progress hfree hp
  refine ⟨fun k h hk => ?_, fun hd => ?_⟩
  · have e : k ≠ branch := by
      intro e
      rw [e, hfree] at hk
      cases hk
    obtain ⟨h', hk', hpre⟩ := hsafe.kept k h hk
    exact ⟨h', (hg.others k e).trans hk', hpre⟩
  · rcases hg.tree with rfl | ht
    · exact hsafe.work hd
    · have hb : repo.isClean = b := hp.tree hd
      left
      rw [ht, hb, Bool.and_not_self]

theorem ensures_cutBranch_safe {branch : String} (hfree : s.repo.branches.get? branch = none) :
    (cutBranch w branch).Ensures (world F)
      (fun _ _ s' => s.repo.Safe w.description.text s'.repo)
      (fun _ _ s' => s.repo.Safe w.description.text s'.repo) x s := by
  refine ensures_cutBranch_world.mono ?_ ?_
  · intro b x' s' hend
    obtain ⟨repo, h, hp, -, -, -, rfl⟩ := hend
    exact (safe_of_progress hfree hp).local_right ⟨_, _, rfl⟩
  · rintro e x' s' (rfl | h)
    · exact .refl _
    · exact h.safe hfree

/-- A new request loses no commit and no change, however it ends.  Once a branch is cut, the changes
are in the tree or in a commit at `HEAD`. -/
theorem ensures_newRequest_safe {current : String} {h : History}
    (hc : s.repo.current = some current) (hh : s.repo.branches.get? current = some h) :
    (newRequest w o).Ensures (world F)
      (fun _ _ s' => s.repo.Safe w.description.text s'.repo)
      (fun _ _ s' => s.repo.Safe w.description.text s'.repo) x s := by
  rw [newRequest_eq]
  refine ensures_lookNew.steadily.bind (fun _ _ _ h => .of_local h.1) ?_
  intro seen x₁ s₁ hend
  obtain ⟨hl, hs₁⟩ := hend
  have hg₁ := Grows.of_local hl
  obtain ⟨k, hk, -⟩ := hg₁.kept current h hh
  unfold shipSeen
  split
  · exact ensures_bind.mpr (ensures_enter.mpr (.of_local hl))
  · rw [shipNew_eq]
    refine (ensures_settleBranch_free (hg₁.current.trans hc) hk).steadily.bind ?_ ?_
    · intro e x' s' hend
      obtain ⟨rfl, -⟩ := hend
      exact .of_local hl
    · intro branch x₂ s₂ hend
      obtain ⟨⟨hg₂, hfree⟩, hs₂⟩ := hend
      have hg := hg₁.trans hg₂
      -- Nothing was committed before the cut, so what is safe from there on is safe from the start.
      have left {r : Repository} (h : s₂.repo.Safe w.description.text r) :
          s.repo.Safe w.description.text r :=
        .kept_left hg.kept hg.tree (hs₁.trans hs₂).repo.issued h
      refine (ensures_cutBranch_safe hfree).bind (fun _ _ _ h => left h) fun b x₃ s₃ hcut => ?_
      refine ensures_requestForNew.bind (fun _ _ _ h => ?_) fun request x₄ s₄ h => ?_
      · rw [h]
        exact left hcut
      · refine ensures_bind.mpr (ensures_enter.mpr ?_)
        show s.repo.Safe w.description.text s₄.repo
        rw [h.repo]
        exact left hcut

/-! ## The update flow -/

/-- Staged or committed on a branch, and whatever happened on `origin`. -/
def Advanced (message branch : String) (r r' : Repository) : Prop :=
  ∃ b repo, r.Progress message branch b repo ∧ repo.Local r'

/-- What is staged is committed or stays staged, also if the commits cannot be counted after that.
-/
theorem ensures_commitStaged_advanced {d : Description} {reference branch : String} {ahead : Nat}
    {r : Repository} (hc : s.repo.current = some branch)
    (hp : r.Progress d.text branch false s.repo) :
    (commitStaged d reference s.repo.staged ahead).Ensures (world F)
      (fun _ _ s' => ∃ b, r.Progress d.text branch b s'.repo)
      (fun _ _ s' => ∃ b, r.Progress d.text branch b s'.repo) x s := by
  unfold commitStaged
  split
  · rename_i hstaged
    refine ensures_bind.mpr (ensures_enter.mpr (ensures_bind.mpr ?_))
    refine .execute (by simp [Action.call]) fun e repo he => ?_
    cases he with
    | failed e => exact ⟨false, hp⟩
    | asked a hq => cases hq
    | detached e hn => cases hn.symm.trans hc
    | committed hs' hc' =>
        cases hc'.symm.trans hc
        have hcommitted : r.Progress d.text branch true (s.repo.committed branch d.text) := by
          rw [hp.committed_eq]
          exact .committed (hp.isClean_of_staged hstaged)
        refine (Footprint.question (.countCommits _ _) rfl).uses.asks.weaken ?_
        rintro x' s' rfl
        exact ⟨true, hcommitted⟩
  · exact ⟨false, hp⟩

theorem ensures_shipUpdate_advanced {reference : String} {ahead : Nat} {r : Repository}
    (hc : s.repo.current = some w.current)
    (hp : r.Progress w.description.text w.current false s.repo) :
    (shipUpdate w o reference s.repo.staged ahead).Ensures (world F)
      (fun _ _ s' => Advanced w.description.text w.current r s'.repo)
      (fun _ _ s' => Advanced w.description.text w.current r s'.repo) x s := by
  rw [shipUpdate_eq]
  refine (ensures_commitStaged_advanced hc hp).bind ?_ ?_
  · intro e x' s' hend
    obtain ⟨b, hp⟩ := hend
    exact ⟨b, _, hp, .refl _⟩
  · intro ahead' x₁ s₁ hend
    obtain ⟨b, hp⟩ := hend
    exact (Uses.local footprint_pushUpdate.uses).weaken fun _ _ hl => ⟨b, _, hp, hl⟩

theorem ensures_shipStaged_advanced {counterpart : Option String} {r : Repository}
    (hc : s.repo.current = some w.current)
    (hp : r.Progress w.description.text w.current false s.repo) :
    (shipStaged w o counterpart).Ensures (world F)
      (fun _ _ s' => Advanced w.description.text w.current r s'.repo)
      (fun _ _ s' => Advanced w.description.text w.current r s'.repo) x s := by
  have hstays : Advanced w.description.text w.current r s.repo := ⟨false, _, hp, .refl _⟩
  refine ensures_bind.mpr ((ensures_question rfl).mpr ⟨?_, fun _ _ => hstays⟩)
  refine (Footprint.question (.countCommits _ _) rfl).uses.asks.bind ?_ ?_
  · rintro e x' s' rfl
    exact hstays
  · rintro ahead x₁ s' rfl
    split
    · exact ensures_bind.mpr (ensures_enter.mpr hstays)
    · exact ensures_shipUpdate_advanced hc hp

theorem ensures_stageAndShip_advanced {counterpart : Option String}
    (hc : s.repo.current = some w.current) :
    (stageAndShip w o counterpart).Ensures (world F)
      (fun _ _ s' => Advanced w.description.text w.current s.repo s'.repo)
      (fun _ _ s' => Advanced w.description.text w.current s.repo s'.repo) x s := by
  rw [stageAndShip_eq]
  refine ensures_bind.mpr (ensures_enter.mpr (ensures_bind.mpr ?_))
  refine .execute (by simp [Action.call]) fun e repo he => ?_
  cases he with
  | failed e => exact ⟨false, _, .untouched, .refl _⟩
  | asked a hq => cases hq
  | staged hd hi =>
      have hcl : s.repo.isClean = false := by rw [isClean, hd]; rfl
      exact ensures_shipStaged_advanced hc (.staged hcl)
  | nothing hd => exact ensures_shipStaged_advanced hc .untouched

theorem Advanced.safe {message branch : String} {r r' : Repository} {h : History}
    (ha : Advanced message branch r r') (hc : r.current = some branch)
    (hh : r.branches.get? branch = some h) : r.Safe message r' := by
  obtain ⟨b, repo, hp, hl⟩ := ha
  exact (hp.safe hc hh).local_right hl

theorem Advanced.local {message branch : String} {r r' : Repository}
    (ha : Advanced message branch r r') (hcl : r.isClean = true) : r.Local r' := by
  obtain ⟨b, repo, hp, hl⟩ := ha
  rwa [hp.eq_of_isClean hcl] at hl

/-- A branch was rebased, and nothing else that is here has changed. -/
structure Rebased (base branch : String) (r r' : Repository) : Prop where
  current : r'.current = r.current
  tree : r'.isClean = r.isClean
  others : ∀ k, k ≠ branch → r'.branches.get? k = r.branches.get? k
  /-- The branch is the base of `origin` and its own commits behind it. -/
  rewritten : ∃ h onto ids, r.branches.get? branch = some h ∧ r.remote.get? base = some onto ∧
    r'.branches.get? branch = some (onto ++ ids) ∧
    ids.map (message · r') = (missing onto h).map (message · r) ∧
    ∀ id ∈ ids, ∃ k, r.issued < k ∧ id = idOf k

namespace Rebased

variable {base branch : String} {r r' r'' : Repository}

theorem local_right (h : Rebased base branch r r') (hl : r'.Local r'') :
    Rebased base branch r r'' := by
  obtain ⟨_, _, rfl⟩ := hl
  exact ⟨h.current, h.tree, h.others, h.rewritten⟩

theorem looked_left {tracking : Table String History}
    (h : Rebased base branch { r with tracking } r') : Rebased base branch r r' :=
  ⟨h.current, h.tree, h.others, h.rewritten⟩

end Rebased

/-- The commits that a base lacks are replayed behind it under ids of their own. -/
theorem rebased_of_replay {r : Repository} {base branch : String} {h onto : History}
    (ht : r.Tidy) (hh : r.branches.get? branch = some h) (ho : r.remote.get? base = some onto) :
    Rebased base branch r { (replay onto (missing onto h) r).2 with
      branches := r.branches.set branch (replay onto (missing onto h) r).1 } := by
  have hmessages := messages_replay onto (missing onto h) r fun id hid k =>
    ht.ne_idOf (.inl ⟨branch, hh⟩) (mem_missing.mp hid).1
  obtain ⟨messages, e⟩ := replay_eq onto (missing onto h) r
  rw [e] at hmessages ⊢
  refine ⟨rfl, rfl, fun k hk => Table.get?_set_of_ne (Ne.symm hk) _ _, ?_⟩
  refine ⟨h, onto, freshIds r.issued (missing onto h).length, hh, ho, Table.get?_set_self _ _ _,
    hmessages, fun id hid => ?_⟩
  obtain ⟨k, hk, -, rfl⟩ := mem_freshIds hid
  exact ⟨k, hk, rfl⟩

/-- A rebase rewrites its branch behind a base, or leaves the site as it was. -/
theorem ensures_rebaseOnto {base branch : String} {counterpart : Option String} {h : History}
    (ht : s.repo.Tidy) (hc : s.repo.current = some branch)
    (hh : s.repo.branches.get? branch = some h) (hb : s.repo.UpToDate base) :
    (rebaseOnto branch base counterpart).Ensures (world F)
      (fun _ _ s' => Rebased base branch s.repo s'.repo) (fun _ _ s' => s' = s) x s := by
  have rebase {x : Session} : (execute (.rebase base)).Ensures (world F)
      (fun _ _ s' => Rebased base branch s.repo s'.repo) (fun _ _ s' => s' = s) x s := by
    refine .execute (by simp [Action.call]) fun e repo he => ?_
    cases he with
    | failed e => exact rfl
    | asked a hq => cases hq
    | rebased hv hc' =>
        cases hc'.symm.trans hc
        obtain ⟨onto, ho, ht'⟩ := hb
        rw [resolve?_trackingRef, ht'] at hv
        cases hv
        rw [head_eq hc hh]
        exact rebased_of_replay ht hh ho
  cases counterpart with
  | none => exact rebase
  | some remote =>
      refine (Footprint.question (.isAncestor _ _) rfl).uses.asks.bind (fun _ _ _ h => h) ?_
      rintro known x₁ s' rfl
      exact Ensures.orElse (fun _ => rfl) fun _ => rebase

/-- An update loses nothing, or was a sync from a clean tree that rewrote its branch. -/
def Updated (w : Setting) (o : Options) (r r' : Repository) : Prop :=
  r.Safe w.description.text r' ∨
    o.sync = true ∧ r.isClean = true ∧ Rebased w.base w.current r r'

/-- However an update ends, it has lost nothing, or it is a sync that has rewritten its own branch.
A sync starts from a clean tree, so there is no change it could lose. -/
theorem ensures_updateExisting_safe {h : History} (ht : s.repo.Tidy)
    (hc : s.repo.current = some w.current) (hh : s.repo.branches.get? w.current = some h) :
    (updateExisting w o).Ensures (world F) (fun _ _ s' => Updated w o s.repo s'.repo)
      (fun _ _ s' => Updated w o s.repo s'.repo) x s := by
  rw [updateExisting_eq]
  have hlook := (ensures_lookUpdate_upToDate.and ensures_lookUpdate_clean).and
    (Uses.looked (F := F) (x := x) (s := s) (footprint_lookUpdate (w := w) (o := o)).uses)
  refine hlook.steadily.bind ?_ ?_
  · intro e x' s' hend
    obtain ⟨⟨-, tracking, hr⟩, -⟩ := hend
    exact .inl (.of_local ⟨_, _, hr⟩)
  · intro counterpart x₁ z hend
    obtain ⟨repo, host⟩ := z
    obtain ⟨⟨⟨hb, hclean⟩, tracking, hr⟩, hs⟩ := hend
    cases hr
    have ht₁ := hs.repo.tidy ht
    by_cases hsync : o.sync = true
    · rw [if_pos hsync]
      refine (ensures_rebaseOnto ht₁ hc hh hb).bind ?_ ?_
      · rintro e x' s' rfl
        exact .inl (.of_local ⟨_, _, rfl⟩)
      · intro u x₂ s₂ hrebased
        have hrewrites {r : Repository} (ha : Advanced w.description.text w.current s₂.repo r) :
            Updated w o s.repo r := by
          have hl := ha.local (hrebased.tree.trans (hclean hsync))
          exact .inr ⟨hsync, hclean hsync, hrebased.looked_left.local_right hl⟩
        exact (ensures_stageAndShip_advanced (hrebased.current.trans hc)).weaken
          fun _ _ => hrewrites
    · rw [if_neg hsync]
      have hsafe {r : Repository}
          (ha : Advanced w.description.text w.current { s.repo with tracking } r) :
          Updated w o s.repo r := by
        -- Looking has moved tracking refs only.
        have hkept : s.repo.Kept { s.repo with tracking } := .of_eq fun _ _ h => h
        exact .inl (.kept_left hkept rfl (Nat.le_refl _) (ha.safe hc hh))
      exact (ensures_stageAndShip_advanced (s := ⟨{ s.repo with tracking }, host⟩) hc).weaken
        fun _ _ => hsafe

/-! ## Whole runs -/

variable {accepted : Except Failure (Description × Verdict)}

/-- What a run leaves of the commits and changes that were there before it. -/
structure Outlives (accepted : Except Failure (Description × Verdict)) (o : Options)
    (r r' : Repository) : Prop where
  /-- Every branch is kept.  A sync of an update may have put the commits of the current
  branch that the base lacks behind the base, with their messages and in their order. -/
  branches : ∀ branch h, r.branches.get? branch = some h →
    ∃ h', r'.branches.get? branch = some h' ∧ (h <+: h' ∨
      o.sync = true ∧ o.new = false ∧ r.current = some branch ∧ branch ≠ r.default ∧
        ∃ onto ids, r.remote.get? (o.base.getD r.default) = some onto ∧ h' = onto ++ ids ∧
          ids.map (message · r') = (missing onto h).map (message · r) ∧
          ∀ id ∈ ids, ∀ k, r.Holds k → id ∉ k)
  /-- Changes are still in the tree, or the current branch ends in a new commit that has
  the accepted description for its message. -/
  work : r.isClean = false → r'.isClean = false ∨
    ∃ d verdict id, accepted = .ok (d, verdict) ∧ r'.EndsIn id d.text ∧
      ∀ k, r.Holds k → id ∉ k

theorem Outlives.of_safe {r r' : Repository} {message : String} (ht : r.Tidy)
    (hm : ∃ d verdict, accepted = .ok (d, verdict) ∧ d.text = message)
    (h : r.Safe message r') : Outlives accepted o r r' := by
  obtain ⟨d, verdict, hacc, rfl⟩ := hm
  refine ⟨fun branch k hk => ?_, fun hd => ?_⟩
  · obtain ⟨k', hk', hp⟩ := h.kept branch k hk
    exact ⟨k', hk', .inl hp⟩
  · rcases h.work hd with hd' | ⟨k, hk, he⟩
    · exact .inl hd'
    · exact .inr ⟨d, verdict, idOf k, hacc, he, ht.new_idOf hk⟩

theorem Outlives.refl (r : Repository) : Outlives accepted o r r :=
  ⟨fun _ h hh => ⟨h, hh, .inl List.prefix_rfl⟩, .inl⟩

/-- What an update leaves outlives the run, also if the branch was rewritten. -/
theorem Outlives.of_updated {w : Setting} (ht : s.repo.Tidy) {r' : Repository}
    (hfits : w.Fits accepted o s .updateExisting) (h : Updated w o s.repo r') :
    Outlives accepted o s.repo r' := by
  obtain ⟨verdict, hacc⟩ := hfits.description
  rcases h with h | ⟨hsync, hclean, h⟩
  · exact .of_safe ht ⟨_, verdict, hacc, rfl⟩ h
  · have hbase : w.base = o.base.getD s.repo.default := by rw [hfits.base, hfits.default]
    obtain ⟨k, onto, ids, hk, ho, hk', hmessages, hids⟩ := h.rewritten
    refine ⟨fun branch j hj => ?_, fun hd => ?_⟩
    · by_cases e : branch = w.current
      · subst e
        cases hk.symm.trans hj
        refine ⟨onto ++ ids, hk', .inr ⟨hsync, hfits.away.2, hfits.current, hfits.away.1, ?_⟩⟩
        rw [← hbase]
        refine ⟨onto, ids, ho, rfl, hmessages, fun id hid => ?_⟩
        obtain ⟨k, hk, rfl⟩ := hids id hid
        exact ht.new_idOf hk
      · exact ⟨j, (h.others branch e).trans hj, .inl List.prefix_rfl⟩
    · rw [hclean] at hd
      cases hd

/-- However a run ends, the commits and the changes that were there outlive it. -/
theorem ensures_startWith_outlives (hwf : s.repo.WellFormed) :
    (startWith accepted o).Ensures (world F)
      (fun _ _ s' => Outlives accepted o s.repo s'.repo)
      (fun _ _ s' => Outlives accepted o s.repo s'.repo) x s := by
  have ht := hwf.toTidy
  refine ensures_startWith.mpr (ensures_settle.mono ?_ ?_)
  · intro p x₁ s hend
    obtain ⟨w, flow⟩ := p
    obtain ⟨rfl, hfits⟩ := hend
    obtain ⟨current, h, hc, hh⟩ := hwf.onBranch
    cases hc.symm.trans hfits.current
    obtain ⟨verdict, hacc⟩ := hfits.description
    cases flow with
    | newRequest =>
        exact (ensures_newRequest_safe hc hh).weaken fun _ _ =>
          .of_safe ht ⟨_, verdict, hacc, rfl⟩
    | updateExisting =>
        exact (ensures_updateExisting_safe ht hc hh).weaken fun _ _ => .of_updated ht hfits
  · rintro e x₁ s' rfl
    exact .refl _

/-- Whatever calls fail, a run loses no commit of a local branch and no change that was
not committed. -/
theorem work_outlives_run (raw : String) (o : Options) (x : Session) (s : Site)
    (faults : List Fault) (hf : ∀ f ∈ faults, f.OnlyFails) (hwf : s.repo.WellFormed) :
    Outlives (Description.accept raw o.force) o s.repo
      ((start raw o x).run answer.withFaults (faults, s)).world.2.repo := by
  rw [start_eq]
  generalize Description.accept raw o.force = accepted
  have hrun : (startWith accepted o).Ensures (world True) _ _ x s := ensures_startWith_outlives hwf
  exact ends_both.mp (hrun.ends_run_withFaults hf)

/-- A push fails, and so does the reset that would undo the commit.  The commit stays. -/
theorem work_outlives_run_changed :
    let run := (start "feat: add widget" { branch := some "topic" } .sample).run
      answer.withFaults ([.outage fun c => c = .push "topic" .tracking || c = .resetSoft "c0"],
        .changed)
    run.world.2.repo.branches.get? "topic" = some ["c0", "n1"] ∧
      Outlives (Description.accept "feat: add widget" false) { branch := some "topic" }
        changed.repo run.world.2.repo := by
  have hwf : changed.repo.WellFormed :=
    { toTidy := .of_entries (by decide +kernel), onBranch := ⟨"main", ["c0"], rfl, rfl⟩ }
  have hf : ∀ f ∈ [Fault.outage fun c => c = .push "topic" .tracking || c = .resetSoft "c0"],
      f.OnlyFails := by
    intro f h
    cases List.mem_singleton.mp h
    exact Fault.onlyFails_outage _
  exact ⟨by decide +kernel, work_outlives_run _ _ _ _ _ hf hwf⟩

end Ship

end Shipment
