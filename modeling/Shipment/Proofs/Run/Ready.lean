import Shipment.Proofs.Repository.Local
import Shipment.Proofs.Run.Cut
import Shipment.Proofs.Run.Flows

/-!
# Before a flow does anything

Until the new request flow cuts its branch the local branches only grow, the tree stays,
and no branch has the settled name.  An update looks at a tree it asks to be clean if it
is to rebase, and has fetched its base by then.
-/

namespace Shipment.Ship

open Site Repository

variable {F : Prop} {x : Session} {s : Site} {w : Setting} {o : Options}

/-! ## Fetching -/

theorem ensures_fetched {branch : String} :
    (execute (.fetch branch)).Ensures (world F)
      (fun _ _ s' => s.Looked s' ∧ s'.repo.UpToDate branch) (fun _ _ _ => True) x s := by
  refine .execute (by simp [Action.call]) fun r repo he => ?_
  cases he with
  | failed e => trivial
  | asked a hq => cases hq
  | @fetched _ h hf => exact ⟨⟨_, rfl⟩, h, hf, Table.get?_set_self _ _ _⟩

/-- A branch that was fetched is up to date from then on. -/
theorem ensures_fetch {α : Type} {branch : String} {k : Unit → Ship α} :
    (execute (.fetch branch) >>= k).Ensures (world F)
      (fun _ _ s' => s'.repo.UpToDate branch) (fun _ _ _ => True) x s := by
  refine ensures_fetched.bind (fun _ _ _ h => h) fun _ x₁ s₁ hup => ?_
  refine (ensures_steady (k ())).mono (fun _ _ s' hs => ?_) fun _ _ _ _ => trivial
  exact hs.repo.upToDate branch hup.2

/-! ## The new request flow -/

/-- A snapshot has whether the tree is clean and how many commits a base lacks. -/
theorem ensures_snapshot {base : String} :
    (snapshot base).Ensures (world F)
      (fun seen _ s' => s' = s ∧ seen.dirty = (!s.repo.isClean) ∧
        s.repo.countCommits (trackingRef base) "HEAD" = .ok seen.ahead)
      (fun _ _ _ => True) x s := by
  have asks {α : Type} {m : Ship α} (h : Footprint Call.Asks m) {x : Session} :
      m.Ensures (world F) (fun _ _ s' => s' = s) (fun _ _ _ => True) x s :=
    h.uses.asks.mono (fun _ _ _ h => h) fun _ _ _ _ => trivial
  have hrest {f : Bool → Nat → Nat → Snapshot} (hdirty : ∀ d a b, (f d a b).dirty = d)
      (hahead : ∀ d a b, (f d a b).ahead = a) {x : Session} :
      Ensures (world F) (do
        let dirty ← isDirty
        let ahead ← aheadOf base
        let behind ← behind base
        return f dirty ahead behind)
        (fun seen _ s' => s' = s ∧ seen.dirty = (!s.repo.isClean) ∧
          s.repo.countCommits (trackingRef base) "HEAD" = .ok seen.ahead)
        (fun _ _ _ => True) x s := by
    refine ensures_bind.mpr (ensures_isDirty.mpr ⟨?_, fun _ _ => trivial⟩)
    refine ensures_bind.mpr (ensures_ask_world.mpr ⟨?_, fun _ _ => trivial⟩)
    show Ends _ _ (s.repo.countCommits _ _, _) _
    cases hn : s.repo.countCommits (trackingRef base) "HEAD" with
    | error e => trivial
    | ok ahead =>
        refine (asks (footprint_behind base)).bind (fun _ _ _ h => h) ?_
        rintro behind x' s' rfl
        exact ⟨rfl, hdirty _ _ _, by rw [hahead]⟩
  refine (asks footprint_currentBranch).bind (fun _ _ _ h => h) ?_
  rintro current x₁ s' rfl
  refine (asks (.question .defaultBranch rfl)).bind (fun _ _ _ h => h) ?_
  rintro default x₂ s' rfl
  split
  · refine (asks (.question (.countCommits _ _) rfl)).bind (fun _ _ _ h => h) ?_
    rintro unpushed x₃ s' rfl
    exact hrest (fun _ _ _ => rfl) fun _ _ _ => rfl
  · exact hrest (fun _ _ _ => rfl) fun _ _ _ => rfl

/-- What a new request has seen.  It has fetched what it compares with. -/
structure Seen (w : Setting) (s : Site) (seen : Snapshot) (s' : Site) : Prop where
  looked : s.Looked s'
  base : s'.repo.UpToDate w.base
  default : w.current = w.default → s'.repo.UpToDate w.default
  dirty : seen.dirty = !s.repo.isClean
  ahead : s'.repo.countCommits (trackingRef w.base) "HEAD" = .ok seen.ahead

/-- A new request sees the changes, and the commits beside what it has fetched. -/
theorem ensures_lookNew_seen :
    (lookNew w).Ensures (world F) (fun seen _ s' => Seen w s seen s') (fun _ _ _ => True) x s := by
  refine ensures_bind.mpr (ensures_enter.mpr ?_)
  refine ensures_fetched.bind (fun _ _ _ h => h) fun _ x₁ s₁ hend => ?_
  obtain ⟨hlooked, hbase⟩ := hend
  refine Ensures.when (F := fun _ _ _ => True) (R := fun _ s' => s.Looked s' ∧
    s'.repo.UpToDate w.base ∧ (w.current = w.default → s'.repo.UpToDate w.default))
    (fun _ => ?_) (fun _ _ _ h => h) (fun hc => ?_) fun x₂ s₂ hend => ?_
  · refine ensures_fetched.steadily.mono (fun _ _ s' hend => ?_) fun _ _ _ _ => trivial
    obtain ⟨⟨hl, hup⟩, hs⟩ := hend
    exact ⟨hlooked.trans hl, hs.repo.upToDate _ hbase, fun _ => hup⟩
  · refine ⟨hlooked, hbase, fun e => ?_⟩
    have hb : w.base = w.default := by simpa [e] using hc
    exact hb ▸ hbase
  · obtain ⟨hl, hup, hdefault⟩ := hend
    refine ensures_bind.mpr (ensures_enter.mpr ?_)
    refine ensures_snapshot.mono ?_ fun _ _ _ h => h
    rintro seen x₃ s₃ ⟨rfl, hdirty, hahead⟩
    exact ⟨hl, hup, hdefault, by rw [hdirty, hl.isClean], hahead⟩

theorem ensures_lookNew :
    (lookNew w).Ensures (world F) (fun _ _ s' => s.repo.Local s'.repo)
      (fun _ _ s' => s.repo.Local s'.repo) x s :=
  Uses.local (footprint_lookNew.uses.mono fun _ => .inl)

/-- A name that was settled is free. -/
theorem ensures_resolveName {d : Description} {asked : Option String} {P : String → Prop}
    (h : (chooseName d asked).Ensures (world F) (fun name _ s' => s' = s ∧ P name)
      (fun _ _ s' => s' = s) x s) :
    (resolveName d asked).Ensures (world F)
      (fun name _ s' => s' = s ∧ P name ∧ s.repo.branches.get? name = none ∧
        s.repo.remote.get? name = none)
      (fun _ _ s' => s' = s) x s := by
  refine h.bind (fun _ _ _ h => h) ?_
  intro name x' s' hend
  obtain ⟨rfl, hp⟩ := hend
  refine ensures_bind.mpr ((ensures_question rfl).mpr ⟨?_, fun _ _ => rfl⟩)
  split
  · exact rfl
  · rename_i hl
    refine ensures_bind.mpr ((ensures_question rfl).mpr ⟨?_, fun _ _ => rfl⟩)
    split
    · exact rfl
    · rename_i hr
      rw [Bool.not_eq_true, Table.has_eq_false] at hl hr
      exact ⟨rfl, hp, hl, hr⟩

/-- The branch `HEAD` is on was brought up to what was fetched of a branch that is here. -/
inductive BroughtUp (branch : String) (s : Site) : Site → Prop where
  | mk {current : String} {h there : History} : s.repo.current = some current →
      s.repo.resolve? branch = some h → s.repo.tracking.get? branch = some there →
      s.repo.head <+: there → BroughtUp branch s { s with repo := { s.repo with
        branches := s.repo.branches.set current there } }

theorem BroughtUp.grows {branch current : String} {h : History} {s' : Site}
    (hs : BroughtUp branch s s') (hc : s.repo.current = some current)
    (hh : s.repo.branches.get? current = some h) : s.repo.Grows s'.repo := by
  cases hs with
  | mk hc' hv ht hp =>
      cases hc'.symm.trans hc
      rw [head_eq hc hh] at hp
      exact grows_of_forwarded hh hp

/-- The default branch ends up with what was fetched of it, or nothing is done. -/
theorem ensures_syncDefault {default : String} :
    (syncDefault default).Ensures (world F) (fun _ _ s' => BroughtUp default s s')
      (fun _ _ s' => s' = s) x s := by
  refine ensures_bind.mpr (ensures_enter.mpr (ensures_bind.mpr ?_))
  refine ensures_ask_world.mpr ⟨?_, fun _ _ => rfl⟩
  show Ends _ _ (s.repo.listCommits _ _, _) s
  cases hlist : s.repo.listCommits (trackingRef default) default with
  | error e => exact rfl
  | ok commits =>
      obtain ⟨-, h, -, hh⟩ := exists_of_listCommits hlist
      show Ensures _ (if _ then _ else _) _ _ _ _
      split
      · refine .execute (by simp [Action.call]) fun r repo he => ?_
        cases he with
        | failed e => exact rfl
        | asked a hq => cases hq
        | forwarded hv hp hc =>
            rw [resolve?_trackingRef] at hv
            exact .mk hc hh hv hp
      · exact rfl

/-- The branch to cut has a name that was chosen and is free.  Then the default branch is
brought up to date if the run is on it. -/
theorem ensures_settleBranch_of {P : String → Prop} {R : Site → Prop}
    (hname : ∀ x, (chooseName w.description o.branch).Ensures (world F)
      (fun name _ s' => s' = s ∧ P name) (fun _ _ s' => s' = s) x s)
    (hsync : ∀ s', w.current = w.default → BroughtUp w.default s s' → R s')
    (hstay : w.current ≠ w.default → R s) :
    (settleBranch w o).Ensures (world F)
      (fun branch _ s' => P branch ∧
        (s.repo.branches.get? branch = none ∧ s.repo.remote.get? branch = none) ∧ R s')
      (fun _ _ s' => s' = s) x s := by
  refine ensures_bind.mpr (ensures_enter.mpr ?_)
  refine (ensures_resolveName (hname _)).bind (fun _ _ _ h => h) ?_
  rintro branch x₁ s₁ ⟨rfl, hp, hfree⟩
  refine Ensures.when (R := fun _ s' => R s') (fun hd => ?_) (fun _ _ _ h => h) hstay
    fun _ _ h => ⟨hp, hfree, h⟩
  exact ensures_syncDefault.mono (fun _ _ s' h => hsync s' hd h) fun _ _ _ h => h

theorem ensures_chooseName_stays {d : Description} {asked : Option String} :
    (chooseName d asked).Ensures (world F) (fun _ _ s' => s' = s ∧ True)
      (fun _ _ s' => s' = s) x s :=
  (footprint_chooseName d asked).uses.asks.mono (fun _ _ _ h => ⟨h, trivial⟩) fun _ _ _ h => h

/-- The branch to cut is new, and the others have only grown. -/
theorem ensures_settleBranch_free {current : String} {h : History}
    (hc : s.repo.current = some current) (hh : s.repo.branches.get? current = some h) :
    (settleBranch w o).Ensures (world F)
      (fun branch _ s' => s.repo.Grows s'.repo ∧ s'.repo.branches.get? branch = none)
      (fun _ _ s' => s' = s) x s := by
  have hsettle := ensures_settleBranch_of (F := F) (x := x) (w := w) (o := o)
    (R := fun s' => s.repo.Grows s'.repo) (fun _ => ensures_chooseName_stays)
    (fun _ _ hs => hs.grows hc hh) fun _ => .refl _
  refine hsettle.mono ?_ fun _ _ _ h => h
  rintro branch x' s' ⟨-, ⟨hfree, -⟩, hg⟩
  exact ⟨hg, hg.absent branch hfree⟩

/-! ## The update flow -/

/-- An update has fetched its base when it has looked. -/
theorem ensures_lookUpdate_upToDate :
    (lookUpdate w o).Ensures (world F) (fun _ _ s' => s'.repo.UpToDate w.base)
      (fun _ _ _ => True) x s := by
  refine (ensures_steady _).bind (fun _ _ _ _ => trivial) fun _ x₁ s₁ _ => ?_
  simp only [compareWithBase, LawfulMonad.bind_assoc]
  exact ensures_bind.mpr (ensures_enter.mpr ensures_fetch)

theorem ensures_requireClean :
    requireClean.Ensures (world F) (fun _ _ s' => s' = s ∧ s.repo.isClean = true)
      (fun _ _ s' => s' = s) x s := by
  refine ensures_bind.mpr (ensures_enter.mpr ?_)
  refine ensures_bind.mpr (ensures_isDirty.mpr ⟨?_, fun _ _ => rfl⟩)
  split
  · exact rfl
  · rename_i hd
    exact ⟨rfl, by simpa using hd⟩

/-- An update that is to rebase has a clean tree. -/
theorem ensures_lookUpdate_clean :
    (lookUpdate w o).Ensures (world F) (fun _ _ _ => o.sync = true → s.repo.isClean = true)
      (fun _ _ _ => True) x s := by
  refine (footprint_checkRequest _).uses.asks.bind (fun _ _ _ _ => trivial) ?_
  rintro _ x₁ s₁ rfl
  have hfetch : Uses Call.Looks (compareWithBase w.base o.sync) :=
    (footprint_compareWithBase _ _).uses.mono fun c hc => hc.imp_right fun e => ⟨w.base, e⟩
  refine hfetch.sees.bind (fun _ _ _ _ => trivial) fun _ x₂ s₂ hlooked => ?_
  refine Ensures.when (F := fun _ _ _ => True)
    (R := fun _ _ => o.sync = true → s₁.repo.isClean = true) (fun _ => ?_)
    (fun _ _ _ h => h) (fun h h' => absurd h' h) fun x₃ s₃ h => ?_
  · refine ensures_requireClean.mono (fun _ _ _ h _ => ?_) fun _ _ _ _ => trivial
    rw [← hlooked.isClean, h.2]
  · exact (ensures_steady _).mono (fun _ _ _ _ => h) fun _ _ _ _ => trivial

end Shipment.Ship
