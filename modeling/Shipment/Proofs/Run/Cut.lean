import Shipment.Proofs.Repository.World
import Shipment.Run.NewRequest

/-!
# Cutting a branch

What the pieces that cut a new branch do to a site, with or without faults.
-/

namespace Shipment

open Site

namespace Repository

/-- How far a cut branch has come: whether it was committed to, and the repository. -/
inductive Progress (message branch : String) (r : Repository) : Bool → Repository → Prop where
  /-- Nothing was done. -/
  | untouched : Progress message branch r false r
  /-- The changes were staged. -/
  | staged : r.isClean = false → Progress message branch r false { r with staged := true }
  /-- The changes were committed. -/
  | committed : r.isClean = false → Progress message branch r true (r.committed branch message)

namespace Progress

variable {message branch : String} {r r' : Repository} {b : Bool}

theorem current (h : Progress message branch r b r') : r'.current = r.current := by
  cases h with
  | untouched => rfl
  | staged hcl => rfl
  | committed hcl => rfl

/-- What is staged is a change. -/
theorem isClean_of_staged (h : Progress message branch r false r') (hs : r'.staged = true) :
    r.isClean = false := by
  cases h with
  | untouched =>
      rw [isClean, hs]
      exact Bool.and_false _
  | staged hcl => exact hcl

/-- Staging does not change what a commit makes. -/
theorem committed_eq (h : Progress message branch r false r') :
    r'.committed branch message = r.committed branch message := by
  cases h with
  | untouched => rfl
  | staged hcl => rfl

end Progress

end Repository

namespace Ship

open Repository

variable {F : Prop} {x : Session} {s : Site} {branch : String} {cp : Checkpoint}

theorem ensures_isDirty {Q : Bool → Session → Site → Prop} {E : Failure → Session → Site → Prop} :
    isDirty.Ensures (world F) Q E x s ↔ Q (!s.repo.isClean) x s ∧ (F → ∀ e, E e x s) := by
  rw [isDirty, ensures_bind]
  exact ensures_question rfl

/-- The site and the session of a cut branch. -/
structure CutAt (message branch : String) (cp : Checkpoint) (s : Site) (committed : Bool)
    (x' : Session) (s' : Site) : Prop where
  progress : s.repo.Progress message branch committed s'.repo
  host : s'.host = s.host
  checkpoint : x'.checkpoint = some { cp with committed }

/-- Commit what is staged, and refuse if nothing is. -/
def commitIfStaged (d : Description) (branch : String) : Ship Bool := do
  if ← ask .hasStagedChanges then
    execute (.commit d.text)
    return true
  else fail (.emptyCommit branch)

/-- Either what is staged is committed, or nothing is. -/
theorem ensures_commitIfStaged {d : Description} {repo : Repository}
    (hp : s.repo.Progress d.text branch false repo) (hc : repo.current = some branch)
    (hx : x.checkpoint = some { cp with committed := false }) :
    (commitIfStaged d branch).Ensures (world F)
      (fun b x' s' => CutAt d.text branch cp s b x' s' ∧ (b = false → s.repo.isClean = true))
      (fun _ x' s' => CutAt d.text branch cp s false x' s') x { s with repo } := by
  have hcut : CutAt d.text branch cp s false x { s with repo } := ⟨hp, rfl, hx⟩
  refine ensures_bind.mpr ((ensures_question rfl).mpr ⟨?_, fun _ _ => hcut⟩)
  split
  · refine ensures_bind.mpr (.execute (by simp [Action.call]) fun r repo' he => ?_)
    cases he with
    | failed e => exact hcut
    | asked a hq => cases hq
    | detached e hn => cases hn.symm.trans hc
    | committed hs hc' =>
        cases hc'.symm.trans hc
        refine ⟨⟨?_, rfl, ?_⟩, fun h => by cases h⟩
        · rw [hp.committed_eq]
          exact .committed (hp.isClean_of_staged hs)
        · simp only [Session.noted, hx, Option.map_some]
  · exact hcut

/-- Changes are committed if there are any.  A failure leaves them in the tree. -/
theorem ensures_commitChanges {d : Description} (hc : s.repo.current = some branch)
    (hx : x.checkpoint = some { cp with committed := false }) :
    (commitChanges d branch).Ensures (world F)
      (fun b x' s' => CutAt d.text branch cp s b x' s' ∧ (b = false → s.repo.isClean = true))
      (fun _ x' s' => CutAt d.text branch cp s false x' s') x s := by
  refine ensures_bind.mpr (ensures_isDirty.mpr ⟨?_, fun _ _ => ⟨.untouched, rfl, hx⟩⟩)
  split
  · rename_i hd
    have hcl : s.repo.isClean = false := by simpa using hd
    refine ensures_bind.mpr (ensures_enter.mpr (ensures_bind.mpr ?_))
    refine .execute (by simp [Action.call]) fun r repo he => ?_
    cases he with
    | failed e => exact ⟨.untouched, rfl, hx⟩
    | asked a hq => cases hq
    | staged hd hi => exact ensures_commitIfStaged (.staged hcl) hc hx
    | nothing hd => exact ensures_commitIfStaged .untouched hc hx
  · rename_i hd
    exact ⟨⟨.untouched, rfl, hx⟩, fun _ => by simpa using hd⟩

/-- A branch that was cut, committed to if there were changes, and pushed. -/
def CutPushed (message branch : String) (s : Site) (committed : Bool) (s' : Site) : Prop :=
  ∃ repo h, s.repo.Progress message branch committed repo ∧
    (committed = false → s.repo.isClean = true) ∧ repo.resolve? branch = some h ∧
    repo.refusal branch .tracking h = none ∧
    s' = { s with
      repo := { repo with
        remote := repo.remote.set branch h, tracking := repo.tracking.set branch h } }

/-- A cut branch is pushed with its changes committed, or has come some of the way. -/
theorem ensures_commitAndPush {d : Description} (cp : Checkpoint)
    (hc : s.repo.current = some branch)
    (hx : x.checkpoint = some { cp with committed := false }) :
    (commitAndPush d branch).Ensures (world F)
      (fun b _ s' => CutPushed d.text branch s b s')
      (fun _ x' s' => ∃ b, CutAt d.text branch cp s b x' s') x s := by
  refine (ensures_commitChanges hc hx).bind (fun _ _ _ h => ⟨false, h⟩) ?_
  intro b x' z hend
  obtain ⟨repo, host⟩ := z
  obtain ⟨hcut, hcl⟩ := hend
  refine ensures_bind.mpr (ensures_enter.mpr (ensures_bind.mpr ?_))
  refine .execute (by simp [Action.call]) fun r repo' he => ?_
  cases he with
  | failed e => exact ⟨b, hcut.progress, hcut.host, hcut.checkpoint⟩
  | asked a hq => cases hq
  | @pushed _ _ h hv hr =>
      refine ⟨repo, h, hcut.progress, hcl, hv, hr, ?_⟩
      cases hcut.host
      rfl

/-! ## Going back -/

/-- A site somewhere on the way back to a checkpoint. -/
structure GoneBack (branch : String) (committed : Bool) (s s' : Site) : Prop where
  others : ∀ k, k ≠ branch → s'.repo.branches.get? k = s.repo.branches.get? k
  tree : s' = s ∨ s'.repo.isClean = (s.repo.isClean && !committed)
  host : s'.host = s.host

/-- A repository with what a branch committed in the tree again. -/
def uncommitted (c : Checkpoint) (h : History) (r : Repository) : Repository :=
  if c.committed then
    { r with branches := r.branches.set c.created h, staged := true, dirty := true }
  else r

/-- A repository with a branch undone. -/
def undone (c : Checkpoint) (h : History) (r : Repository) : Repository :=
  { uncommitted c h r with
    branches := (uncommitted c h r).branches.erase c.created
    current := some c.prior }

theorem isClean_uncommitted (c : Checkpoint) (h : History) (r : Repository) :
    (uncommitted c h r).isClean = (r.isClean && !c.committed) := by
  unfold uncommitted
  split
  · rename_i hc
    simp [isClean, hc]
  · rename_i hc
    simp [hc]

theorem get?_uncommitted {c : Checkpoint} {k : String} (hk : k ≠ c.created) (h : History)
    (r : Repository) : (uncommitted c h r).branches.get? k = r.branches.get? k := by
  unfold uncommitted
  split
  · exact Table.get?_set_of_ne (Ne.symm hk) _ _
  · rfl

/-- On the way back, with the commit undone and the branch still there. -/
theorem GoneBack.of_uncommitted {t : Site} {h : History}
    (hb : s.repo.branches = (uncommitted cp h t.repo).branches)
    (ht : s.repo.isClean = (uncommitted cp h t.repo).isClean) (hh : s.host = t.host) :
    GoneBack cp.created cp.committed t s := by
  refine ⟨fun k hk => ?_, .inr (ht.trans (isClean_uncommitted cp h t.repo)), hh⟩
  rw [hb]
  exact get?_uncommitted hk h t.repo

/-- Switch to the prior branch and delete the other. -/
def leave (c : Checkpoint) : Ship Unit := do
  ask (.checkout c.prior)
  ask (.deleteBranch c.created)

/-- Leaving a branch without its commits undoes it, or gets some of the way. -/
theorem ensures_leave {t : Site} {h : History} (he : s.repo = uncommitted cp h t.repo)
    (hh : s.host = t.host) :
    (leave cp).Ensures (world F)
      (fun _ x' s' => x' = x ∧ GoneBack cp.created cp.committed t s' ∧
        s'.repo = undone cp h t.repo)
      (fun _ x' s' => x' = x ∧ GoneBack cp.created cp.committed t s') x s := by
  have hbranches := congrArg Repository.branches he
  have htree := congrArg isClean he
  refine ensures_bind.mpr (.ask (by simp) fun r repo hr => ?_)
  cases hr with
  | failed e => exact ⟨rfl, .of_uncommitted hbranches htree hh⟩
  | asked a hq => cases hq
  | checkedOut hb =>
      refine .ask (by simp) fun r repo hr => ?_
      cases hr with
      | failed e => exact ⟨rfl, .of_uncommitted hbranches htree hh⟩
      | asked a hq => cases hq
      | deleted hne =>
          refine ⟨rfl, ⟨fun k hk => ?_, .inr ?_, hh⟩, ?_⟩
          · refine (Table.get?_erase _ _ _).trans ((if_neg hk).trans ?_)
            exact (congrArg (Table.get? k) hbranches).trans (get?_uncommitted hk h t.repo)
          · exact htree.trans (isClean_uncommitted cp h t.repo)
          · rw [undone, ← he]

/-- The steps back to a checkpoint. -/
def stepsBack (c : Checkpoint) : Ship Unit := do
  if c.committed then ask (.resetSoft c.start)
  ask (.checkout c.prior)
  ask (.deleteBranch c.created)

theorem stepsBack_eq : stepsBack cp =
    if cp.committed then ask (.resetSoft cp.start) >>= fun _ => leave cp else leave cp := rfl

theorem footprint_stepsBack (cp : Checkpoint) :
    Footprint (fun c => c.undoes = true) (stepsBack cp) := by
  unfold stepsBack
  refine .when (.ask rfl rfl) ?_
  exact .bind (.ask rfl rfl) fun _ => .ask rfl rfl

/-- Tell of a full return. -/
def tellBack (c : Checkpoint) (back : Bool) : Ship (Option Notice) :=
  if back then do
    let notice := Notice.rolledBack c.created c.prior
    tell (.notice notice)
    return some notice
  else
    return none

theorem rollback_of_none (hx : x.checkpoint = none) : rollback x = .done (.ok none, x) := by
  cases x with
  | mk record namer checkpoint =>
      cases hx
      rfl

theorem rollback_of_some {c : Checkpoint} (hx : x.checkpoint = some c) :
    rollback x = (goBack c >>= tellBack c) { x with checkpoint := none } := by
  cases x with
  | mk record namer checkpoint =>
      cases hx
      rfl

/-- A rollback only undoes. -/
theorem uses_rollback : Uses (fun c => c.undoes = true) rollback := by
  refine Uses.bind (fun _ => trivial) fun x => ?_
  cases x.checkpoint with
  | none => exact fun _ => trivial
  | some cp =>
      refine Uses.bind (fun _ => trivial) fun _ => Uses.bind ?_ fun back => ?_
      · refine (footprint_stepsBack cp).uses.attempt.bind fun r => ?_
        cases r with
        | ok u => exact fun _ => trivial
        | error e => exact fun _ => trivial
      · cases back with
        | false => exact fun _ => trivial
        | true => exact fun _ => trivial

namespace Uses

variable {α : Type} {P : Call → Prop}

theorem orGoBack {m : Ship α} (hm : Uses P m) (hback : ∀ c, c.undoes = true → P c) :
    Uses P (orGoBack m) := by
  refine hm.attempt.bind fun r => ?_
  cases r with
  | ok a => exact fun _ => trivial
  | error e =>
      refine (uses_rollback.mono hback).bind fun n => ?_
      cases n with
      | none => exact fun _ => trivial
      | some n => exact fun _ => trivial

/-- A branch is cut by calls of a kind that has what ships it and what undoes it. -/
theorem cutBranch {w : Setting} (hhead : P .headCommit) (hcreate : P (.createBranch branch))
    (hpush : Uses P (commitAndPush w.description branch))
    (hback : ∀ c, c.undoes = true → P c) : Uses P (cutBranch w branch) := by
  refine Uses.bind (fun _ => trivial) fun _ => (Uses.ask hhead).bind fun start => ?_
  refine (Footprint.execute (a := .createBranch branch) hcreate).uses.bind fun _ => ?_
  refine Uses.bind (fun _ => trivial) fun _ => (hpush.orGoBack hback).bind fun _ => ?_
  exact Uses.bind (fun _ => trivial) fun _ _ => trivial

end Uses

/-- The steps back undo a cut branch, or get some of the way. -/
theorem ensures_stepsBack (hc : s.repo.current = some cp.created) :
    (stepsBack cp).Ensures (world F)
      (fun _ x' s' => x' = x ∧ GoneBack cp.created cp.committed s s' ∧
        ∃ h, (cp.committed = true → upTo? cp.start s.repo.head = some h) ∧
          s'.repo = undone cp h s.repo)
      (fun _ x' s' => x' = x ∧ GoneBack cp.created cp.committed s s') x s := by
  rw [stepsBack_eq]
  by_cases hcm : cp.committed = true
  · rw [if_pos hcm]
    refine ensures_bind.mpr (.ask (by simp) fun r repo he => ?_)
    cases he with
    | failed e => exact ⟨rfl, fun _ _ => rfl, .inl rfl, rfl⟩
    | asked a hq => cases hq
    | @reset _ _ h hu hc' =>
        cases hc'.symm.trans hc
        refine (ensures_leave (s := { s with repo := { s.repo with
          branches := s.repo.branches.set cp.created h, staged := true, dirty := true } })
          (t := s) (h := h) ?_ rfl).mono ?_ fun _ _ _ h => h
        · rw [uncommitted, if_pos hcm]
        · intro u x' s' hend
          obtain ⟨hx, hg, hr⟩ := hend
          exact ⟨hx, hg, h, fun _ => hu, hr⟩
  · rw [if_neg hcm]
    refine (ensures_leave (t := s) (h := []) ?_ rfl).mono ?_ fun _ _ _ h => h
    · rw [uncommitted, if_neg hcm]
    · intro u x' s' hend
      obtain ⟨hx, hg, hr⟩ := hend
      exact ⟨hx, hg, [], fun h => absurd h hcm, hr⟩

theorem ensures_goBack (hc : s.repo.current = some cp.created) :
    (goBack cp).Ensures (world F)
      (fun back x' s' => x' = x ∧ GoneBack cp.created cp.committed s s' ∧ (back = true →
        ∃ h, (cp.committed = true → upTo? cp.start s.repo.head = some h) ∧
          s'.repo = undone cp h s.repo))
      (fun _ _ _ => False) x s := by
  refine ensures_bind.mpr (ensures_attempt.mpr ((ensures_stepsBack hc).mono ?_ ?_))
  · intro u x' s' hend
    obtain ⟨hx, hg, hr⟩ := hend
    exact ⟨hx, hg, fun _ => hr⟩
  · intro e x' s' hend
    obtain ⟨hx, hg⟩ := hend
    exact ⟨hx, hg, fun hb => by cases hb⟩

/-- A rollback never fails.  It tells of the return only if the branch is undone. -/
theorem ensures_rollback (hx : x.checkpoint = some cp) (hc : s.repo.current = some cp.created) :
    rollback.Ensures (world F)
      (fun n x' s' => x' = { x with checkpoint := none } ∧
        GoneBack cp.created cp.committed s s' ∧ (n.isSome = true →
          n = some (.rolledBack cp.created cp.prior) ∧
          ∃ h, (cp.committed = true → upTo? cp.start s.repo.head = some h) ∧
            s'.repo = undone cp h s.repo))
      (fun _ _ _ => False) x s := by
  refine ensures_bind.mpr (ensures_session.mpr ?_)
  rw [hx]
  refine ensures_bind.mpr (ensures_disarm.mpr (ensures_bind.mpr ((ensures_goBack hc).mono ?_ ?_)))
  · intro back x' s' hend
    obtain ⟨rfl, hg, hr⟩ := hend
    cases back with
    | false => exact ⟨rfl, hg, fun h => by cases h⟩
    | true => exact ⟨rfl, hg, fun _ => ⟨rfl, hr rfl⟩⟩
  · exact fun _ _ _ h => h

end Ship

/-- A session that was told of a rollback, if there was one. -/
def Session.told (n : Option Notice) (x : Session) : Session :=
  match n with
  | some notice => x.noticed notice
  | none => x

namespace Ship

section Any

variable {σ α : Type} {W : Surroundings shipping σ} {x : Session} {s : σ}
variable {E : Failure → Session → σ → Prop}

/-- Only calls are made on the way back. -/
theorem ensures_stepsBack_session {cp : Checkpoint} :
    (stepsBack cp).Ensures W (fun _ x' _ => x' = x) (fun _ x' _ => x' = x) x s := by
  have hask {c : Call} {s : σ} :
      (ask c).Ensures W (fun _ x' _ => x' = x) (fun _ x' _ => x' = x) x s :=
    ensures_ask.mpr fun _ _ _ => ends_both.mpr rfl
  have hleave {s : σ} :
      (leave cp).Ensures W (fun _ x' _ => x' = x) (fun _ x' _ => x' = x) x s := by
    refine hask.bind (fun _ _ _ h => h) fun _ x' _ h => ?_
    rw [show x' = x from h]
    exact hask
  rw [stepsBack_eq]
  split
  · refine hask.bind (fun _ _ _ h => h) fun _ x' _ h => ?_
    rw [show x' = x from h]
    exact hleave
  · exact hleave

/-- Going back always ends with a value, whatever fails on the way, and records nothing. -/
theorem ensures_rollback_record :
    rollback.Ensures W (fun _ x' _ => x'.record = x.record) (fun _ _ _ => False) x s := by
  refine ensures_bind.mpr (ensures_session.mpr ?_)
  cases x.checkpoint with
  | none => exact rfl
  | some cp =>
      refine ensures_bind.mpr (ensures_disarm.mpr (ensures_bind.mpr (ensures_bind.mpr ?_)))
      refine ensures_attempt.mpr (ensures_stepsBack_session.mono ?_ ?_)
      · rintro _ _ _ rfl
        exact rfl
      · rintro _ _ _ rfl
        exact rfl

theorem ensures_orGoBack {m : Ship α} {Q : α → Session → σ → Prop} :
    (orGoBack m).Ensures W Q E x s ↔ m.Ensures W Q
      (fun e x s => rollback.Ensures W (fun n x s => E e (x.told n) s) E x s) x s := by
  rw [orGoBack, ensures_bind, ensures_attempt]
  refine iff_of_eq (congrArg (Ensures W m Q · x s) (funext fun e => funext fun x => ?_))
  funext s
  refine propext (ensures_bind.trans (iff_of_eq ?_))
  refine congrArg (Ensures W rollback · E x s) (funext fun n => funext fun x => funext fun s => ?_)
  cases n <;> rfl

theorem ensures_cutBranch {w : Setting} {branch : String} {Q : Bool → Session → σ → Prop} :
    (cutBranch w branch).Ensures W Q E x s ↔
      (ask .headCommit).Ensures W
        (fun start x s => (execute (.createBranch branch)).Ensures W
          (fun _ x s => (commitAndPush w.description branch).Ensures W
            (fun b x s => Q b { x with checkpoint := none } s)
            (fun e x s => rollback.Ensures W (fun n x s => E e (x.told n) s) E x s)
            { x with checkpoint := some { prior := w.current, created := branch, start } } s)
          E x s)
        E (x.entered .creatingBranch) s := by
  simp only [cutBranch, ensures_bind, ensures_enter, ensures_arm, ensures_disarm, ensures_pure,
    ensures_orGoBack]

end Any

variable {F : Prop} {x : Session} {s : Site} {branch : String} {w : Setting}

/-- A branch that was cut and could not be shipped. -/
structure Uncut (message branch : String) (s s' : Site) : Prop where
  /-- The branch had come some way, and then some of it was undone. -/
  undone : ∃ committed repo,
    (s.repo.createBranch branch).Progress message branch committed repo ∧
      GoneBack branch committed { s with repo } s'

/-- What cutting a branch does: it ends with the branch on `origin`, or before the
branch was created, or on the way back. -/
theorem ensures_cutBranch_world :
    (cutBranch w branch).Ensures (world F)
      (fun b _ s' => CutPushed w.description.text branch
        { s with repo := s.repo.createBranch branch } b s')
      (fun _ _ s' => s' = s ∨ Uncut w.description.text branch s s') x s := by
  refine ensures_cutBranch.mpr ((ensures_question rfl).mpr ⟨?_, fun _ _ => .inl rfl⟩)
  refine .execute (by simp [Action.call]) fun r repo he => ?_
  cases he with
  | failed e => exact .inl rfl
  | asked a hq => cases hq
  | created =>
      let cp : Checkpoint :=
        { prior := w.current, created := branch, start := s.repo.head.getLastD "" }
      refine (ensures_commitAndPush cp rfl rfl).mono (fun _ _ _ h => h) ?_
      intro e x' z hend
      obtain ⟨repo, host⟩ := z
      obtain ⟨b, hp, hh, hx⟩ := hend
      cases hh
      have hc : repo.current = some branch := hp.current
      refine (ensures_rollback hx hc).mono ?_ fun _ _ _ h => h.elim
      intro n x'' s'' hend
      obtain ⟨-, hg, -⟩ := hend
      exact .inr ⟨b, repo, hp, hg⟩

end Ship

end Shipment
