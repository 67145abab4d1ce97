import Shipment.Proofs.Sync

/-!
# What an update ships

An update without sync puts what is changed into one new commit on its branch, and pushes
the branch without force.  `origin` takes the branch if it does not have it, or has it with
commits the branch goes on from.  Otherwise the push is rejected, and the commit stays here.

What there is to push is counted twice, against the branch on `origin`, or against the base
if there is none.  The second count is never zero in a run that goes on after the first,
because a new commit is in no history that was fetched.  So whatever is shipped is pushed.
-/

namespace Shipment

namespace Repository

variable {r r' : Repository} {branch message : String} {h k : History}

/-! ## Committing and pushing -/

/-- What is staged, committed. -/
def committedIfStaged (branch message : String) (r : Repository) : Repository :=
  if r.staged then r.committed branch message else r

/-- A history with the commit of what is staged. -/
def grown (h : History) (r : Repository) : History :=
  if r.staged then h ++ [r.nextId] else h

theorem commit_eq_ok (hs : r.staged = true) (hc : r.current = some branch) :
    r.commit message = (.ok (), r.committed branch message) := by
  unfold commit
  rw [if_pos hs]
  simp only [setHead_of_some (r := (r.issue message).2) hc]
  rfl

theorem push_eq_error {mode : PushMode} {words : String} (hv : r.resolve? branch = some h)
    (hr : r.refusal branch mode h = some words) :
    r.push branch mode = .error (.vcs words) := by
  unfold push resolve
  rw [hv]
  simp only [Bind.bind, Except.bind, hr]

/-- `origin` does not have the branch, or the history goes on from what it has. -/
def Follows (branch : String) (k : History) (r : Repository) : Prop :=
  ∀ there, r.remote.get? branch = some there → there <+: k

/-- A push without force is for histories that go on from what `origin` has. -/
theorem refusal_tracking (hf : r.Follows branch k) : r.refusal branch .tracking k = none := by
  unfold refusal
  cases hr : r.remote.get? branch with
  | none => rfl
  | some there => simp [hf there hr]

theorem refusal_tracking_of_not (hf : ¬r.Follows branch k) :
    r.refusal branch .tracking k = some "! [rejected] (non-fast-forward)" := by
  simp only [Follows, not_forall] at hf
  obtain ⟨there, hr, hp⟩ := hf
  simp [refusal, hr, hp]

theorem head_committedIfStaged (message : String) (hc : r.current = some branch)
    (hh : r.branches.get? branch = some h) :
    (r.committedIfStaged branch message).branches.get? branch = some (r.grown h) := by
  unfold committedIfStaged grown
  split
  · rw [committed, head_eq hc hh]
    exact Table.get?_set_self _ _ _
  · exact hh

theorem current_committedIfStaged :
    (r.committedIfStaged branch message).current = r.current := by
  unfold committedIfStaged
  split <;> rfl

theorem remote_committedIfStaged :
    (r.committedIfStaged branch message).remote = r.remote := by
  unfold committedIfStaged
  split <;> rfl

theorem follows_committedIfStaged :
    (r.committedIfStaged branch message).Follows branch k ↔ r.Follows branch k := by
  rw [Follows, Follows, remote_committedIfStaged]

/-- A history with a new commit has one more commit that another lacks. -/
theorem missing_grown_pos {a : History} (hn : r.nextId ∉ a)
    (hsome : updateIsNoOp r.staged (missing a h).length false = false) :
    0 < (missing a (r.grown h)).length := by
  unfold grown
  split
  · apply List.length_pos_of_mem (a := r.nextId)
    simp [mem_missing, hn]
  · rename_i hs
    simp [updateIsNoOp, hs] at hsome
    exact List.length_pos_iff.mpr (by simpa [missing] using hsome)

/-- Staging moves one flag. -/
theorem stageAll_eq (r : Repository) (tracking : Table String History) :
    stageAll { r with tracking } = { r with tracking, staged := r.stageAll.staged } := by
  simp only [stageAll]
  split <;> rfl

theorem grown_stageAll (h : History) (r : Repository) (tracking : Table String History) :
    (stageAll { r with tracking }).grown h = r.stageAll.grown h := by
  have he : r.stageAll = { r with staged := r.stageAll.staged } := stageAll_eq r r.tracking
  rw [stageAll_eq, he]
  rfl

/-! ## What becomes of the branch -/

/-- A branch has got one commit of what could be staged, if anything could.  No other branch
has changed, here or on `origin`. -/
structure Extended (branch message : String) (h k : History) (r r' : Repository) : Prop where
  unstaged : r.stageAll.staged = false → k = h
  staged : r.stageAll.staged = true → ∃ id, k = h ++ [id] ∧ r.New id ∧ r'.message id = message
  current : r'.current = r.current
  here : r'.branches.get? branch = some k
  branches : ∀ other, other ≠ branch → r'.branches.get? other = r.branches.get? other
  remote : ∀ other, other ≠ branch → r'.remote.get? other = r.remote.get? other

namespace Extended

/-- What was fetched before does not matter. -/
theorem of_looked (ht : r.Tidy) (hc : r.current = some branch)
    (hh : r.branches.get? branch = some h) (message : String) (tracking : Table String History) :
    Extended branch message h (r.stageAll.grown h) r
      ((stageAll { r with tracking }).committedIfStaged branch message) := by
  have hstage := stageAll_eq r tracking
  have hgrown := grown_stageAll h r tracking
  refine ⟨fun hs => by simp [grown, hs], fun hs => ⟨r.nextId, ?_, ht.new_nextId, ?_⟩, ?_, ?_,
    fun other hne => ?_, fun other _ => ?_⟩
  · rw [← hgrown, hstage]
    simp [grown, hs, nextId]
  · rw [hstage, committedIfStaged, if_pos hs]
    exact message_issue _ _
  · rw [current_committedIfStaged, hstage]
  · rw [← hgrown]
    apply head_committedIfStaged
    · rw [hstage, hc]
    · rw [hstage, hh]
  · unfold committedIfStaged
    rw [hstage]
    split
    · exact Table.get?_set_of_ne hne.symm _ _
    · rfl
  · rw [remote_committedIfStaged, hstage]

theorem pushed (hx : Extended branch message h k r r') (tracking : Table String History) :
    Extended branch message h k r
      { r' with remote := r'.remote.set branch k, tracking } := by
  refine ⟨hx.unstaged, hx.staged, hx.current, hx.here, hx.branches, fun other hne => ?_⟩
  exact (Table.get?_set_of_ne hne.symm _ _).trans (hx.remote other hne)

end Extended

end Repository

/-- A run is to update a branch that is here without a sync, beside a base that `origin` has.
No request of the branch stands in the way. -/
structure Setting.Updates (o : Options) (s : Site) (h onto : History) (w : Setting) : Prop where
  sync : o.sync = false
  here : s.repo.branches.get? w.current = some h
  base : s.repo.remote.get? w.base = some onto
  unmerged : ∀ pr, PullRequest.forHead w.current s.host.requests = some pr → pr.state ≠ .merged

namespace Ship

open Site Repository

variable {s s' : Site} {w : Setting} {o : Options} {h onto a : History} {found : Option String}

/-! ## Looking -/

theorem reaches_lookUpdate (hw : w.Updates o s h onto) (hc : s.repo.current = some w.current) :
    Reaches s (lookUpdate w o) (fun found s' => SyncSeen w onto s found s')
      fun _ _ => False := by
  apply (gives_checkRequest hw.unmerged).bind
  intro _ _
  apply (reaches_compareWithBase hc hw.here hw.base).bind fun _ _ h => h
  rintro _ _ rfl
  refine .when (fun hsync => ?_) fun _ => reaches_fetchCounterpart_seen hw.base
  cases hw.sync.symm.trans hsync

/-! ## Shipping -/

/-- The commit of what is staged is counted too. -/
theorem reaches_commitStaged {d : Description} {base branch : String}
    (hc : s.repo.current = some branch) (hh : s.repo.branches.get? branch = some h)
    (ha : s.repo.tracking.get? base = some a) :
    Reaches s (commitStaged d (trackingRef base) s.repo.staged (missing a h).length)
      (fun ahead s' => ahead = (missing a (s.repo.grown h)).length ∧
        s' = { s with repo := s.repo.committedIfStaged branch d.text })
      fun _ _ => False := by
  unfold commitStaged
  split
  · rename_i hs
    have hcommit : answer (.commit d.text) s =
        (.ok (), { s with repo := s.repo.committed branch d.text }) := by
      simp only [answer, commit_eq_ok hs hc]
    have hgrown : (s.repo.committed branch d.text).branches.get? branch =
        some (s.repo.grown h) := by
      have hget := head_committedIfStaged d.text hc hh
      rwa [committedIfStaged, if_pos hs] at hget
    apply Reaches.enter
    apply Reaches.execute_bind (a := .commit d.text) (v := ()) hcommit
    refine .ask_end (answer_countCommits (a := a) (b := s.repo.grown h) ?_ ?_) ⟨rfl, ?_⟩
    · exact (resolve?_trackingRef _ _).trans ha
    · exact (resolve?_head (r := s.repo.committed branch d.text) hc).trans hgrown
    · rw [committedIfStaged, if_pos hs]
  · rename_i hs
    rw [Bool.not_eq_true] at hs
    apply Reaches.pure
    simp [grown, committedIfStaged, hs]

/-- A branch is pushed, or rejected because `origin` has commits that it does not go on from. -/
theorem reaches_pushUpdate (staged : Bool) {ahead : Nat} (hsync : o.sync = false)
    (hahead : 0 < ahead) (hp : Plain w.current)
    (hh : s.repo.branches.get? w.current = some h) :
    Reaches s (pushUpdate w o staged ahead)
      (fun out s' => s.repo.Follows w.current h ∧ PushesUpdate w h staged .tracking s out s')
      fun e s' => ¬s.repo.Follows w.current h ∧
        e = .pushRejected w.current "! [rejected] (non-fast-forward)" ∧ s' = s := by
  have hmode : updatePushMode o.sync ahead = some .tracking := by
    simp [updatePushMode, hsync, hahead]
  by_cases hf : s.repo.Follows w.current h
  · refine (reaches_pushUpdate_taken hmode hp hh (refusal_tracking hf)).mono ?_
      fun _ _ h => h.elim
    exact fun _ _ hpushes => ⟨hf, hpushes⟩
  · have hv := (resolve?_of_plain hp s.repo).trans hh
    have hpush := congrArg s.change (push_eq_error hv (refusal_tracking_of_not hf))
    apply Reaches.enter
    rw [hmode]
    exact .execute_error (a := .push w.current .tracking) hpush ⟨hf, rfl, rfl⟩

/-- An update that shipped a history. -/
structure UpdateShips (w : Setting) (h k : History) (s : Site) (out : Outcome) (s' : Site) :
    Prop where
  follows : s.repo.Follows w.current k
  flow : out.flow = .updateExisting
  branch : out.branch = w.current
  result : ∃ request, out.result = .shipped s.repo.stageAll.staged (some .tracking) request
  extended : Extended w.current w.description.text h k s.repo s'.repo
  level : s'.repo.LevelAt w.current k

/-- An update that could not push a history. -/
structure UpdateRejected (w : Setting) (h k : History) (s : Site) (e : Failure) (s' : Site) :
    Prop where
  diverged : ¬s.repo.Follows w.current k
  failure : e = .pushRejected w.current "! [rejected] (non-fast-forward)"
  extended : Extended w.current w.description.text h k s.repo s'.repo
  remote : s'.repo.remote = s.repo.remote
  host : s'.host = s.host

/-- What was staged is shipped, unless there is nothing to push. -/
theorem reaches_shipStaged {base : String} (hsync : o.sync = false)
    (hc : s.repo.current = some w.current) (hp : Plain w.current)
    (hh : s.repo.branches.get? w.current = some h)
    (href : found.getD (trackingRef w.base) = trackingRef base)
    (ha : s.repo.tracking.get? base = some a) (hn : s.repo.nextId ∉ a) :
    let top := { s with repo := s.repo.committedIfStaged w.current w.description.text }
    Reaches s (shipStaged w o found)
      (fun out s' => out.isNoOp = true ∨ s.repo.Follows w.current (s.repo.grown h) ∧
        PushesUpdate w (s.repo.grown h) s.repo.staged .tracking top out s')
      fun e s' => ¬s.repo.Follows w.current (s.repo.grown h) ∧
        e = .pushRejected w.current "! [rejected] (non-fast-forward)" ∧ s' = top := by
  intro top
  have hrev : s.repo.resolve? (found.getD (trackingRef w.base)) = some a := by
    rw [href, resolve?_trackingRef, ha]
  apply Reaches.ask (v := s.repo.staged) rfl
  apply Reaches.ask (answer_countCommits hrev ((resolve?_head hc).trans hh))
  simp only [href]
  split
  · exact .enter fun x => ⟨rfl, .inl rfl⟩
  rename_i hsome
  rw [hsync, Bool.not_eq_true] at hsome
  rw [shipUpdate_eq]
  apply (reaches_commitStaged hc hh ha).bind fun _ _ h => h.elim
  rintro ahead _ ⟨rfl, rfl⟩
  have hgrown := head_committedIfStaged w.description.text hc hh
  have hpush := reaches_pushUpdate s.repo.staged hsync (missing_grown_pos hn hsome) hp
    (s := top) hgrown
  rw [follows_committedIfStaged] at hpush
  exact hpush.mono (fun _ _ hend => .inr hend) fun _ _ h => h

/-- An update that has looked stages everything, and has nothing to push, or pushes it, or is
rejected. -/
theorem reaches_stageAndShip (ht : s.repo.Tidy) (hw : w.Updates o s h onto)
    (hc : s.repo.current = some w.current) (hp : Plain w.current)
    (hseen : SyncSeen w onto s found s') :
    Reaches s' (stageAndShip w o found)
      (fun out s'' => out.isNoOp = true ∨
        UpdateShips w h (s.repo.stageAll.grown h) s out s'')
      fun e s'' => UpdateRejected w h (s.repo.stageAll.grown h) s e s'' := by
  obtain ⟨base, href, ha⟩ := hseen.reference
  obtain ⟨tracking, rfl⟩ := hseen.looked
  have hx := Extended.of_looked ht hc hw.here w.description.text tracking
  -- Whichever of the two the commits are counted against, the new one is not among them.
  have hn : s.repo.nextId ∉ (s.repo.remote.get? w.current).getD onto := by
    cases hr : s.repo.remote.get? w.current with
    | none => exact ht.new_nextId _ (.inr (.inr ⟨_, hw.base⟩))
    | some there => exact ht.new_nextId _ (.inr (.inr ⟨_, hr⟩))
  rw [stageAndShip_eq]
  apply Reaches.enter
  apply Reaches.execute_bind (a := .stageAll) (v := ()) rfl
  rw [← grown_stageAll h s.repo tracking] at hx ⊢
  have hstage := stageAll_eq s.repo tracking
  generalize stageAll { s.repo with tracking } = repo at hx hstage ⊢
  have hfollows : repo.Follows w.current (repo.grown h) ↔
      s.repo.Follows w.current (repo.grown h) := by rw [hstage]; rfl
  have hship := reaches_shipStaged (s := { s with repo }) (w := w) (o := o) (h := h)
    hw.sync (by rw [hstage]; exact hc) hp (by rw [hstage]; exact hw.here) href
    (by rw [hstage]; exact ha) (by rw [hstage]; exact hn)
  refine hship.mono ?_ ?_
  · rintro out z (hnoop | ⟨hf, hpushes⟩)
    · exact .inl hnoop
    · obtain ⟨request, hresult⟩ := hpushes.result
      have hrepo := hpushes.repo
      refine .inr ⟨hfollows.mp hf, hpushes.flow, hpushes.branch, ⟨request, ?_⟩, ?_, ?_⟩
      · rw [hresult]
        simp [hstage]
      · exact hrepo ▸ hx.pushed _
      · exact hrepo ▸ ⟨hx.here, Table.get?_set_self _ _ _, Table.get?_set_self _ _ _⟩
  · rintro e z ⟨hf, he, rfl⟩
    refine ⟨fun h => hf (hfollows.mpr h), he, hx, ?_, rfl⟩
    exact remote_committedIfStaged.trans (by rw [hstage])

/-! ## Whole runs -/

variable {accepted : Except Failure (Description × Verdict)}

/-- Without faults an update ships the changes on top of its branch, or is rejected by `origin`. -/
theorem ensures_startWith_update (ht : s.repo.Tidy) (hp : Plain w.current)
    (hfits : w.Fits accepted o s .updateExisting) (hw : w.Updates o s h onto) {x : Session} :
    (startWith accepted o).Ensures (world False)
      (fun out _ s' => out.isNoOp = true ∨ UpdateShips w h (s.repo.stageAll.grown h) s out s')
      (fun e _ s' => UpdateRejected w h (s.repo.stageAll.grown h) s e s') x s := by
  apply ensures_startWith_of_fits hfits
  intro x' _
  have hupdate : Reaches s (updateExisting w o)
      (fun out s' => out.isNoOp = true ∨ UpdateShips w h (s.repo.stageAll.grown h) s out s')
      (fun e s' => UpdateRejected w h (s.repo.stageAll.grown h) s e s') := by
    rw [updateExisting_eq]
    apply (reaches_lookUpdate hw hfits.current).bind fun _ _ h => h.elim
    intro found s' hseen
    rw [if_neg (by simp [hw.sync])]
    exact reaches_stageAndShip ht hw hfits.current hp hseen
  exact (hupdate x').mono (fun _ _ _ hend => hend.2) fun _ _ _ h => h

/-- An update that is not a no-op puts what can be staged into one commit on its branch.  It
ships the branch, and always by a push, if `origin` has nothing the branch does not go on
from.  Otherwise the push is rejected, and the commit is only here. -/
theorem update_pushes (raw : String) (o : Options) (x : Session) (s : Site) (w : Setting)
    (h onto : History) (ht : s.repo.Tidy) (hp : Plain w.current)
    (hfits : w.Fits (Description.accept raw o.force) o s .updateExisting)
    (hw : w.Updates o s h onto) :
    let run := (start raw o x).run answer s
    (∀ out, run.value.1 = .ok out → out.isNoOp = false) →
    ∃ k, Extended w.current w.description.text h k s.repo run.world.repo ∧
      (s.repo.Follows w.current k → ∃ out request, run.value.1 = .ok out ∧
        out.flow = .updateExisting ∧ out.branch = w.current ∧
        out.result = .shipped s.repo.stageAll.staged (some .tracking) request ∧
        run.world.repo.LevelAt w.current k) ∧
      (¬s.repo.Follows w.current k →
        run.value.1 = .error (.pushRejected w.current "! [rejected] (non-fast-forward)") ∧
        run.world.repo.remote = s.repo.remote ∧ run.world.host = s.host) := by
  rw [start_eq]
  generalize Description.accept raw o.force = accepted at hfits
  intro run hsome
  have hrun := ensures_startWith_update ht hp hfits hw (x := x)
  refine ⟨s.repo.stageAll.grown h, ?_⟩
  cases hv : run.value.1 with
  | ok out =>
      rcases hrun.run_ok hv with hnoop | hships
      · rw [hsome out hv] at hnoop
        cases hnoop
      · obtain ⟨request, hresult⟩ := hships.result
        exact ⟨hships.extended, fun _ => ⟨out, request, rfl, hships.flow, hships.branch, hresult,
          hships.level⟩, fun hn => absurd hships.follows hn⟩
  | error e =>
      have hrejected := hrun.run_error hv
      exact ⟨hrejected.extended, fun hf => absurd hf hrejected.diverged, fun _ =>
        ⟨congrArg Except.error hrejected.failure, hrejected.remote, hrejected.host⟩⟩

/-- Changes on a branch that is behind `origin`, and on one that was never pushed. -/
theorem update_pushes_changed :
    let behind : Site := { repo := {
      current := some "topic"
      dirty := true
      branches := [("main", ["c0"]), ("topic", ["c0"])]
      remote := [("main", ["c0", "c1"]), ("topic", ["c0", "c1"])] } }
    let fresh : Site := { repo := { behind.repo with remote := [("main", ["c0", "c1"])] } }
    let rejected := (start "feat: add widget" {} .sample).run answer behind
    let shipped := (start "feat: add widget" {} .sample).run answer fresh
    (rejected.value.1 = .error (.pushRejected "topic" "! [rejected] (non-fast-forward)") ∧
      rejected.world.repo.remote = behind.repo.remote ∧
      rejected.world.repo.branches.get? "topic" = some ["c0", "n1"]) ∧
    ∃ out request, shipped.value.1 = .ok out ∧ out.flow = .updateExisting ∧
      out.branch = "topic" ∧ out.result = .shipped true (some .tracking) request ∧
      shipped.world.repo.LevelAt "topic" ["c0", "n1"] := by
  intro behind fresh rejected shipped
  let w : Setting := ⟨⟨"feat: add widget"⟩, "topic", "main", "main"⟩
  have haccepted : ∃ verdict, Description.accept "feat: add widget" false =
      .ok (w.description, verdict) := ⟨.accepted, by decide +kernel⟩
  have hp : Plain w.current := by decide +kernel
  have hsome {r : Except Failure Outcome} (h : r.toOption.any Outcome.isNoOp = false) :
      ∀ out, r = .ok out → out.isNoOp = false := by
    rintro out rfl
    exact h
  have hrejects := update_pushes "feat: add widget" {} .sample behind w ["c0"] ["c0", "c1"]
    (.of_entries (by decide +kernel)) hp
    ⟨haccepted, rfl, rfl, rfl, rfl, rfl, rfl, nofun, by decide⟩ ⟨rfl, rfl, rfl, nofun⟩
    (hsome (by decide +kernel))
  have hships := update_pushes "feat: add widget" {} .sample fresh w ["c0"] ["c0", "c1"]
    (.of_entries (by decide +kernel)) hp
    ⟨haccepted, rfl, rfl, rfl, rfl, rfl, rfl, nofun, by decide⟩ ⟨rfl, rfl, rfl, nofun⟩
    (hsome (by decide +kernel))
  rw [show (start _ _ _).run answer behind = rejected from rfl] at hrejects
  rw [show (start _ _ _).run answer fresh = shipped from rfl] at hships
  have hbranch : rejected.world.repo.branches.get? "topic" = some ["c0", "n1"] := by
    decide +kernel
  have hbranch' : shipped.world.repo.branches.get? "topic" = some ["c0", "n1"] := by
    decide +kernel
  obtain ⟨j, hj, -, hrejects⟩ := hrejects
  obtain ⟨k, hk, hships, -⟩ := hships
  cases hj.here.symm.trans hbranch
  cases hk.here.symm.trans hbranch'
  have hbehind : ¬behind.repo.Follows "topic" ["c0", "n1"] := by
    intro hf
    exact absurd (hf ["c0", "c1"] rfl) (by decide)
  obtain ⟨herror, hremote, -⟩ := hrejects hbehind
  exact ⟨⟨herror, hremote, hbranch⟩, hships nofun⟩

end Ship

end Shipment
