import Shipment.Proofs.Run.Faultless
import Shipment.Proofs.Shipped
import Shipment.Proofs.Work

/-!
# What a sync does

An update with sync refuses a tree with changes, and a branch on `origin` with commits the
local one lacks.  Otherwise it puts the commits that the base lacks behind the base, with
new ids and their old messages, and pushes them.  Without faults this never fails: the
branch was fetched, so the lease is good, and with a clean tree there is nothing to commit.
-/

namespace Shipment

namespace Repository

variable {r : Repository} {branch base : String} {h onto : History}

/-- A branch was put behind a base and pushed, and nothing else has changed. -/
structure Synced (branch : String) (onto h : History) (r r' : Repository) : Prop where
  current : r'.current = r.current
  tree : r'.isClean = r.isClean
  /-- The branch is the base and new commits with the messages of its own. -/
  rewritten : ∃ ids, r'.LevelAt branch (onto ++ ids) ∧
    ids.map (message · r') = (missing onto h).map (message · r) ∧
    ids.Nodup ∧ ∀ id ∈ ids, r.New id
  branches : ∀ k, k ≠ branch → r'.branches.get? k = r.branches.get? k
  remote : ∀ k, k ≠ branch → r'.remote.get? k = r.remote.get? k

/-- A repository whose current branch was rebased. -/
def rebasedOnto (branch : String) (onto h : History) (r : Repository) : Repository :=
  { (replay onto (missing onto h) r).2 with
    branches := r.branches.set branch (replay onto (missing onto h) r).1 }

theorem rebasedOnto_eq (branch : String) (onto h : History) (r : Repository) :
    ∃ messages, r.rebasedOnto branch onto h = { r with
      branches := r.branches.set branch (onto ++ freshIds r.issued (missing onto h).length)
      issued := r.issued + (missing onto h).length
      messages } := by
  obtain ⟨messages, e⟩ := replay_eq onto (missing onto h) r
  exact ⟨messages, by rw [rebasedOnto, e]⟩

/-- A rebase onto a base that was fetched. -/
theorem rebase_eq_ok (hc : r.current = some branch) (hh : r.branches.get? branch = some h)
    (hb : r.tracking.get? base = some onto) :
    r.rebase (trackingRef base) = .ok (r.rebasedOnto branch onto h) := by
  obtain ⟨messages, e⟩ := replay_eq onto (missing onto h) r
  have hc' : (replay onto (missing onto h) r).2.current = some branch := by
    rw [e]
    exact hc
  have hresolve : r.resolve (trackingRef base) = .ok onto := by
    rw [resolve, resolve?_trackingRef, hb]
  unfold rebase
  rw [hresolve, head_eq hc hh]
  refine (setHead_of_some hc' _).trans ?_
  rw [rebasedOnto, e]

/-- What pushing a rebased branch comes to, whatever was fetched before. -/
theorem synced_of_push (onto : History) (tracking : Table String History) (ht : r.Tidy)
    (hh : r.branches.get? branch = some h) :
    let k := onto ++ freshIds r.issued (missing onto h).length
    r.Synced branch onto h { rebasedOnto branch onto h { r with tracking } with
      remote := r.remote.set branch k, tracking := tracking.set branch k } := by
  intro k
  have hmessages := messages_replay onto (missing onto h) { r with tracking } fun id hid k =>
    ht.ne_idOf (.inl ⟨branch, hh⟩) (mem_missing.mp hid).1
  obtain ⟨messages, e⟩ := replay_eq onto (missing onto h) { r with tracking }
  simp only [rebasedOnto, e] at hmessages ⊢
  refine ⟨rfl, rfl, ⟨_, ⟨?_, ?_, ?_⟩, hmessages, nodup_freshIds _ _, fun id hid => ?_⟩,
    fun k hk => ?_, fun k hk => ?_⟩
  · exact Table.get?_set_self _ _ _
  · exact Table.get?_set_self _ _ _
  · exact Table.get?_set_self _ _ _
  · -- What was fetched before does not matter: the ids are those that are issued next.
    obtain ⟨k, hk, -, rfl⟩ := mem_freshIds hid
    exact ht.new_idOf hk
  · exact Table.get?_set_of_ne (Ne.symm hk) _ _
  · exact Table.get?_set_of_ne (Ne.symm hk) _ _

end Repository

/-- A run is to sync a branch that is here, with a base that `origin` has.  No request of the
branch stands in the way. -/
structure Setting.Syncs (o : Options) (s : Site) (h onto : History) (w : Setting) : Prop where
  sync : o.sync = true
  here : s.repo.branches.get? w.current = some h
  plain : Repository.Plain w.current
  base : s.repo.remote.get? w.base = some onto
  unmerged : ∀ pr, PullRequest.forHead w.current s.host.requests = some pr → pr.state ≠ .merged

namespace Ship

open Site Repository

variable {s s' : Site} {w : Setting} {o : Options} {h onto : History} {found : Option String}

/-! ## Looking -/

/-- What a sync has fetched: its base, and its branch if `origin` has it. -/
structure SyncSeen (w : Setting) (onto : History) (s : Site) (found : Option String) (s' : Site) :
    Prop where
  looked : s.Looked s'
  base : s'.repo.tracking.get? w.base = some onto
  counterpart : (s.repo.remote.get? w.current = none ∧ found = none) ∨
    ∃ there, s.repo.remote.get? w.current = some there ∧ found = some (trackingRef w.current) ∧
      s'.repo.tracking.get? w.current = some there

namespace SyncSeen

/-- The tracking ref of the branch is not stale. -/
theorem lease (hs : SyncSeen w onto s found s') :
    ∀ there, s.repo.remote.get? w.current = some there →
      s'.repo.tracking.get? w.current = some there := by
  intro there hthere
  rcases hs.counterpart with ⟨hnone, -⟩ | ⟨there', hthere', -, htracking⟩
  · cases hnone.symm.trans hthere
  · cases hthere'.symm.trans hthere
    exact htracking

/-- What the branch is counted against was fetched: the branch on `origin`, or the base. -/
theorem reference (hs : SyncSeen w onto s found s') : ∃ branch,
    found.getD (trackingRef w.base) = trackingRef branch ∧
      s'.repo.tracking.get? branch = some ((s.repo.remote.get? w.current).getD onto) := by
  rcases hs.counterpart with ⟨hnone, rfl⟩ | ⟨there, hthere, rfl, htracking⟩
  · rw [hnone]
    exact ⟨_, rfl, hs.base⟩
  · rw [hthere]
    exact ⟨_, rfl, htracking⟩

end SyncSeen

theorem reaches_requireClean : Reaches s requireClean
    (fun _ s' => s.repo.isClean = true ∧ s' = s)
    fun e s' => s.repo.isClean = false ∧ e = .dirtyTreeDuringSync ∧ s' = s := by
  refine .enter (gives_isDirty.bind ?_)
  rintro _ rfl
  split
  · rename_i hd
    exact .fail ⟨by simpa using hd, rfl, rfl⟩
  · rename_i hd
    exact .pure ⟨by simpa using hd, rfl⟩

/-- A sync that has its base fetches its branch as well, if `origin` has it. -/
theorem reaches_fetchCounterpart_seen (hb : s.repo.remote.get? w.base = some onto) :
    Reaches { s with repo := { s.repo with tracking := s.repo.tracking.set w.base onto } }
      (fetchCounterpart w.current) (fun found s' => SyncSeen w onto s found s')
      fun _ _ => False := by
  refine reaches_fetchCounterpart.mono ?_ fun _ _ h => h
  rintro _ _ (hr | ⟨hr⟩)
  · exact ⟨⟨_, rfl⟩, Table.get?_set_self _ _ _, .inl ⟨hr, rfl⟩⟩
  · rename_i there
    refine ⟨⟨_, rfl⟩, ?_, .inr ⟨there, hr, rfl, Table.get?_set_self _ _ _⟩⟩
    -- The base may be the branch itself, and then it was fetched twice.
    show ((s.repo.tracking.set w.base onto).set w.current there).get? w.base = some onto
    rw [Table.get?_set]
    split
    · rename_i e
      rw [← hb, e]
      exact hr.symm
    · exact Table.get?_set_self _ _ _

/-- A sync looks at a clean tree only. -/
theorem reaches_lookUpdate_sync (hw : w.Syncs o s h onto)
    (hc : s.repo.current = some w.current) :
    Reaches s (lookUpdate w o)
      (fun found s' => s.repo.isClean = true ∧ SyncSeen w onto s found s')
      fun e s' => s.repo.isClean = false ∧ e = .dirtyTreeDuringSync ∧ s.Looked s' := by
  refine (gives_checkRequest hw.unmerged).bind fun _ _ => ?_
  refine (reaches_compareWithBase hc hw.here hw.base).bind (fun _ _ h => h.elim) ?_
  rintro _ _ rfl
  refine .when (fun _ => ?_) fun hn => absurd hw.sync hn
  refine reaches_requireClean.bind ?_ ?_
  · rintro e _ ⟨hdirty, rfl, rfl⟩
    exact ⟨hdirty, rfl, _, rfl⟩
  rintro _ _ ⟨hclean, rfl⟩
  exact (reaches_fetchCounterpart_seen hw.base).mono (fun _ _ hseen => ⟨hclean, hseen⟩)
    fun _ _ h => h.elim

/-! ## Rebasing -/

/-- The branch on `origin` has commits that are not where the local one starts. -/
def Unseen (w : Setting) (h : History) (s : Site) : Prop :=
  ∃ there, s.repo.remote.get? w.current = some there ∧ ¬there <+: h

/-- A sync rebases its branch, unless `origin` has commits of it that are not here. -/
theorem reaches_rebaseOnto (hc : s.repo.current = some w.current)
    (hh : s.repo.branches.get? w.current = some h) (hs : SyncSeen w onto s found s') :
    Reaches s' (rebaseOnto w.current w.base found)
      (fun _ s'' => ¬Unseen w h s ∧
        s'' = { s' with repo := s'.repo.rebasedOnto w.current onto h })
      fun e s'' => Unseen w h s ∧ e = .unseenCommits w.current ∧ s'' = s' := by
  obtain ⟨⟨tracking, rfl⟩, hbase, hcounterpart⟩ := hs
  have hanswer : answer (.rebase (trackingRef w.base))
      { s with repo := { s.repo with tracking } } = (.ok (), _) :=
    congrArg (change _) (rebase_eq_ok (r := { s.repo with tracking }) hc hh hbase)
  rcases hcounterpart with ⟨hnone, rfl⟩ | ⟨there, hthere, rfl, htracking⟩
  · refine .execute (a := .rebase w.base) (v := ()) hanswer ⟨?_, rfl⟩
    rintro ⟨there, hthere, -⟩
    cases hnone.symm.trans hthere
  · have hseen : Unseen w h s ↔ ¬there <+: h := by simp [Unseen, hthere]
    have hhead := (resolve?_head (r := { s.repo with tracking }) hc).trans hh
    have hancestor : isAncestor (trackingRef w.current) "HEAD" { s.repo with tracking } =
        .ok (there.isPrefixOf h) :=
      isAncestor_eq_ok.mpr ⟨there, h, (resolve?_trackingRef _ _).trans htracking, hhead, rfl⟩
    refine .ask (c := .isAncestor _ _) (congrArg (·, _) hancestor) ?_
    split
    · rename_i hp
      refine .execute (a := .rebase w.base) (v := ()) hanswer ⟨?_, rfl⟩
      rw [hseen, not_not]
      exact List.isPrefixOf_iff_prefix.mp hp
    · rename_i hp
      refine .fail ⟨?_, rfl, rfl⟩
      rw [hseen]
      exact fun h => hp (List.isPrefixOf_iff_prefix.mpr h)

/-! ## Shipping -/

/-- An update that has pushed a history and settled its request. -/
structure PushesUpdate (w : Setting) (h : History) (staged : Bool) (mode : PushMode) (s : Site)
    (out : Outcome) (s' : Site) : Prop where
  flow : out.flow = .updateExisting
  branch : out.branch = w.current
  result : ∃ request, out.result = .shipped staged (some mode) request
  repo : s'.repo = { s.repo with
    remote := s.repo.remote.set w.current h
    tracking := s.repo.tracking.set w.current h }

/-- A push that `origin` takes, and the request of the branch after it. -/
theorem reaches_pushUpdate_taken {mode : PushMode} {staged : Bool} {ahead : Nat}
    (hmode : updatePushMode o.sync ahead = some mode) (hp : Plain w.current)
    (hh : s.repo.branches.get? w.current = some h)
    (htaken : s.repo.refusal w.current mode h = none) :
    Reaches s (pushUpdate w o staged ahead) (fun out s' => PushesUpdate w h staged mode s out s')
      fun _ _ => False := by
  have hv := (resolve?_of_plain hp s.repo).trans hh
  refine .enter ?_
  rw [hmode]
  refine .execute_bind (a := .push w.current mode) (v := ())
    (congrArg s.change (push_eq_ok hv htaken)) ?_
  rw [requestForUpdate_eq]
  refine reaches_settleRequest.bind (fun _ _ h => h) fun request s' hs' => ?_
  exact .enter fun x => ⟨rfl, rfl, rfl, ⟨request, rfl⟩, hs'⟩

/-- With a clean tree a sync ships what the branch has. -/
theorem reaches_stageAndShip_sync (hsync : o.sync = true) (hclean : s.repo.isClean = true)
    (hc : s.repo.current = some w.current) (hp : Plain w.current)
    (hh : s.repo.branches.get? w.current = some h) {a : History}
    (href : s.repo.resolve? (found.getD (trackingRef w.base)) = some a)
    (hlease : ∀ there, s.repo.remote.get? w.current = some there →
      s.repo.tracking.get? w.current = some there) :
    Reaches s (stageAndShip w o found)
      (fun out s' => PushesUpdate w h false .forceWithLease s out s') fun _ _ => False := by
  have hquiet := quiet_of_isClean hclean
  have hmode : updatePushMode o.sync (missing a h).length = some .forceWithLease := by
    simp [updatePushMode, hsync]
  refine .enter (.execute_bind (stageAll_of_quiet hquiet) ?_)
  refine .ask (v := false) (congrArg (fun b => (Except.ok b, s)) hquiet.1) ?_
  refine .ask (answer_countCommits href ((resolve?_head hc).trans hh)) ?_
  rw [if_neg (by simp [updateIsNoOp, hsync])]
  exact reaches_pushUpdate_taken hmode hp hh (refusal_forceWithLease hlease)

/-! ## Whole runs -/

variable {accepted : Except Failure (Description × Verdict)}

/-- A sync that shipped. -/
structure SyncShips (w : Setting) (onto h : History) (s : Site) (out : Outcome) (s' : Site) :
    Prop where
  clean : s.repo.isClean = true
  seen : ¬Unseen w h s
  flow : out.flow = .updateExisting
  branch : out.branch = w.current
  result : ∃ request, out.result = .shipped false (some .forceWithLease) request
  synced : s.repo.Synced w.current onto h s'.repo

/-- A sync that was refused. -/
structure SyncRefuses (w : Setting) (h : History) (s : Site) (e : Failure) (s' : Site) : Prop where
  looked : s.Looked s'
  reason : s.repo.isClean = false ∧ e = .dirtyTreeDuringSync ∨
    s.repo.isClean = true ∧ Unseen w h s ∧ e = .unseenCommits w.current

/-- A sync that is not refused pushes the branch from behind its base. -/
theorem reaches_updateExisting_pushes (hw : w.Syncs o s h onto)
    (hc : s.repo.current = some w.current) :
    Reaches s (updateExisting w o)
      (fun out s' => s.repo.isClean = true ∧ ¬Unseen w h s ∧ ∃ tracking,
        PushesUpdate w (onto ++ freshIds s.repo.issued (missing onto h).length) false
          .forceWithLease
          { s with repo := rebasedOnto w.current onto h { s.repo with tracking } } out s')
      fun e s' => SyncRefuses w h s e s' := by
  rw [updateExisting_eq]
  refine (reaches_lookUpdate_sync hw hc).bind ?_ ?_
  · rintro e s₁ ⟨hdirty, he, hs⟩
    exact ⟨hs, .inl ⟨hdirty, he⟩⟩
  rintro found s₁ ⟨hclean, hseen⟩
  refine .when (fun _ => ?_) fun hn => absurd hw.sync hn
  refine (reaches_rebaseOnto hc hw.here hseen).bind ?_ ?_
  · rintro e _ ⟨hunseen, he, rfl⟩
    exact ⟨hseen.looked, .inr ⟨hclean, hunseen, he⟩⟩
  rintro _ _ ⟨hnone, rfl⟩
  obtain ⟨tracking, rfl⟩ := hseen.looked
  obtain ⟨branch, hfound, (ha : tracking.get? branch = some _)⟩ := hseen.reference
  obtain ⟨messages, e⟩ := rebasedOnto_eq w.current onto h { s.repo with tracking }
  show Reaches { s with repo := rebasedOnto w.current onto h { s.repo with tracking } } _ _ _
  rw [e]
  refine Reaches.mono (reaches_stageAndShip_sync hw.sync hclean hc hw.plain
    (Table.get?_set_self _ _ _) (hfound ▸ (resolve?_trackingRef branch _).trans ha) hseen.lease) ?_
    fun _ _ h => h.elim
  intro out s' hpushes
  refine ⟨hclean, hnone, tracking, ?_⟩
  rwa [e]

theorem reaches_updateExisting_sync (ht : s.repo.Tidy) (hw : w.Syncs o s h onto)
    (hc : s.repo.current = some w.current) :
    Reaches s (updateExisting w o) (fun out s' => SyncShips w onto h s out s')
      fun e s' => SyncRefuses w h s e s' := by
  refine (reaches_updateExisting_pushes hw hc).mono ?_ fun _ _ h => h
  rintro out s' ⟨hclean, hnone, tracking, hpushes⟩
  have hsynced := synced_of_push onto tracking ht hw.here
  obtain ⟨messages, e⟩ := rebasedOnto_eq w.current onto h { s.repo with tracking }
  rw [e] at hsynced hpushes
  exact ⟨hclean, hnone, hpushes.flow, hpushes.branch, hpushes.result, hpushes.repo ▸ hsynced⟩

theorem ensures_startWith_sync (ht : s.repo.Tidy) (hfits : w.Fits accepted o s .updateExisting)
    (hw : w.Syncs o s h onto) {x : Session} :
    (startWith accepted o).Ensures (world False)
      (fun out _ s' => SyncShips w onto h s out s') (fun e _ s' => SyncRefuses w h s e s') x s :=
  ensures_startWith_of_fits hfits fun x' _ =>
    (reaches_updateExisting_sync ht hw hfits.current x').mono (fun _ _ _ hend => hend.2)
      fun _ _ _ h => h

/-- A sync refuses changes in the tree and a branch on `origin` that the local one does not
extend.  Otherwise it ships the branch behind its base, whatever the histories were. -/
theorem sync_rebases (raw : String) (o : Options) (x : Session) (s : Site) (w : Setting)
    (h onto : History) (ht : s.repo.Tidy)
    (hfits : w.Fits (Description.accept raw o.force) o s .updateExisting)
    (hw : w.Syncs o s h onto) :
    let run := (start raw o x).run answer s
    (s.repo.isClean = false →
      run.value.1 = .error .dirtyTreeDuringSync ∧ s.Looked run.world) ∧
    (s.repo.isClean = true → Unseen w h s →
      run.value.1 = .error (.unseenCommits w.current) ∧ s.Looked run.world) ∧
    (s.repo.isClean = true → ¬Unseen w h s → ∃ out request, run.value.1 = .ok out ∧
      out.flow = .updateExisting ∧ out.branch = w.current ∧
      out.result = .shipped false (some .forceWithLease) request ∧
      s.repo.Synced w.current onto h run.world.repo) := by
  rw [start_eq]
  generalize Description.accept raw o.force = accepted at hfits
  intro run
  have hrun := ensures_startWith_sync ht hfits hw (x := x)
  cases hv : run.value.1 with
  | ok out =>
      have hships := hrun.run_ok hv
      obtain ⟨request, hresult⟩ := hships.result
      refine ⟨fun hdirty => ?_, fun _ hunseen => absurd hunseen hships.seen, fun _ _ =>
        ⟨out, request, rfl, hships.flow, hships.branch, hresult, hships.synced⟩⟩
      cases hships.clean.symm.trans hdirty
  | error e =>
      obtain ⟨hlooked, ⟨hdirty, rfl⟩ | ⟨hclean, hunseen, rfl⟩⟩ := hrun.run_error hv
      · refine ⟨fun _ => ⟨rfl, hlooked⟩, fun hclean => ?_, fun hclean => ?_⟩
        · cases hclean.symm.trans hdirty
        · cases hclean.symm.trans hdirty
      · refine ⟨fun hdirty => ?_, fun _ _ => ⟨rfl, hlooked⟩, fun _ hseen => absurd hunseen hseen⟩
        cases hclean.symm.trans hdirty

/-- A base that has moved on, under a branch with a closed request and an old tracking ref. -/
theorem sync_rebases_moved :
    let moved : Site := {
      repo := {
        current := some "topic"
        branches := [("main", ["c0"]), ("topic", ["c0", "c1", "c2"])]
        tracking := [("main", ["c0"]), ("topic", ["c0"])]
        remote := [("main", ["c0", "c3"]), ("topic", ["c0", "c1"])]
        messages := [("c0", "initial"), ("c1", "first"), ("c2", "second"), ("c3", "theirs")] }
      host := { requests := [
        ⟨7, "first", "topic", "https://github.com/acme/app/pull/7", .closed⟩] } }
    let run := (start "feat: add widget" { sync := true } .sample).run answer moved
    run.world.repo.remote.get? "topic" = some ["c0", "c3", "n1", "n2"] ∧
      ∃ out request, run.value.1 = .ok out ∧ out.flow = .updateExisting ∧ out.branch = "topic" ∧
        out.result = .shipped false (some .forceWithLease) request ∧
        moved.repo.Synced "topic" ["c0", "c3"] ["c0", "c1", "c2"] run.world.repo := by
  intro moved run
  let w : Setting := ⟨⟨"feat: add widget"⟩, "topic", "main", "main"⟩
  have hfits : w.Fits (Description.accept "feat: add widget" false) { sync := true } moved
      .updateExisting := by
    exact ⟨⟨.accepted, by decide +kernel⟩, rfl, rfl, rfl, rfl, rfl, rfl, nofun, by decide⟩
  have hw : w.Syncs { sync := true } moved ["c0", "c1", "c2"] ["c0", "c3"] := by
    refine ⟨rfl, rfl, by decide +kernel, rfl, ?_⟩
    rintro _ ⟨⟩
    decide
  have hseen : ¬Unseen w ["c0", "c1", "c2"] moved := by
    rintro ⟨_, ⟨⟩, hn⟩
    exact hn (by decide)
  have h := sync_rebases "feat: add widget" { sync := true } .sample moved w _ _
    (.of_entries (by decide +kernel)) hfits hw
  exact ⟨by decide +kernel, h.2.2 (by decide) hseen⟩

end Ship

end Shipment
