import Shipment.Proofs.Clearance
import Shipment.Proofs.Run.Faultless
import Shipment.Proofs.Run.Ready
import Shipment.Proofs.Run.Refusal

/-!
# Unpushed commits on the default branch

A run on the default branch cuts no branch, and does not move the default one, before the
list of its unpushed commits was empty.  Without faults the list is right.  A run that has
changes to ship is refused if and only if there are such commits, and the failure lists them.

The first half is about any replies and follows the log.  The second half looks at a site,
where `Guards` is how a run fails: with the list if there is anything on it, and otherwise
with any other failure.
-/

namespace Shipment

/-- Whether a call moves the default branch or cuts a new one. -/
def Call.cuts : Call → Bool
  | mergeFastForward _ | createBranch _ => true
  | _ => false

/-- A run is cleared, and saw nothing unpushed if it is on the default branch. -/
structure Passed (o : Options) (current default : String) (l : Log) : Prop where
  cleared : clearance o current default <+: l
  pushed : current = default → .ok (.listCommits (trackingRef default) default) [] ∈ l

theorem Passed.append {o : Options} {current default : String} {l : Log}
    (h : Passed o current default l) (new : Log) : Passed o current default (l ++ new) :=
  ⟨h.cleared.trans (List.prefix_append l new), fun e => List.mem_append_left new (h.pushed e)⟩

namespace Ship

open Call Site Repository

variable {o : Options} {w : Setting}

/-! ## Nothing is cut before the list was empty -/

section Cuts

variable {l : Log}

/-- A branch is only cut by a run that has passed. -/
def CutsPassed (o : Options) (l : Log) (c : Call) : Prop :=
  c.cuts = true → ∃ current default, Passed o current default l

theorem cutsPassed_of_not_cuts {c : Call} (h : c.cuts = false) : CutsPassed o l c := by
  intro hc
  rw [h] at hc
  cases hc

theorem cuts_of_asks {c : Call} (h : c.Asks) : c.cuts = false := by
  cases c <;> first | rfl | cases h

theorem cuts_of_looks {c : Call} (h : c.Looks) : c.cuts = false := by
  rcases h with h | ⟨branch, rfl⟩
  · exact cuts_of_asks h
  · rfl

theorem cuts_of_updates {c : Call} (h : c.Updates) : c.cuts = false := by
  rcases h with h | ⟨rev, rfl⟩ | rfl | ⟨message, rfl⟩ | ⟨branch, mode, rfl⟩ | ⟨draft, rfl⟩
  · exact cuts_of_looks h
  all_goals rfl

/-- A piece that cuts nothing. -/
theorem heeds_uncut {α : Type} {m : Ship α} {P : Call → Prop} (hm : Uses P m)
    (hP : ∀ c, P c → c.cuts = false) :
    Heeds (CutsPassed o) m (fun _ l' => ∃ new, l' = l ++ new) l :=
  .ofUses hm fun _ c hc => cutsPassed_of_not_cuts (hP c hc)

/-- Behind the check every call is allowed. -/
theorem heeds_passed {α : Type} (m : Ship α) (h : Passed o w.current w.default l) :
    Heeds (CutsPassed o) m (fun _ _ => True) l :=
  (Heeds.ofUses (fun x => (m x).uses_true) fun more _ _ _ => ⟨_, _, h.append more⟩).mono
    fun _ _ _ => trivial

theorem heeds_syncDefault_passed (hl : clearance o w.current w.default <+: l) :
    Heeds (CutsPassed o) (syncDefault w.default) (fun _ l' => Passed o w.current w.default l')
      l := by
  refine .enter (.ask_bind (cutsPassed_of_not_cuts rfl) fun commits => ?_)
  cases commits with
  | cons commit commits => exact .fail
  | nil =>
      have hp : Passed o w.current w.default
          (l ++ [.ok (.listCommits (trackingRef w.default) w.default) []]) :=
        ⟨hl.trans (List.prefix_append _ _), fun _ => List.mem_append_right l (.head _)⟩
      exact .execute (fun _ => ⟨_, _, hp⟩) fun v => hp.append _

theorem heeds_settleBranch_passed (hl : clearance o w.current w.default <+: l) :
    Heeds (CutsPassed o) (settleBranch w o) (fun _ l' => Passed o w.current w.default l') l := by
  refine .enter ?_
  refine (heeds_uncut (footprint_resolveName _ _).uses fun _ => cuts_of_asks).bind ?_
  rintro branch _ ⟨new, rfl⟩
  have hl' := hl.trans (List.prefix_append l new)
  exact .when (fun _ => heeds_syncDefault_passed hl') (fun hne => ⟨hl', fun e => absurd e hne⟩)
    fun _ hp => .pure hp

/-- A new request cuts its branch only once the default branch is found to have nothing unpushed. -/
theorem heeds_newRequest_passed (hl : clearance o w.current w.default <+: l) :
    Heeds (CutsPassed o) (newRequest w o) (fun _ _ => True) l := by
  rw [newRequest_eq]
  refine (heeds_uncut footprint_lookNew.uses fun _ => cuts_of_looks).bind ?_
  rintro seen _ ⟨new, rfl⟩
  have hl' := hl.trans (List.prefix_append l new)
  unfold shipSeen
  split
  · exact (heeds_uncut (footprint_finishNoOp _ _ _ _).uses fun _ => cuts_of_asks).mono
      fun _ _ _ => trivial
  rw [shipNew_eq]
  exact (heeds_settleBranch_passed hl').bind fun branch _ hp => heeds_passed _ hp

theorem heeds_startWith_passed {accepted : Except Failure (Description × Verdict)} :
    Heeds (CutsPassed o) (startWith accepted o) (fun _ _ => True) [] := by
  refine heeds_startWith (fun _ c hc => ?_) fun w flow _ => ?_
  · exact cutsPassed_of_not_cuts (cuts_of_asks (asks_of_questions c hc))
  cases flow with
  | newRequest => exact heeds_newRequest_passed List.prefix_rfl
  | updateExisting =>
      exact (heeds_uncut footprint_updateExisting.uses fun _ => cuts_of_updates).mono
        fun _ _ _ => trivial

end Cuts

end Ship

/-! ## What is listed -/

namespace Repository

variable {r : Repository} {there h : History}

/-- The branch here has a commit that the history lacks. -/
def Beyond (branch : String) (there : History) (r : Repository) : Prop :=
  ∃ h, r.branches.get? branch = some h ∧ ∃ id ∈ h, id ∉ there

/-- The list is that of the commits of a history that another lacks. -/
structure Lists (there h : History) (r : Repository) (commits : List Commit) : Prop where
  exactly : ∀ id, id ∈ commits.map Commit.hash ↔ id ∈ h ∧ id ∉ there
  newestFirst : (commits.map Commit.hash).Sublist h.reverse
  once : (commits.map Commit.hash).Nodup
  subjects : ∀ c ∈ commits, c.subject = r.message c.hash

theorem lists_missing (hn : h.Nodup) :
    r.Lists there h ((missing there h).reverse.map fun id => ⟨id, r.message id⟩) := by
  have hhash : ((missing there h).reverse.map fun id => (⟨id, r.message id⟩ : Commit)).map
      Commit.hash = (missing there h).reverse := by simp [Function.comp_def]
  refine ⟨fun id => ?_, ?_, ?_, fun c hc => ?_⟩
  · rw [hhash, List.mem_reverse, mem_missing]
  · rw [hhash]
    exact List.reverse_sublist.mpr List.filter_sublist
  · rw [hhash]
    exact List.nodup_reverse.mpr (hn.filter _)
  · obtain ⟨id, -, rfl⟩ := List.mem_map.mp hc
    rfl

end Repository

/-- The failure is that of commits that were not pushed. -/
def Failure.TellsUnpushed (e : Failure) : Prop :=
  ∃ branch commits, e = .unpushedCommits branch commits

/-- The name of the new branch: the one asked for, or the one that would be generated. -/
def Setting.nameFor (o : Options) (x : Session) (w : Setting) : String :=
  o.branch.getD (x.namer.generate w.description.text).1

/-- A run on the default branch that has changes to ship under a name that is free. -/
structure Setting.OnDefault (o : Options) (x : Session) (s : Site) (there : History)
    (w : Setting) : Prop where
  same : w.current = w.default
  plain : Repository.Plain w.default
  changed : s.repo.isClean = false
  base : s.repo.remote.has w.base = true
  there : s.repo.remote.get? w.default = some there
  valid : ∀ name, o.branch = some name →
    BranchName.hasForbiddenChars name = false ∧ Repository.isValidName name = true
  free : s.repo.branches.get? (w.nameFor o x) = none ∧ s.repo.remote.get? (w.nameFor o x) = none

namespace Ship

open Site Repository

variable {x x' : Session} {s s' : Site} {w : Setting} {o : Options} {there : History}

/-! ## Looking -/

/-- Looking from the default branch fails only when the branch has no commit yet. -/
theorem reaches_snapshot {base : String} (hc : s.repo.current = some s.repo.default)
    (hp : Plain s.repo.default) {onto : History} (hbase : s.repo.tracking.get? base = some onto)
    (hthere : s.repo.tracking.get? s.repo.default = some there) :
    Reaches s (snapshot base)
      (fun seen s' => (seen.dirty = !s.repo.isClean ∧ ∃ h,
        s.repo.branches.get? s.repo.default = some h) ∧ s' = s)
      (fun e _ => ¬e.TellsUnpushed ∧ s.repo.branches.get? s.repo.default = none) := by
  cases hh : s.repo.branches.get? s.repo.default with
  | some h =>
      refine (gives_snapshot hc hh hbase fun _ => ⟨hp, there, hthere⟩).mono ?_ fun _ _ h => h.elim
      rintro seen _ ⟨⟨hdirty, -⟩, rfl⟩
      exact ⟨⟨hdirty, h, rfl⟩, rfl⟩
  | none =>
      refine (gives_currentBranch hc).bind ?_
      rintro _ rfl
      refine .ask (c := .defaultBranch) rfl ?_
      -- The default branch is counted against `origin` as well, which an unborn branch cannot be.
      rw [if_pos rfl]
      have hcount : s.repo.countCommits (trackingRef s.repo.default) s.repo.default =
          .error (unknownRevision s.repo.default) := by
        unfold countCommits resolve
        rw [resolve?_trackingRef, hthere, resolve?_of_plain hp, hh]
        rfl
      exact .ask_error (c := .countCommits _ _) (congrArg (·, s) hcount) ⟨nofun, rfl⟩

/-- What a run with changes sees from the default branch. -/
structure SeesChanges (w : Setting) (there : History) (s : Site) (seen : Snapshot) (s' : Site) :
    Prop where
  looked : s.Looked s'
  there : s'.repo.tracking.get? w.default = some there
  dirty : seen.dirty = true
  here : ∃ h, s.repo.branches.get? w.default = some h

/-- A run with changes sees them from the default branch, unless that branch is not here. -/
theorem reaches_lookNew {accepted : Except Failure (Description × Verdict)}
    (hfits : w.Fits accepted o s .newRequest) (hw : w.OnDefault o x s there) :
    Reaches s (lookNew w)
      (fun seen s' => SeesChanges w there s seen s')
      (fun e _ => ¬e.TellsUnpushed ∧ s.repo.branches.get? w.default = none) := by
  obtain ⟨onto, honto⟩ := Table.has_eq_true.mp hw.base
  have look {tracking : Table String History} (hbase : tracking.get? w.base = some onto)
      (hthere : tracking.get? w.default = some there) :
      Reaches { s with repo := { s.repo with tracking } } (snapshot w.base)
        (fun seen s' => SeesChanges w there s seen s')
        (fun e _ => ¬e.TellsUnpushed ∧ s.repo.branches.get? w.default = none) := by
    have hc : s.repo.current = some s.repo.default := by
      rw [← hfits.default, ← hw.same]
      exact hfits.current
    refine (reaches_snapshot (s := { s with repo := { s.repo with tracking } }) hc
      (hfits.default ▸ hw.plain) hbase (hfits.default ▸ hthere)).mono ?_ ?_
    · rintro seen _ ⟨⟨hdirty, hh⟩, rfl⟩
      have hchanged : isClean { s.repo with tracking } = false := hw.changed
      refine ⟨⟨tracking, rfl⟩, hthere, ?_, hfits.default ▸ hh⟩
      rw [hdirty, hchanged]
      rfl
    · intro e s' h
      exact hfits.default ▸ h
  refine .enter (.fetch honto (.when (fun hc => ?_) fun hc => ?_))
  · refine .fetch (s := { s with repo := { s.repo with
      tracking := s.repo.tracking.set w.base onto } }) hw.there (.enter (look ?_ ?_))
    · have hne : w.default ≠ w.base := by
        rintro e
        simp [e] at hc
      rw [Table.get?_set_of_ne hne]
      exact Table.get?_set_self _ _ _
    · exact Table.get?_set_self _ _ _
  · -- The base is the default branch, and one fetch was enough.
    have hb : w.base = w.default := by simpa [hw.same] using hc
    refine .enter (look (Table.get?_set_self _ _ _) ?_)
    rw [← hb, Table.get?_set_self, ← honto, hb]
    exact hw.there

/-! ## Settling the branch -/

theorem ensures_resolveName_free (hw : w.OnDefault o x s there) (hx : x'.namer = x.namer)
    (hs : s.Looked s') :
    (resolveName w.description o.branch).Ensures (world False) (fun _ _ s'' => s'' = s')
      (fun _ _ _ => False) x' s' := by
  obtain ⟨hhere, hthere⟩ := hw.free
  obtain ⟨tracking, rfl⟩ := hs
  have hname : (chooseName w.description o.branch).Ensures (world False)
      (fun name _ s'' => name = w.nameFor o x ∧
        s'' = { s with repo := { s.repo with tracking } })
      (fun _ _ _ => False) x' { s with repo := { s.repo with tracking } } := by
    unfold Setting.nameFor
    cases ho : o.branch with
    | none => exact ⟨by rw [hx]; rfl, rfl⟩
    | some name =>
        obtain ⟨hchars, hvalid⟩ := hw.valid name ho
        simp only [chooseName, hchars]
        refine .answered (c := .isValidBranchName name) (v := true) ?_ ⟨rfl, rfl⟩
        exact congrArg (fun b => (Except.ok b, _)) hvalid
  refine hname.bind (fun _ _ _ h => h) ?_
  rintro _ x₁ _ ⟨rfl, rfl⟩
  refine .answered (c := .localBranchExists _) (v := false) ?_ ?_
  · exact congrArg (fun b => (Except.ok b, _)) (Table.has_eq_false.mpr hhere)
  refine .answered (c := .remoteBranchExists _) (v := false) ?_ rfl
  exact congrArg (fun b => (Except.ok b, _)) (Table.has_eq_false.mpr hthere)

/-- How a run that looked at unpushed commits fails. -/
structure Guards (branch : String) (there : History) (s : Site) (e : Failure) (s' : Site) :
    Prop where
  refuses : s.repo.Beyond branch there → e.TellsUnpushed
  tells : ∀ b commits, e = .unpushedCommits b commits → b = branch ∧ s.Looked s' ∧
    s.repo.Beyond branch there ∧ ∃ h, s.repo.branches.get? branch = some h ∧
      s.repo.Lists there h commits

/-- A failure of another kind, where nothing is unpushed. -/
theorem Guards.of_not {branch : String} {e : Failure} (hn : ¬s.repo.Beyond branch there)
    (he : ¬e.TellsUnpushed) : Guards branch there s e s' :=
  ⟨fun h => absurd h hn, fun _ _ h => absurd ⟨_, _, h⟩ he⟩

/-- What the version control system failed is a failure of another kind. -/
theorem not_tellsUnpushed_of_failure (c : Call) (detail : String) :
    ¬(c.failure (.vcs detail)).TellsUnpushed := by
  rintro ⟨_, _, h⟩
  cases c <;> cases h

/-- The default branch is brought up to date only if nothing in it is unpushed.  Otherwise the
failure lists what is. -/
theorem ensures_syncDefault_guards {branch : String} {h : History} (hp : Plain branch)
    (hn : h.Nodup) (hs : s.Looked s') (hthere : s'.repo.tracking.get? branch = some there)
    (hh : s.repo.branches.get? branch = some h) :
    (syncDefault branch).Ensures (world False)
      (fun _ _ _ => ¬s.repo.Beyond branch there)
      (fun e _ s' => Guards branch there s e s') x s' := by
  obtain ⟨tracking, rfl⟩ := hs
  have hlist := listCommits_eq_ok ((resolve?_trackingRef branch _).trans hthere)
    ((resolve?_of_plain hp { s.repo with tracking }).trans hh)
  have hbeyond : s.repo.Beyond branch there ↔ missing there h ≠ [] := by
    rw [Ne, missing_eq_nil]
    simp [Beyond, hh]
  refine ensures_bind.mpr (ensures_enter.mpr (ensures_bind.mpr ?_))
  refine (ensures_question (c := .listCommits _ _) (congrArg (·, _) hlist)).mpr
    ⟨?_, fun h => h.elim⟩
  split
  · rename_i hempty
    have hpushed : ¬s.repo.Beyond branch there := by
      rw [hbeyond, not_not]
      simpa using hempty
    refine (ensures_guarded (G := fun _ => False)
      (Footprint.execute (a := .fastForward branch) (P := fun _ => True) trivial)
      (.execute _)).mono (fun _ _ _ _ => hpushed) ?_
    rintro e x₁ s₁ (he | ⟨c, detail, rfl⟩)
    · exact he.elim
    · exact .of_not hpushed (not_tellsUnpushed_of_failure c detail)
  · rename_i hsome
    have hunpushed : s.repo.Beyond branch there := by
      rw [hbeyond]
      simpa using hsome
    refine ⟨fun _ => ⟨_, _, rfl⟩, ?_⟩
    rintro _ _ ⟨⟩
    exact ⟨rfl, ⟨tracking, rfl⟩, hunpushed, h, hh, lists_missing hn⟩

theorem ensures_settleBranch_guards {h : History} (hw : w.OnDefault o x s there)
    (hx : x'.namer = x.namer) (hn : h.Nodup) (hs : s.Looked s')
    (hthere : s'.repo.tracking.get? w.default = some there)
    (hh : s.repo.branches.get? w.default = some h) :
    (settleBranch w o).Ensures (world False)
      (fun _ _ _ => ¬s.repo.Beyond w.default there)
      (fun e _ s' => Guards w.default there s e s') x' s' := by
  refine ensures_bind.mpr (ensures_enter.mpr ?_)
  have hx : (x'.entered .resolvingBranchName).namer = x.namer := hx
  refine (ensures_resolveName_free hw hx hs).bind (fun _ _ _ h => h.elim) ?_
  rintro branch x₁ _ rfl
  refine Ensures.when (R := fun _ _ => ¬s.repo.Beyond w.default there) (fun _ => ?_)
    (fun _ _ _ h => h) (fun hne => absurd hw.same hne) fun _ _ hpushed => hpushed
  exact ensures_syncDefault_guards hw.plain hn hs hthere hh

/-! ## The flow -/

/-- Once the branch is settled no failure tells of unpushed commits. -/
theorem ensures_cutBranch_pushed {branch : String} :
    (cutBranch w branch).Ensures (world False) (fun _ _ _ => True)
      (fun e _ _ => ¬e.TellsUnpushed) x s := by
  refine ensures_cutBranch.mpr ((ensures_question rfl).mpr ⟨?_, nofun⟩)
  refine ensures_execute_world.mpr ⟨?_, nofun⟩
  refine (ensures_guarded (footprint_commitAndPush w.description branch)
    (FailsBy.commitAndPush w.description branch)).mono (fun _ _ _ _ => trivial) ?_
  intro e x₁ s₁ he
  refine ensures_rollback_record.mono (fun _ _ _ _ => ?_) fun _ _ _ h => h.elim
  rcases he with rfl | ⟨c, detail, rfl⟩
  · exact nofun
  · exact not_tellsUnpushed_of_failure c detail

theorem ensures_requestForNew_pushed {branch : String} {draft : Bool} :
    (requestForNew w branch draft).Ensures (world False) (fun _ _ _ => True)
      (fun e _ _ => ¬e.TellsUnpushed) x s := by
  refine (ensures_guarded (G := fun _ => False) (footprint_requestForNew w branch draft)
    FailsBy.requestForNew).mono (fun _ _ _ h => h) ?_
  rintro e x₁ s₁ (he | ⟨c, detail, rfl⟩)
  · exact he.elim
  · exact not_tellsUnpushed_of_failure c detail

/-- A new request from the default branch gets through only if nothing in it is unpushed. -/
theorem ensures_newRequest_guards {accepted : Except Failure (Description × Verdict)}
    (hd : ∀ h, s.repo.Holds h → h.Nodup) (hfits : w.Fits accepted o s .newRequest)
    (hw : w.OnDefault o x s there) (hx : x'.namer = x.namer) :
    (newRequest w o).Ensures (world False)
      (fun _ _ _ => ¬s.repo.Beyond w.default there)
      (fun e _ s' => Guards w.default there s e s') x' s := by
  rw [newRequest_eq]
  refine (reaches_lookNew hfits hw x').bind ?_ ?_
  · rintro e x₁ s₁ ⟨he, hnone⟩
    refine .of_not ?_ he
    rintro ⟨h, hh, -⟩
    cases hnone.symm.trans hh
  rintro seen x₁ s₁ ⟨hx₁, hs, hthere, hdirty, h, hh⟩
  have hsome : newRequestNoOp (decide (w.current = w.default)) o.new seen.dirty seen.ahead =
      none := by simp [newRequestNoOp, hdirty]
  simp only [shipSeen, hsome]
  rw [shipNew_eq]
  have hn : h.Nodup := hd h (.inl ⟨_, hh⟩)
  refine (ensures_settleBranch_guards hw (hx₁.trans hx) hn hs hthere hh).bind
    (fun _ _ _ h => h) fun branch x₂ s₂ hpushed => ?_
  -- Nothing is unpushed from here on, so any failure will do that does not say there is.
  have other {e : Failure} {s' : Site} (he : ¬e.TellsUnpushed) : Guards w.default there s e s' :=
    .of_not hpushed he
  refine ensures_cutBranch_pushed.bind (fun _ _ _ => other) fun committed x₃ s₃ _ => ?_
  refine ensures_requestForNew_pushed.bind (fun _ _ _ => other) fun request x₄ s₄ _ => ?_
  exact ensures_bind.mpr (ensures_enter.mpr hpushed)

theorem ensures_startWith_guards {accepted : Except Failure (Description × Verdict)}
    (hd : ∀ h, s.repo.Holds h → h.Nodup) (hfits : w.Fits accepted o s .newRequest)
    (hw : w.OnDefault o x s there) :
    (startWith accepted o).Ensures (world False)
      (fun _ _ _ => ¬s.repo.Beyond w.default there)
      (fun e _ s' => Guards w.default there s e s') x s :=
  ensures_startWith_of_fits hfits fun _ hx => ensures_newRequest_guards hd hfits hw hx

/-- A branch is cut, and the default branch moved, only behind an empty list of unpushed
commits.  A run that has changes to ship from the default branch is refused if and only if
there are unpushed commits.  The failure lists each of them once, and nothing but tracking
refs has changed. -/
theorem unpushed_commits_refused (raw : String) (o : Options) :
    (∀ x t out, Program.Runs (start raw o x) t out →
      ∀ before m after, t.moments = before ++ m :: after → m.call.cuts = true →
        ∃ current default, Passed o current default before) ∧
    ∀ (x : Session) (s : Site) (w : Setting) there, (∀ h, s.repo.Holds h → h.Nodup) →
      w.Fits (Description.accept raw o.force) o s .newRequest → w.OnDefault o x s there →
      let run := (start raw o x).run answer s
      ((∃ b commits, run.value.1 = .error (.unpushedCommits b commits)) ↔
        s.repo.Beyond w.default there) ∧
      ∀ b commits, run.value.1 = .error (.unpushedCommits b commits) →
        b = w.default ∧ (∃ h, s.repo.branches.get? w.default = some h ∧
          s.repo.Lists there h commits) ∧ s.Looked run.world := by
  rw [start_eq]
  generalize Description.accept raw o.force = accepted
  constructor
  · intro x t out ht
    exact ((heeds_startWith_passed x).runs ht).2
  · intro x s w there hd hfits hw run
    have hrun := ensures_startWith_guards hd hfits hw
    refine ⟨⟨?_, fun hbeyond => ?_⟩, fun b commits he => ?_⟩
    · rintro ⟨b, commits, he⟩
      exact ((hrun.run_error he).tells b commits rfl).2.2.1
    · cases hv : run.value.1 with
      | ok out => exact absurd hbeyond (hrun.run_ok hv)
      | error e =>
          obtain ⟨b, commits, rfl⟩ := (hrun.run_error hv).refuses hbeyond
          exact ⟨b, commits, rfl⟩
    · obtain ⟨hb, hlooked, -, hlists⟩ := (hrun.run_error he).tells b commits rfl
      exact ⟨hb, hlists, hlooked⟩

/-- Changes behind two commits that `origin` has not seen, with another base. -/
theorem unpushed_commits_refused_diverged :
    let ahead : Site := { repo := {
      dirty := true
      branches := [("main", ["c0", "c1", "c2"])]
      remote := [("main", ["c0", "c3"]), ("next", ["c0"])]
      messages := [("c0", "initial"), ("c1", "first"), ("c2", "second"), ("c3", "theirs")] } }
    let o : Options := { branch := some "topic", base := some "next" }
    let cut := (start "feat: add widget" { branch := some "topic" } .sample).run answer .changed
    let run := (start "feat: add widget" o .sample).run answer ahead
    (∃ before m after, cut.trace.moments = before ++ m :: after ∧ m.call = .createBranch "topic" ∧
      ∃ current default, Passed { branch := some "topic" } current default before) ∧
    (∃ b commits, run.value.1 = .error (.unpushedCommits b commits)) ∧
    ahead.repo.Lists ["c0", "c3"] ["c0", "c1", "c2"] [⟨"c2", "second"⟩, ⟨"c1", "first"⟩] ∧
    ahead.Looked run.world := by
  intro ahead o cut run
  refine ⟨?_, ?_⟩
  · have hm : ∃ m ∈ cut.trace.moments, m.call = .createBranch "topic" := by decide +kernel
    obtain ⟨m, hm, hc⟩ := hm
    obtain ⟨before, after, e⟩ := List.append_of_mem hm
    have hcuts : m.call.cuts = true := by
      rw [hc]
      rfl
    exact ⟨before, m, after, e, hc, (unpushed_commits_refused "feat: add widget" _).1 _ _ _
      (Program.run_runs ..) before m after e hcuts⟩
  · let w : Setting := ⟨⟨"feat: add widget"⟩, "main", "main", "next"⟩
    have hfits : w.Fits (Description.accept "feat: add widget" false) o ahead .newRequest := by
      refine ⟨⟨.accepted, by decide +kernel⟩, rfl, rfl, rfl, rfl, rfl, rfl, ?_, by decide⟩
      rintro _ ⟨⟩
      decide
    have hw : w.OnDefault o .sample ahead ["c0", "c3"] := by
      refine ⟨rfl, by decide +kernel, rfl, by decide, by decide, ?_, by decide, by decide⟩
      rintro _ ⟨⟩
      decide +kernel
    have ht : ahead.repo.Tidy := .of_entries (by decide +kernel)
    have h := (unpushed_commits_refused "feat: add widget" o).2 .sample ahead w ["c0", "c3"]
      ht.distinct hfits hw
    have herror : run.value.1 =
        .error (.unpushedCommits "main" [⟨"c2", "second"⟩, ⟨"c1", "first"⟩]) := by decide +kernel
    obtain ⟨-, ⟨k, hk, hlists⟩, hlooked⟩ := h.2 _ _ herror
    cases hk
    exact ⟨h.1.mpr ⟨["c0", "c1", "c2"], rfl, "c1", by decide, by decide⟩, hlists, hlooked⟩

end Ship

end Shipment
