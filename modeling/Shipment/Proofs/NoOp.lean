import Shipment.Proofs.Update

/-!
# Runs with nothing to do

A run that finds nothing to ship ends as a no-op.  `NothingToShip` says when, in terms of the
histories and the tree, in its three cases: on the default branch, for a new request from
elsewhere, and for an update.  It is exact: a run without faults is a no-op if and only if
there is nothing to ship.

A no-op has only asked, fetched and staged, and what it staged was nothing.  So it leaves
everything but tracking refs as it was.  That holds with faults too.
-/

namespace Shipment

/-- Whether a call is one a no-op can make. -/
def Call.Idles (c : Call) : Prop := c.Looks ∨ c = .stageAll

/-- A run stands on a branch that is here, beside a base that `origin` has.  If the branch is
the default one `origin` has it too. -/
structure Setting.Stands (s : Site) (h onto : History) (w : Setting) : Prop where
  here : s.repo.branches.get? w.current = some h
  base : s.repo.remote.get? w.base = some onto
  default : w.current = w.default →
    Repository.Plain w.default ∧ s.repo.remote.has w.default = true

/-- There is nothing to ship from a branch, beside a base. -/
inductive NothingToShip (o : Options) (w : Setting) (h onto : History) (s : Site) : Prop where
  /-- The default branch has a clean tree. -/
  | clean : w.current = w.default → s.repo.isClean = true → NothingToShip o w h onto s
  /-- A new request from elsewhere would be empty. -/
  | empty : w.current ≠ w.default → o.new = true → s.repo.isClean = true →
      (∀ id ∈ h, id ∈ onto) → NothingToShip o w h onto s
  /-- An update has nothing to commit, and nothing that `origin` lacks. -/
  | pushed : w.current ≠ w.default → o.new = false → o.sync = false →
      s.repo.stageAll.staged = false →
      (∀ id ∈ h, id ∈ (s.repo.remote.get? w.current).getD onto) → NothingToShip o w h onto s

/-- What a run has done that had nothing to do. -/
structure Idled (s s' : Site) (l : List (Moment shipping Site)) : Prop where
  looked : s.Looked s'
  log : ∀ m ∈ l, m.call.Idles

namespace Ship

open Site Repository

variable {F : Prop} {x : Session} {s s' : Site} {w : Setting} {o : Options} {h onto a : History}
variable {accepted : Except Failure (Description × Verdict)}

/-! ## The guards -/

/-- The guard of the new request flow stops the run if there is nothing to ship. -/
theorem newRequestNoOp_isSome (hflow : .newRequest = Flow.select w.current w.default o.new) :
    (newRequestNoOp (decide (w.current = w.default)) o.new (!s.repo.isClean)
      (missing onto h).length).isSome = true ↔ NothingToShip o w h onto s := by
  by_cases hd : w.current = w.default
  · constructor
    · intro hsome
      cases hclean : s.repo.isClean with
      | true => exact .clean hd hclean
      | false => simp [newRequestNoOp, hclean] at hsome
    · rintro (⟨-, hclean⟩ | ⟨hne⟩ | ⟨hne⟩)
      · simp [newRequestNoOp, hd, hclean]
      · exact absurd hd hne
      · exact absurd hd hne
  · have hnew : o.new = true := by simpa [Flow.select, hd] using hflow
    constructor
    · intro hsome
      cases hclean : s.repo.isClean with
      | true =>
          refine .empty hd hnew hclean (missing_eq_nil.mp ?_)
          simpa [newRequestNoOp, hd, hnew, hclean] using hsome
      | false => simp [newRequestNoOp, hclean] at hsome
    · rintro (⟨he⟩ | ⟨-, -, hclean, hall⟩ | ⟨-, hold⟩)
      · exact absurd he hd
      · simp [newRequestNoOp, hd, hnew, hclean, missing_eq_nil.mpr hall]
      · cases hnew.symm.trans hold

/-- The guard of the update flow stops the run if there is nothing to ship. -/
theorem updateIsNoOp_iff (hd : w.current ≠ w.default) (hnew : o.new = false) :
    updateIsNoOp s.repo.stageAll.staged
      (missing ((s.repo.remote.get? w.current).getD onto) h).length o.sync = true ↔
        NothingToShip o w h onto s := by
  constructor
  · intro hnoop
    simp only [updateIsNoOp, Bool.and_eq_true, Bool.not_eq_true', beq_iff_eq,
      List.length_eq_zero_iff] at hnoop
    obtain ⟨⟨hstaged, hnone⟩, hsync⟩ := hnoop
    exact .pushed hd hnew hsync hstaged (missing_eq_nil.mp hnone)
  · rintro (⟨he⟩ | ⟨-, hasked⟩ | ⟨-, -, hsync, hstaged, hall⟩)
    · exact absurd he hd
    · cases hnew.symm.trans hasked
    · simp [updateIsNoOp, hsync, hstaged, missing_eq_nil.mpr hall]

/-! ## The new request flow -/

/-- Without faults a new request sees the changes and counts the commits that its base lacks. -/
theorem reaches_lookNew_counts (hw : w.Stands s h onto) (hc : s.repo.current = some w.current)
    (hd : w.default = s.repo.default) :
    Reaches s (lookNew w)
      (fun seen _ => seen.dirty = (!s.repo.isClean) ∧ seen.ahead = (missing onto h).length)
      fun _ _ => False := by
  have look {tracking : Table String History} (hbase : tracking.get? w.base = some onto)
      (hdefault : w.current = w.default → ∃ there, tracking.get? w.current = some there) :
      Reaches { s with repo := { s.repo with tracking } } (snapshot w.base)
        (fun seen _ => seen.dirty = (!s.repo.isClean) ∧ seen.ahead = (missing onto h).length)
        fun _ _ => False := by
    refine (gives_snapshot (s := { s with repo := { s.repo with tracking } }) hc hw.here hbase
      fun he => ?_).mono (fun _ _ hend => hend.1) fun _ _ h => h
    have he : w.current = w.default := he.trans hd.symm
    exact ⟨he ▸ (hw.default he).1, hdefault he⟩
  refine .enter (.fetch hw.base (.when (fun hfetch => ?_) fun hfetch => ?_))
  · rw [Bool.and_eq_true, decide_eq_true_eq, bne_iff_ne] at hfetch
    obtain ⟨he, hne⟩ := hfetch
    obtain ⟨there, hthere⟩ := Table.has_eq_true.mp (hw.default he).2
    refine .fetch (s := { s with repo := { s.repo with
      tracking := s.repo.tracking.set w.base onto } }) hthere (.enter (look ?_ fun _ => ?_))
    · rw [Table.get?_set_of_ne hne.symm]
      exact Table.get?_set_self _ _ _
    · exact ⟨there, he ▸ Table.get?_set_self _ _ _⟩
  · refine .enter (look (Table.get?_set_self _ _ _) fun he => ?_)
    have hb : w.base = w.default := by simpa [he] using hfetch
    exact ⟨onto, by rw [he, ← hb, Table.get?_set_self]⟩

/-- Without faults a new request is a no-op exactly if there is nothing to ship. -/
theorem ensures_newRequest_iff (hfits : w.Fits accepted o s .newRequest)
    (hw : w.Stands s h onto) :
    (newRequest w o).Ensures (world False)
      (fun out _ _ => out.isNoOp = true ↔ NothingToShip o w h onto s)
      (fun _ _ _ => ¬NothingToShip o w h onto s) x s := by
  have hguard : _ ↔ NothingToShip o w h onto s := newRequestNoOp_isSome hfits.flow
  rw [newRequest_eq]
  refine (reaches_lookNew_counts hw hfits.current hfits.default x).bind
    (fun _ _ _ h => h.elim) ?_
  rintro seen x₁ s₁ ⟨-, hdirty, hahead⟩
  unfold shipSeen
  rw [hdirty, hahead]
  split
  · rename_i reason hreason
    have hnothing : NothingToShip o w h onto s := hguard.mp (by simp [hreason])
    exact ensures_bind.mpr (ensures_enter.mpr ⟨fun _ => hnothing, fun _ => rfl⟩)
  · rename_i hnone
    have hsome : ¬NothingToShip o w h onto s := by
      rw [← hguard, hnone]
      exact nofun
    refine ensures_shipNew_outcome.mono ?_ fun _ _ _ _ => hsome
    rintro out _ _ ⟨-, hships⟩
    simp [hships, hsome]

/-! ## The update flow -/

/-- An update that has looked is a no-op if it has nothing staged and nothing ahead. -/
theorem ensures_stageAndShip_iff {found : Option String}
    (hc : s.repo.current = some w.current) (hh : s.repo.branches.get? w.current = some h)
    (hseen : SyncSeen w onto s found s') :
    let noop := updateIsNoOp s.repo.stageAll.staged
      (missing ((s.repo.remote.get? w.current).getD onto) h).length o.sync
    (stageAndShip w o found).Ensures (world False) (fun out _ _ => out.isNoOp = noop)
      (fun _ _ _ => noop = false) x s' := by
  intro noop
  obtain ⟨base, href, ha⟩ := hseen.reference
  obtain ⟨tracking, rfl⟩ := hseen.looked
  have hstage := stageAll_eq s.repo tracking
  rw [stageAndShip_eq]
  refine ensures_bind.mpr (ensures_enter.mpr (ensures_bind.mpr ?_))
  refine ensures_execute_world.mpr ⟨?_, nofun⟩
  show (shipStaged w o found).Ensures (world False) _ _ _
    { s with repo := stageAll { s.repo with tracking } }
  generalize stageAll { s.repo with tracking } = repo at hstage
  have hrev : repo.resolve? (found.getD (trackingRef w.base)) =
      some ((s.repo.remote.get? w.current).getD onto) := by
    rw [href, resolve?_trackingRef, hstage]
    exact ha
  have hhead : repo.resolve? "HEAD" = some h := by
    rw [hstage]
    exact (resolve?_head hc).trans hh
  have hflag : repo.staged = s.repo.stageAll.staged := by rw [hstage]
  refine .answered (v := s.repo.stageAll.staged) ?_ ?_
  · exact congrArg (fun b => (Except.ok b, _)) hflag
  refine .answered (answer_countCommits (s := { s with repo }) hrev hhead) ?_
  split
  · rename_i hnoop
    exact ensures_bind.mpr (ensures_enter.mpr hnoop.symm)
  · rename_i hsome
    have hsome : noop = false := by simpa using hsome
    exact ensures_shipUpdate_outcome.mono (fun _ _ _ hend => hend.2.trans hsome.symm)
      fun _ _ _ _ => hsome

/-- Without faults an update whose request is not merged is a no-op exactly if there is nothing to
ship. -/
theorem ensures_updateExisting_iff (hfits : w.Fits accepted o s .updateExisting)
    (hw : w.Stands s h onto)
    (hun : ∀ pr, PullRequest.forHead w.current s.host.requests = some pr → pr.state ≠ .merged) :
    (updateExisting w o).Ensures (world False)
      (fun out _ _ => out.isNoOp = true ↔ NothingToShip o w h onto s)
      (fun _ _ _ => ¬NothingToShip o w h onto s) x s := by
  have hd : w.current ≠ w.default := by
    rw [hfits.default]
    exact hfits.away.1
  have hguard : _ ↔ NothingToShip o w h onto s := updateIsNoOp_iff hd hfits.away.2
  cases hsync : o.sync with
  | true =>
      have hsome : ¬NothingToShip o w h onto s := by
        rw [← hguard, hsync]
        simp [updateIsNoOp]
      refine ensures_updateExisting_outcome.mono ?_ fun _ _ _ _ => hsome
      rintro out _ _ ⟨-, hships⟩
      simp [hships hsync, hsome]
  | false =>
      have hlook := reaches_lookUpdate ⟨hsync, hw.here, hw.base, hun⟩ hfits.current x
      rw [updateExisting_eq]
      refine hlook.bind (fun _ _ _ h => h.elim) ?_
      rintro found x₁ s₁ ⟨-, hseen⟩
      rw [if_neg (by simp [hsync])]
      refine (ensures_stageAndShip_iff hfits.current hw.here hseen).mono ?_ ?_
      · intro out _ _ hnoop
        rw [hnoop]
        exact hguard
      · intro e _ _ hsome
        rw [← hguard, hsome]
        exact Bool.false_ne_true

/-! ## What a no-op has done -/

/-- From here the piece has only asked, fetched and staged nothing, if it ends as a no-op. -/
def EndsIdle (F : Prop) (s : Site) (m : Ship Outcome) : Prop :=
  ∀ x l, m.Ensures (world F).logged
    (fun out _ z => out.isNoOp = true → ∃ new, z.1 = l ++ new ∧ Idled s z.2 new)
    (fun _ _ _ => True) x (l, s)

/-- A piece that looks. -/
theorem Uses.idles {α : Type} {m : Ship α} (h : Uses Call.Looks m)
    {l : List (Moment shipping Site)} :
    m.Ensures (world F).logged (fun _ _ z => ∃ new, z.1 = l ++ new ∧ Idled s z.2 new)
      (fun _ _ _ => True) x (l, s) := by
  refine (h.logs.and h.sees.logged).mono ?_ fun _ _ _ _ => trivial
  rintro _ _ z ⟨⟨new, hz, hlooks⟩, hlooked⟩
  exact ⟨new, hz, hlooked, fun m hm => .inl (hlooks m hm)⟩

namespace EndsIdle

variable {α : Type}

theorem of_looks {m : Ship Outcome} (h : Uses Call.Looks m) : EndsIdle F s m :=
  fun _ _ => h.idles.mono (fun _ _ _ hend _ => hend) fun _ _ _ h => h

/-- A piece that ships is not a no-op. -/
theorem of_ships {m : Ship Outcome} (h : ∀ {σ : Type} {W : Surroundings shipping σ} {x : Session}
    {s : σ}, m.Ensures W (fun out _ _ => out.isNoOp = false) (fun _ _ _ => True) x s) :
    EndsIdle F s m := by
  refine fun _ _ => h.mono ?_ fun _ _ _ h => h
  intro out _ _ hships hnoop
  exact absurd hnoop (by simp [hships])

/-- A piece that looks, followed by another. -/
theorem looks_bind {m : Ship α} {f : α → Ship Outcome} (hm : Uses Call.Looks m)
    (hf : ∀ a s', EndsIdle F s' (f a)) : EndsIdle F s (m >>= f) := by
  intro x l
  refine hm.idles.bind (fun _ _ _ h => h) ?_
  rintro a x' ⟨_, s'⟩ ⟨new, rfl, hlooked, hlog⟩
  refine (hf a s' x' _).mono ?_ fun _ _ _ h => h
  intro out _ z hend hnoop
  obtain ⟨new', hz, hlooked', hlog'⟩ := hend hnoop
  refine ⟨new ++ new', by rw [hz, List.append_assoc], hlooked.trans hlooked', ?_⟩
  exact List.forall_mem_append.mpr ⟨hlog, hlog'⟩

end EndsIdle

theorem endsIdle_newRequest : EndsIdle F s (newRequest w o) := by
  rw [newRequest_eq]
  refine .looks_bind footprint_lookNew.uses fun seen s' => ?_
  unfold shipSeen
  split
  · exact .of_looks (footprint_finishNoOp _ _ _ _).uses
  · exact .of_ships (ensures_shipNew_outcome.mono (fun _ _ _ h => h.2) fun _ _ _ h => h)

theorem endsIdle_shipStaged {found : Option String} : EndsIdle F s (shipStaged w o found) := by
  have looks {c : Call} (hc : c.Asks) : Uses Call.Looks (ask c) := .ask (.inl hc)
  refine .looks_bind (looks rfl) fun staged s' => .looks_bind (looks rfl) fun ahead s'' => ?_
  split
  · exact .of_looks (footprint_finishNoOp _ _ _ _).uses
  · exact .of_ships (ensures_shipUpdate_outcome.mono (fun _ _ _ h => h.2) fun _ _ _ h => h)

/-- A no-op found nothing staged. -/
theorem ensures_shipStaged_staged {found : Option String} :
    (shipStaged w o found).Ensures (world F)
      (fun out _ _ => out.isNoOp = true → s.repo.staged = false) (fun _ _ _ => True) x s := by
  refine ensures_bind.mpr ((ensures_question (c := .hasStagedChanges) rfl).mpr ⟨?_, ?_⟩)
  · refine ensures_true.bind (fun _ _ _ _ => trivial) fun ahead _ _ _ => ?_
    split
    · rename_i hguard
      simp only [updateIsNoOp, Bool.and_eq_true, Bool.not_eq_true'] at hguard
      exact ensures_bind.mpr (ensures_enter.mpr fun _ => hguard.1.1)
    · refine ensures_shipUpdate_outcome.mono ?_ fun _ _ _ h => h
      intro out _ _ hships hnoop
      exact absurd hnoop (by simp [hships.2])
  · exact fun _ _ => trivial

/-- Staging that leaves nothing staged changes nothing. -/
theorem stageAll_of_unstaged {r : Repository} (h : r.stageAll.staged = false) :
    r.stageAll = r := by
  unfold stageAll at h ⊢
  split
  · rename_i hdirty
    rw [if_pos hdirty] at h
    cases h
  · rfl

/-- An update that has looked and ends as a no-op has staged nothing. -/
theorem endsIdle_stageAndShip {found : Option String} :
    EndsIdle F s (stageAndShip w o found) := by
  intro x l
  rw [stageAndShip_eq]
  refine ensures_bind.mpr (ensures_enter.mpr (ensures_bind.mpr (ensures_execute.mpr ?_)))
  rintro r _ ⟨s', hanswers, rfl⟩
  cases r with
  | error e => trivial
  | ok _ =>
      -- Staging comes before the decision, but a no-op is one that found nothing staged.
      have hs' : s' = { s with repo := s.repo.stageAll } := by
        rcases hanswers with h | ⟨-, -, e, he⟩
        · cases h
          rfl
        · cases he
      subst hs'
      refine ((endsIdle_shipStaged _ _).and ensures_shipStaged_staged.logged).mono ?_ ?_
      · rintro out _ z ⟨hend, hstaged⟩ hnoop
        obtain ⟨new, hz, hlooked, hlog⟩ := hend hnoop
        have hsame : s.repo.stageAll = s.repo := stageAll_of_unstaged (hstaged hnoop)
        rw [hsame] at hlooked
        refine ⟨_ :: new, by rw [hz, List.append_assoc]; rfl, hlooked, ?_⟩
        exact List.forall_mem_cons.mpr ⟨.inr rfl, hlog⟩
      · exact fun _ _ _ _ => trivial

theorem endsIdle_updateExisting : EndsIdle F s (updateExisting w o) := by
  by_cases hsync : o.sync = true
  · exact .of_ships (ensures_updateExisting_outcome.mono (fun _ _ _ h => h.2 hsync)
      fun _ _ _ h => h)
  · rw [updateExisting_eq]
    refine .looks_bind footprint_lookUpdate.uses fun found s' => ?_
    rw [if_neg hsync]
    exact endsIdle_stageAndShip

/-- A run that is a no-op has only looked, and staged nothing. -/
theorem endsIdle_startWith : EndsIdle F s (startWith accepted o) := by
  have hfollow (p : Setting × Flow) (s : Site) : EndsIdle F s (follow p.1 o p.2) := by
    obtain ⟨w, flow⟩ := p
    cases flow with
    | newRequest => exact endsIdle_newRequest
    | updateExisting => exact endsIdle_updateExisting
  intro x l
  have hsettle : Uses Call.Looks (settle accepted o) :=
    (footprint_settle accepted o).uses.mono fun _ hc => .inl hc
  exact ensures_startWith.mpr (ensures_bind.mp (EndsIdle.looks_bind hsettle hfollow x.fresh l))

/-! ## Whole runs -/

theorem ensures_startWith_iff {flow : Flow} (hfits : w.Fits accepted o s flow)
    (hw : w.Stands s h onto)
    (hun : flow = .updateExisting → ∀ pr,
      PullRequest.forHead w.current s.host.requests = some pr → pr.state ≠ .merged) :
    (startWith accepted o).Ensures (world False)
      (fun out _ _ => out.isNoOp = true ↔ NothingToShip o w h onto s)
      (fun _ _ _ => ¬NothingToShip o w h onto s) x s := by
  apply ensures_startWith_of_fits hfits
  intro x' _
  cases flow with
  | newRequest => exact ensures_newRequest_iff hfits hw
  | updateExisting => exact ensures_updateExisting_iff hfits hw (hun rfl)

/-- A run without faults that finds its branches, and whose request was not merged, is a no-op
if and only if there is nothing to ship.  Any no-op, with faults or without, has changed nothing
but tracking refs and has called nothing but questions, fetches and one staging. -/
theorem noOp_iff_nothing_to_ship (raw : String) (o : Options) (x : Session) (s : Site) :
    (∀ (w : Setting) (h onto : History) (flow : Flow),
      w.Fits (Description.accept raw o.force) o s flow → w.Stands s h onto →
      (flow = .updateExisting → ∀ pr,
        PullRequest.forHead w.current s.host.requests = some pr → pr.state ≠ .merged) →
      let run := (start raw o x).run answer s
      ((∃ out, run.value.1 = .ok out ∧ out.isNoOp = true) ↔ NothingToShip o w h onto s) ∧
        ∀ out, run.value.1 = .ok out → out.isNoOp = true →
          Idled s run.world ((start raw o x).moments answer s)) ∧
      ∀ faults : List Fault, (∀ f ∈ faults, f.OnlyFails) →
        let run := (start raw o x).run answer.withFaults (faults, s)
        ∀ out, run.value.1 = .ok out → out.isNoOp = true →
          Idled s run.world.2 ((start raw o).logWithFaults x faults s) := by
  rw [start_eq]
  generalize Description.accept raw o.force = accepted
  constructor
  · intro w h onto flow hfits hw hun run
    have hend := (ensures_startWith_iff (x := x) hfits hw hun).ends_run
    constructor
    · constructor
      · rintro ⟨out, hout, hnoop⟩
        exact (hend.ok hout).mp hnoop
      · intro hnothing
        cases hv : run.value.1 with
        | ok out => exact ⟨out, rfl, (hend.ok hv).mpr hnothing⟩
        | error e => exact absurd hnothing (hend.error hv)
    · intro out hout hnoop
      obtain ⟨_, rfl, hidled⟩ := (endsIdle_startWith x []).ends_log.ok hout hnoop
      exact hidled
  · intro faults hf run out hout hnoop
    obtain ⟨_, rfl, hidled⟩ := ((endsIdle_startWith x []).ends_log_withFaults hf).ok hout hnoop
    exact hidled

/-- A branch that is pushed has nothing to ship, and one with a commit ahead has. -/
theorem noOp_iff_nothing_to_ship_ahead :
    let pushed : Site := { repo := {
      current := some "topic"
      branches := [("main", ["c0"]), ("topic", ["c0", "mine"])]
      remote := [("main", ["c0"]), ("topic", ["c0", "mine"])] } }
    let ahead : Site := { repo := { pushed.repo with
      remote := [("main", ["c0"]), ("topic", ["c0"])] } }
    let faults := [Fault.outage fun c => c.isPush]
    let piece := start "feat: add widget" {}
    (∃ out, ((piece .sample).run answer pushed).value.1 = .ok out ∧ out.isNoOp = true) ∧
      Idled pushed ((piece .sample).run answer.withFaults (faults, pushed)).world.2
        (piece.logWithFaults .sample faults pushed) ∧
      ¬∃ out, ((piece .sample).run answer ahead).value.1 = .ok out ∧ out.isNoOp = true := by
  intro pushed ahead faults piece
  let w : Setting := ⟨⟨"feat: add widget"⟩, "topic", "main", "main"⟩
  have haccepted : ∃ verdict, Description.accept "feat: add widget" false =
      .ok (w.description, verdict) := ⟨.accepted, by decide +kernel⟩
  have hp := noOp_iff_nothing_to_ship "feat: add widget" {} .sample pushed
  have ha := noOp_iff_nothing_to_ship "feat: add widget" {} .sample ahead
  have hpushed := hp.1 w ["c0", "mine"] ["c0"] .updateExisting
    ⟨haccepted, rfl, rfl, rfl, rfl, rfl, rfl, nofun, by decide⟩
    ⟨rfl, rfl, fun he => absurd he (by decide)⟩ fun _ => nofun
  have hahead := ha.1 w ["c0", "mine"] ["c0"] .updateExisting
    ⟨haccepted, rfl, rfl, rfl, rfl, rfl, rfl, nofun, by decide⟩
    ⟨rfl, rfl, fun he => absurd he (by decide)⟩ fun _ => nofun
  have hf : ∀ f ∈ faults, f.OnlyFails :=
    List.forall_mem_singleton.mpr (Fault.onlyFails_outage _)
  have hout : ((piece .sample).run answer.withFaults (faults, pushed)).value.1 = .ok
      { flow := .updateExisting, branch := "topic", base := "main", notices := [],
        result := .noOp .nothingToPush } := by
    decide +kernel
  refine ⟨hpushed.1.mpr (.pushed (by decide) rfl rfl rfl ?_), hp.2 faults hf _ hout rfl, ?_⟩
  · exact fun id hid => hid
  · intro hnoop
    rcases hahead.1.mp hnoop with ⟨he⟩ | ⟨-, hnew⟩ | ⟨-, -, -, -, hall⟩
    · exact absurd he (by decide)
    · cases hnew
    · exact absurd (hall "mine" (by decide)) (by decide)

end Ship

end Shipment
