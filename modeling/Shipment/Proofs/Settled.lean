import Shipment.Proofs.Run.Faultless
import Shipment.Proofs.Shipped

/-!
# A ship settles

A run that ships leaves its branch `Settled`, in either flow and with any flags.  From
a settled branch a run without sync finds nothing to do, and leaves the site as it is.

The second half looks at a site that no piece of the second run changes, so each of them
`Gives` a value there.
-/

namespace Shipment

/-- A branch with nothing more to ship, beside a base. -/
structure Site.Settled (branch base : String) (s : Site) : Prop extends s.Shipped branch where
  authenticated : s.host.authenticated = true
  hasOrigin : s.repo.hasOrigin = true
  idle : s.repo.operation = none
  away : branch ≠ s.repo.default
  base : s.repo.UpToDate base

/-- A branch that has landed, where another run passes its checks.  It need not have a
request. -/
structure Site.Resting (branch base : String) (s : Site) : Prop extends s.Landed branch where
  authenticated : s.host.authenticated = true
  hasOrigin : s.repo.hasOrigin = true
  idle : s.repo.operation = none
  base : s.repo.UpToDate base

theorem Site.Settled.resting {branch base : String} {s : Site} (h : s.Settled branch base) :
    s.Resting branch base :=
  ⟨h.landed h.away, h.authenticated, h.hasOrigin, h.idle, h.base⟩

namespace Ship

open Site Repository

/-! ## Shipping settles -/

section Settles

variable {F : Prop} {x : Session} {s : Site} {o : Options}
variable {accepted : Except Failure (Description × Verdict)}

/-- A run that shipped leaves its branch settled, so that another run has nothing to ship. -/
theorem ensures_startWith_settled (ht : s.repo.Tidy)
    (hd : s.repo.remote.get? s.repo.default ≠ none)
    (hl : ∀ branch, s.repo.current = some branch → Plain branch)
    (ho : ∀ name, o.branch = some name → Plain name) :
    (startWith accepted o).Ensures (world F)
      (fun out _ s' => (∃ d verdict, accepted = .ok (d, verdict)) ∧ (out.isNoOp = false →
        s'.Settled out.branch (o.base.getD s.repo.default) ∧ s'.repo.default = s.repo.default))
      (fun _ _ _ => True) x s := by
  refine ensures_startWith.mpr (ensures_settle.mono ?_ fun _ _ _ _ => trivial)
  intro p x₁ s hend
  obtain ⟨w, flow⟩ := p
  obtain ⟨rfl, hfits⟩ := hend
  have hbase : w.base = o.base.getD s.repo.default := by rw [hfits.base, hfits.default]
  have settled {branch : String} {s' : Site} (hs : s.Steady s') (h : s'.Shipped branch)
      (hne : branch ≠ s.repo.default) (hb : s'.repo.UpToDate w.base) :
      s'.Settled branch (o.base.getD s.repo.default) ∧ s'.repo.default = s.repo.default := by
    rw [hbase] at hb
    exact ⟨⟨h, hs.authenticated.trans hfits.authenticated,
      hs.repo.hasOrigin.trans hfits.hasOrigin, hs.repo.operation.trans hfits.idle,
      hs.repo.default ▸ hne, hb⟩, hs.repo.default⟩
  obtain ⟨verdict, hacc⟩ := hfits.description
  cases flow with
  | newRequest =>
      refine (ensures_newRequest_shipped ho hd).steadily.mono ?_ fun _ _ _ _ => trivial
      intro out x₂ s' hend
      obtain ⟨h, hs⟩ := hend
      refine ⟨⟨_, verdict, hacc⟩, fun hout => ?_⟩
      obtain ⟨hshipped, hne, hb⟩ := h hout
      exact settled hs hshipped hne hb
  | updateExisting =>
      have hp := hl w.current hfits.current
      refine (ensures_updateExisting_shipped ht hfits.current hp).steadily.mono ?_
        fun _ _ _ _ => trivial
      intro out x₂ s' hend
      obtain ⟨h, hs⟩ := hend
      refine ⟨⟨_, verdict, hacc⟩, fun hout => ?_⟩
      obtain ⟨hshipped, hbranch, hb⟩ := h hout
      exact settled hs hshipped (hbranch ▸ hfits.away.1) hb

end Settles

/-! ## A settled branch has nothing to ship -/

section Quiet

variable {s : Site} {branch base : String} {w : Setting} {o : Options}

theorem gives_compareWithBase (hc : s.repo.current = some branch) (hl : s.repo.Level branch)
    (hb : s.repo.UpToDate base) : Gives s (compareWithBase base o.sync) fun _ => True := by
  obtain ⟨h, hh, -⟩ := hl
  obtain ⟨onto, hr, ht⟩ := hb
  refine (reaches_compareWithBase hc hh hr).mono (fun _ s' hs => ⟨trivial, ?_⟩) fun _ _ h => h
  rw [hs, Table.set_of_get? ht]

theorem gives_fetchCounterpart (hl : s.repo.Level branch) :
    Gives s (fetchCounterpart branch) (· = some (trackingRef branch)) := by
  obtain ⟨h, -, hr, ht⟩ := hl
  refine reaches_fetchCounterpart.mono ?_ fun _ _ h => h
  rintro _ _ (hn | hr')
  · cases hn.symm.trans hr
  · cases hr'.symm.trans hr
    exact ⟨rfl, by rw [Table.set_of_get? ht]⟩

theorem gives_stageAndShip (h : s.Landed w.current) (hs : o.sync = false) :
    Gives s (stageAndShip w o (some (trackingRef w.current))) fun out =>
      out.branch = w.current ∧ out.result = .noOp .nothingToPush := by
  obtain ⟨k, hk, -, ht⟩ := h.level
  have hn : (missing k k).length = 0 :=
    List.length_eq_zero_iff.mpr (missing_eq_nil.mpr fun _ hid => hid)
  have hcount := answer_countCommits ((resolve?_trackingRef w.current s.repo).trans ht)
    ((resolve?_head h.current).trans hk)
  refine .enter (.execute_bind (stageAll_of_quiet h.quiet) ?_)
  refine .ask (v := false) (congrArg (fun b => (Except.ok b, s)) h.quiet.1) ?_
  refine .ask hcount ?_
  rw [hs, hn]
  exact .enter fun x => ⟨rfl, ⟨rfl, rfl⟩, rfl⟩

/-- An update looks for the request of the branch, but does not ask whether it is missing. -/
theorem reaches_updateExisting_resting (h : s.Resting w.current w.base) (hs : o.sync = false) :
    Reaches s (updateExisting w o)
      (fun out s' => (out.branch = w.current ∧ out.result = .noOp .nothingToPush) ∧ s' = s)
      fun e s' => s' = s ∧ RefusesMerged w.current s e := by
  have hlook : Reaches s (lookUpdate w o)
      (fun found s' => found = some (trackingRef w.current) ∧ s' = s)
      fun e s' => s' = s ∧ RefusesMerged w.current s e := by
    refine reaches_checkRequest.bind (fun _ _ h => h) ?_
    rintro _ _ rfl
    refine (gives_compareWithBase h.current h.level h.base).bind fun _ _ => ?_
    rw [hs]
    exact (gives_fetchCounterpart h.level).mono (fun _ _ h => h) fun _ _ h => h.elim
  rw [updateExisting_eq]
  refine hlook.bind (fun _ _ h => h) ?_
  rintro _ _ ⟨rfl, rfl⟩
  rw [hs]
  exact (gives_stageAndShip h.toLanded hs).mono (fun _ _ h => h) fun _ _ h => h.elim

/-- A branch that is up to date can be fetched again. -/
theorem reaches_refetch {α : Type} {k : Unit → Ship α} {P : α → Site → Prop}
    {E : Failure → Site → Prop} (hb : s.repo.UpToDate base) (hk : Reaches s (k ()) P E) :
    Reaches s (execute (.fetch base) >>= k) P E := by
  obtain ⟨onto, hr, ht⟩ := hb
  refine .fetch hr ?_
  rwa [Table.set_of_get? ht]

/-- On the default branch a new request needs a tree with changes. -/
theorem gives_newRequest_resting (h : s.Resting w.current w.base) (hc : w.current = w.default)
    (hd : w.default = s.repo.default) (hp : Plain w.current) :
    Gives s (newRequest w o) fun out =>
      out.branch = w.current ∧ out.result = .noOp .cleanDefaultBranch := by
  obtain ⟨k, hk, hr, ht⟩ := h.level
  have hclean : s.repo.isClean = true := h.clean (hc.trans hd)
  have hlook : Gives s (lookNew w) fun seen => seen.dirty = false := by
    have hsnapshot : Gives s (snapshot w.base) fun seen => seen.dirty = false := by
      obtain ⟨onto, -, hbase⟩ := h.base
      refine (gives_snapshot h.current hk hbase fun _ => ⟨hp, k, ht⟩).mono ?_ fun _ _ h => h
      rintro seen _ ⟨⟨hdirty, -⟩, hs⟩
      exact ⟨hdirty.trans (congrArg (!·) hclean), hs⟩
    refine .enter (reaches_refetch h.base (.when (fun _ => ?_) fun _ => .enter hsnapshot))
    exact reaches_refetch ⟨k, hc ▸ hr, hc ▸ ht⟩ (.enter hsnapshot)
  rw [newRequest_eq]
  refine hlook.bind fun seen hdirty => ?_
  have hnoop : newRequestNoOp (decide (w.current = w.default)) o.new seen.dirty seen.ahead =
      some .cleanDefaultBranch := by
    simp [newRequestNoOp, hc, hdirty]
  rw [shipSeen, hnoop]
  exact .enter fun x => ⟨rfl, ⟨rfl, rfl⟩, rfl⟩

/-- What a run settles on a resting branch. -/
theorem fits_of_resting {flow : Flow} (h : s.Resting branch (o.base.getD s.repo.default))
    (d : Description) (verdict : Verdict) (hf : flow = Flow.select branch s.repo.default o.new) :
    Setting.Fits (.ok (d, verdict)) o s
      ⟨d, branch, s.repo.default, o.base.getD s.repo.default⟩ flow := by
  refine ⟨⟨verdict, rfl⟩, h.authenticated, h.hasOrigin, h.idle, h.current, rfl, rfl, ?_, hf⟩
  intro base hb
  obtain ⟨k, hk, -⟩ := h.base
  rw [hb] at hk
  exact Table.has_eq_true.mpr ⟨k, hk⟩

/-- A run without sync on a resting branch has nothing to do, or refuses a merged one. -/
theorem ensures_startWith_resting (h : s.Resting branch (o.base.getD s.repo.default))
    (hp : branch = s.repo.default → Plain branch) (hs : o.sync = false) (hn : o.new = false)
    (d : Description) (verdict : Verdict) (x : Session) :
    (startWith (.ok (d, verdict)) o).Ensures (world False)
      (fun out _ s' => (out.branch = branch ∧ out.result = .noOp
        (if branch = s.repo.default then .cleanDefaultBranch else .nothingToPush)) ∧ s' = s)
      (fun e _ s' => s' = s ∧ branch ≠ s.repo.default ∧ RefusesMerged branch s e) x s := by
  let w : Setting := ⟨d, branch, s.repo.default, o.base.getD s.repo.default⟩
  by_cases hd : branch = s.repo.default
  · have hfits : w.Fits (.ok (d, verdict)) o s .newRequest :=
      fits_of_resting h d verdict (by simp [Flow.select, hd])
    refine ensures_startWith_of_fits hfits fun x' _ => ?_
    refine (gives_newRequest_resting (w := w) h hd rfl (hp hd) x').mono ?_ fun _ _ _ h => h.elim
    rintro out _ _ ⟨-, hend, hsame⟩
    rw [if_pos hd]
    exact ⟨hend, hsame⟩
  · have hfits : w.Fits (.ok (d, verdict)) o s .updateExisting :=
      fits_of_resting h d verdict (by simp [Flow.select, hd, hn])
    refine ensures_startWith_of_fits hfits fun x' _ => ?_
    refine (reaches_updateExisting_resting (w := w) h hs x').mono ?_ ?_
    · rintro out _ _ ⟨-, hend, hsame⟩
      rw [if_neg hd]
      exact ⟨hend, hsame⟩
    · rintro e _ _ ⟨hsame, hmerged⟩
      exact ⟨hsame, hd, hmerged⟩

/-- A run without sync from a settled branch has nothing to do. -/
theorem ensures_startWith_nothing (h : s.Settled branch (o.base.getD s.repo.default))
    (hs : o.sync = false) (hn : o.new = false) (d : Description) (verdict : Verdict)
    (x : Session) :
    (startWith (.ok (d, verdict)) o).Ensures (world False)
      (fun out _ s' => (out.branch = branch ∧ out.result = .noOp .nothingToPush) ∧ s' = s)
      (fun _ _ _ => False) x s := by
  refine (ensures_startWith_resting h.resting (absurd · h.away) hs hn d verdict x).mono ?_ ?_
  · rintro out _ _ hend
    rwa [if_neg h.away] at hend
  · rintro e _ _ ⟨-, -, pr, hpr, hmerged, -⟩
    obtain ⟨pr', hpr', hopened⟩ := h.request
    cases hpr'.symm.trans hpr
    cases hopened.symm.trans hmerged

end Quiet

/-! ## Two runs -/

/-- A run that ships leaves nothing to ship.  Another run without sync on the same
description and base ends on the same branch with nothing to push, and changes neither
the repository nor the host. -/
theorem shipped_run_settles (raw : String) (o o' : Options) (x x' : Session) (s : Site)
    (ht : s.repo.Tidy) (hd : s.repo.remote.has s.repo.default = true)
    (hl : ∀ branch, s.repo.current = some branch → Plain branch)
    (hn : ∀ name, o.branch = some name → Plain name)
    (hbase : o'.base = o.base) (hforce : o'.force = o.force)
    (hsync : o'.sync = false) (hnew : o'.new = false) :
    let first := (start raw o x).run answer s
    let second := (start raw o' x').run answer first.world
    ∀ out committed pushed request,
      first.value.1 = .ok out → out.result = .shipped committed pushed request →
      ∃ out', second.value.1 = .ok out' ∧ out'.result = .noOp .nothingToPush ∧
        out'.branch = out.branch ∧ second.world = first.world := by
  rw [start_eq, start_eq, hforce]
  generalize Description.accept raw o.force = accepted
  intro first second out committed pushed request hout hresult
  obtain ⟨h₀, hd⟩ := Table.has_eq_true.mp hd
  have hne : s.repo.remote.get? s.repo.default ≠ none := by
    rw [hd]
    exact Option.some_ne_none h₀
  have hrun : (startWith accepted o).Ensures (world False) _ _ x s :=
    ensures_startWith_settled ht hne hl hn
  have hfirst : Ends _ _ first.value first.world := hrun.ends_run
  have hvalue : first.value = (.ok out, first.value.2) := Prod.ext hout rfl
  rw [hvalue] at hfirst
  obtain ⟨⟨d, verdict, rfl⟩, hsettles⟩ := hfirst
  obtain ⟨hsettled, hdefault⟩ := hsettles (by rw [Outcome.isNoOp, hresult])
  rw [← hbase, ← hdefault] at hsettled
  have hsecond : Ends _ _ second.value second.world :=
    (ensures_startWith_nothing hsettled hsync hnew d verdict x').ends_run
  rcases hv : second.value with ⟨r, x₂⟩
  rw [hv] at hsecond
  cases r with
  | error e => exact hsecond.elim
  | ok out' =>
      obtain ⟨⟨hbranch, hnothing⟩, hworld⟩ := hsecond
      exact ⟨out', rfl, hnothing, hbranch, hworld⟩

/-- Changes on the default branch are shipped once. -/
theorem shipped_run_settles_changed :
    let first := (start "feat: add widget" { branch := some "topic" } .sample).run answer .changed
    let second := (start "feat: add widget" {} .sample).run answer first.world
    first.world.repo.remote.get? "topic" = some ["c0", "n1"] ∧
      ∃ out, second.value.1 = .ok out ∧ out.result = .noOp .nothingToPush ∧
        out.branch = "topic" ∧ second.world = first.world := by
  have hout : ((start "feat: add widget" { branch := some "topic" } .sample).run answer
      .changed).value.1 = .ok
        { flow := .newRequest, branch := "topic", base := "main", notices := [],
          result := .shipped true (some .tracking)
            (.created (changed.host.address ++ "100")) } := by
    decide +kernel
  have hl : ∀ branch, changed.repo.current = some branch → Plain branch := by
    intro branch h
    cases h
    decide +kernel
  have hn : ∀ name, some "topic" = some name → Plain name := by
    intro name h
    cases h
    decide +kernel
  have h := shipped_run_settles "feat: add widget" { branch := some "topic" } {} .sample .sample
    .changed (.of_entries (by decide +kernel)) (by decide) hl hn rfl rfl rfl rfl
  exact ⟨by decide +kernel, h _ _ _ _ hout rfl⟩

end Ship

end Shipment
