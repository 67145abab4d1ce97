import Shipment.Proofs.Clearance
import Shipment.Proofs.Run.Record
import Shipment.Proofs.Run.Twin

/-!
# Options that make no difference

What a run is told decides which of its options it looks at.  A new request does not look at
`sync`, an update does not look at `branch`, and on the default branch `new` is of no use.
`Indifferent` says that two sets of options differ in such options only.  The main statement
is that two runs like these are one, and that the marker of the request and the random words
matter just where they should.
-/

namespace Shipment

/-- Two sets of options differ only in what made no difference to a run of the first, which
left this trace and this record.  The marker of requests may differ besides. -/
structure Indifferent (raw : String) (o o' : Options) (t : Trace shipping) (r : RunRecord) :
    Prop where
  base : o'.base = o.base
  /-- Force is of no use to a description that follows the grammar. -/
  force : o'.force = o.force ∨ Intent.matchesGrammar (Text.trimmed raw) = true
  /-- Only an update syncs. -/
  sync : o'.sync = o.sync ∨ r.flow ≠ some .updateExisting
  /-- Only a new request that has something to ship needs a name. -/
  branch : o'.branch = o.branch ∨ r.flow ≠ some .newRequest ∨ .resolvingBranchName ∉ r.path
  /-- On the default branch a request is new anyway. -/
  new : o'.new = o.new ∨
    ∀ current default, clearance o current default <+: t.moments → current = default

/-- A run that came to draw a name at random. -/
def RunRecord.DrewName (o : Options) (r : RunRecord) : Prop :=
  r.flow = some .newRequest ∧ o.branch = none ∧ .resolvingBranchName ∈ r.path

/-- A host that replies alike to a draft and to a request that is ready. -/
def Handler.IgnoresDrafts {σ : Type} (h : Handler shipping σ) : Prop :=
  ∀ (draft : Bool) (d : RequestDraft) (s : σ),
    (h (.createRequest (d.marked draft)) s).1 = (h (.createRequest d) s).1

/-- A session with other random words. -/
def Session.withWords (words : List UInt64) (x : Session) : Session :=
  x.renamed fun k => { k with words }

@[simp] theorem Session.withWords_record (words : List UInt64) (x : Session) :
    (x.withWords words).record = x.record := rfl

namespace Indifferent

variable {raw : String} {o o' : Options} {t : Trace shipping} {r : RunRecord}

theorem clearance_eq (h : Indifferent raw o o' t r) : clearance o' = clearance o := by
  funext current default
  rw [clearance, clearance, h.base]

theorem symm (h : Indifferent raw o o' t r) : Indifferent raw o' o t r := by
  refine ⟨h.base.symm, h.force.imp_left Eq.symm, h.sync.imp_left Eq.symm,
    h.branch.imp_left Eq.symm, h.new.imp Eq.symm fun hn => ?_⟩
  rw [h.clearance_eq]
  exact hn

end Indifferent

/-! ## Guards -/

theorem Description.accept_of_matchesGrammar {raw : String}
    (hraw : Intent.matchesGrammar (Text.trimmed raw) = true) (a b : Bool) :
    accept raw a = accept raw b := by
  simp only [accept, validate, hraw, if_true]

/-- On the default branch it makes no difference whether a new request was asked for. -/
theorem newRequestNoOp_onDefault (a b dirty : Bool) (ahead : Nat) :
    newRequestNoOp true a dirty ahead = newRequestNoOp true b dirty ahead := by
  cases dirty <;> simp [newRequestNoOp]

theorem Flow.select_onDefault {current default : String} (h : current = default) (a b : Bool) :
    select current default a = select current default b := by
  simp [select, h]

namespace Ship

variable {α σ : Type} {h : Handler shipping σ} {x : Session} {s : σ} {w : Setting}
variable {o o' : Options} {accepted : Except Failure (Description × Verdict)}

/-! ## What a woven piece keeps -/

/-- A run of a woven piece keeps the flow and every step. -/
theorem Woven.run_keeps {draft : Bool} {draws : Prop} {m m' : Ship α}
    (hm : Woven draft draws m m') :
    ((m x).run h s).value.2.record.flow = x.record.flow ∧
      x.record.path ⊆ ((m x).run h s).value.2.record.path := by
  have hrecord : m.Ensures (Surroundings.replying fun _ _ => True).logged
      (fun _ x' _ => x'.record.flow = x.record.flow ∧ x.record.path ⊆ x'.record.path)
      (fun _ x' _ => x'.record.flow = x.record.flow ∧ x.record.path ⊆ x'.record.path) x ([], ()) :=
    hm.records (T := fun r r' => r'.flow = r.flow ∧ r.path ⊆ r'.path)
      (fun r => ⟨rfl, List.Subset.refl _⟩)
      (fun h h' => ⟨h'.1.trans h.1, List.Subset.trans h.2 h'.2⟩)
      (fun r now step _ => ⟨rfl, by simp [RunRecord.path_enter]⟩)
      fun r n => ⟨rfl, List.Subset.refl _⟩
  exact ends_both.mp (hrecord.runs (Program.run_runs h (m x) s) fun _ _ => trivial)

/-- A run that ships a new branch has settled its name. -/
theorem mem_path_of_shipNew :
    .resolvingBranchName ∈ ((shipNew w o x).run h s).value.2.record.path := by
  let named : Ship Outcome := do
    let branch ← resolveName w.description o.branch
    if w.current = w.default then syncDefault w.default
    let committed ← cutBranch w branch
    let request ← requestForNew w branch o.draft
    finishShipped .newRequest branch w.base (.shipped committed (some .tracking) request)
  have hnamed : Woven o.draft True named named := by
    refine (Woven.resolveName fun _ => trivial).bind fun branch => .when (.syncDefault _) ?_
    refine (Woven.cutBranch w branch).bind fun committed => ?_
    simp only [requestForNew_eq]
    exact (Woven.settleRequest (by decide) _ _).bind fun request => .finishShipped _ _ _ _
  show _ ∈ ((named (x.entered .resolvingBranchName)).run h s).value.2.record.path
  refine hnamed.run_keeps.2 ?_
  show _ ∈ (RunRecord.enter _ _ _).path
  simp [RunRecord.path_enter]

/-! ## Two runs against the same surroundings -/

/-- Select the flow and follow it. -/
def pursue (w : Setting) (o : Options) : Ship Outcome := do
  let flow ← selectFlow w.current w.default o.new
  follow w o flow

/-- What becomes of a run that has failed. -/
def conclude :
    Except Failure Outcome × Session → Program shipping (Except Failure Outcome × Session)
  | (.ok out, x) => .done (.ok out, x)
  | (.error e, x) => .tell (I := shipping) (.step .failed) (.done (.error e, x.entered .failed))

theorem startWith_eq : startWith accepted o x = .tell (I := shipping) (.step .validatingIntent)
    (((prepare accepted o.base >>= fun w => pursue w o) x.fresh).bind conclude) := by
  rw [startWith, settle_follow_eq]
  refine congrArg (Program.tell _) ((Program.bind_assoc _ _ _).trans ?_)
  refine congrArg (Program.bind _) (funext ?_)
  rintro ⟨r, x'⟩
  cases r <;> rfl

section Bind

variable {α β : Type} {m : Ship α} {f f' : α → Ship β} {x' : Session}

/-- A run of a piece that gives a value is continued by the next piece. -/
theorem run_bind_of_ok {a : α} (hv : ((m x).run h s).value = (.ok a, x')) :
    ((m >>= f) x).run h s =
      ((m x).run h s).followedBy ((f a x').run h ((m x).run h s).world) := by
  refine (Program.run_bind h (m x) _ s).trans (congrArg _ ?_)
  rw [hv]

/-- Nothing follows a piece that fails. -/
theorem run_bind_of_error {e : Failure} (hv : ((m x).run h s).value = (.error e, x')) :
    ((m >>= f) x).run h s =
      ⟨((m x).run h s).trace, (.error e, x'), ((m x).run h s).world⟩ := by
  refine (Program.run_bind h (m x) _ s).trans ?_
  rw [hv]
  exact congrArg (Execution.mk · _ _) (List.append_nil _)

/-- Runs that started the same way go on the same way if the next pieces do. -/
theorem run_bind_congr
    (hf : ∀ a x', ((m x).run h s).value = (.ok a, x') →
      (f' a x').run h ((m x).run h s).world = (f a x').run h ((m x).run h s).world) :
    ((m >>= f') x).run h s = ((m >>= f) x).run h s := by
  rcases hv : ((m x).run h s).value with ⟨r, x'⟩
  cases r with
  | ok a => rw [run_bind_of_ok hv, run_bind_of_ok hv, hf a x' hv]
  | error e => rw [run_bind_of_error hv, run_bind_of_error hv]

end Bind

/-- Two new requests are one if they use the same name, or never come to it. -/
theorem run_newRequest_congr (hdraft : o'.draft = o.draft)
    (hnew : o'.new = o.new ∨ w.current = w.default)
    (hbranch : o'.branch = o.branch ∨
      .resolvingBranchName ∉ ((newRequest w o x).run h s).value.2.record.path) :
    (newRequest w o' x).run h s = (newRequest w o x).run h s := by
  rw [newRequest_eq] at hbranch ⊢
  rw [newRequest_eq]
  refine run_bind_congr fun seen x' hv => ?_
  rw [run_bind_of_ok hv] at hbranch
  have hguard : newRequestNoOp (decide (w.current = w.default)) o'.new seen.dirty seen.ahead =
      newRequestNoOp (decide (w.current = w.default)) o.new seen.dirty seen.ahead := by
    rcases hnew with hnew | hdefault
    · rw [hnew]
    · rw [decide_eq_true hdefault]
      exact newRequestNoOp_onDefault ..
  unfold shipSeen at hbranch ⊢
  rw [hguard]
  cases hg : newRequestNoOp (decide (w.current = w.default)) o.new seen.dirty seen.ahead with
  | some reason => rfl
  | none =>
      rw [hg] at hbranch
      have hbranch := hbranch.resolve_right (not_not_intro mem_path_of_shipNew)
      show (shipNew w o' x').run h _ = (shipNew w o x').run h _
      rw [shipNew, shipNew, hbranch, hdraft]

/-- Two updates are one if they sync alike. -/
theorem updateExisting_congr (hdraft : o'.draft = o.draft) (hsync : o'.sync = o.sync) :
    updateExisting w o' = updateExisting w o := by
  simp only [updateExisting, shipUpdate, hdraft, hsync]

/-- Two runs that follow a flow are one if they agree on what the flow looks at. -/
theorem run_follow_congr {flow : Flow} (hx : x.record.flow = some flow)
    (hdraft : o'.draft = o.draft) (hnew : o'.new = o.new ∨ w.current = w.default)
    (hsync : o'.sync = o.sync ∨
      ((follow w o flow x).run h s).value.2.record.flow ≠ some .updateExisting)
    (hbranch : o'.branch = o.branch ∨
      ((follow w o flow x).run h s).value.2.record.flow ≠ some .newRequest ∨
      .resolvingBranchName ∉ ((follow w o flow x).run h s).value.2.record.path) :
    (follow w o' flow x).run h s = (follow w o flow x).run h s := by
  have hwoven : Woven o.draft True (follow w o flow) (follow w o flow) := .follow fun _ _ => trivial
  have hflow : ((follow w o flow x).run h s).value.2.record.flow = some flow :=
    hwoven.run_keeps.1.trans hx
  cases flow with
  | newRequest =>
      exact run_newRequest_congr hdraft hnew
        (hbranch.imp_right fun h => h.resolve_left (not_not_intro hflow))
  | updateExisting =>
      show (updateExisting w o' x).run h s = (updateExisting w o x).run h s
      rw [updateExisting_congr hdraft (hsync.resolve_right (not_not_intro hflow))]

/-- A session that has selected a flow. -/
def selected (flow : Flow) (x : Session) : Session :=
  { x.entered .selectingFlow with record := (x.entered .selectingFlow).record.selectFlow flow }

theorem run_pursue : (pursue w o x).run h s =
    let flow := Flow.select w.current w.default o.new
    let rest := (follow w o flow (selected flow x)).run h s
    { rest with trace := .told (.step .selectingFlow) :: .told (.flow flow) :: rest.trace } := rfl

/-- Behind the prerequisites two runs are one if they agree on what matters from there. -/
theorem run_pursue_congr (hdraft : o'.draft = o.draft)
    (hnew : o'.new = o.new ∨ w.current = w.default)
    (hsync : o'.sync = o.sync ∨
      ((pursue w o x).run h s).value.2.record.flow ≠ some .updateExisting)
    (hbranch : o'.branch = o.branch ∨
      ((pursue w o x).run h s).value.2.record.flow ≠ some .newRequest ∨
      .resolvingBranchName ∉ ((pursue w o x).run h s).value.2.record.path) :
    (pursue w o' x).run h s = (pursue w o x).run h s := by
  have hselect :
      Flow.select w.current w.default o'.new = Flow.select w.current w.default o.new := by
    rcases hnew with hnew | hdefault
    · rw [hnew]
    · exact Flow.select_onDefault hdefault ..
  have hfollow := run_follow_congr (x := selected (Flow.select w.current w.default o.new) x) rfl
    hdraft hnew hsync hbranch
  rw [run_pursue, run_pursue, hselect]
  dsimp only
  rw [hfollow]

theorem run_startWith : (startWith accepted o x).run h s =
    let inner := ((prepare accepted o.base >>= fun w => pursue w o) x.fresh).run h s
    let rest := inner.followedBy ((conclude inner.value).run h inner.world)
    { rest with trace := .told (.step .validatingIntent) :: rest.trace } := by
  rw [startWith_eq, Program.run, Program.run_bind]

/-- Concluding a run leaves its flow alone, does not settle a name and asks nothing. -/
theorem run_conclude (out : Except Failure Outcome × Session) :
    let rest := (conclude out).run h s
    rest.value.2.record.flow = out.2.record.flow ∧ rest.trace.moments = [] ∧
      (.resolvingBranchName ∈ rest.value.2.record.path ↔
        .resolvingBranchName ∈ out.2.record.path) := by
  obtain ⟨r, x⟩ := out
  cases r with
  | ok outcome => exact ⟨rfl, rfl, Iff.rfl⟩
  | error e =>
      refine ⟨rfl, rfl, ?_⟩
      show _ ∈ (RunRecord.enter _ _ _).path ↔ _
      simp [RunRecord.path_enter]

/-- What a run was cleared on is at the start of its log. -/
theorem clearance_of_run {x' : Session} {t : Trace shipping}
    (hv : ((prepare accepted o.base x).run h s).value = (.ok w, x')) :
    clearance o w.current w.default <+:
      Trace.moments (((prepare accepted o.base x).run h s).trace ++ t) := by
  have hheeds : Heeds (fun _ _ => True) (prepare accepted o.base) _ [] :=
    heeds_prepare fun _ _ _ => trivial
  have hlog := ((hheeds x).runs (Program.run_runs h _ s)).1 w (congrArg Prod.fst hv)
  rw [Trace.moments_append, show Trace.moments _ = _ from hlog.2.2]
  exact List.prefix_append _ _

/-- Two runs are one if the second has other options that make no difference to the first. -/
theorem run_startWith_congr {raw : String} (hdraft : o'.draft = o.draft)
    (hi : Indifferent raw o o' ((startWith accepted o x).run h s).trace
      ((startWith accepted o x).run h s).value.2.record) :
    (startWith accepted o' x).run h s = (startWith accepted o x).run h s := by
  rw [run_startWith] at hi
  rw [run_startWith, run_startWith, hi.base]
  suffices hinner : ((prepare accepted o.base >>= fun w => pursue w o') x.fresh).run h s =
      ((prepare accepted o.base >>= fun w => pursue w o) x.fresh).run h s by rw [hinner]
  refine run_bind_congr fun w x' hv => ?_
  -- The run got as far as its flow, so its record is the one the flow left.
  rw [run_bind_of_ok hv] at hi
  obtain ⟨hflow, -, hpath⟩ := run_conclude (h := h)
    (s := ((pursue w o x').run h ((prepare accepted o.base x.fresh).run h s).world).world)
    ((pursue w o x').run h ((prepare accepted o.base x.fresh).run h s).world).value
  have hnew : o'.new = o.new ∨ w.current = w.default := by
    refine hi.new.imp_right fun hn => hn _ _ ?_
    show _ <+: Trace.moments ((_ ++ _) ++ _)
    rw [List.append_assoc]
    exact clearance_of_run hv
  refine run_pursue_congr hdraft hnew ?_ ?_
  · exact hi.sync.imp_right fun hn he => hn (hflow.trans he)
  · exact hi.branch.imp_right fun hn => hn.imp (fun hn he => hn (hflow.trans he)) (mt hpath.mpr)

/-! ## Whole runs -/

/-- A run with the other options is the same run. -/
theorem run_start_congr {raw : String} (hdraft : o'.draft = o.draft)
    (hi : Indifferent raw o o' ((start raw o x).run h s).trace
      ((start raw o x).run h s).value.2.record) :
    (start raw o' x).run h s = (start raw o x).run h s := by
  have haccept : Description.accept raw o'.force = Description.accept raw o.force := by
    rcases hi.force with hforce | hraw
    · rw [hforce]
    · exact Description.accept_of_matchesGrammar hraw ..
  rw [start_eq] at hi
  rw [start_eq, start_eq, haccept]
  exact run_startWith_congr hdraft hi

/-- A run with the other marker is the run with its marker set. -/
theorem start_marked {raw : String} {draft : Bool} :
    start raw { o with draft } x = (start raw o x).marked draft := by
  rw [start_eq, start_eq]
  refine (twins_startWith (n := id) (fun _ => rfl) (fun _ => rfl) x).trans ?_
  exact Program.bind_done _

/-- A run with the other marker does all the same, but for the marker. -/
theorem run_start_marked {raw : String} {draft : Bool} (hh : h.IgnoresDrafts) :
    ((start raw { o with draft } x).run h s).trace =
        ((start raw o x).run h s).trace.map (Entry.marked draft) ∧
      ((start raw { o with draft } x).run h s).value = ((start raw o x).run h s).value := by
  rw [start_marked, start_eq]
  exact (RequestsLast.startWith x).run_marked (hh draft) s

/-- A run that was given a name does all the same with other random words. -/
theorem run_start_withWords (raw : String) (hb : o.branch ≠ none) (words : List UInt64) :
    (start raw o (x.withWords words)).run h s =
      let run := (start raw o x).run h s
      { run with value := (run.value.1, run.value.2.withWords words) } := by
  have htwins : Twins o.draft (fun k => { k with words }) (start raw o) (start raw o) := by
    rw [start_eq]
    exact twins_startWith (fun _ => rfl) fun h => absurd h hb
  have hrun : start raw o (x.withWords words) =
      ((start raw o x).marked o.draft).bind fun out => .done (out.1, out.2.withWords words) :=
    htwins x
  rw [hrun, ← start_marked, Program.run_bind_done]

/-- A run that drew no name does all the same with other random words. -/
theorem run_start_of_not_drewName {raw : String}
    (hd : ¬((start raw o x).run h s).value.2.record.DrewName o) (words : List UInt64) :
    (start raw o (x.withWords words)).run h s =
      let run := (start raw o x).run h s
      { run with value := (run.value.1, run.value.2.withWords words) } := by
  -- A run that drew no name is the run that was given one, which needs no words.
  let named : Options := { o with branch := some (o.branch.getD "") }
  have hi : Indifferent raw o named ((start raw o x).run h s).trace
      ((start raw o x).run h s).value.2.record := by
    refine ⟨rfl, .inl rfl, .inl rfl, ?_, .inl rfl⟩
    cases hb : o.branch with
    | some name => exact .inl (by simp only [named, hb, Option.getD_some])
    | none => exact .inr (by simpa only [RunRecord.DrewName, hb, true_and, not_and_or] using hd)
  have hnamed : (start raw named x).run h s = (start raw o x).run h s := run_start_congr rfl hi
  have hwords := run_start_withWords (h := h) (x := x) (s := s) (o := named) raw
    (Option.some_ne_none _) words
  rw [hnamed] at hwords
  rw [← hwords]
  refine run_start_congr (o := named) rfl ?_
  rw [hwords]
  dsimp only
  rw [Session.withWords_record]
  exact hi.symm

/-- A run looks at its options only where they make a difference.  The marker of requests
makes one where a request is opened, and the random words where a name is drawn. -/
theorem run_alike (h : Handler shipping σ) (raw : String) (o o' : Options) (x : Session) (s : σ) :
    let run := (start raw o x).run h s
    let run' := (start raw o' x).run h s
    (Indifferent raw o o' run.trace run.value.2.record →
      (o'.draft = o.draft → run' = run) ∧
      (h.IgnoresDrafts →
        run'.trace = run.trace.map (Entry.marked o'.draft) ∧ run'.value = run.value)) ∧
    run.trace.calls.countP Call.isRequest ≤ 1 ∧
    (run.value.2.record.DrewName o ∨ ∀ words, (start raw o (x.withWords words)).run h s =
      { run with value := (run.value.1, run.value.2.withWords words) }) := by
  refine ⟨fun hi => ⟨fun hdraft => run_start_congr hdraft hi, fun hh => ?_⟩, ?_, ?_⟩
  · have hrun : (start raw { o' with draft := o.draft } x).run h s = (start raw o x).run h s :=
      run_start_congr rfl ⟨hi.base, hi.force, hi.sync, hi.branch, hi.new⟩
    rw [← hrun]
    exact run_start_marked (o := { o' with draft := o.draft }) hh
  · rw [start_eq]
    exact (RequestsLast.startWith x).countP_calls_le_one (Program.run_runs ..)
  · exact or_iff_not_imp_left.mpr run_start_of_not_drewName

/-- Changes on the default branch ship alike whatever is asked for besides, and a clean tree
takes no random words. -/
theorem run_alike_onDefault :
    let o : Options := { branch := some "topic" }
    let all : Options := { o with sync := true, new := true, force := true }
    let run := (start "feat: add widget" o .sample).run Site.answer .changed
    let drafted := (start "feat: add widget" { all with draft := true } .sample).run
      Site.answer .changed
    let idle (words : List UInt64) :=
      (start "feat: add widget" {} (Session.sample.withWords words)).run Site.answer {}
    (start "feat: add widget" all .sample).run Site.answer .changed = run ∧
      drafted.trace = run.trace.map (Entry.marked true) ∧ drafted.value = run.value ∧
      run.trace.calls.countP Call.isRequest = 1 ∧
      ∀ words, (idle words).value.1 = (idle []).value.1 := by
  intro o all
  dsimp only
  have hcleared : clearance o "main" "main" <+: Trace.moments
      ((start "feat: add widget" o .sample).run Site.answer .changed).trace := ⟨_, rfl⟩
  have hi (draft : Bool) : Indifferent "feat: add widget" o { all with draft }
      ((start "feat: add widget" o .sample).run Site.answer .changed).trace
      ((start "feat: add widget" o .sample).run Site.answer .changed).value.2.record := by
    refine ⟨rfl, .inr (by decide +kernel), .inr (by decide +kernel), .inl rfl, .inr ?_⟩
    intro current default h
    obtain ⟨rfl, rfl⟩ := clearance_unique hcleared h
    rfl
  have hh : Handler.IgnoresDrafts Site.answer := fun _ _ _ => rfl
  have hsame := (run_alike Site.answer "feat: add widget" o { all with draft := false } .sample
    .changed).1 (hi false)
  have hdrafted := (run_alike Site.answer "feat: add widget" o { all with draft := true } .sample
    .changed).1 (hi true)
  have hidle := (run_alike Site.answer "feat: add widget" {} {} .sample {}).2.2.resolve_left
    fun h => absurd h.2.2 (by decide +kernel)
  refine ⟨hsame.1 rfl, (hdrafted.2 hh).1, (hdrafted.2 hh).2, by decide +kernel, fun words => ?_⟩
  rw [hidle words]
  rfl

end Ship

end Shipment
