import Shipment.Proofs.Clearance
import Shipment.Proofs.Run.Route

/-!
# The record of a run

`Recorded` is what the record of a finished run has to do with the calls of the run and with
its result.  Its path is that of a course, and the course was decided by the options, by what
the run was told when it selected the flow, and by the result.  The main statement is that
this holds of every run, whatever it is answered and whatever ran in the session before.
-/

namespace Shipment

namespace Ship

variable {α : Type} {w : Setting} {o : Options}
variable {accepted : Except Failure (Description × Verdict)}

/-! ## The outcome -/

/-- A piece ends with the outcome of a flow, which has the notices of the record. -/
structure Closes (flow : Flow) (m : Ship Outcome) : Prop where
  ensures : ∀ {σ : Type} {W : Surroundings shipping σ} {x : Session} {s : σ},
    m.Ensures W (fun out x' _ => out.flow = flow ∧ out.notices = x'.record.notices)
      (fun _ _ _ => True) x s

theorem closes_finishNoOp {flow : Flow} {branch base : String} {reason : NoOpReason} :
    Closes flow (finishNoOp flow branch base reason) :=
  ⟨ensures_bind.mpr (ensures_enter.mpr ⟨rfl, rfl⟩)⟩

theorem closes_finishShipped {flow : Flow} {branch base : String} {result : RunResult} :
    Closes flow (finishShipped flow branch base result) :=
  ⟨ensures_bind.mpr (ensures_enter.mpr ⟨rfl, rfl⟩)⟩

/-- It is the last piece that closes. -/
theorem Closes.behind {flow : Flow} {m : Ship α} {f : α → Ship Outcome}
    (hf : ∀ a, Closes flow (f a)) : Closes flow (m >>= f) :=
  ⟨ensures_true.bind (fun _ _ _ _ => trivial) fun a _ _ _ => (hf a).ensures⟩

/-- Both flows end with an outcome that has the notices of the record. -/
theorem closes_follow (flow : Flow) : Closes flow (follow w o flow) := by
  cases flow with
  | newRequest =>
      rw [follow, newRequest_eq]
      refine .behind fun seen => ?_
      unfold shipSeen
      cases newRequestNoOp (decide (w.current = w.default)) o.new seen.dirty seen.ahead with
      | some reason => exact closes_finishNoOp
      | none =>
          show Closes _ (shipNew w o)
          rw [shipNew_eq]
          exact .behind fun branch => .behind fun committed => .behind fun request =>
            closes_finishShipped
  | updateExisting =>
      have hpush {staged : Bool} {ahead : Nat} :
          Closes .updateExisting (pushUpdate w o staged ahead) := by
        cases hmode : updatePushMode o.sync ahead with
        | none =>
            rw [pushUpdate_of_none hmode]
            exact .behind fun _ => .behind fun request => closes_finishShipped
        | some mode =>
            rw [pushUpdate_of_some hmode]
            exact .behind fun _ => .behind fun _ => .behind fun request => closes_finishShipped
      have hship (counterpart : Option String) :
          Closes .updateExisting (stageAndShip w o counterpart) := by
        refine .behind fun _ => .behind fun _ => .behind fun staged => .behind fun ahead => ?_
        split
        · exact closes_finishNoOp
        · exact .behind fun ahead' => hpush
      rw [follow, updateExisting_eq]
      refine .behind fun counterpart => ?_
      split
      · exact .behind fun _ => hship counterpart
      · exact hship counterpart

/-! ## The parts of a run -/

section Parts

variable {σ : Type} {W : Surroundings shipping σ} {x : Session} {s : σ}

/-- What settling records. -/
theorem ensures_settle_record (hx : x.record.Sound) :
    (settle accepted o).Ensures W
      (fun p x' _ => x'.record.Sound ∧ x'.record.flow = some p.2 ∧ x'.record.path =
        x.record.path ++ [.checkingPreconditions, .resolvingBase, .selectingFlow])
      (fun _ x' _ => x'.record.Sound ∧ x'.record.flow = x.record.flow ∧
        ∃ p, p <+: [.checkingPreconditions, .resolvingBase] ∧
          x'.record.path = x.record.path ++ p) x s := by
  have hwoven : Woven o.draft False (prepare accepted o.base) (prepare accepted o.base) :=
    .prepare _ _
  rw [settle_eq]
  refine ((visits_prepare o.base).ensures.and hwoven.sound).bind ?_ ?_
  · rintro e x' _ ⟨⟨_, _, p, rfl, hp, -, hpath⟩, hsound, hflow⟩
    exact ⟨hsound hx, hflow, p, hp, hpath⟩
  · rintro w x' _ ⟨⟨_, rfl, hpath⟩, hsound, -⟩
    simp only [selectFlow, ensures_bind, ensures_enter, ensures_updateRecord, ensures_tell,
      ensures_pure]
    refine ⟨((hsound hx).enter _ _).selectFlow _, rfl, ?_⟩
    show (x'.record.enter x'.time .selectingFlow).path = _
    rw [RunRecord.path_enter, hpath, List.append_assoc]
    rfl

/-- What following a flow records. -/
theorem ensures_follow_record {flow : Flow} (hx : x.record.Sound) :
    (follow w o flow).Ensures W
      (fun out x' _ => x'.record.Sound ∧ x'.record.flow = x.record.flow ∧
        out.flow = flow ∧ out.notices = x'.record.notices ∧
        ∃ q, Routed flow (decide (w.current = w.default)) o.sync out q ∧
          x'.record.path = x.record.path ++ q)
      (fun _ x' _ => x'.record.Sound ∧ x'.record.flow = x.record.flow ∧
        ∃ out q p, Routed flow (decide (w.current = w.default)) o.sync out q ∧ p <+: q ∧
          (∀ s ∈ p, s.isTerminal = false) ∧ x'.record.path = x.record.path ++ p) x s := by
  have hwoven : Woven o.draft True (follow w o flow) (follow w o flow) := .follow fun _ _ => trivial
  refine Ensures.mono ((visits_follow flow).ensures.and
    ((closes_follow flow).ensures.and hwoven.sound)) ?_ ?_
  · rintro out x' _ ⟨hroute, ⟨hflow, hnotices⟩, hsound, hkept⟩
    exact ⟨hsound hx, hkept, hflow, hnotices, hroute⟩
  · rintro e x' _ ⟨hroute, -, hsound, hkept⟩
    exact ⟨hsound hx, hkept, hroute⟩

end Parts

end Ship

/-! ## Whole runs -/

/-- The step a run ends in. -/
def Step.closing : Except Failure Outcome → Step
  | .error _ => .failed
  | .ok out => if out.isNoOp then .noOp else .completed

/-- The flow and the start of a course are what the run was told. -/
def Course.Chosen (o : Options) (l : Log) (c : Course) : Prop :=
  ∃ current default, clearance o current default <+: l ∧
    c.flow = Flow.select current default o.new ∧ c.onDefault = decide (current = default)

/-- The record of a run beside its log and its result. -/
structure Recorded (o : Options) (l : Log) (result : Except Failure Outcome) (r : RunRecord) :
    Prop where
  /-- The path starts with the description. -/
  first : r.path.head? = some .validatingIntent
  /-- No step is entered twice. -/
  once : r.path.Nodup
  /-- The last step is the only terminal one, and is that of the result. -/
  ends : ∃ front, r.path = front ++ [Step.closing result] ∧ ∀ s ∈ front, s.isTerminal = false
  /-- The step is the last one of the path, and the status is that of the step. -/
  step : r.step = Step.closing result
  status : RunStatus.ofStep r.step = some r.status
  /-- The time the run was over is set. -/
  finished : r.finishedAt.isSome = true
  /-- The transitions are those of the path. -/
  history : r.history = r.path.zip r.path.tail
  /-- The path is that of a course. -/
  course : ∃ c : Course, c.Follows r.path ∧ c.sync = o.sync ∧
    (.selectingFlow ∈ r.path → c.Chosen o l ∧ r.flow = some c.flow)
  /-- The flow is recorded when it is selected. -/
  flow : r.flow.isSome = true ↔ .selectingFlow ∈ r.path
  /-- The run has committed when it says so. -/
  committed : ∀ out committed pushed request, result = .ok out →
    out.result = .shipped committed pushed request → (.committing ∈ r.path ↔ committed = true)
  /-- The outcome has the flow and the notices of the record. -/
  outcome : ∀ out, result = .ok out → r.flow = some out.flow ∧ out.notices = r.notices

namespace Recorded

variable {o : Options} {l : Log} {result : Except Failure Outcome} {r : RunRecord} {c : Course}

/-- The record of a run that did not fail. -/
theorem finished_of {out : Outcome} {onDefault : Bool} (hs : r.Sound)
    (hc : c = .endingIn out.flow onDefault o.sync out.result)
    (hpath : r.path = c.steps ++ [c.last]) (hchosen : c.Chosen o l)
    (hflow : r.flow = some c.flow) (hnotices : out.notices = r.notices) :
    Recorded o l (.ok out) r := by
  have hclosing : Step.closing (.ok out) = c.last := by
    rw [hc, Step.closing, Outcome.isNoOp]
    cases out.result <;> rfl
  have hmem : .selectingFlow ∈ r.path := by
    rw [hpath]
    simp [Course.steps]
  have hfollows : c.Follows r.path := hpath ▸ .toTheEnd
  obtain ⟨hstep, hstatus, hfinished⟩ := hs.closed hpath c.isTerminal_last
  have hflow' : r.flow = some out.flow := by rw [hflow, hc, Course.endingIn_flow]
  refine ⟨hfollows.head, hfollows.nodup, ⟨c.steps, ?_, c.isTerminal_steps⟩, ?_, hstatus,
    hfinished, hs.history, ⟨c, hfollows, ?_, fun _ => ⟨hchosen, hflow⟩⟩, ?_, ?_, ?_⟩
  · rw [hclosing, hpath]
  · rw [hclosing, hstep]
  · rw [hc, Course.endingIn_sync]
  · simp [hflow, hmem]
  · rintro _ committed pushed request h hr
    cases h
    have hlast : .committing ∉ [c.last] := by
      intro h
      have := c.isTerminal_last
      rw [← List.mem_singleton.mp h] at this
      cases this
    rw [hpath, List.mem_append, or_iff_left hlast, c.committing_mem_steps, hc, hr]
    simp [Course.endingIn]
  · rintro _ h
    cases h
    exact ⟨hflow', hnotices⟩

/-- The record of a run that failed, from the record before it did. -/
theorem broken_of {e : Failure} {now : Int} (hs : r.Sound) (hne : r.path ≠ [])
    (hsteps : r.path <+: c.steps) (hsync : c.sync = o.sync)
    (hflow : r.flow.isSome = true → .selectingFlow ∈ r.path)
    (hchosen : .selectingFlow ∈ r.path → c.Chosen o l ∧ r.flow = some c.flow) :
    Recorded o l (.error e) (r.enter now .failed) := by
  have hpath := RunRecord.path_enter now .failed r
  have hmem : .selectingFlow ∈ (r.enter now .failed).path ↔ .selectingFlow ∈ r.path := by
    rw [hpath, List.mem_append]
    simp
  have hfollows : c.Follows (r.enter now .failed).path := hpath ▸ .brokenOff hne hsteps
  obtain ⟨hstep, hstatus, hfinished⟩ := (hs.enter now .failed).closed hpath rfl
  refine ⟨hfollows.head, hfollows.nodup, ⟨r.path, hpath, ?_⟩, hstep, hstatus, hfinished,
    (hs.enter now .failed).history, ⟨c, hfollows, hsync, fun h => hchosen (hmem.mp h)⟩, ?_,
    fun _ _ _ _ h => (by cases h), fun _ h => by cases h⟩
  · exact fun s h => c.isTerminal_steps s (hsteps.subset h)
  · refine ⟨fun h => hmem.mpr (hflow h), fun h => ?_⟩
    exact Option.isSome_iff_exists.mpr ⟨_, (hchosen (hmem.mp h)).2⟩

end Recorded

namespace Ship

/-- A log only grows. -/
theorem ensures_prefix {σ : Type} {W : Surroundings shipping σ} {m : Ship α} {x : Session}
    {l : List (Moment shipping σ)} {s : σ} :
    m.Ensures W.logged (fun _ _ z => l <+: z.1) (fun _ _ z => l <+: z.1) x (l, s) := by
  have huses : Uses (fun _ => True) m := fun x => Program.uses_true (m x)
  refine huses.logs.weaken fun _ z hz => ?_
  obtain ⟨new, hz, -⟩ := hz
  exact hz ▸ List.prefix_append l new

/-- The record behind a flow, once the run is over. -/
theorem ensures_follow_recorded {flow : Flow} {x : Session} (hs : x.record.Sound)
    (hflow : x.record.flow = some flow) (hpath : x.record.path =
      [.validatingIntent, .checkingPreconditions, .resolvingBase, .selectingFlow])
    (hselect : flow = Flow.select w.current w.default o.new) :
    (follow w o flow).Ensures Surroundings.any.logged
      (fun out x' z => Recorded o z.1 (.ok out) x'.record)
      (fun e x' z => Recorded o z.1 (.error e) (x'.entered .failed).record)
      x (clearance o w.current w.default, ()) := by
  -- The log of the flow only grows, so it still starts with the calls that cleared the run.
  refine ((ensures_follow_record hs).and ensures_prefix).mono ?_ ?_
  · rintro out x' z ⟨⟨hs', hkept, hf, hnotices, _, rfl, hp⟩, hl⟩
    have hc : Course.endingIn flow (decide (w.current = w.default)) o.sync out.result =
        .endingIn out.flow (decide (w.current = w.default)) o.sync out.result := by rw [hf]
    refine Recorded.finished_of hs' hc ?_ ⟨w.current, w.default, hl, ?_, ?_⟩ ?_ hnotices
    · rw [hp, hpath]
      simp [Course.steps]
    · rw [Course.endingIn_flow, hselect]
    · rw [Course.endingIn_onDefault]
    · rw [hkept, hflow, Course.endingIn_flow]
  · rintro e x' z ⟨⟨hs', hkept, out, _, p, rfl, hprefix, hopen, hp⟩, hl⟩
    let c := Course.endingIn flow (decide (w.current = w.default)) o.sync out.result
    have hsteps : p <+: c.flowSteps := by
      refine (List.prefix_concat_iff.mp hprefix).resolve_left ?_
      rintro rfl
      exact absurd (hopen c.last (by simp [c])) (by simp [c.isTerminal_last])
    have hpath' : x'.record.path = [.validatingIntent, .checkingPreconditions, .resolvingBase,
        .selectingFlow] ++ p := by rw [hp, hpath]
    refine Recorded.broken_of (c := c) hs' (by simp [hpath']) ?_ (Course.endingIn_sync ..) ?_ ?_
    · rw [hpath']
      exact (List.prefix_append_right_inj _).mpr hsteps
    · exact fun _ => by simp [hpath']
    · refine fun _ => ⟨⟨w.current, w.default, hl, ?_, Course.endingIn_onDefault ..⟩, ?_⟩
      · rw [Course.endingIn_flow, hselect]
      · rw [hkept, hflow, Course.endingIn_flow]

/-- However a run ends, its record is that of a course which fits its log. -/
theorem ensures_startWith_recorded {x : Session} :
    (startWith accepted o).Ensures Surroundings.any.logged
      (fun out x' z => Recorded o z.1 (.ok out) x'.record)
      (fun e x' z => Recorded o z.1 (.error e) x'.record) x ([], ()) := by
  have hfresh : x.fresh.record.Sound := ⟨rfl, rfl, rfl, rfl⟩
  have hlog : Heeds (fun _ _ => True) (settle accepted o)
      (fun p l' => p.1.Chosen accepted o p.2 ∧
        l' = [] ++ clearance o p.1.current p.1.default) [] := heeds_settle fun _ _ _ => trivial
  refine ensures_startWith.mpr (((ensures_settle_record hfresh).and hlog.ensures).mono ?_ ?_)
  · rintro ⟨w, flow⟩ x' ⟨_, _⟩ ⟨⟨hs, hflow, hpath⟩, hchosen, rfl⟩
    exact ensures_follow_recorded hs hflow hpath hchosen.flow
  · rintro e x' z ⟨⟨hs, hflow, p, hp, hpath⟩, -⟩
    have hpath' : x'.record.path = .validatingIntent :: p := hpath
    have hnone : .selectingFlow ∉ x'.record.path := by
      rw [hpath', List.mem_cons, not_or]
      exact ⟨by decide, fun h => by simpa using hp.subset h⟩
    let c := Course.endingIn .newRequest false o.sync (.noOp .cleanDefaultBranch)
    refine Recorded.broken_of (c := c) hs (by simp [hpath']) ?_ rfl ?_ fun h => absurd h hnone
    · rw [hpath']
      exact List.cons_prefix_cons.mpr ⟨rfl, hp.trans ⟨_, rfl⟩⟩
    · rw [hflow]
      exact fun h => by cases h

/-- The record of a run is that of a course.  The steps on it, its end and its flow are those
of what the run was told and of its result. -/
theorem recorded_of_run (raw : String) (o : Options) (x : Session) (t : Trace shipping)
    (out : Except Failure Outcome × Session) (ht : Program.Runs (start raw o x) t out) :
    Recorded o t.moments out.1 out.2.record := by
  rw [start_eq] at ht
  have h := ensures_startWith_recorded.runs ht fun _ _ => trivial
  obtain ⟨r, x'⟩ := out
  cases r with
  | ok outcome => exact h
  | error e => exact h

/-- A run that ships the default branch goes all the way, and one whose push is rejected
breaks off there. -/
theorem recorded_of_run_changed :
    let o : Options := { branch := some "topic" }
    let run := (start "feat: add widget" o .sample).run Site.answer .changed
    let faults := [Fault.outage fun c => c = .push "topic" .tracking]
    let stopped := (start "feat: add widget" o .sample).run
      Site.answer.withFaults (faults, .changed)
    let c : Course := ⟨.newRequest, true, false, false, true⟩
    (run.value.2.record.path = c.steps ++ [.completed] ∧
      Recorded o run.trace.moments run.value.1 run.value.2.record) ∧
    stopped.value.2.record.path = c.steps.dropLast ++ [.failed] ∧
      Recorded o stopped.trace.moments stopped.value.1 stopped.value.2.record := by
  intro o run faults stopped c
  refine ⟨⟨by decide +kernel, ?_⟩, by decide +kernel, ?_⟩
  · exact recorded_of_run _ _ _ _ _ (Program.run_runs ..)
  · exact recorded_of_run _ _ _ _ _ (Program.run_runs ..)

end Ship

end Shipment
