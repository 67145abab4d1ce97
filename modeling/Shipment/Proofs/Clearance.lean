import Shipment.Command.Ship
import Shipment.Proofs.Description
import Shipment.Proofs.Run.Heeds
import Shipment.Proofs.Run.Woven

/-!
# Nothing is changed before the checks

A run accepts its description and asks up to six questions before it changes anything.
`clearance` is the log of these questions as they have to be answered, and `heeds_settle`
says that a run that settled its flow has exactly this log.  `problems` are the same checks
on the replies that the questions would get, and a run that does not settle its flow fails
with the first of them.
-/

namespace Shipment

/-- What a run that settled its flow agreed on. -/
structure Setting.Chosen (accepted : Except Failure (Description × Verdict)) (o : Options)
    (flow : Flow) (w : Setting) : Prop where
  description : ∃ verdict, accepted = .ok (w.description, verdict)
  base : w.base = o.base.getD w.default
  flow : flow = Flow.select w.current w.default o.new

/-- The questions of the checks. -/
def questions (o : Options) : List Call :=
  [.isAuthenticated, .hasOrigin, .operationInProgress, .currentBranch, .defaultBranch] ++
    (o.base.map .remoteBranchExists).toList

/-- The checks only ask. -/
theorem asks_of_questions {o : Options} : ∀ c ∈ questions o, c.Asks := by
  unfold questions
  cases o.base with
  | none => simp [Call.Asks, Call.isQuestion]
  | some base => simp [Call.Asks, Call.isQuestion]

/-- The calls that clear a run to change something, as they have to be answered. -/
def clearance (o : Options) (current default : String) : Log :=
  [.ok .isAuthenticated true, .ok .hasOrigin true, .ok .operationInProgress none,
    .ok .currentBranch (some current), .ok .defaultBranch default] ++
  (o.base.map fun base => .ok (.remoteBranchExists base) true).toList

/-- A run is cleared on one branch and one default branch only. -/
theorem clearance_unique {o : Options} {current default current' default' : String} {l : Log}
    (h : clearance o current default <+: l) (h' : clearance o current' default' <+: l) :
    current = current' ∧ default = default' := by
  obtain ⟨rest, rfl⟩ := h
  obtain ⟨rest', e⟩ := h'
  simp only [clearance, Moment.ok, List.cons_append, List.cons.injEq, Moment.mk.injEq, heq_eq_eq,
    Except.ok.injEq, Option.some.injEq, true_and, and_true] at e
  exact ⟨e.1.symm, e.2.1.symm⟩

theorem asks_of_clearance {o : Options} {current default : String} :
    ∀ m ∈ clearance o current default, m.call.Asks := by
  unfold clearance
  cases o.base with
  | none => simp [Call.Asks, Call.isQuestion]
  | some base => simp [Call.Asks, Call.isQuestion]

namespace Ship

open Call

variable {rule : Log → Call → Prop} {l : Log} {o : Options}
variable {accepted : Except Failure (Description × Verdict)}

/-! ## What settling asks -/

theorem heeds_acceptVerdict :
    Heeds rule (acceptVerdict accepted)
      (fun d l' => (∃ verdict, accepted = .ok (d, verdict)) ∧ l' = l) l := by
  cases accepted with
  | error e => exact .fail
  | ok out =>
      obtain ⟨d, verdict⟩ := out
      have h : Heeds rule (ofExcept (.ok (d, verdict)))
          (fun p l' => p = (d, verdict) ∧ l' = l) l := .pure ⟨rfl, rfl⟩
      refine h.bind ?_
      rintro _ l ⟨rfl, rfl⟩
      exact .when (R := (· = l)) (fun _ => .notify rfl) (fun _ => rfl)
        fun _ hl => .pure ⟨⟨verdict, rfl⟩, hl⟩

theorem heeds_checkPrerequisites (hr : ∀ l, ∀ c ∈ questions o, rule l c) :
    Heeds rule checkPrerequisites
      (fun current l' => l' = l ++ [.ok .isAuthenticated true, .ok .hasOrigin true,
        .ok .operationInProgress none, .ok .currentBranch (some current)]) l := by
  refine .enter (.ask_bind (hr _ _ (by simp [questions])) fun authenticated => .orElse fun h₁ => ?_)
  refine .ask_bind (hr _ _ (by simp [questions])) fun origin => .orElse fun h₂ => ?_
  refine .ask_bind (hr _ _ (by simp [questions])) fun operation => ?_
  cases operation with
  | some op => exact .fail
  | none =>
      refine .ask_bind (hr _ _ (by simp [questions])) fun current => ?_
      cases current with
      | none => exact .fail
      | some current => exact .pure (by simp [h₁, h₂])

theorem heeds_resolveBase (hr : ∀ l, ∀ c ∈ questions o, rule l c) {default : String} :
    Heeds rule (resolveBase o.base default)
      (fun base l' => base = o.base.getD default ∧
        l' = l ++ (o.base.map fun base => .ok (.remoteBranchExists base) true).toList) l := by
  cases hb : o.base with
  | none => exact .pure (by simp)
  | some base =>
      refine .ask_bind (hr _ _ (by simp [questions, hb])) fun known => ?_
      cases known with
      | false => exact .fail
      | true => exact .pure (by simp)

theorem heeds_selectFlow {current default : String} {new : Bool} :
    Heeds rule (selectFlow current default new)
      (fun flow l' => flow = Flow.select current default new ∧ l' = l) l := by
  refine .enter ?_
  intro x flow h
  cases h
  exact ⟨rfl, rfl⟩

/-- What comes before the selection of the flow makes the calls that clear the run, and no
other. -/
theorem heeds_prepare (hr : ∀ l, ∀ c ∈ questions o, rule l c) :
    Heeds rule (prepare accepted o.base)
      (fun w l' => (∃ verdict, accepted = .ok (w.description, verdict)) ∧
        w.base = o.base.getD w.default ∧ l' = l ++ clearance o w.current w.default) l := by
  refine heeds_acceptVerdict.bind ?_
  rintro d l₁ ⟨hd, rfl⟩
  refine (heeds_checkPrerequisites hr).bind ?_
  rintro current _ rfl
  refine .enter (.ask_bind (hr _ _ (by simp [questions])) fun default => ?_)
  refine (heeds_resolveBase hr).bind ?_
  rintro base _ ⟨hbase, rfl⟩
  exact .pure ⟨hd, hbase, by simp [clearance]⟩

/-- Settling makes the calls that clear the run, and no other. -/
theorem heeds_settle (hr : ∀ l, ∀ c ∈ questions o, rule l c) :
    Heeds rule (settle accepted o)
      (fun p l' => p.1.Chosen accepted o p.2 ∧ l' = l ++ clearance o p.1.current p.1.default)
      l := by
  rw [settle_eq]
  refine (heeds_prepare hr).bind ?_
  rintro w _ ⟨hd, hbase, rfl⟩
  refine heeds_selectFlow.bind ?_
  rintro flow _ ⟨hflow, rfl⟩
  exact .pure ⟨⟨hd, hbase, hflow⟩, rfl⟩

/-- A run heeds a rule if its flow does, behind the calls that clear it, from every session that
settling may leave. -/
theorem heedsFrom_startWith {Q : Outcome → Log → Prop} {S : Session → Prop} {x : Session}
    (hr : ∀ l, ∀ c ∈ questions o, rule l c)
    (hS : (settle accepted o).Ensures Surroundings.any (fun _ x' _ => S x') (fun _ _ _ => True)
      x.fresh ())
    (hf : ∀ w flow x', w.Chosen accepted o flow → S x' →
      HeedsFrom rule (follow w o flow) (fun out _ => Q out) x'
        (clearance o w.current w.default)) :
    HeedsFrom rule (startWith accepted o) (fun out _ => Q out) x [] := by
  have hrun : HeedsFrom rule (settle accepted o >>= fun p => follow p.1 o p.2)
      (fun out _ => Q out) x.fresh [] := by
    refine ((heeds_settle hr).fromSession hS).bind ?_
    rintro ⟨w, flow⟩ x' _ ⟨⟨hw, rfl⟩, hx⟩
    exact hf w flow x' hw hx
  have hstart {α : Type} {m : Ship α} {k : α → Ship Outcome} {x' y : Session}
      (hm : HeedsFrom rule m (fun _ z l' => z = y ∧ l' = []) x' [])
      (hk : ∀ a, HeedsFrom rule (k a) (fun out _ => Q out) y []) :
      HeedsFrom rule (m >>= k) (fun out _ => Q out) x' [] := by
    refine hm.bind ?_
    rintro a _ _ ⟨rfl, rfl⟩
    exact hk a
  refine hstart (y := x.fresh) (fun _ _ => ⟨rfl, rfl⟩) fun _ => ?_
  refine hstart (y := x.fresh) (fun _ _ => ⟨rfl, rfl⟩) fun _ => hrun.attempt.bind ?_
  intro r x' l' hQ
  cases r with
  | ok out => exact Heeds.pure (hQ out rfl) x'
  | error e => exact Heeds.enter .fail x'

/-- A run heeds a rule if its flow does, behind the calls that clear it. -/
theorem heeds_startWith {Q : Outcome → Log → Prop} (hr : ∀ l, ∀ c ∈ questions o, rule l c)
    (hf : ∀ w flow, w.Chosen accepted o flow →
      Heeds rule (follow w o flow) Q (clearance o w.current w.default)) :
    Heeds rule (startWith accepted o) Q [] :=
  fun _ => heedsFrom_startWith (S := fun _ => True) hr ensures_true fun w flow x' hw _ =>
    hf w flow hw x'

end Ship

/-! ## Which check fails first -/

/-- The failure of a check on a reply: that of the reply, or that of a guard. -/
def problem {α : Type} (guard : α → Option Failure) : Except Failure α → Option Failure
  | .ok a => guard a
  | .error e => some e

@[simp] theorem problem_ok {α : Type} (guard : α → Option Failure) (a : α) :
    problem guard (.ok a) = guard a := rfl

@[simp] theorem problem_error {α : Type} (guard : α → Option Failure) (e : Failure) :
    problem guard (.error e) = some e := rfl

/-- The guard that the answer is yes. -/
def demand (e : Failure) (yes : Bool) : Option Failure := if yes then none else some e

theorem demand_eq_none {e : Failure} {yes : Bool} : demand e yes = none ↔ yes = true := by
  simp [demand]

theorem demand_eq_some {e e' : Failure} {yes : Bool} :
    demand e yes = some e' ↔ e = e' ∧ yes = false := by
  simp [demand, and_comm]

/-- The checks of the prerequisites, in order, if the calls are replied to like this. -/
def prerequisiteProblems (would : (c : Call) → Except Failure c.Answer) : List (Option Failure) :=
  [problem (demand (.missingPrerequisite .hostAuthentication)) (would .isAuthenticated),
    problem (demand (.missingPrerequisite .originRemote)) (would .hasOrigin),
    problem (Option.map fun op => .missingPrerequisite (.noOperation op))
      (would .operationInProgress),
    problem (fun branch => demand (.missingPrerequisite .namedBranch) branch.isSome)
      (would .currentBranch)]

/-- The check of the base that was asked for. -/
def baseProblem (asked : Option String) (would : (c : Call) → Except Failure c.Answer) :
    Option Failure :=
  asked.bind fun base => problem (demand (.unknownBase base)) (would (.remoteBranchExists base))

/-- All checks of a run, in order. -/
def problems (accepted : Except Failure (Description × Verdict)) (o : Options)
    (would : (c : Call) → Except Failure c.Answer) : List (Option Failure) :=
  problem (fun _ => none) accepted :: prerequisiteProblems would ++
    [problem (fun _ => none) (would .defaultBranch), baseProblem o.base would]

/-- The first check that would fail. -/
def firstProblem (accepted : Except Failure (Description × Verdict)) (o : Options)
    (would : (c : Call) → Except Failure c.Answer) : Option Failure :=
  (problems accepted o would).findSome? id

namespace Ship

variable {α β : Type} {o : Options} {would : (c : Call) → Except Failure c.Answer}
variable {ps qs : List (Option Failure)} {accepted : Except Failure (Description × Verdict)}

/-- Surroundings that reply like this to the questions of the checks. -/
abbrev replyingAs (o : Options) (would : (c : Call) → Except Failure c.Answer) :
    Surroundings shipping Unit :=
  .replying fun c r => c ∈ questions o → r = would c

/-- A piece fails with the first of some problems, and only if there is one. -/
def Reports (o : Options) (would : (c : Call) → Except Failure c.Answer)
    (problems : List (Option Failure)) (m : Ship α) : Prop :=
  ∀ x, m.Ensures (replyingAs o would) (fun _ _ _ => problems.findSome? id = none)
    (fun e _ _ => problems.findSome? id = some e) x ()

namespace Reports

theorem bind {m : Ship α} {f : α → Ship β} (h : Reports o would ps m)
    (hf : ∀ a, Reports o would qs (f a)) : Reports o would (ps ++ qs) (m >>= f) := by
  intro x
  refine (h x).bind ?_ ?_
  · intro e x' _ he
    simp [List.findSome?_append, he]
  · intro a x' _ ha
    simpa [List.findSome?_append, ha] using hf a x'

theorem fail (e : Failure) : Reports o would (some e :: ps) (Ship.fail e : Ship α) :=
  fun _ => rfl

theorem pure (a : α) : Reports o would [] (Pure.pure a : Ship α) := fun _ => rfl

theorem enter {step : Step} {f : Unit → Ship α} (h : Reports o would ps (f ())) :
    Reports o would ps (Ship.enter step >>= f) :=
  fun _ => ensures_bind.mpr (ensures_enter.mpr (h _))

/-- A piece followed by one that always gives a value. -/
theorem bind_quiet {m : Ship α} {f : α → Ship β} (h : Reports o would ps m)
    (hf : ∀ a, Reports o would [] (f a)) : Reports o would ps (m >>= f) :=
  List.append_nil ps ▸ h.bind hf

/-- A question and the guard on its answer. -/
theorem ask {c : Call} {guard : c.Answer → Option Failure} {f : c.Answer → Ship α}
    (hc : c ∈ questions o) (hf : ∀ a, guard a = none → Reports o would ps (f a))
    (he : ∀ a e, guard a = some e → Reports o would (some e :: ps) (f a)) :
    Reports o would (problem guard (would c) :: ps) (Ship.ask c >>= f) := by
  intro x
  refine ensures_bind.mpr (ensures_ask.mpr ?_)
  intro r s' hr
  rw [show r = would c from hr hc]
  cases would c with
  | error e => exact rfl
  | ok a =>
      cases hg : guard a with
      | none =>
          rw [problem_ok, hg]
          exact hf a hg x
      | some e =>
          rw [problem_ok, hg]
          exact he a e hg x

/-- A question whose answer has to be yes. -/
theorem demand {c : Call} {yes : c.Answer → Bool} {e : Failure} {f : c.Answer → Ship α}
    {k : Unit → Ship α} (hc : c ∈ questions o)
    (hf : ∀ a, f a = if yes a = true then k () else (Ship.fail e : Ship Unit) >>= k)
    (hk : Reports o would ps (k ())) :
    Reports o would (problem (fun a => demand e (yes a)) (would c) :: ps) (Ship.ask c >>= f) := by
  refine .ask hc (fun a ha => ?_) fun a e' ha => ?_
  · rw [hf, if_pos (demand_eq_none.mp ha)]
    exact hk
  · obtain ⟨rfl, hy⟩ := demand_eq_some.mp ha
    rw [hf, hy]
    exact fun _ => rfl

end Reports

theorem reports_acceptVerdict_bind {f : Description → Ship α} (hf : ∀ d, Reports o would ps (f d)) :
    Reports o would (problem (fun _ => none) accepted :: ps) (acceptVerdict accepted >>= f) := by
  have h : Reports o would [problem (fun _ => none) accepted] (acceptVerdict accepted) := by
    cases accepted with
    | error e => exact .fail e
    | ok out =>
        intro x
        refine ensures_bind.mpr (ensures_ofExcept.mpr ?_)
        refine Ensures.when (F := fun _ _ _ => False) (R := fun _ _ => True)
          (fun _ => ensures_notify.mpr trivial) (fun _ _ _ h => h.elim) (fun _ => trivial) ?_
        exact fun _ _ _ => rfl
  exact h.bind hf

/-- The prerequisites fail with the first of their problems. -/
theorem reports_checkPrerequisites :
    Reports o would (prerequisiteProblems would) checkPrerequisites := by
  refine .enter (.demand (by simp [questions]) (fun _ => rfl) ?_)
  refine .demand (by simp [questions]) (fun _ => rfl) ?_
  refine .ask (by simp [questions]) (fun operation ho => ?_) fun operation e ho => ?_
  · cases operation with
    | some op => cases ho
    | none =>
        refine .ask (by simp [questions]) (fun branch hb => ?_) fun branch e hb => ?_
        · cases branch with
          | none => cases hb
          | some branch => exact .pure branch
        · cases branch with
          | none =>
              cases hb
              exact .fail _
          | some branch => cases hb
  · cases operation with
    | none => cases ho
    | some op =>
        cases ho
        exact .fail _

theorem reports_resolveBase {default : String} :
    Reports o would [baseProblem o.base would] (resolveBase o.base default) := by
  cases hb : o.base with
  | none => exact fun _ => rfl
  | some base =>
      refine .ask (by simp [questions, hb]) (fun known hk => ?_) fun known e hk => ?_
      · rw [if_pos (demand_eq_none.mp hk)]
        exact .pure base
      · obtain ⟨rfl, rfl⟩ := demand_eq_some.mp hk
        exact .fail _

theorem reports_settle : Reports o would (problems accepted o would) (settle accepted o) := by
  refine reports_acceptVerdict_bind fun d => reports_checkPrerequisites.bind fun current => ?_
  refine .enter (.ask (by simp [questions]) (fun default _ => ?_) fun default e h => by cases h)
  exact reports_resolveBase.bind_quiet fun base _ => rfl

/-- A run with a problem only asks, and fails with the first problem. -/
theorem ensures_firstProblem {e : Failure} (he : firstProblem accepted o would = some e)
    {x : Session} :
    (startWith accepted o).Ensures (replyingAs o would).logged (fun _ _ _ => False)
      (fun e' _ z => e' = e ∧ ∀ m ∈ z.1, m.call.Asks) x ([], ()) := by
  refine ensures_startWith.mpr ?_
  -- The flow is never reached, so it is settling alone that decides the log.
  refine ((reports_settle x.fresh).logged.and (footprint_settle accepted o).uses.logs).mono ?_ ?_
  · intro p x' z hend
    cases hend.1.symm.trans he
  · intro e' x' z hend
    obtain ⟨he', new, hz, hnew⟩ := hend
    cases he'.symm.trans he
    rw [hz]
    exact ⟨rfl, hnew⟩

/-! ## The law of the checks -/

/-- A run is cleared to change something. -/
def Cleared (accepted : Except Failure (Description × Verdict)) (o : Options) (l : Log) : Prop :=
  (∃ d verdict, accepted = .ok (d, verdict)) ∧
    ∃ current default, clearance o current default <+: l

theorem heeds_cleared :
    Heeds (fun l c => c.isQuestion = false → Cleared accepted o l) (startWith accepted o)
      (fun _ _ => True) [] := by
  refine heeds_startWith (fun _ c hc h => ?_) fun w flow hw x => ?_
  · rw [show c.isQuestion = true from asks_of_questions c hc] at h
    cases h
  · obtain ⟨verdict, hd⟩ := hw.description
    refine (Program.uses_true _).heeds (fun more c _ _ => ?_) (.of_forall fun _ _ _ _ => trivial)
    exact ⟨⟨_, _, hd⟩, _, _, List.prefix_append _ more⟩

/-- A run whose description is not accepted calls nothing. -/
theorem ensures_refused {e : Failure} {x : Session} :
    (startWith (.error e) o).Ensures Surroundings.any.logged (fun _ _ _ => False)
      (fun e' _ z => e' = e ∧ z.1 = []) x ([], ()) :=
  ensures_startWith.mpr ⟨rfl, rfl⟩

/-- A command whose description is not accepted has no effect. -/
theorem runs_ship_refused {description : Option String} {options : Options} {dir : Option Path}
    {display : Command.Display} {e : Failure}
    (he : Description.accept (description.getD "") options.force = .error e) {t : Trace system}
    {out : Except Failure Unit}
    (ht : Program.Runs (Command.ship description options dir display).run t out) :
    t = [] ∧ out = .error e := by
  have hv := Description.accept_eq_error.mp he
  have hship : (Command.ship description options dir display).run = .done (.error e) := by
    rw [Command.ship, hv]
    rfl
  rw [hship] at ht
  cases ht
  exact ⟨rfl, rfl⟩

/-- A run changes something only once it is cleared.  If some checks have a problem, it fails with
that of the first one and has asked at most.  A description that is not accepted stops the run
before it asks, and the whole command before it makes a call. -/
theorem changes_only_when_cleared (raw : String) (o : Options) :
    (∀ x t out, Program.Runs (start raw o x) t out →
      (∀ before m after, t.moments = before ++ m :: after → m.call.isQuestion = false →
        Cleared (Description.accept raw o.force) o before) ∧
      (∀ would, (∀ m ∈ t.moments, m.call ∈ questions o → m.reply = would m.call) →
        ∀ e, firstProblem (Description.accept raw o.force) o would = some e →
          out.1 = .error e ∧ ∀ m ∈ t.moments, m.call.isQuestion = true) ∧
      ∀ e, Description.accept raw o.force = .error e → out.1 = .error e ∧ t.moments = []) ∧
    ∀ e, Description.accept raw o.force = .error e → ∀ description dir display,
      description.getD "" = raw → ∀ t out,
        Program.Runs (Command.ship description o dir display).run t out →
          t = [] ∧ out = .error e := by
  constructor
  · intro x t out ht
    rw [start_eq] at ht
    generalize Description.accept raw o.force = accepted at ht ⊢
    refine ⟨?_, ?_, ?_⟩
    · exact ((heeds_cleared x).runs ht).2
    · intro would hw e he
      have h := (ensures_firstProblem he).runs ht hw
      obtain ⟨r, x'⟩ := out
      cases r with
      | ok out => exact h.elim
      | error e' =>
          obtain ⟨rfl, hasks⟩ := h
          exact ⟨rfl, hasks⟩
    · intro e he
      subst he
      have h := ensures_refused.runs ht fun _ _ => trivial
      obtain ⟨r, x'⟩ := out
      cases r with
      | ok out => exact h.elim
      | error e' =>
          obtain ⟨rfl, hnil⟩ := h
          exact ⟨rfl, hnil⟩
  · rintro e he description dir display rfl t out ht
    exact runs_ship_refused he ht

/-- Changes are staged behind the checks, who is not logged in hears of that first, and a
description without a type has no effect. -/
theorem changes_only_when_cleared_changed :
    let o : Options := { branch := some "topic", base := some "main" }
    let away : Site := { host := { authenticated := false }, repo := { hasOrigin := false } }
    let run := (start "feat: add widget" o .sample).run Site.answer .changed
    let stopped := (start "feat: add widget" o .sample).run Site.answer away
    (∃ before m after, run.trace.moments = before ++ m :: after ∧ m.call = .stageAll ∧
      Cleared (Description.accept "feat: add widget" false) o before) ∧
    stopped.value.1 = .error (.missingPrerequisite .hostAuthentication) ∧
    ∀ t out, Program.Runs (Command.ship (some "update stuff") o none {}).run t out →
      t = [] ∧ out = .error (.invalidIntent "update stuff") := by
  intro o away run stopped
  have hall := changes_only_when_cleared "feat: add widget" o
  refine ⟨?_, ?_, ?_⟩
  · have hm : ∃ m ∈ run.trace.moments, m.call = .stageAll := by decide +kernel
    obtain ⟨m, hm, hc⟩ := hm
    obtain ⟨before, after, e⟩ := List.append_of_mem hm
    have hchanges : m.call.isQuestion = false := by
      rw [hc]
      rfl
    exact ⟨before, m, after, e, hc,
      (hall.1 _ _ _ (Program.run_runs ..)).1 before m after e hchanges⟩
  · have hmoments : stopped.trace.moments = [.ok .isAuthenticated false] := rfl
    have hreplies : ∀ m ∈ stopped.trace.moments, m.call ∈ questions o →
        m.reply = (Site.answer m.call away).1 := by
      intro m hm _
      rw [hmoments] at hm
      cases List.mem_singleton.mp hm
      rfl
    have hfirst := (hall.1 _ _ _ (Program.run_runs ..)).2.1 (fun c => (Site.answer c away).1)
      hreplies (.missingPrerequisite .hostAuthentication) (by decide +kernel)
    exact hfirst.1
  · exact (changes_only_when_cleared "update stuff" o).2 _ (by decide +kernel) _ _ _ rfl

end Ship

end Shipment
