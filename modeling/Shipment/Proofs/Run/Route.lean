import Shipment.Proofs.Course
import Shipment.Proofs.Rule
import Shipment.Proofs.Run.Record

/-!
# The steps a piece takes

`Ship.Visits` is the contract a piece keeps to.  With a value it has entered the steps of a
route, and with a failure the first of them.  A route may depend on the value, as that of a
commit does.  The lemmas follow the text of a run and end in `visits_follow`: a flow takes
the steps of the course that its result tells.
-/

namespace Shipment.Ship

variable {α β : Type} {w : Setting} {o : Options}
variable {accepted : Except Failure (Description × Verdict)}

/-- With a value a piece has entered the steps of a route, and with a failure the first of
them. -/
structure Visits (R : α → List Step → Prop) (m : Ship α) : Prop where
  ensures : ∀ {σ : Type} {W : Surroundings shipping σ} {x : Session} {s : σ},
    m.Ensures W (fun a x' _ => ∃ q, R a q ∧ x'.record.path = x.record.path ++ q)
      (fun _ x' _ => ∃ a q p, R a q ∧ p <+: q ∧ (∀ s ∈ p, s.isTerminal = false) ∧
        x'.record.path = x.record.path ++ p) x s

/-- A piece that enters no step. -/
abbrev Stays : Ship α → Prop := Visits fun _ q => q = []

namespace Visits

variable {R R' : α → List Step → Prop}

/-! ### Rules -/

theorem mono {m : Ship α} (h : Visits R m) (hR : ∀ a q, R a q → R' a q) : Visits R' m := by
  refine ⟨h.ensures.mono ?_ ?_⟩
  · rintro a x' _ ⟨q, hq, hp⟩
    exact ⟨q, hR a q hq, hp⟩
  · rintro e x' _ ⟨a, q, p, hq, hp⟩
    exact ⟨a, q, p, hR a q hq, hp⟩

/-- A piece has a route, for it ends somehow. -/
theorem exists_route {m : Ship α} (h : Visits R m) : ∃ a q, R a q := by
  have hrun (p : Program shipping (Except Failure α × Session))
      {Q : Except Failure α × Session → Unit → Prop}
      (hp : p.Ensures (.replying fun _ _ => True) Q ()) : ∃ out, Q out () := by
    induction p with
    | done out => exact ⟨out, hp⟩
    | call c next ih => exact ih (.error (.vcs "")) (hp _ () trivial)
    | tell e next ih => exact ih hp
  obtain ⟨⟨r, x'⟩, hout⟩ := hrun (m .sample) h.ensures
  cases r with
  | ok a =>
      obtain ⟨q, hq, -⟩ := hout
      exact ⟨a, q, hq⟩
  | error e =>
      obtain ⟨a, q, -, hq, -⟩ := hout
      exact ⟨a, q, hq⟩

/-- A piece followed by another.  Only the last of them may enter a terminal step. -/
theorem bind {m : Ship α} {f : α → Ship β} {l : α → List Step} {R : β → List Step → Prop}
    (h : Visits (fun a q => q = l a) m) (hopen : ∀ a, ∀ s ∈ l a, s.isTerminal = false)
    (hf : ∀ a, Visits (fun b q => R b (l a ++ q)) (f a)) : Visits R (m >>= f) := by
  constructor
  intro σ W x s
  refine h.ensures.bind ?_ ?_
  · rintro e x' _ ⟨a, _, p, rfl, hp, ho, hx⟩
    obtain ⟨b, q, hb⟩ := (hf a).exists_route
    exact ⟨b, l a ++ q, p, hb, hp.trans (List.prefix_append _ q), ho, hx⟩
  · rintro a x' _ ⟨_, rfl, hx⟩
    refine (hf a).ensures.mono ?_ ?_
    · rintro b x'' _ ⟨q, hb, hx'⟩
      exact ⟨l a ++ q, hb, by rw [hx', hx, List.append_assoc]⟩
    · rintro e x'' _ ⟨b, q, p, hb, hp, ho, hx'⟩
      refine ⟨b, l a ++ q, l a ++ p, hb, (List.prefix_append_right_inj _).mpr hp, ?_, ?_⟩
      · exact List.forall_mem_append.mpr ⟨hopen a, ho⟩
      · rw [hx', hx, List.append_assoc]

theorem ite {c : Prop} [Decidable c] {m n : Ship α} (hm : c → Visits R m) (hn : ¬c → Visits R n) :
    Visits R (if c then m else n) := by
  by_cases hc : c
  · rw [if_pos hc]
    exact hm hc
  · rw [if_neg hc]
    exact hn hc

/-- A piece that enters no step, followed by another. -/
theorem stay {m : Ship α} {f : α → Ship β} {R : β → List Step → Prop} (h : Stays m)
    (hf : ∀ a, Visits R (f a)) : Visits R (m >>= f) :=
  h.bind (fun _ => by simp) hf

/-- One of two pieces that enter no step, and then a third. -/
theorem fork {c : Prop} [Decidable c] {m n : Ship α} {k : α → Ship β} {R : β → List Step → Prop}
    (hm : Stays m) (hn : Stays n) (hk : ∀ a, Visits R (k a)) :
    Visits R (if c then m >>= k else n >>= k) :=
  .ite (fun _ => hm.stay hk) fun _ => hn.stay hk

/-- A piece that enters no step and is done only on a condition. -/
theorem when {c : Prop} [Decidable c] {m : Ship Unit} {k : Unit → Ship α} (hm : Stays m)
    (hk : Visits R (k ())) : Visits R (if c then m >>= k else k ()) :=
  .ite (fun _ => hm.stay fun _ => hk) fun _ => hk

/-! ### Building blocks -/

theorem pure {a : α} (h : R a []) : Visits R (Pure.pure a : Ship α) :=
  ⟨[], h, (List.append_nil _).symm⟩

theorem enter (step : Step) : Visits (fun _ q => q = [step]) (Ship.enter step) :=
  ⟨ensures_enter.mpr ⟨[step], rfl, RunRecord.path_enter _ _ _⟩⟩

theorem enter_bind {step : Step} {k : Unit → Ship α} (hs : step.isTerminal = false)
    (hk : Visits (fun a q => R a (step :: q)) (k ())) : Visits R (Ship.enter step >>= k) :=
  (enter step).bind (fun _ => by simpa using hs) fun _ => hk

theorem orGoBack {m : Ship α} (h : Visits R m) : Visits R (Ship.orGoBack m) := by
  refine ⟨fun {σ W x s} => ensures_orGoBack.mpr (h.ensures.mono (fun _ _ _ h => h) ?_)⟩
  intro e x' s' hx
  refine ensures_rollback_record.mono ?_ fun _ _ _ h => h.elim
  intro n x'' _ hn
  obtain ⟨a, q, p, hq, hp, ho, hx⟩ := hx
  have htold : (x''.told n).record.path = x''.record.path := by cases n <;> rfl
  exact ⟨a, q, p, hq, hp, ho, by rw [htold, hn, hx]⟩

/-! ### Pieces that enter no step -/

/-- A piece that leaves the path alone. -/
theorem of_path [Nonempty α] {m : Ship α}
    (h : ∀ {σ : Type} {W : Surroundings shipping σ} {x : Session} {s : σ},
      m.Ensures W (fun _ x' _ => x'.record.path = x.record.path)
        (fun _ x' _ => x'.record.path = x.record.path) x s) : Stays m := by
  obtain ⟨a⟩ := ‹Nonempty α›
  refine ⟨h.mono ?_ ?_⟩
  · exact fun _ _ _ hx => ⟨[], rfl, by rw [hx, List.append_nil]⟩
  · exact fun _ _ _ hx => ⟨a, [], [], rfl, List.prefix_rfl, by simp, by rw [hx, List.append_nil]⟩

theorem fail [Nonempty α] (e : Failure) : Stays (Ship.fail e : Ship α) := of_path rfl

/-- A piece that fails has failed on any route. -/
theorem refuse {a : α} {q : List Step} (h : R a q) (e : Failure) :
    Visits R (Ship.fail e : Ship α) :=
  ⟨a, q, [], h, List.nil_prefix, by simp, (List.append_nil _).symm⟩

theorem ask {c : Call} [Nonempty c.Answer] : Stays (Ship.ask c) :=
  of_path (ensures_ask.mpr fun _ _ _ => ends_both.mpr rfl)

theorem execute (a : Action) : Stays (Ship.execute a) := by
  refine of_path (ensures_execute.mpr fun r _ _ => ?_)
  cases r with
  | ok v => exact congrArg RunRecord.path (Session.noted_record a _)
  | error e => exact rfl

theorem openRequest (d : RequestDraft) : Stays (Ship.openRequest d) :=
  of_path (ensures_openRequest.mpr fun _ _ _ => ends_both.mpr rfl)

theorem notify (n : Notice) : Stays (Ship.notify n) := of_path (ensures_notify.mpr rfl)

/-- A piece that fails unless a condition holds, followed by another. -/
theorem orElse [Nonempty α] {c : Prop} [Decidable c] {e : Failure} {k : Unit → Ship α}
    (hk : Stays (k ())) : Stays (if c then k () else (Ship.fail e : Ship Unit) >>= k) :=
  .ite (fun _ => hk) fun _ => fail e

/-- A step and a piece that enters no other. -/
theorem enter_stay {step : Step} {k : Unit → Ship α} (hs : step.isTerminal = false)
    (hk : Stays (k ())) : Visits (fun _ q => q = [step]) (Ship.enter step >>= k) :=
  enter_bind hs (hk.mono fun _ _ hq => by rw [hq])

end Visits

/-! ## Before the flow -/

theorem stays_currentBranch : Stays currentBranch := by
  refine .stay .ask fun r => ?_
  cases r with
  | some branch => exact .pure rfl
  | none => exact .fail _

theorem stays_isDirty : Stays isDirty := .stay .ask fun _ => .pure rfl

theorem stays_resolveBase (asked : Option String) (default : String) :
    Stays (resolveBase asked default) := by
  cases asked with
  | none => exact .pure rfl
  | some base => exact .stay .ask fun known => .ite (fun _ => .pure rfl) fun _ => .fail _

theorem visits_checkPrerequisites :
    Visits (fun _ q => q = [.checkingPreconditions]) checkPrerequisites := by
  refine .enter_stay rfl (.stay .ask fun authenticated => .orElse ?_)
  refine .stay .ask fun origin => .orElse (.stay .ask fun operation => ?_)
  cases operation with
  | some op => exact .fail _
  | none => exact stays_currentBranch

theorem visits_prepare (asked : Option String) :
    Visits (fun _ q => q = [.checkingPreconditions, .resolvingBase]) (prepare accepted asked) := by
  have hsome : Nonempty Description := ⟨⟨""⟩⟩
  have haccept : Stays (acceptVerdict accepted) := by
    cases accepted with
    | error e => exact .fail e
    | ok out =>
        refine .stay (m := ofExcept (.ok out)) (.pure rfl) fun _ => ?_
        exact .ite (fun _ => .stay (.notify _) fun _ => .pure rfl) fun _ => .pure rfl
  refine .stay haccept fun description => ?_
  refine visits_checkPrerequisites.bind (fun _ => by decide) fun current => ?_
  refine .mono (.enter_stay rfl (.stay .ask fun default => ?_)) fun _ _ hq => by rw [hq]; rfl
  exact .stay (stays_resolveBase _ _) fun base => .pure rfl

/-! ## How a run ends -/

theorem visits_finishNoOp {flow : Flow} {branch base : String} {reason : NoOpReason} :
    Visits (fun out q => out.result = .noOp reason ∧ q = [.noOp])
      (finishNoOp flow branch base reason) :=
  ⟨ensures_bind.mpr (ensures_enter.mpr ⟨_, ⟨rfl, rfl⟩, RunRecord.path_enter _ _ _⟩)⟩

theorem visits_finishShipped {flow : Flow} {branch base : String} {result : RunResult} :
    Visits (fun out q => out.result = result ∧ q = [.completed])
      (finishShipped flow branch base result) :=
  ⟨ensures_bind.mpr (ensures_enter.mpr ⟨_, ⟨rfl, rfl⟩, RunRecord.path_enter _ _ _⟩)⟩

theorem visits_settleRequest {step : Step} (hs : step.isTerminal = false)
    {found : String → RequestResult} {d : RequestDraft} :
    Visits (fun _ q => q = [step]) (settleRequest step found d) := by
  refine .enter_stay hs (.stay (.stay .ask fun _ => .pure rfl) fun url => ?_)
  cases url with
  | some url => exact .pure rfl
  | none => exact .stay (.openRequest d) fun _ => .pure rfl

/-! ## The new request flow -/

theorem stays_resolveName (d : Description) (asked : Option String) :
    Stays (resolveName d asked) := by
  have hchoose : Stays (chooseName d asked) := by
    cases asked with
    | none => exact .of_path rfl
    | some name =>
        exact .ite (fun _ => .fail _) fun _ => .stay .ask fun valid =>
          .ite (fun _ => .pure rfl) fun _ => .fail _
  refine .stay hchoose fun name => .stay .ask fun here => .ite (fun _ => .fail _) fun _ => ?_
  exact .stay .ask fun there => .ite (fun _ => .fail _) fun _ => .pure rfl

theorem visits_settleBranch :
    Visits (fun _ q => q = .resolvingBranchName ::
        Step.syncingDefaultBranch.onlyIf (decide (w.current = w.default))) (settleBranch w o) := by
  refine .enter_bind rfl (.stay (stays_resolveName _ _) fun branch => ?_)
  by_cases hd : w.current = w.default
  · rw [if_pos hd, decide_eq_true hd]
    refine Visits.bind (l := fun _ => [.syncingDefaultBranch]) ?_ (fun _ => by decide) ?_
    · refine .enter_stay rfl (.stay .ask fun commits => ?_)
      exact .ite (fun _ => .execute _) fun _ => .fail _
    · exact fun _ => .pure rfl
  · rw [if_neg hd, decide_eq_false hd]
    exact .pure rfl

theorem visits_commitAndPush (d : Description) (branch : String) :
    Visits (fun committed q => q = Step.committing.onlyIf committed ++ [.pushing])
      (commitAndPush d branch) := by
  have hcommit : Visits (fun committed q => q = Step.committing.onlyIf committed)
      (commitChanges d branch) := by
    refine .stay stays_isDirty fun dirty => .ite (fun _ => ?_) fun _ => .pure rfl
    refine .enter_bind rfl (.stay (.execute _) fun _ => .stay .ask fun staged => ?_)
    refine .ite (fun _ => .stay (.execute _) fun _ => .pure rfl) fun _ => ?_
    exact .refuse (a := true) (q := []) rfl _
  refine hcommit.bind (by decide) fun committed => ?_
  exact .enter_bind rfl (.stay (.execute _) fun _ => .pure rfl)

theorem visits_cutBranch (branch : String) :
    Visits (fun committed q => q = .creatingBranch ::
        Step.committing.onlyIf committed ++ [.pushing]) (cutBranch w branch) := by
  refine .enter_bind rfl (.stay .ask fun start => .stay (.execute _) fun _ => ?_)
  refine .stay (.of_path (ensures_arm.mpr rfl)) fun _ => ?_
  refine (visits_commitAndPush _ _).orGoBack.bind (by decide) fun committed => ?_
  exact .stay (.of_path (ensures_disarm.mpr rfl)) fun _ => .pure (by simp)

/-- The route of a flow that ends with an outcome. -/
def Routed (flow : Flow) (onDefault sync : Bool) (out : Outcome) (q : List Step) : Prop :=
  q = (Course.endingIn flow onDefault sync out.result).flowSteps ++
    [(Course.endingIn flow onDefault sync out.result).last]

theorem visits_lookNew : Visits (fun _ q => q = [.fetchingBase, .inspectingTree]) (lookNew w) := by
  have hsnapshot : Stays (snapshot w.base) := by
    refine .stay stays_currentBranch fun current => .stay .ask fun default => ?_
    refine .fork .ask (.pure rfl) fun unpushed => .stay stays_isDirty fun dirty => ?_
    exact .stay .ask fun ahead => .stay .ask fun behind => .pure rfl
  refine .enter_bind rfl (.stay (.execute _) fun _ => .when (.execute _) ?_)
  exact .mono (.enter_stay rfl hsnapshot) fun _ _ hq => by rw [hq]

theorem visits_shipNew : Visits (fun out q => Routed .newRequest (decide (w.current = w.default))
    o.sync out (.fetchingBase :: .inspectingTree :: q)) (shipNew w o) := by
  rw [shipNew_eq]
  refine visits_settleBranch.bind (fun _ => ?_) fun branch => ?_
  · cases decide (w.current = w.default) <;> decide
  · refine (visits_cutBranch branch).bind (by decide) fun committed => ?_
    rw [requestForNew_eq]
    refine (visits_settleRequest rfl).bind (fun _ => by decide) fun request => ?_
    refine visits_finishShipped.mono ?_
    rintro out _ ⟨hr, rfl⟩
    rw [Routed, hr]
    simp [Course.endingIn, Course.flowSteps, Course.look, Course.work, Course.last]

theorem visits_newRequest :
    Visits (Routed .newRequest (decide (w.current = w.default)) o.sync) (newRequest w o) := by
  rw [newRequest_eq]
  refine visits_lookNew.bind (fun _ => by decide) fun seen => ?_
  unfold shipSeen
  cases newRequestNoOp (decide (w.current = w.default)) o.new seen.dirty seen.ahead with
  | none => exact visits_shipNew
  | some reason =>
      refine visits_finishNoOp.mono ?_
      rintro out _ ⟨hr, rfl⟩
      rw [Routed, hr]
      rfl

/-! ## The update flow -/

/-- An update looks by way of its request, of its base and of the sync if there is one. -/
theorem visits_lookUpdate :
    Visits (fun _ q => q = .checkingRequestState :: .checkingBehind ::
      Step.syncing.onlyIf o.sync) (lookUpdate w o) := by
  have hcheck : Visits (fun _ q => q = [.checkingRequestState]) (checkRequest w.current) := by
    refine .enter_stay rfl (.stay .ask fun found => ?_)
    cases found with
    | none => exact .pure rfl
    | some pr =>
        show Stays (match pr.state with | _ => _)
        cases pr.state with
        | merged => exact .fail _
        | closed => exact .notify _
        | opened => exact .pure rfl
        | absent => exact .pure rfl
  have hcompare : Visits (fun _ q => q = [.checkingBehind]) (compareWithBase w.base o.sync) := by
    refine .enter_stay rfl (.stay (.execute _) fun _ => .stay .ask fun commits => ?_)
    exact .ite (fun _ => .notify _) fun _ => .pure rfl
  have hclean : Visits (fun _ q => q = [.syncing]) requireClean := by
    refine .enter_stay rfl (.stay stays_isDirty fun dirty => ?_)
    exact .ite (fun _ => .fail _) fun _ => .pure rfl
  have hfetch : Stays (fetchCounterpart w.current) := by
    refine .stay .ask fun known => .ite (fun _ => ?_) fun _ => .pure rfl
    exact .stay (.execute _) fun _ => .pure rfl
  refine hcheck.bind (fun _ => by decide) fun _ => hcompare.bind (fun _ => by decide) fun _ => ?_
  cases o.sync with
  | false => exact hfetch.mono fun _ _ hq => by rw [hq]; rfl
  | true =>
      refine hclean.bind (fun _ => by decide) fun _ => hfetch.mono fun _ _ hq => ?_
      rw [hq]
      rfl

theorem stays_rebaseOnto (branch base : String) (counterpart : Option String) :
    Stays (rebaseOnto branch base counterpart) := by
  cases counterpart with
  | none => exact .execute _
  | some remote => exact .stay .ask fun seen => .orElse (.execute _)

/-- An update that pushes goes on to its request and completes. -/
theorem visits_pushUpdate {staged : Bool} {ahead : Nat} :
    Visits (fun out q => (∃ pushed request, out.result = .shipped staged pushed request) ∧
      q = [.pushingUpdate, .finalizingRequest, .completed]) (pushUpdate w o staged ahead) := by
  have hfinish (pushed : Option PushMode) :
      Visits (fun out q => (∃ pushed request, out.result = .shipped staged pushed request) ∧
        q = [.finalizingRequest, .completed]) (finishUpdate w o staged pushed) := by
    rw [finishUpdate, requestForUpdate_eq]
    refine (visits_settleRequest rfl).bind (fun _ => by decide) fun request => ?_
    refine visits_finishShipped.mono ?_
    rintro out _ ⟨hr, rfl⟩
    exact ⟨⟨pushed, request, hr⟩, rfl⟩
  have hentered {q : List Step} (out : Outcome)
      (h : (∃ pushed request, out.result = .shipped staged pushed request) ∧
        q = [.finalizingRequest, .completed]) :
      (∃ pushed request, out.result = .shipped staged pushed request) ∧
        Step.pushingUpdate :: q = [.pushingUpdate, .finalizingRequest, .completed] :=
    ⟨h.1, by rw [h.2]⟩
  cases hmode : updatePushMode o.sync ahead with
  | none =>
      rw [pushUpdate_of_none hmode]
      exact .enter_bind rfl ((hfinish none).mono fun out _ => hentered out)
  | some mode =>
      rw [pushUpdate_of_some hmode]
      refine .enter_bind rfl (.stay (.execute _) fun _ => ?_)
      exact (hfinish (some mode)).mono fun out _ => hentered out

/-- An update that has looked takes the route of its outcome. -/
theorem visits_stageAndShip {onDefault : Bool} {counterpart : Option String} :
    Visits (fun out q => Routed .updateExisting onDefault o.sync out
      ((.checkingRequestState :: .checkingBehind :: Step.syncing.onlyIf o.sync) ++ q))
      (stageAndShip w o counterpart) := by
  refine .enter_bind rfl (.stay (.execute _) fun _ => .stay .ask fun staged => ?_)
  refine .stay .ask fun ahead => .ite (fun _ => visits_finishNoOp.mono ?_) fun _ => ?_
  · rintro out _ ⟨hr, rfl⟩
    rw [Routed, hr]
    simp [Course.endingIn, Course.flowSteps, Course.look, Course.last]
  · rw [shipUpdate_eq]
    refine Visits.bind (l := fun _ => Step.committing.onlyIf staged) ?_ (fun _ => ?_) fun _ => ?_
    · cases staged with
      | false => exact .pure rfl
      | true => exact .enter_stay rfl (.stay (.execute _) fun _ => .ask (c := .countCommits _ _))
    · cases staged <;> decide
    · refine visits_pushUpdate.mono ?_
      rintro out _ ⟨⟨pushed, request, hr⟩, rfl⟩
      rw [Routed, hr]
      simp [Course.endingIn, Course.flowSteps, Course.look, Course.work, Course.last]

/-- What a flow enters. -/
theorem visits_follow (flow : Flow) :
    Visits (Routed flow (decide (w.current = w.default)) o.sync) (follow w o flow) := by
  cases flow with
  | newRequest => exact visits_newRequest
  | updateExisting =>
      rw [follow, updateExisting_eq]
      refine visits_lookUpdate.bind (fun _ => ?_) fun counterpart => ?_
      · cases o.sync <;> decide
      · exact .when (stays_rebaseOnto _ _ _) visits_stageAndShip

end Shipment.Ship
