import Shipment.Proofs.Listing
import Shipment.Proofs.Relevance
import Shipment.Proofs.Run.Faultless
import Shipment.System.Scripted

/-!
# What an update makes of the requests of its branch

An update looks at the request of its branch once, right behind its settling.  A merged one is
refused and a closed one is told of (`ensures_checkRequest_found`).  Everything else in a run
stands `Aside`: without faults it neither fails with that refusal nor tells of a closed request.
So whether a run is refused, and whether it tells of a closed request, is decided by the requests
of the branch alone (`requests_decide`).
-/

namespace Shipment

/-- Whether a notice tells of a closed request. -/
def Notice.isClosure : Notice → Bool
  | closedRequest _ _ => true
  | _ => false

/-- Whether a failure refuses a merged request. -/
def Failure.isMerge : Failure → Bool
  | mergedRequest _ _ => true
  | _ => false

/-- The notices of closed requests in the record. -/
def Session.closures (x : Session) : List Notice := x.record.notices.filter Notice.isClosure

@[simp] theorem Session.entered_closures (step : Step) (x : Session) :
    (x.entered step).closures = x.closures := rfl

theorem Session.mem_closures {x : Session} {branch url : String} :
    .closedRequest branch url ∈ x.closures ↔ .closedRequest branch url ∈ x.record.notices := by
  simp [closures, Notice.isClosure]

namespace Ship

open Site PullRequest

variable {α β : Type} {x : Session} {s : Site} {w : Setting} {o : Options}

/-- Without faults the piece tells of no closed request, and does not refuse a merged one. -/
structure Aside (m : Ship α) : Prop where
  ensures : ∀ {x : Session} {s : Site}, m.Ensures (world False)
    (fun _ x' _ => x'.closures = x.closures)
    (fun e x' _ => e.isMerge = false ∧ x'.closures = x.closures) x s

namespace Aside

/-! ## Rules -/

theorem bind {m : Ship α} {f : α → Ship β} (h : Aside m) (hf : ∀ a, Aside (f a)) :
    Aside (m >>= f) := by
  refine ⟨h.ensures.bind (fun _ _ _ h => h) fun a x' s' hx => ?_⟩
  exact (hf a).ensures.mono (fun _ _ _ h => h.trans hx) fun _ _ _ h => ⟨h.1, h.2.trans hx⟩

theorem ite {c : Prop} [Decidable c] {m n : Ship α} (hm : Aside m) (hn : Aside n) :
    Aside (if c then m else n) := by
  by_cases hc : c
  · rw [if_pos hc]
    exact hm
  · rw [if_neg hc]
    exact hn

theorem when {c : Prop} [Decidable c] {m : Ship Unit} {k : Unit → Ship α} (hm : Aside m)
    (hk : Aside (k ())) : Aside (if c then m >>= k else k ()) :=
  .ite (hm.bind fun _ => hk) hk

theorem orElse {c : Prop} [Decidable c] {m : Ship Unit} {k : Unit → Ship α} (hm : Aside m)
    (hk : Aside (k ())) : Aside (if c then k () else m >>= k) :=
  .ite hk (hm.bind fun _ => hk)

/-! ## Building blocks -/

theorem pure (a : α) : Aside (Pure.pure a : Ship α) := ⟨rfl⟩

theorem fail {e : Failure} (h : e.isMerge = false) : Aside (Ship.fail e : Ship α) := ⟨⟨h, rfl⟩⟩

theorem notices : Aside Ship.notices := ⟨ensures_notices.mpr rfl⟩

theorem enter (step : Step) : Aside (Ship.enter step) := ⟨ensures_enter.mpr rfl⟩

theorem tell (e : Event) : Aside (Ship.tell e) := ⟨ensures_tell.mpr rfl⟩

theorem notify {n : Notice} (h : n.isClosure = false) : Aside (Ship.notify n) := by
  refine ⟨ensures_notify.mpr ?_⟩
  simp [Session.closures, h]

theorem ask (c : Call) : Aside (Ship.ask c) := by
  refine ⟨fun {x s} => ensures_ask_world.mpr ⟨?_, nofun⟩⟩
  have herror := vcs_of_error c s
  generalize answer c s = out at herror
  obtain ⟨r, s'⟩ := out
  cases r with
  | ok v => exact rfl
  | error e =>
      obtain ⟨detail, rfl⟩ := herror e rfl
      exact ⟨rfl, rfl⟩

theorem execute (a : Action) : Aside (Ship.execute a) := by
  refine ⟨fun {x s} => ensures_execute_world.mpr ⟨?_, nofun⟩⟩
  have herror := vcs_of_error a.call s
  generalize answer a.call s = out at herror
  obtain ⟨r, s'⟩ := out
  cases r with
  | ok v => exact congrArg (fun r : RunRecord => r.notices.filter _) (x.noted_record a)
  | error e =>
      obtain ⟨detail, rfl⟩ := herror e rfl
      refine ⟨?_, rfl⟩
      cases a <;> rfl

theorem openRequest (d : RequestDraft) : Aside (Ship.openRequest d) := by
  refine ⟨ensures_openRequest.mpr ?_⟩
  rintro r s' (hr | ⟨hF, -⟩)
  · cases hr
    exact rfl
  · exact hF.elim

/-! ## Settling -/

theorem isDirty : Aside Ship.isDirty := (ask _).bind fun _ => pure _

theorem currentBranch : Aside Ship.currentBranch := by
  refine (ask .currentBranch).bind fun r => ?_
  cases r with
  | some branch => exact pure branch
  | none => exact fail rfl

theorem settle {d : Description} {verdict : Verdict} :
    Aside (Ship.settle (.ok (d, verdict)) o) := by
  refine Aside.bind ?_ fun d => Aside.bind ?_ fun current => (enter _).bind fun _ => ?_
  · exact Aside.bind (pure (d, verdict)) fun p => .when (notify rfl) (pure p.1)
  · refine (enter _).bind fun _ => (ask _).bind fun authenticated => .orElse (fail rfl) ?_
    refine (ask _).bind fun origin => .orElse (fail rfl) ((ask _).bind fun operation => ?_)
    cases operation with
    | some op => exact fail rfl
    | none => exact currentBranch
  · refine (ask _).bind fun default => Aside.bind ?_ fun base => Aside.bind ?_ fun flow => pure _
    · cases o.base with
      | none => exact pure default
      | some base => exact (ask _).bind fun known => .ite (pure base) (fail rfl)
    · exact (enter _).bind fun _ => Aside.bind ⟨rfl⟩ fun _ => (tell _).bind fun _ => pure _

/-! ## Behind the request -/

theorem finishNoOp (flow : Flow) (branch base : String) (reason : NoOpReason) :
    Aside (Ship.finishNoOp flow branch base reason) :=
  (enter _).bind fun _ => notices.bind fun _ => pure _

theorem finishUpdate {staged : Bool} {pushed : Option PushMode} :
    Aside (Ship.finishUpdate w o staged pushed) := by
  rw [Ship.finishUpdate, requestForUpdate_eq]
  refine Aside.bind ?_ fun request => (enter _).bind fun _ => notices.bind fun _ => pure _
  refine (enter _).bind fun _ => Aside.bind ((ask _).bind fun _ => pure _) fun url => ?_
  cases url with
  | some url => exact pure _
  | none => exact (openRequest _).bind fun _ => pure _

theorem stageAndShip {counterpart : Option String} :
    Aside (Ship.stageAndShip w o counterpart) := by
  refine (enter _).bind fun _ => (execute _).bind fun _ => (ask _).bind fun staged => ?_
  refine (ask _).bind fun ahead => .ite (finishNoOp _ _ _ _) ?_
  rw [shipUpdate_eq]
  refine Aside.bind ?_ fun ahead' => (enter _).bind fun _ => ?_
  · exact .ite ((enter _).bind fun _ => (execute _).bind fun _ => ask _) (pure ahead)
  · cases updatePushMode o.sync ahead' with
    | none => exact finishUpdate
    | some mode => exact (execute _).bind fun _ => finishUpdate

end Aside

/-- An update from the fetch of its base on. -/
def behindRequest (w : Setting) (o : Options) : Ship Outcome := do
  compareWithBase w.base o.sync
  if o.sync then requireClean
  let counterpart ← fetchCounterpart w.current
  if o.sync then rebaseOnto w.current w.base counterpart
  stageAndShip w o counterpart

theorem updateExisting_eq_checkRequest :
    updateExisting w o = checkRequest w.current >>= fun _ => behindRequest w o := rfl

/-- From the fetch of its base on, an update heeds no closed or merged request. -/
theorem Aside.behindRequest : Aside (Ship.behindRequest w o) := by
  have hship (counterpart : Option String) : Aside (do
      if o.sync then rebaseOnto w.current w.base counterpart
      Ship.stageAndShip w o counterpart) := by
    refine .when ?_ stageAndShip
    cases counterpart with
    | none => exact execute _
    | some remote => exact (ask _).bind fun seen => .orElse (fail rfl) (execute _)
  have hfetch : Aside (fetchCounterpart w.current >>= fun counterpart => do
      if o.sync then rebaseOnto w.current w.base counterpart
      Ship.stageAndShip w o counterpart) := by
    refine Aside.bind ?_ hship
    exact (ask _).bind fun known => .ite ((execute _).bind fun _ => pure _) (pure none)
  refine Aside.bind ?_ fun _ => .when ?_ hfetch
  · refine (enter _).bind fun _ => (execute _).bind fun _ => (ask _).bind fun commits => ?_
    exact .ite (notify rfl) (pure ())
  · exact (enter _).bind fun _ => isDirty.bind fun dirty => .ite (fail rfl) (pure ())

/-! ## Looking at the request -/

/-- What is told of the request of a branch. -/
def closureOf (branch : String) : Option PullRequest → List Notice
  | some pr => if pr.state = .closed then [.closedRequest branch pr.url] else []
  | none => []

/-- The request of a branch is merged. -/
def Merged (found : Option PullRequest) : Prop := ∃ pr, found = some pr ∧ pr.state = .merged

/-- The check of a request tells of a closed one, and refuses a merged one. -/
theorem ensures_checkRequest_found {branch : String} :
    (checkRequest branch).Ensures (world False)
      (fun _ x' s' => s' = s ∧ ¬Merged (forHead branch s.host.requests) ∧
        x'.closures = x.closures ++ closureOf branch (forHead branch s.host.requests))
      (fun e x' s' => s' = s ∧ RefusesMerged branch s e ∧ x'.closures = x.closures) x s := by
  refine ensures_bind.mpr (ensures_enter.mpr (ensures_bind.mpr ?_))
  refine (ensures_question (c := .findRequest branch) rfl).mpr ⟨?_, nofun⟩
  cases hpr : forHead branch s.host.requests with
  | none => exact ⟨rfl, nofun, (List.append_nil _).symm⟩
  | some pr =>
      show (match pr.state with | _ => _ : Ship Unit).Ensures _ _ _ _ _
      have hunmerged (h : pr.state ≠ .merged) : ¬Merged (some pr) := by
        rintro ⟨_, ⟨⟩, hm⟩
        exact h hm
      cases hs : pr.state with
      | merged => exact ⟨rfl, ⟨pr, hpr, hs, rfl⟩, rfl⟩
      | closed =>
          refine ensures_notify.mpr ⟨rfl, hunmerged (by simp [hs]), ?_⟩
          simp [Session.closures, closureOf, hs, Notice.isClosure]
      | opened => exact ⟨rfl, hunmerged (by simp [hs]), by simp [closureOf, hs]⟩
      | absent => exact ⟨rfl, hunmerged (by simp [hs]), by simp [closureOf, hs]⟩

/-! ## Whole runs -/

variable {accepted : Except Failure (Description × Verdict)}

/-- A run comes to its request with no closed request told of, and has only asked. -/
theorem ensures_settle_aside {flow : Flow} (h : w.Fits accepted o s flow) (x : Session) :
    (settle accepted o).Ensures (world False).logged
      (fun p x' z => p = (w, flow) ∧ z.2 = s ∧ x'.closures = x.closures ∧ ∀ k ∈ z.1, k.call.Asks)
      (fun _ _ _ => False) x ([], s) := by
  have haside : Aside (settle accepted o) := by
    obtain ⟨verdict, rfl⟩ := h.description
    exact .settle
  refine (((footprint_settle accepted o).uses.logs.and haside.ensures.logged).and
    (gives_settle h x).logged).mono ?_ fun _ _ _ hend => hend.2
  rintro p x' z ⟨⟨⟨new, hz, hasks⟩, hclosures⟩, -, hp, hs⟩
  exact ⟨hp, hs, hclosures, hz ▸ hasks⟩

/-- A run whose request is merged is refused, and has only asked. -/
theorem ensures_startWith_merged (h : w.Fits accepted o s .updateExisting)
    (hm : Merged (forHead w.current s.host.requests)) :
    (startWith accepted o).Ensures (world False).logged (fun _ _ _ => False)
      (fun e x' z => z.2 = s ∧ RefusesMerged w.current s e ∧ x'.closures = [] ∧
        ∀ k ∈ z.1, k.call.Asks) x ([], s) := by
  refine ensures_startWith.mpr ((ensures_settle_aside h x.fresh).mono ?_ fun _ _ _ h => h.elim)
  rintro _ x' ⟨l, _⟩ ⟨rfl, rfl, hx, hasks⟩
  show (updateExisting w o).Ensures _ _ _ _ _
  rw [updateExisting_eq_checkRequest]
  refine ((footprint_checkRequest w.current).uses.logs.and
    ensures_checkRequest_found.logged).bind ?_ ?_
  · rintro e x'' z ⟨⟨new, hz, hnew⟩, hs, he, hclosures⟩
    exact ⟨hs, he, hclosures.trans hx, hz ▸ List.forall_mem_append.mpr ⟨hasks, hnew⟩⟩
  · rintro _ x'' z ⟨-, -, hunmerged, -⟩
    exact absurd hm hunmerged

/-- A run whose request is not merged is not refused for one, and tells of it if it is closed. -/
theorem ensures_startWith_unmerged (h : w.Fits accepted o s .updateExisting)
    (hm : ¬Merged (forHead w.current s.host.requests)) :
    (startWith accepted o).Ensures (world False)
      (fun _ x' _ => x'.closures = closureOf w.current (forHead w.current s.host.requests))
      (fun e x' _ => e.isMerge = false ∧
        x'.closures = closureOf w.current (forHead w.current s.host.requests)) x s := by
  have haside : Aside (settle accepted o) := by
    obtain ⟨verdict, rfl⟩ := h.description
    exact .settle
  refine ensures_startWith.mpr ((haside.ensures.and (gives_settle h x.fresh)).mono ?_
    fun _ _ _ h => h.2.elim)
  rintro _ x' _ ⟨hx, -, rfl, rfl⟩
  have hclosures : x'.closures = [] := hx
  show (updateExisting w o).Ensures _ _ _ _ _
  rw [updateExisting_eq_checkRequest]
  refine ensures_checkRequest_found.bind ?_ ?_
  · rintro e x'' _ ⟨-, ⟨pr, hpr, hs, -⟩, -⟩
    exact absurd ⟨pr, hpr, hs⟩ hm
  · rintro _ x'' _ ⟨rfl, -, hx''⟩
    rw [hclosures, List.nil_append] at hx''
    rw [← hx'']
    exact Aside.behindRequest.ensures.mono (fun _ _ _ h => h) fun _ _ _ h => h

/-! ## The requests of a branch -/

/-- What an update that has ended made of the requests of its branch. -/
structure Decided (branch : String) (s s' : Site) (l : List (Moment shipping Site))
    (out : Except Failure Outcome × Session) : Prop where
  /-- It is refused if and only if a request is merged and none is open. -/
  refused : (∃ b url, out.1 = .error (.mergedRequest b url)) ↔
    HasIn .merged branch s.host.requests ∧ ¬HasIn .opened branch s.host.requests
  /-- The refusal names the last one that is merged, and comes before anything was done. -/
  refusal : ∀ b url, out.1 = .error (.mergedRequest b url) → b = branch ∧
    (∃ pr, Top .merged branch s.host.requests pr ∧ url = some pr.url) ∧ s' = s ∧
      ∀ k ∈ l, k.call.Asks
  /-- It tells of a closed request if and only if one is closed, and none open or merged. -/
  told : (∃ b url, .closedRequest b url ∈ out.2.record.notices) ↔
    HasIn .closed branch s.host.requests ∧ ¬HasIn .opened branch s.host.requests ∧
      ¬HasIn .merged branch s.host.requests
  /-- The notice names the last one that is closed. -/
  notice : ∀ b url, .closedRequest b url ∈ out.2.record.notices → b = branch ∧
    ∃ pr, Top .closed branch s.host.requests pr ∧ url = pr.url

theorem top_of_forHead {branch : String} {prs : List PullRequest} {pr : PullRequest}
    {state : ReviewState} (h : forHead branch prs = some pr) (hs : pr.state = state) :
    Top state branch prs pr :=
  hs ▸ (best_of_forHead h).toTop

theorem mem_closureOf {branch b url : String} {found : Option PullRequest} :
    .closedRequest b url ∈ closureOf branch found ↔
      ∃ pr, found = some pr ∧ pr.state = .closed ∧ b = branch ∧ url = pr.url := by
  cases found with
  | none => simp [closureOf]
  | some pr =>
      by_cases hs : pr.state = .closed
      · simp [closureOf, hs]
      · simp [closureOf, hs]

/-- An update of a branch whose request is merged has only asked. -/
theorem decided_of_merged {branch : String} {l : List (Moment shipping Site)} {s s' : Site}
    {out : Except Failure Outcome × Session} (hm : Merged (forHead branch s.host.requests))
    (h : Ends (fun _ _ _ => False) (fun e x' z => z.2 = s ∧ RefusesMerged branch s e ∧
      x'.closures = [] ∧ ∀ k ∈ z.1, k.call.Asks) out (l, s')) : Decided branch s s' l out := by
  obtain ⟨r, x'⟩ := out
  cases r with
  | ok a => exact h.elim
  | error e =>
      obtain ⟨hs, ⟨pr, hpr, hmerged, rfl⟩, hclosures, hasks⟩ := h
      have hstate := forHead_merged_iff.mp hm
      refine ⟨⟨fun _ => hstate, fun _ => ⟨_, _, rfl⟩⟩, ?_, ⟨?_, fun h => ?_⟩, ?_⟩
      · rintro b url ⟨⟩
        exact ⟨rfl, ⟨pr, top_of_forHead hpr hmerged, rfl⟩, hs, hasks⟩
      · rintro ⟨b, url, hmem⟩
        rw [← Session.mem_closures, hclosures] at hmem
        cases hmem
      · exact absurd hstate.1 h.2.2
      · intro b url hmem
        rw [← Session.mem_closures, hclosures] at hmem
        cases hmem

/-- An update of a branch whose request is not merged tells of it if it is closed. -/
theorem decided_of_unmerged {branch : String} {l : List (Moment shipping Site)} {s s' : Site}
    {out : Except Failure Outcome × Session} (hm : ¬Merged (forHead branch s.host.requests))
    (h : Ends (fun _ x' _ => x'.closures = closureOf branch (forHead branch s.host.requests))
      (fun e x' _ => e.isMerge = false ∧
        x'.closures = closureOf branch (forHead branch s.host.requests)) out s') :
    Decided branch s s' l out := by
  obtain ⟨r, x'⟩ := out
  have hunrefused {b : String} {url : Option String} : r ≠ .error (.mergedRequest b url) := by
    rintro rfl
    cases h.1
  have hclosures : x'.closures = closureOf branch (forHead branch s.host.requests) := by
    cases r with
    | ok a => exact h
    | error e => exact h.2
  have hmem {b url : String} : .closedRequest b url ∈ x'.record.notices ↔
      ∃ pr, forHead branch s.host.requests = some pr ∧ pr.state = .closed ∧ b = branch ∧
        url = pr.url := by
    rw [← Session.mem_closures, hclosures, mem_closureOf]
  refine ⟨⟨?_, fun h => absurd (forHead_merged_iff.mpr h) hm⟩, fun _ _ h => absurd h hunrefused,
    ?_, ?_⟩
  · rintro ⟨b, url, h⟩
    exact absurd h hunrefused
  · simp only [hmem]
    rw [← forHead_closed_iff]
    exact ⟨fun ⟨_, _, pr, hpr, hs, _⟩ => ⟨pr, hpr, hs⟩,
      fun ⟨pr, hpr, hs⟩ => ⟨_, _, pr, hpr, hs, rfl, rfl⟩⟩
  · intro b url hnotice
    obtain ⟨pr, hpr, hs, hb, hurl⟩ := hmem.mp hnotice
    exact ⟨hb, pr, top_of_forHead hpr hs, hurl⟩

/-- An update without faults is refused for a merged request, or tells of a closed one, exactly
as the requests of its branch decide. -/
theorem decided_updateExisting (hfits : w.Fits accepted o s .updateExisting) :
    Decided w.current s ((startWith accepted o x).run answer s).world
      ((startWith accepted o x).moments answer s)
      ((startWith accepted o x).run answer s).value := by
  by_cases hm : Merged (forHead w.current s.host.requests)
  · have hend := (ensures_startWith_merged (x := x) hfits hm).ends_log
    exact decided_of_merged hm hend
  · have hend := (ensures_startWith_unmerged (x := x) hfits hm).ends_run
    exact decided_of_unmerged hm hend

/-- Requests with distinct numbers, in any order, and the one that describes a branch.  It is what
is found in whatever the host prints for them.  An update without faults is refused if and only
if it is merged, and tells of a closed request if and only if it is closed. -/
theorem requests_decide (prs : List PullRequest) (hprs : (prs.map PullRequest.number).Nodup)
    (head : String) :
    ((forHead head prs = none ↔ ∀ pr ∈ prs, pr.head ≠ head) ∧
      (∀ pr, forHead head prs = some pr ↔ Best head prs pr) ∧
      ∀ prs', prs'.Perm prs → forHead head prs' = forHead head prs) ∧
    (∀ (σ : Type) (h : Handler system σ) (z : σ) (root : Path) (out : Output) (text : String),
      (h (.start .gh root ["pr", "list", "--head", head, "--state", "all", "--json",
        "number,title,headRefName,url,state"]) z).1 = .ok out → out.code = some 0 →
      out.out = Text.encode text → Lists prs text → (∀ pr ∈ prs, pr.number < 2 ^ 64) →
      (Work.ends h (ReviewClient.findRequest root head) z).1 = .ok (forHead head prs)) ∧
    ∀ (raw : String) (o : Options) (x : Session) (s : Site) (w : Setting),
      w.Fits (Description.accept raw o.force) o s .updateExisting → s.host.requests = prs →
      let run := (start raw o x).run answer s
      Decided w.current s run.world ((start raw o x).moments answer s) run.value := by
  refine ⟨⟨forHead_eq_none_iff, fun pr => forHead_eq_some_iff hprs,
    fun prs' hp => forHead_perm hprs hp⟩, ?_, ?_⟩
  · intro σ h z root out text hreply hok hout hlists hn
    exact ReviewClient.ends_findRequest hreply hok hout hlists hn
  · intro raw o x s w hfits hs run
    subst hs
    have hfound := decided_updateExisting (x := x) hfits
    rwa [← start_eq] at hfound

/-- A branch with a closed request and two merged ones, beside a branch that has an open one.  The
last of the merged ones refuses the update.  Without them the closed one is told of. -/
theorem requests_decide_mixed :
    let closed : PullRequest := ⟨7, "feat: a", "topic", "u7", .closed⟩
    let merged : PullRequest := ⟨12, "feat: b", "topic", "u12", .merged⟩
    let elsewhere : PullRequest := ⟨30, "feat: d", "other", "u30", .opened⟩
    let prs := [closed, merged, ⟨9, "feat: c", "topic", "u9", .merged⟩, elsewhere]
    let printed := String.ofList (Json.compact (.array (prs.map fun pr => .fields pr.fieldsOf)))
    let s : Scripted := { script := [⟨Text.encode printed, .empty, some 0⟩] }
    let site (prs : List PullRequest) : Site :=
      { repo := {
          current := some "topic"
          branches := [("main", ["c0"]), ("topic", ["c0", "mine"])]
          remote := [("main", ["c0"]), ("topic", ["c0"])] }
        host := { requests := prs } }
    let refused := (start "feat: add widget" {} .sample).run answer (site prs)
    let told := (start "feat: add widget" {} .sample).run answer (site [closed, elsewhere])
    (prs.map PullRequest.number).Nodup ∧ forHead "topic" prs = some merged ∧
      (Work.ends Scripted.answer (ReviewClient.findRequest ⟨"."⟩ "topic") s).1 =
        .ok (some merged) ∧
      (∃ b url, refused.value.1 = .error (.mergedRequest b url)) ∧ refused.world = site prs ∧
      ∃ b url, .closedRequest b url ∈ told.value.2.record.notices := by
  intro closed merged elsewhere prs printed s site refused told
  have hprinted : Lists prs printed := lists_compact prs
  -- From here on only that it lists them matters, not which characters it is.
  clear_value printed
  let w : Setting := ⟨⟨"feat: add widget"⟩, "topic", "main", "main"⟩
  have haccepted : ∃ verdict, Description.accept "feat: add widget" false =
      .ok (w.description, verdict) := ⟨.accepted, by decide +kernel⟩
  have hfits (prs : List PullRequest) :
      w.Fits (Description.accept "feat: add widget" false) {} (site prs) .updateExisting :=
    ⟨haccepted, rfl, rfl, rfl, rfl, rfl, rfl, nofun, by decide⟩
  have hprs : (prs.map PullRequest.number).Nodup := by decide
  have hall := requests_decide prs hprs "topic"
  have hfew := requests_decide [closed, elsewhere] (by decide) "topic"
  have hbest : Best "topic" prs merged := ⟨⟨by decide, rfl, rfl, by decide⟩, by decide⟩
  have hfound := (hall.1.2.1 merged).mpr hbest
  have hread := hall.2.1 Scripted Scripted.answer s ⟨"."⟩ ⟨Text.encode printed, .empty, some 0⟩
    printed (by rfl) rfl rfl hprinted (by decide)
  rw [hfound] at hread
  have hrefused : Decided "topic" (site prs) refused.world _ refused.value :=
    hall.2.2 "feat: add widget" {} .sample (site prs) w (hfits _) rfl
  have htold : Decided "topic" (site [closed, elsewhere]) told.world _ told.value :=
    hfew.2.2 "feat: add widget" {} .sample (site [closed, elsewhere]) w (hfits _) rfl
  obtain ⟨b, url, hrun⟩ := hrefused.refused.mpr ⟨by decide, by decide⟩
  exact ⟨hprs, hfound, hread, ⟨b, url, hrun⟩, (hrefused.refusal b url hrun).2.2.1,
    htold.told.mpr ⟨by decide, by decide, by decide⟩⟩

end Ship

end Shipment
