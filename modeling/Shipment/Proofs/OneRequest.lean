import Shipment.Proofs.Description
import Shipment.Proofs.Requests
import Shipment.Proofs.Run.Cut
import Shipment.Proofs.Run.Flows
import Shipment.Proofs.Run.Whole

/-!
# One open request

A run changes the host only at its end, where it looks for an open request of its branch
and opens one if there is none.  `Apart` is how a run is up to there, `Delivered` is how it
ends if it ships, and `Kept` is how it ends in any case.
-/

namespace Shipment

open PullRequest

/-- Whether a call opens a request. -/
def Call.isRequest : Call → Bool
  | createRequest _ => true
  | _ => false

variable {h h' : ReviewHost} {d : RequestDraft} {l : List (Moment shipping Site)} {url : String}

/-! ## What becomes of the host -/

/-- No request was opened, and the host is what it was. -/
structure Apart (h : ReviewHost) (l : List (Moment shipping Site)) (s : Site) : Prop where
  log : ∀ m ∈ l, m.call.isRequest = false
  host : s.host = h

/-- The host is what it was, or has one request more that was missing. -/
inductive Kept (h : ReviewHost) : List (Moment shipping Site) → ReviewHost → Prop where
  | untouched {l : List (Moment shipping Site)} : (∀ m ∈ l, m.call.isRequest = false) → Kept h l h
  | requested {l : List (Moment shipping Site)} {m : Moment shipping Site} {d : RequestDraft}
      {h' : ReviewHost} : (∀ k ∈ l, k.call.isRequest = false) → m.call = .createRequest d →
      m.before.host = h → Unopened d.head h.requests → h' = h ∨ h' = (h.create d).2 →
      Kept h (l ++ [m]) h'

theorem Apart.kept {s : Site} (hz : Apart h l s) : Kept h l s.host := by
  rw [hz.host]
  exact .untouched hz.log

/-- The open request of a branch was found, or it was missing and was opened. -/
inductive Delivered (h : ReviewHost) (d : RequestDraft) :
    List (Moment shipping Site) → ReviewHost → String → Prop where
  | found {l : List (Moment shipping Site)} {pr : PullRequest} :
      (∀ m ∈ l, m.call.isRequest = false) → TopOpen d.head h.requests pr →
      Delivered h d l h pr.url
  | opened {l : List (Moment shipping Site)} {m : Moment shipping Site} :
      (∀ k ∈ l, k.call.isRequest = false) → m.call = .createRequest d → m.before.host = h →
      Unopened d.head h.requests → Delivered h d (l ++ [m]) (h.create d).2 (h.create d).1

theorem Delivered.kept (hd : Delivered h d l h' url) : Kept h l h' := by
  cases hd with
  | found hl hpr => exact .untouched hl
  | opened hl hc hb hu => exact .requested hl hc hb hu (.inr rfl)

/-- The branch has an open request, at the address that was delivered. -/
theorem Delivered.exists_opened (hd : Delivered h d l h' url) :
    ∃ pr ∈ h'.requests, pr.head = d.head ∧ pr.state = .opened ∧ pr.url = url := by
  cases hd with
  | @found _ pr hl hpr => exact ⟨pr, hpr.mem, hpr.heads, hpr.opened, rfl⟩
  | opened hl hc hb hu =>
      exact ⟨_, List.mem_append_right _ (List.mem_singleton.mpr rfl), rfl, rfl, rfl⟩

namespace Kept

/-- At most one request is opened. -/
theorem opens_at_most_one (hk : Kept h l h') : l.countP (fun m => m.call.isRequest) ≤ 1 := by
  have hzero {k : List (Moment shipping Site)} (hl : ∀ m ∈ k, m.call.isRequest = false) :
      k.countP (fun m => m.call.isRequest) = 0 :=
    List.countP_eq_zero.mpr fun m hm => by simp [hl m hm]
  cases hk with
  | untouched hl =>
      rw [hzero hl]
      exact Nat.zero_le 1
  | requested hl hc hb hu ho =>
      rw [List.countP_append, hzero hl, List.countP_singleton, hc]
      exact Nat.le_refl 1

/-- A request is opened only if it is missing. -/
theorem unopened (hk : Kept h l h') {m : Moment shipping Site} (hm : m ∈ l)
    (hc : m.call = .createRequest d) : Unopened d.head m.before.host.requests := by
  cases hk with
  | untouched hl =>
      have hn := hl m hm
      rw [hc] at hn
      cases hn
  | requested hl hc' hb hu ho =>
      rcases List.mem_append.mp hm with hm | hm
      · have hn := hl m hm
        rw [hc] at hn
        cases hn
      · cases List.mem_singleton.mp hm
        cases hc'.symm.trans hc
        rwa [hb]

/-- The host is what it was, or has one request more. -/
theorem host (hk : Kept h l h') : h' = h ∨ ∃ d, h' = (h.create d).2 := by
  cases hk with
  | untouched hl => exact .inl rfl
  | @requested _ m d _ hl hc hb hu ho => exact ho.imp_right fun e => ⟨d, e⟩

/-- No request is altered. -/
theorem prefix_requests (hk : Kept h l h') : h.requests <+: h'.requests := by
  cases hk with
  | untouched hl => exact List.prefix_rfl
  | requested hl hc hb hu ho =>
      rcases ho with rfl | rfl
      · exact List.prefix_rfl
      · exact List.prefix_append _ _

end Kept

namespace Ship

open Call Site

variable {α : Type} {F : Prop} {x : Session} {s : Site} {w : Setting} {o : Options}
variable {branch : String}

/-! ## Up to the request -/

theorem isRequest_of_asks {c : Call} (hc : c.Asks) : c.isRequest = false := by
  cases c <;> first | rfl | cases hc

/-- A piece that opens no request. -/
abbrev Spares (m : Ship α) : Prop := Uses (fun c => c.isRequest = false) m

theorem spares_asks {m : Ship α} (hm : Footprint Asks m) : Spares m :=
  hm.uses.mono fun _ => isRequest_of_asks

theorem spares_asksOr {c : Call} {m : Ship α} (hc : c.isRequest = false)
    (hm : Footprint (AsksOr c) m) : Spares m := by
  refine hm.uses.mono ?_
  rintro c (hq | rfl)
  · exact isRequest_of_asks hq
  · exact hc

theorem spares_looks {m : Ship α} (hm : Footprint Looks m) : Spares m := by
  refine hm.uses.mono ?_
  rintro c (hq | ⟨branch, rfl⟩)
  · exact isRequest_of_asks hq
  · rfl

theorem spares_execute {a : Action} (ha : a.call.isRequest = false) : Spares (execute a) :=
  (Footprint.execute ha).uses

/-- A piece that opens no request leaves the host alone. -/
theorem ensures_host {m : Ship α} (hm : Spares m) :
    m.Ensures (world F) (fun _ _ s' => s'.host = s.host) (fun _ _ s' => s'.host = s.host) x s := by
  refine hm.relates (T := fun s s' : Site => s'.host = s.host) (fun _ => rfl)
    (fun h h' => Eq.trans h' h) fun hc ha => host_of_answers ha ?_
  rintro draft rfl
  cases hc

theorem ensures_apart {m : Ship α} (hm : Spares m)
    (hz : Apart h l s) :
    m.Ensures (world F).logged (fun _ _ z => Apart h z.1 z.2) (fun _ _ z => Apart h z.1 z.2)
      x (l, s) := by
  refine (hm.logs.and (ensures_host hm).logged).weaken ?_
  rintro x' z ⟨⟨new, hl, hn⟩, hs⟩
  refine ⟨?_, hs.trans hz.host⟩
  rw [hl]
  exact List.forall_mem_append.mpr ⟨hz.log, hn⟩

/-- A piece that opens no request, followed by another. -/
theorem ensures_apart_bind {β : Type} {m : Ship α} {f : α → Ship β}
    {Q : β → Session → List (Moment shipping Site) × Site → Prop} (hm : Spares m)
    (hz : Apart h l s) (hf : ∀ a x' l' s', Apart h l' s' →
      (f a).Ensures (world F).logged Q (fun _ _ z => Kept h z.1 z.2.host) x' (l', s')) :
    (m >>= f).Ensures (world F).logged Q (fun _ _ z => Kept h z.1 z.2.host) x (l, s) :=
  (ensures_apart hm hz).bind (fun _ _ _ h => h.kept) fun a x' z => hf a x' z.1 z.2

/-! ## Finding or opening it -/

theorem ensures_openRequestUrl_apart {head : String} (hz : Apart h l s) :
    (openRequestUrl head).Ensures (world F).logged
      (fun found _ z => Apart h z.1 z.2 ∧ found = (forHead head h.requests).bind openUrl)
      (fun _ _ z => Apart h z.1 z.2) x (l, s) := by
  have hfound : (openRequestUrl head).Ensures (world F)
      (fun found _ _ => found = (forHead head s.host.requests).bind openUrl)
      (fun _ _ _ => True) x s :=
    ensures_bind.mpr ((ensures_question rfl).mpr ⟨rfl, fun _ _ => trivial⟩)
  refine ((ensures_apart (spares_asks (footprint_openRequestUrl head)) hz).and
    hfound.logged).mono ?_ fun _ _ _ h => h.1
  rintro found x' z ⟨hz', hf⟩
  exact ⟨hz', hz.host ▸ hf⟩

theorem ensures_openRequest_delivered (hz : Apart h l s) (hd : Unopened d.head h.requests) :
    (openRequest d).Ensures (world F).logged
      (fun url _ z => Delivered h d z.1 z.2.host url) (fun _ _ z => Kept h z.1 z.2.host)
      x (l, s) := by
  obtain ⟨hl, rfl⟩ := hz
  refine ensures_openRequest.mpr ?_
  rintro r _ ⟨s', ha | ⟨-, rfl, e, rfl⟩, rfl⟩
  · cases ha
    exact .opened hl rfl rfl hd
  · exact .requested hl rfl rfl hd (.inl rfl)

/-- The request of a branch is found or opened. -/
theorem ensures_settleRequest_delivered {step : Step} (found : String → RequestResult)
    (hf : ∀ url, (found url).url = url) (hz : Apart h l s) :
    (settleRequest step found d).Ensures (world F).logged
      (fun r _ z => Delivered h d z.1 z.2.host r.url) (fun _ _ z => Kept h z.1 z.2.host)
      x (l, s) := by
  refine ensures_bind.mpr (ensures_enter.mpr ?_)
  refine (ensures_openRequestUrl_apart hz).bind (fun _ _ _ h => h.kept) ?_
  rintro url x' ⟨l', s'⟩ ⟨hz', hu⟩
  cases url with
  | some url =>
      obtain ⟨pr, hpr, rfl⟩ := topOpen_of_openUrl hu.symm
      show Delivered h d l' s'.host (found pr.url).url
      rw [hf, hz'.host]
      exact .found hz'.log hpr
  | none =>
      exact (ensures_openRequest_delivered hz' (unopened_of_openUrl hu.symm)).bind
        (fun _ _ _ h => h) fun _ _ _ h => h

/-! ## Whole runs -/

/-- An outcome tells of the request of its branch, if the run shipped. -/
structure Tells (h : ReviewHost) (o : Options) (w : Setting) (out : Outcome)
    (l : List (Moment shipping Site)) (h' : ReviewHost) : Prop where
  kept : Kept h l h'
  base : out.base = w.base
  shipped : ∀ committed pushed request, out.result = .shipped committed pushed request →
    Delivered h (w.draftFor out.branch o.draft) l h' request.url

theorem ensures_finishNoOp_tells {flow : Flow} {reason : NoOpReason} (hz : Apart h l s) :
    (finishNoOp flow branch w.base reason).Ensures (world F).logged
      (fun out _ z => Tells h o w out z.1 z.2.host) (fun _ _ z => Kept h z.1 z.2.host)
      x (l, s) :=
  ensures_bind.mpr (ensures_enter.mpr ⟨hz.kept, rfl, nofun⟩)

theorem ensures_finishShipped_tells {flow : Flow} {committed : Bool} {pushed : Option PushMode}
    {request : RequestResult} {h' : ReviewHost} {s : Site} (hs : s.host = h')
    (hd : Delivered h (w.draftFor branch o.draft) l h' request.url) :
    (finishShipped flow branch w.base (.shipped committed pushed request)).Ensures
      (world F).logged (fun out _ z => Tells h o w out z.1 z.2.host)
      (fun _ _ z => Kept h z.1 z.2.host) x (l, s) := by
  subst hs
  refine ensures_bind.mpr (ensures_enter.mpr ⟨hd.kept, rfl, fun _ _ _ e => ?_⟩)
  cases e
  exact hd

theorem spares_cutBranch : Spares (cutBranch w branch) := by
  refine .cutBranch rfl rfl ((footprint_commitAndPush _ _).uses.mono ?_) fun c hc => ?_
  · rintro c (hc | rfl | rfl | rfl)
    · exact isRequest_of_asks hc
    · rfl
    · rfl
    · rfl
  · cases c <;> first | rfl | cases hc

/-- A new request that ships tells of the request of its branch. -/
theorem ensures_newRequest_tells (hz : Apart h l s) :
    (newRequest w o).Ensures (world F).logged (fun out _ z => Tells h o w out z.1 z.2.host)
      (fun _ _ z => Kept h z.1 z.2.host) x (l, s) := by
  rw [newRequest_eq]
  refine ensures_apart_bind (spares_looks footprint_lookNew) hz fun seen x₁ l₁ s₁ h₁ => ?_
  unfold shipSeen
  split
  · exact ensures_finishNoOp_tells h₁
  rw [shipNew_eq]
  refine ensures_apart_bind (spares_asksOr rfl footprint_settleBranch) h₁ ?_
  intro branch x₂ l₂ s₂ h₂
  refine ensures_apart_bind spares_cutBranch h₂ fun committed x₃ l₃ s₃ h₃ => ?_
  rw [requestForNew_eq]
  refine (ensures_settleRequest_delivered .alreadyExists (fun _ => rfl) h₃).bind
    (fun _ _ _ h => h) ?_
  rintro request x₄ ⟨l₄, s₄⟩ hd
  exact ensures_finishShipped_tells rfl hd

theorem ensures_pushUpdate_tells {staged : Bool} {ahead : Nat} (hz : Apart h l s) :
    (pushUpdate w o staged ahead).Ensures (world F).logged
      (fun out _ z => Tells h o w out z.1 z.2.host) (fun _ _ z => Kept h z.1 z.2.host)
      x (l, s) := by
  have hfinish {pushed : Option PushMode} {x : Session} {l : List (Moment shipping Site)}
      {s : Site} (hz : Apart h l s) :
      (finishUpdate w o staged pushed).Ensures (world F).logged
        (fun out _ z => Tells h o w out z.1 z.2.host) (fun _ _ z => Kept h z.1 z.2.host)
        x (l, s) := by
    rw [finishUpdate, requestForUpdate_eq]
    refine (ensures_settleRequest_delivered .updated (fun _ => rfl) hz).bind
      (fun _ _ _ h => h) ?_
    rintro request x₁ ⟨l₁, s₁⟩ hd
    exact ensures_finishShipped_tells rfl hd
  refine ensures_bind.mpr (ensures_enter.mpr ?_)
  show Ensures _ (match updatePushMode o.sync ahead with | _ => _) _ _ _ _
  cases updatePushMode o.sync ahead with
  | none => exact hfinish hz
  | some mode =>
      exact ensures_apart_bind (spares_execute rfl) hz fun _ _ _ _ => hfinish

/-- An update tells of the request of its branch, if it has something to push. -/
theorem ensures_stageAndShip_tells {found : Option String} (hz : Apart h l s) :
    (stageAndShip w o found).Ensures (world F).logged
      (fun out _ z => Tells h o w out z.1 z.2.host) (fun _ _ z => Kept h z.1 z.2.host)
      x (l, s) := by
  refine ensures_bind.mpr (ensures_enter.mpr ?_)
  refine ensures_apart_bind (spares_execute rfl) hz fun _ x₁ l₁ s₁ h₁ => ?_
  refine ensures_apart_bind (spares_asks (.question .hasStagedChanges rfl)) h₁ ?_
  intro staged x₂ l₂ s₂ h₂
  refine ensures_apart_bind (spares_asks (.question (.countCommits _ _) rfl)) h₂ ?_
  intro ahead x₃ l₃ s₃ h₃
  split
  · exact ensures_finishNoOp_tells h₃
  · rw [shipUpdate_eq]
    exact ensures_apart_bind (spares_asksOr rfl (footprint_commitStaged _ _ _ _)) h₃
      fun _ _ _ _ => ensures_pushUpdate_tells

theorem ensures_updateExisting_tells (hz : Apart h l s) :
    (updateExisting w o).Ensures (world F).logged (fun out _ z => Tells h o w out z.1 z.2.host)
      (fun _ _ z => Kept h z.1 z.2.host) x (l, s) := by
  rw [updateExisting_eq]
  refine ensures_apart_bind (spares_looks footprint_lookUpdate) hz fun found x₁ l₁ s₁ h₁ => ?_
  refine Ensures.when (R := fun _ z => Apart h z.1 z.2) (F := fun _ _ z => Apart h z.1 z.2)
    (fun _ => ?_) (fun _ _ _ h => h.kept) (fun _ => h₁) ?_
  · exact ensures_apart (spares_asksOr rfl (footprint_rebaseOnto _ _ _)) h₁
  · rintro x₂ ⟨l₂, s₂⟩ h₂
    exact ensures_stageAndShip_tells h₂

/-- A run that ships tells of the request of its branch, and any other run opens none but a missing
one. -/
theorem ensures_startWith_tells {accepted : Except Failure (Description × Verdict)} :
    (startWith accepted o).Ensures (world F).logged
      (fun out _ z => ∃ w, (∃ verdict, accepted = .ok (w.description, verdict)) ∧
        Tells s.host o w out z.1 z.2.host)
      (fun _ _ z => Kept s.host z.1 z.2.host) x ([], s) := by
  refine ensures_startWith.mpr ?_
  have hz : Apart s.host [] s := ⟨by simp, rfl⟩
  refine ((ensures_apart (spares_asks (footprint_settle accepted o)) hz).and
    ensures_settle.logged).mono ?_ ?_
  · rintro ⟨w, flow⟩ x₁ ⟨l₁, s₁⟩ ⟨h₁, -, hfits⟩
    cases flow with
    | newRequest =>
        exact (ensures_newRequest_tells h₁).mono (fun _ _ _ h => ⟨w, hfits.description, h⟩)
          fun _ _ _ h => h
    | updateExisting =>
        exact (ensures_updateExisting_tells h₁).mono (fun _ _ _ h => ⟨w, hfits.description, h⟩)
          fun _ _ _ h => h
  · rintro e x₁ ⟨l₁, s₁⟩ ⟨h₁, -⟩
    exact h₁.kept

theorem ensures_startWith_kept {accepted : Except Failure (Description × Verdict)} :
    (startWith accepted o).Ensures (world F).logged (fun _ _ z => Kept s.host z.1 z.2.host)
      (fun _ _ z => Kept s.host z.1 z.2.host) x ([], s) := by
  refine ensures_startWith_tells.mono ?_ fun _ _ _ h => h
  rintro out x' z ⟨w, -, ht⟩
  exact ht.kept

end Ship

/-! ## The law of requests -/

/-- The request a run opens: all of a text, under its first line. -/
def RequestDraft.ofText (text base head : String) (draft : Bool) : RequestDraft where
  title := Text.trimmed (String.ofList (Text.firstLine text.toList))
  body := text
  base := base
  head := head
  draft := draft

/-- The branch of an outcome has an open request at an address.  It was there before or is the
only change to the requests. -/
structure OneOpen (text : String) (draft : Bool) (out : Outcome) (url : String)
    (before : ReviewHost) (log : List (Moment shipping Site)) (after : ReviewHost) : Prop where
  opened : ∃ pr ∈ after.requests, pr.head = out.branch ∧ pr.state = .opened ∧ pr.url = url
  found : (∃ pr ∈ before.requests, pr.head = out.branch ∧ pr.state = .opened) →
    after = before ∧ ∃ pr, TopOpen out.branch before.requests pr ∧ pr.url = url
  created : Unopened out.branch before.requests →
    (log.filter fun m => m.call.isRequest).map Moment.call =
        [.createRequest (.ofText text out.base out.branch draft)] ∧
      ∃ pr, after.requests = before.requests ++ [pr] ∧ pr.head = out.branch ∧
        pr.state = .opened ∧ pr.url = url ∧
        pr.title = Text.trimmed (String.ofList (Text.firstLine text.toList))

/-- The draft of a run for an accepted description. -/
theorem draftFor_of_accept {raw : String} {force : Bool} {w : Setting} {verdict : Verdict}
    (ha : Description.accept raw force = .ok (w.description, verdict)) (head : String)
    (draft : Bool) : w.draftFor head draft = .ofText w.description.text w.base head draft := by
  rw [Setting.draftFor, RequestDraft.ofText, Description.text_of_accept ha,
    RequestDraft.titleOf_trimmed, RequestDraft.bodyOf_trimmed]

/-- A request that was delivered is the one open request of its branch. -/
theorem Delivered.oneOpen {text : String} {draft : Bool} {out : Outcome}
    (hd : Delivered h (.ofText text out.base out.branch draft) l h' url) :
    OneOpen text draft out url h l h' := by
  have hopened := hd.exists_opened
  cases hd with
  | @found _ pr hl hpr =>
      refine ⟨hopened, fun _ => ⟨rfl, pr, hpr, rfl⟩, fun hu => ?_⟩
      exact absurd hpr.opened (hu pr hpr.mem hpr.heads)
  | @opened l m hl hc hb hu =>
      refine ⟨hopened, ?_, ?_⟩
      · rintro ⟨pr, hpr, hh, ho⟩
        exact absurd ho (hu pr hpr hh)
      · intro _
        refine ⟨?_, _, rfl, rfl, rfl, rfl, rfl⟩
        have hnone : l.filter (fun m => m.call.isRequest) = [] :=
          List.filter_eq_nil_iff.mpr fun m hm => by simp [hl m hm]
        have hone : [m].filter (fun m => m.call.isRequest) = [m] :=
          List.filter_cons_of_pos (by rw [hc]; rfl)
        rw [List.filter_append, hnone, hone]
        exact congrArg ([·]) hc

namespace Ship

/-- A run opens one request at most, and only one that is missing, whatever calls fail.  If it
ships without faults its branch has an open request at the address that it tells. -/
theorem one_open_request (raw : String) (o : Options) (x : Session) (s : Site) :
    (∀ faults : List Fault, (∀ f ∈ faults, f.OnlyFails) →
      let run := (start raw o x).run Site.answer.withFaults (faults, s)
      let log := (start raw o).logWithFaults x faults s
      log.countP (fun m => m.call.isRequest) ≤ 1 ∧
      (∀ m ∈ log, ∀ d, m.call = .createRequest d → Unopened d.head m.before.host.requests) ∧
      s.host.requests <+: run.world.2.host.requests) ∧
    let run := (start raw o x).run Site.answer s
    let log := (start raw o x).moments Site.answer s
    ∀ out committed pushed request, run.value.1 = .ok out →
      out.result = .shipped committed pushed request →
      ∃ d verdict, Description.accept raw o.force = .ok (d, verdict) ∧
        OneOpen d.text o.draft out request.url s.host log run.world.host := by
  rw [start_eq]
  generalize ha : Description.accept raw o.force = accepted
  constructor
  · intro faults hf run log
    have hrun : Ends (fun _ _ z => Kept s.host z.1 z.2.host)
        (fun _ _ z => Kept s.host z.1 z.2.host) run.value (log, run.world.2) :=
      ensures_run_withFaults hf ensures_startWith_kept
    have hk : Kept s.host log run.world.2.host :=
      (ends_both (R := fun _ (z : List (Moment shipping Site) × Site) =>
        Kept s.host z.1 z.2.host)).mp hrun
    exact ⟨hk.opens_at_most_one, fun m hm d hc => hk.unopened hm hc, hk.prefix_requests⟩
  · intro run log out committed pushed request hout hresult
    have hrun : Ends (fun out _ z => ∃ w, (∃ verdict, accepted = .ok (w.description, verdict)) ∧
        Tells s.host o w out z.1 z.2.host)
        (fun _ _ z => Kept s.host z.1 z.2.host) run.value (log, run.world) :=
      ensures_run_answer ensures_startWith_tells
    rcases hv : run.value with ⟨r, x'⟩
    rw [hv] at hrun hout
    cases hout
    obtain ⟨w, ⟨verdict, haccepted⟩, ht⟩ := hrun
    have hd := ht.shipped committed pushed request hresult
    -- Accepting trims the description, so its title and body need no more trimming.
    rw [draftFor_of_accept (ha.trans haccepted), ← ht.base] at hd
    exact ⟨w.description, verdict, haccepted, hd.oneOpen⟩

/-- Of five requests of a branch the open one with the highest number is told, though a merged
one has a higher number.  Nothing is opened, also while pushes fail. -/
theorem one_open_request_ranked :
    let request (number : Nat) (state : ReviewState) : PullRequest :=
      { number, title := "old", head := "topic", url := "pull/" ++ toString number, state }
    let ranked : Site :=
      { repo := {
          current := some "topic"
          branches := [("main", ["c0"]), ("topic", ["c0", "mine"])]
          messages := [("c0", "initial"), ("mine", "my work")] }
        host := { requests := [request 1 .opened, request 4 .closed, request 3 .opened,
          request 5 .merged, request 2 .opened] } }
    let faults := [Fault.outage fun c => c = .push "topic" .tracking]
    let run := (start "feat: add widget" {} .sample).run Site.answer ranked
    ranked.host.requests <+: ((start "feat: add widget" {} .sample).run
        Site.answer.withFaults (faults, ranked)).world.2.host.requests ∧
      ∃ out, run.value.1 = .ok out ∧
        out.result = .shipped false (some .tracking) (.updated "pull/3") ∧
        run.world.host = ranked.host := by
  intro request ranked faults run
  have hf : ∀ f ∈ faults, f.OnlyFails := by
    intro f hf
    cases List.mem_singleton.mp hf
    exact Fault.onlyFails_outage _
  have hout : run.value.1 = .ok
      { flow := .updateExisting, branch := "topic", base := "main", notices := [],
        result := .shipped false (some .tracking) (.updated "pull/3") } := by
    decide +kernel
  have hall := one_open_request "feat: add widget" {} .sample ranked
  obtain ⟨d, verdict, -, hone⟩ := hall.2 _ _ _ _ hout rfl
  have hopen : ∃ pr ∈ ranked.host.requests, pr.head = "topic" ∧ pr.state = .opened := by
    decide +kernel
  exact ⟨(hall.1 faults hf).2.2, _, hout, rfl, (hone.found hopen).1⟩

end Ship

end Shipment
