import Shipment.Proofs.Clearance
import Shipment.Proofs.Requests

/-!
# The order of a run

A rebase, a commit, a push and a new request each have a *turn*.  A run makes these calls
in the order of their turns, each of them at most once, and none before the questions that
call for it were answered well.  `Allowed` says so of one call and the log behind which it
is made.  `Reached` is what carries it through the flows: the run was cleared, made
nothing of the turn or later, and has done a sync if it owes one.  `Orderly` says it of a
whole log.
-/

namespace Shipment

/-- The turn of a call.  Only the calls that ship have one. -/
def Call.turn : Call → Nat
  | rebase _ => 1
  | commit _ => 2
  | push _ _ => 3
  | createRequest _ => 4
  | _ => 0

/-! ## What has to come before a call -/

/-- Everything was staged, and when last asked, something was. -/
def StagedLast (l : Log) : Prop :=
  ∃ pre mid post, l = pre ++ .ok .stageAll () :: mid ++ .ok .hasStagedChanges true :: post ∧
    ∀ m ∈ post, m.call ≠ .hasStagedChanges

/-- Nobody has an open request for a branch, as the host just said. -/
def Unrequested (head : String) (l : Log) : Prop :=
  ∃ found, l.getLast? = some (.ok (.findRequest head) found) ∧
    ∀ pr, found = some pr → pr.state ≠ .opened

/-- The calls of a sync up to its fetch, as they have to be answered. -/
def inspected (current : String) (onOrigin : Bool) : Log :=
  [.ok .isClean true, .ok (.remoteBranchExists current) onOrigin] ++
    if onOrigin then [.ok (.fetch current) ()] else []

/-- The calls of a sync, as they have to be answered. -/
def synced (current base : String) (onOrigin : Bool) : Log :=
  inspected current onOrigin ++
    (if onOrigin then [.ok (.isAncestor (trackingRef current) "HEAD") true] else []) ++
    [.ok (.rebase (trackingRef base)) ()]

/-- A push is forced exactly if it ends a sync, and then the sync was made. -/
def PushedRightly (o : Options) (branch : String) (mode : PushMode) (l : Log) : Prop :=
  ∃ current default, clearance o current default <+: l ∧
    (mode = .forceWithLease ↔
      Flow.select current default o.new = .updateExisting ∧ o.sync = true) ∧
    (mode = .forceWithLease → branch = current ∧
      ∃ onOrigin, synced current (o.base.getD default) onOrigin <:+: l)

/-- A call that may be made behind a log. -/
structure Allowed (o : Options) (l : Log) (c : Call) : Prop where
  climbs : 0 < c.turn → ∀ m ∈ l, m.call.turn < c.turn
  commit : ∀ message, c = .commit message → StagedLast l
  push : ∀ branch mode, c = .push branch mode → PushedRightly o branch mode l
  request : ∀ d, c = .createRequest d → Unrequested d.head l

/-- A call without a turn is always allowed. -/
theorem Allowed.of_turn {o : Options} {l : Log} {c : Call} (h : c.turn = 0) : Allowed o l c where
  climbs hc := absurd h (Nat.ne_of_gt hc)
  commit message e := by
    subst e
    cases h
  push branch mode e := by
    subst e
    cases h
  request d e := by
    subst e
    cases h

namespace Call

theorem turn_of_asks {c : Call} (h : c.Asks) : c.turn = 0 := by
  cases c <;> first | rfl | cases h

theorem turn_of_asksOr {c d : Call} (hd : d.turn = 0) (h : AsksOr d c) : c.turn = 0 := by
  cases h with
  | inl h => exact turn_of_asks h
  | inr h => rwa [h]

theorem turn_of_looks {c : Call} (h : c.Looks) : c.turn = 0 := by
  cases h with
  | inl h => exact turn_of_asks h
  | inr h =>
      obtain ⟨branch, rfl⟩ := h
      rfl

theorem turn_of_isPush {c : Call} (h : c.isPush = true) : c.turn = 3 := by
  cases c <;> first | rfl | cases h

theorem turn_of_undoes {c : Call} (h : c.undoes = true) : c.turn = 0 := by
  cases c <;> first | rfl | cases h

end Call

/-! ## How far a run has come -/

/-- A run that was cleared and made nothing of a turn or later. -/
structure Reached (o : Options) (w : Setting) (flow : Flow) (turn : Nat) (l : Log) : Prop where
  cleared : clearance o w.current w.default <+: l
  below : ∀ m ∈ l, m.call.turn < turn
  synced : 1 < turn → flow = .updateExisting → o.sync = true →
    ∃ onOrigin, synced w.current w.base onOrigin <:+: l

namespace Reached

variable {o : Options} {w : Setting} {flow : Flow} {turn : Nat} {l : Log}

theorem start : Reached o w flow 1 (clearance o w.current w.default) where
  cleared := List.prefix_rfl
  below m hm := by
    rw [Call.turn_of_asks (asks_of_clearance m hm)]
    exact Nat.one_pos
  synced h := absurd h (Nat.lt_irrefl 1)

theorem append (h : Reached o w flow turn l) {new : Log} (hn : ∀ m ∈ new, m.call.turn < turn) :
    Reached o w flow turn (l ++ new) where
  cleared := h.cleared.trans (List.prefix_append l new)
  below := List.forall_mem_append.mpr ⟨h.below, hn⟩
  synced ht hf ho := by
    obtain ⟨onOrigin, hs⟩ := h.synced ht hf ho
    exact ⟨onOrigin, hs.trans (List.prefix_append l new).isInfix⟩

theorem concat (h : Reached o w flow turn l) {c : Call} {a : c.Answer} (hc : c.turn < turn) :
    Reached o w flow turn (l ++ [.ok c a]) :=
  h.append (List.forall_mem_singleton.mpr hc)

/-- A run that owes a sync has done it with a rebase behind the other calls of a sync. -/
theorem rebased (h : Reached o w flow 1 l) {rev : String} {v : Unit}
    (hs : ∃ onOrigin, Shipment.synced w.current w.base onOrigin <:+: l ++ [.ok (.rebase rev) v]) :
    Reached o w flow 2 (l ++ [.ok (.rebase rev) v]) where
  cleared := h.cleared.trans (List.prefix_append l _)
  below := List.forall_mem_append.mpr
    ⟨fun m hm => Nat.lt_succ_of_lt (h.below m hm), List.forall_mem_singleton.mpr Nat.one_lt_two⟩
  synced _ _ _ := hs

/-- The turn moves on.  A run that owes a sync has to have done it. -/
theorem later (h : Reached o w flow turn l) {turn' : Nat} (ht : turn ≤ turn')
    (hs : turn ≤ 1 → flow = .updateExisting → o.sync = true →
      ∃ onOrigin, Shipment.synced w.current w.base onOrigin <:+: l) :
    Reached o w flow turn' l where
  cleared := h.cleared
  below m hm := Nat.lt_of_lt_of_le (h.below m hm) ht
  synced _ hf ho := by
    by_cases h1 : 1 < turn
    · exact h.synced h1 hf ho
    · exact hs (Nat.not_lt.mp h1) hf ho

end Reached

namespace Ship

open Call

variable {α : Type} {P : Call → Prop} {accepted : Except Failure (Description × Verdict)}
variable {o : Options} {w : Setting} {flow : Flow} {turn : Nat} {l : Log}

theorem allowed_rebase {rev : String} (hl : Reached o w flow 1 l) : Allowed o l (.rebase rev) where
  climbs _ := hl.below
  commit _ e := by cases e
  push _ _ e := by cases e
  request _ e := by cases e

theorem allowed_commit {message : String} (hl : Reached o w flow 2 l) (hs : StagedLast l) :
    Allowed o l (.commit message) where
  climbs _ := hl.below
  commit _ _ := hs
  push _ _ e := by cases e
  request _ e := by cases e

/-- A push may be made by a run that has not pushed yet, in the mode of its flow. -/
theorem allowed_push {branch : String} {mode : PushMode} (hw : w.Chosen accepted o flow)
    (hl : Reached o w flow 3 l)
    (hm : mode = .forceWithLease ↔ flow = .updateExisting ∧ o.sync = true)
    (hb : mode = .forceWithLease → branch = w.current) : Allowed o l (.push branch mode) where
  climbs _ := hl.below
  commit _ e := by cases e
  push _ _ e := by
    cases e
    refine ⟨w.current, w.default, hl.cleared, hw.flow ▸ hm, fun h => ⟨hb h, ?_⟩⟩
    obtain ⟨hf, ho⟩ := hm.mp h
    rw [← hw.base]
    exact hl.synced (by decide) hf ho
  request _ e := by cases e

theorem allowed_request {d : RequestDraft} (hl : Reached o w flow 4 l)
    (hd : Unrequested d.head l) : Allowed o l (.createRequest d) where
  climbs _ := hl.below
  commit _ e := by cases e
  push _ _ e := by cases e
  request _ e := by
    cases e
    exact hd

/-- A piece that makes no call with a turn moves nothing on. -/
theorem heeds_quiet {m : Ship α} (hm : Footprint P m) (hP : ∀ c, P c → c.turn = 0)
    (ht : 0 < turn) (hl : Reached o w flow turn l) :
    Heeds (Allowed o) m (fun _ l' => Reached o w flow turn l') l := by
  refine (Heeds.ofFootprint hm fun _ c hc => .of_turn (hP c hc)).mono ?_
  rintro a _ ⟨new, rfl, hn⟩
  refine hl.append fun k hk => ?_
  rw [hP _ (hn k hk).1]
  exact ht

/-! ## The new request flow -/

/-- Changes are committed only when they were staged, and at most once. -/
theorem heeds_commitChanges {d : Description} {branch : String} (hl : Reached o w flow 2 l) :
    Heeds (Allowed o) (commitChanges d branch) (fun _ l' => Reached o w flow 3 l') l := by
  refine (heeds_quiet footprint_isDirty (fun _ => turn_of_asks) (by decide) hl).bind ?_
  intro dirty l' hl'
  cases dirty with
  | false => exact .pure (hl'.later (by decide) fun h => absurd h (by decide))
  | true =>
      refine .enter (.execute_bind (.of_turn rfl) fun v => ?_)
      refine .ask_bind (.of_turn rfl) fun staged => ?_
      have hs := (hl'.concat (a := v) (by decide)).concat (c := .hasStagedChanges) (a := staged)
        (by decide)
      cases staged with
      | false => exact .fail
      | true =>
          refine .execute_bind (allowed_commit hs ?_) fun _ => .pure ?_
          · exact ⟨l', [], [], rfl, by simp⟩
          · refine (hs.later (by decide) fun h => absurd h (by decide)).concat ?_
            simp [turn, Action.call]

theorem heeds_commitAndPush {d : Description} {branch : String}
    (hw : w.Chosen accepted o .newRequest) (hl : Reached o w .newRequest 2 l) :
    Heeds (Allowed o) (commitAndPush d branch) (fun _ l' => Reached o w .newRequest 4 l') l := by
  refine (heeds_commitChanges hl).bind fun committed l' hl' => ?_
  refine .enter (.execute_bind ?_ fun _ => .pure ?_)
  · exact allowed_push hw hl' (by simp) nofun
  · exact (hl'.later (by decide) fun h => absurd h (by decide)).concat (by simp [turn, Action.call])

theorem heeds_cutBranch {branch : String} (hw : w.Chosen accepted o .newRequest)
    (hl : Reached o w .newRequest 1 l) :
    Heeds (Allowed o) (cutBranch w branch) (fun _ l' => Reached o w .newRequest 4 l') l := by
  refine .enter (.ask_bind (.of_turn rfl) fun start => .execute_bind (.of_turn rfl) fun _ => ?_)
  -- The calls that go back have no turn, so they are allowed behind a push that failed.
  refine .update (Heeds.bind (.orGoBack (heeds_commitAndPush hw ?_) fun _ _ hc =>
    .of_turn (turn_of_undoes hc)) fun _ _ h => .update (.pure h))
  have hcut : Reached o w .newRequest 1
      (l ++ [.ok .headCommit start] ++ [.ok (.createBranch branch) ()]) :=
    (hl.concat (by simp [turn])).concat (by simp [turn])
  exact hcut.later (by decide) fun _ => nofun

theorem heeds_openRequestUrl {branch : String} (hl : Reached o w flow 4 l) :
    Heeds (Allowed o) (openRequestUrl branch)
      (fun url l' => Reached o w flow 4 l' ∧ (url = none → Unrequested branch l')) l := by
  refine .ask_bind (.of_turn rfl) fun found => .pure ⟨hl.concat (by simp [turn]), fun h => ?_⟩
  refine ⟨found, by simp, ?_⟩
  rintro pr rfl ho
  simp [PullRequest.openUrl, ho] at h

theorem heeds_settleRequest {step : Step} {found : String → RequestResult} {d : RequestDraft}
    (hl : Reached o w flow 4 l) :
    Heeds (Allowed o) (settleRequest step found d) (fun _ _ => True) l := by
  refine .enter ((heeds_openRequestUrl hl).bind ?_)
  rintro url l' ⟨hl', hu⟩
  cases url with
  | some url => exact .pure trivial
  | none =>
      refine Heeds.bind (R := fun _ _ => True) ?_ fun _ _ _ => .pure trivial
      exact .openRequest (allowed_request hl' (hu rfl)) fun _ => trivial

/-- A new request makes its calls in order. -/
theorem heeds_newRequest (hw : w.Chosen accepted o .newRequest)
    (hl : Reached o w .newRequest 1 l) :
    Heeds (Allowed o) (newRequest w o) (fun _ _ => True) l := by
  rw [newRequest_eq]
  refine (heeds_quiet footprint_lookNew (fun _ => turn_of_looks) (by decide) hl).bind ?_
  intro seen l₁ h₁
  unfold shipSeen
  split
  · exact (heeds_quiet (footprint_finishNoOp ..) (fun _ => turn_of_asks) (by decide) h₁).mono
      fun _ _ _ => trivial
  rw [shipNew_eq]
  refine (heeds_quiet footprint_settleBranch (fun _ => turn_of_asksOr rfl) (by decide) h₁).bind ?_
  intro branch l₂ h₂
  refine (heeds_cutBranch hw h₂).bind fun committed l₃ h₃ => ?_
  rw [requestForNew_eq]
  exact (heeds_settleRequest h₃).bind fun _ _ _ => .enter fun _ _ _ => trivial

/-! ## The update flow -/

/-- The counterpart on `origin` that was found to be there. -/
def counterpart (current : String) (onOrigin : Bool) : Option String :=
  if onOrigin then some (trackingRef current) else none

theorem heeds_requireClean {rule : Log → Call → Prop} (hr : rule l .isClean) :
    Heeds rule requireClean (fun _ l' => l' = l ++ [.ok .isClean true]) l := by
  refine .enter (Heeds.bind (R := fun dirty l' => l' = l ++ [.ok .isClean !dirty]) ?_ ?_)
  · exact .ask_bind hr fun clean => .pure (by simp)
  · rintro dirty _ rfl
    cases dirty with
    | false => exact .pure rfl
    | true => exact .fail

theorem heeds_fetchCounterpart {current : String} :
    Heeds (Allowed o) (fetchCounterpart current)
      (fun found l' => ∃ onOrigin, found = counterpart current onOrigin ∧
        l' = l ++ [.ok (.remoteBranchExists current) onOrigin] ++
          if onOrigin then [.ok (.fetch current) ()] else []) l := by
  refine .ask_bind (.of_turn rfl) fun onOrigin => ?_
  cases onOrigin with
  | false => exact .pure ⟨false, rfl, by simp⟩
  | true => exact .execute_bind (.of_turn rfl) fun v => .pure ⟨true, rfl, rfl⟩

theorem heeds_compareWithBase (hl : Reached o w flow 1 l) :
    Heeds (Allowed o) (compareWithBase w.base o.sync) (fun _ l' => Reached o w flow 1 l') l :=
  heeds_quiet (footprint_compareWithBase _ _) (fun _ => turn_of_asksOr rfl) Nat.one_pos hl

/-- An update that syncs keeps the answers it got. -/
theorem heeds_lookUpdate (hl : Reached o w flow 1 l) :
    Heeds (Allowed o) (lookUpdate w o) (fun found l' => Reached o w flow 1 l' ∧
      (o.sync = true → ∃ onOrigin before, found = counterpart w.current onOrigin ∧
        l' = before ++ inspected w.current onOrigin)) l := by
  refine (heeds_quiet (footprint_checkRequest _) (fun _ => turn_of_asks) (by decide) hl).bind ?_
  intro _ l₁ h₁
  refine (heeds_compareWithBase h₁).bind fun _ l₂ h₂ => ?_
  refine .when (R := fun l' => Reached o w flow 1 l' ∧
    (o.sync = true → l' = l₂ ++ [.ok .isClean true])) (fun ho => ?_) (fun ho => ?_) ?_
  · refine (heeds_requireClean (.of_turn rfl)).mono ?_
    rintro _ _ rfl
    exact ⟨h₂.concat (by decide), fun _ => rfl⟩
  · exact ⟨h₂, fun h => absurd h ho⟩
  · rintro l₃ ⟨h₃, hsync⟩
    refine heeds_fetchCounterpart.mono ?_
    rintro found _ ⟨onOrigin, hfound, rfl⟩
    constructor
    · cases onOrigin with
      | false => exact (h₃.concat (by simp [turn])).append (by simp)
      | true => exact (h₃.concat (by simp [turn])).append (by simp [turn])
    · intro ho
      refine ⟨onOrigin, l₂, hfound, ?_⟩
      rw [hsync ho]
      simp [inspected]

/-- A rebase is the last call of a sync. -/
theorem heeds_rebaseOnto {onOrigin : Bool} {before : Log}
    (hl : Reached o w flow 1 (before ++ inspected w.current onOrigin)) :
    Heeds (Allowed o) (rebaseOnto w.current w.base (counterpart w.current onOrigin))
      (fun _ l' => Reached o w flow 2 l') (before ++ inspected w.current onOrigin) := by
  cases onOrigin with
  | false =>
      refine .execute (allowed_rebase hl) fun v => hl.rebased ⟨false, before, [], ?_⟩
      simp [synced]
      rfl
  | true =>
      refine .ask_bind (.of_turn rfl) fun seen => .orElse fun hs => ?_
      have h₁ := hl.concat (c := .isAncestor (trackingRef w.current) "HEAD") (a := seen)
        (by simp [turn])
      refine .execute (allowed_rebase h₁) fun v => h₁.rebased ⟨true, before, [], ?_⟩
      simp [synced, hs]
      rfl

theorem heeds_finishUpdate {staged : Bool} {pushed : Option PushMode}
    (hl : Reached o w flow 4 l) :
    Heeds (Allowed o) (finishUpdate w o staged pushed) (fun _ _ => True) l := by
  rw [finishUpdate, requestForUpdate_eq]
  exact (heeds_settleRequest hl).bind fun _ _ _ => .enter fun _ _ _ => trivial

/-- An update pushes before it opens a request, and forces the push if it has made a sync. -/
theorem heeds_pushUpdate {staged : Bool} {ahead : Nat} (hw : w.Chosen accepted o .updateExisting)
    (hl : Reached o w .updateExisting 3 l) :
    Heeds (Allowed o) (pushUpdate w o staged ahead) (fun _ _ => True) l := by
  have hl' : Reached o w .updateExisting 4 l :=
    hl.later (by decide) fun h => absurd h (by decide)
  refine .enter ?_
  show Heeds (Allowed o) (match updatePushMode o.sync ahead with | _ => _) _ l
  cases hm : updatePushMode o.sync ahead with
  | none => exact heeds_finishUpdate hl'
  | some mode =>
      -- Only a sync forces a push, and it does so whatever is ahead.
      have hmode : mode = .forceWithLease ↔ o.sync = true := by
        unfold updatePushMode at hm
        cases ho : o.sync with
        | true =>
            rw [ho] at hm
            cases hm
            simp
        | false =>
            rw [ho] at hm
            simp at hm
            simp [← hm.2]
      refine .execute_bind (allowed_push hw hl ?_ fun _ => rfl) fun v => ?_
      · rw [hmode]
        exact (and_iff_right rfl).symm
      · exact heeds_finishUpdate (hl'.concat (by simp [turn, Action.call]))

/-- An update that has looked makes its other calls in order. -/
theorem heeds_stageAndShip {found : Option String} (hw : w.Chosen accepted o .updateExisting)
    (hl : Reached o w .updateExisting 2 l) :
    Heeds (Allowed o) (stageAndShip w o found) (fun _ _ => True) l := by
  refine .enter (.execute_bind (.of_turn rfl) fun v => ?_)
  refine .ask_bind (.of_turn rfl) fun staged => .ask_bind (.of_turn rfl) fun ahead => ?_
  have hs := ((hl.concat (a := v) (by decide)).concat (c := .hasStagedChanges) (a := staged)
    (by decide)).concat (c := .countCommits (found.getD (trackingRef w.base)) "HEAD") (a := ahead)
    (by simp [turn])
  have h₃ : Reached o w .updateExisting 3 _ :=
    hs.later (by decide) fun h => absurd h (by decide)
  cases updateIsNoOp staged ahead o.sync with
  | true =>
      exact (heeds_quiet (footprint_finishNoOp ..) (fun _ => turn_of_asks) (by decide) hs).mono
        fun _ _ _ => trivial
  | false =>
      show Heeds (Allowed o) (shipUpdate w o _ staged ahead) _ _
      rw [shipUpdate_eq]
      refine Heeds.bind (R := fun _ l' => Reached o w .updateExisting 3 l') ?_
        fun _ _ h => heeds_pushUpdate hw h
      cases staged with
      | false => exact .pure h₃
      | true =>
          refine .enter (.execute_bind (allowed_commit hs ?_) fun _ => ?_)
          · refine ⟨l, [],
              [.ok (.countCommits (found.getD (trackingRef w.base)) "HEAD") ahead], ?_, ?_⟩
            · exact List.append_assoc _ [_] [_]
            · simp
          · exact .ask (.of_turn rfl) fun _ =>
              (h₃.concat (by simp [turn, Action.call])).concat (by simp [turn])

theorem heeds_updateExisting (hw : w.Chosen accepted o .updateExisting)
    (hl : Reached o w .updateExisting 1 l) :
    Heeds (Allowed o) (updateExisting w o) (fun _ _ => True) l := by
  rw [updateExisting_eq]
  refine (heeds_lookUpdate hl).bind ?_
  rintro found l₁ ⟨h₁, hsync⟩
  refine .when (R := fun l' => Reached o w .updateExisting 2 l') (fun ho => ?_) (fun ho => ?_)
    fun _ => heeds_stageAndShip hw
  · -- The rebase comes right behind the looks of the sync, so its log ends with them.
    obtain ⟨onOrigin, before, rfl, rfl⟩ := hsync ho
    exact heeds_rebaseOnto h₁
  · exact h₁.later (by decide) fun _ _ h => absurd h ho

theorem heeds_order : Heeds (Allowed o) (startWith accepted o) (fun _ _ => True) [] := by
  refine heeds_startWith (fun _ c hc => .of_turn (turn_of_asks (asks_of_questions c hc))) ?_
  intro w flow hw
  cases flow with
  | newRequest => exact heeds_newRequest hw .start
  | updateExisting => exact heeds_updateExisting hw .start

end Ship

/-! ## Whole logs -/

/-- A relation that every moment has to the earlier ones. -/
theorem pairwise_of_splits {γ : Type} {R : γ → γ → Prop} {l : List γ}
    (h : ∀ before m after, l = before ++ m :: after → ∀ k ∈ before, R k m) : l.Pairwise R := by
  induction l with
  | nil => exact .nil
  | cons k l ih =>
      refine .cons ?_ (ih ?_)
      · intro m hm
        obtain ⟨before, after, rfl⟩ := List.append_of_mem hm
        exact h (k :: before) m after rfl k List.mem_cons_self
      · rintro before m after rfl k' hk'
        exact h (k :: before) m after rfl k' (List.mem_cons_of_mem k hk')

/-- What is never twice in a list is in it at most once. -/
theorem countP_le_one {γ : Type} {p : γ → Bool} {l : List γ}
    (h : l.Pairwise fun k m => p k = true → p m = false) : l.countP p ≤ 1 := by
  induction h with
  | nil => exact Nat.zero_le 1
  | @cons k l hk hl ih =>
      cases hp : p k with
      | false => rwa [List.countP_cons_of_neg (by simp [hp])]
      | true =>
          have hrest : l.countP p = 0 := List.countP_eq_zero.mpr fun m hm => by simp [hk m hm hp]
          exact Nat.le_of_eq (by rw [List.countP_cons_of_pos hp, hrest])

/-- A log whose calls come in order. -/
structure Orderly (o : Options) (log : Log) : Prop where
  /-- There is one commit, one rebase, one push and one new request at most. -/
  once : ∀ turn, 0 < turn → log.countP (fun m => m.call.turn = turn) ≤ 1
  commit : ∀ before m after, log = before ++ m :: after → ∀ message, m.call = .commit message →
    StagedLast before ∧ ∀ k ∈ before, k.call.isPush = false
  push : ∀ before m after, log = before ++ m :: after → ∀ branch mode, m.call = .push branch mode →
    PushedRightly o branch mode before
  request : ∀ before m after, log = before ++ m :: after → ∀ d, m.call = .createRequest d →
    Unrequested d.head before ∧ ∀ k ∈ after, k.call.isPush = false

/-- A log of calls that were all allowed is orderly. -/
theorem Orderly.of_allowed {o : Options} {log : Log}
    (h : ∀ before m after, log = before ++ m :: after → Allowed o before m.call) :
    Orderly o log := by
  have hclimbs : log.Pairwise fun k m => 0 < m.call.turn → k.call.turn < m.call.turn := by
    refine pairwise_of_splits fun before m after e k hk ht => ?_
    exact (h before m after e).climbs ht k hk
  refine ⟨?_, ?_, ?_, ?_⟩
  · intro turn ht
    refine countP_le_one (hclimbs.imp fun {k m} hlt hk => ?_)
    simp only [decide_eq_true_eq, decide_eq_false_iff_not] at hk ⊢
    rintro rfl
    exact Nat.ne_of_lt (hlt ht) hk
  · intro before m after e message hm
    have ha := h before m after e
    refine ⟨ha.commit message hm, fun k hk => Bool.eq_false_iff.mpr fun hpush => ?_⟩
    have hlt := ha.climbs (by simp [hm, Call.turn]) k hk
    rw [hm, Call.turn_of_isPush hpush] at hlt
    simp [Call.turn] at hlt
  · intro before m after e branch mode hm
    exact (h before m after e).push branch mode hm
  · intro before m after e d hm
    refine ⟨(h before m after e).request d hm, fun k hk => Bool.eq_false_iff.mpr fun hpush => ?_⟩
    obtain ⟨between, rest, rfl⟩ := List.append_of_mem hk
    have ha := h (before ++ m :: between) k rest (by simp [e])
    have hlt := ha.climbs (by simp [Call.turn_of_isPush hpush]) m (by simp)
    rw [hm, Call.turn_of_isPush hpush] at hlt
    simp [Call.turn] at hlt

namespace Ship

/-- Every run makes its calls in order, whatever it is answered. -/
theorem calls_in_order (raw : String) (o : Options) (x : Session) (t : Trace shipping)
    (out : Except Failure Outcome × Session) (ht : Program.Runs (start raw o x) t out) :
    Orderly o t.moments := by
  rw [start_eq] at ht
  exact .of_allowed ((heeds_order x).runs ht).2

/-- A branch with a commit of its own is synced before it is pushed by force. -/
theorem calls_in_order_ahead :
    let ahead : Site := { repo := {
      current := some "topic"
      branches := [("main", ["c0"]), ("topic", ["c0", "mine"])]
      messages := [("c0", "initial"), ("mine", "my work")] } }
    let run := (start "feat: add widget" { sync := true } .sample).run Site.answer ahead
    ∃ before m after, run.trace.moments = before ++ m :: after ∧
      m.call = .push "topic" .forceWithLease ∧
      PushedRightly { sync := true } "topic" .forceWithLease before := by
  intro ahead run
  have hm : ∃ m ∈ run.trace.moments, m.call = .push "topic" .forceWithLease := by decide +kernel
  obtain ⟨m, hm, hc⟩ := hm
  obtain ⟨before, after, e⟩ := List.append_of_mem hm
  have h := calls_in_order "feat: add widget" { sync := true } .sample run.trace run.value
    (Program.run_runs ..)
  exact ⟨before, m, after, e, hc, h.push before m after e "topic" .forceWithLease hc⟩

end Ship

end Shipment
