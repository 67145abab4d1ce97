import Shipment.Proofs.OneRequest
import Shipment.Proofs.Work

/-!
# What a run leaves alone

A run has one branch to ship at most.  A new request ships one that was nowhere, and an
update the one it stands on.  On `origin` nothing else changes.  Here nothing else does but
the default branch, which a new request from there may bring up to what `origin` has.  All
of that holds whatever calls fail, and whatever fails on the way back.

What a run does to `origin` and to tracking refs is read off its calls: `Call.Within` is
their kind and `Framed` what calls of it keep.  The local branches are followed along the
flows.  `Confined` puts both together.
-/

namespace Shipment

/-! ## Calls about one branch -/

/-- The calls of a run that has a branch to ship, or none.  It fetches only that branch, the
base and the default branch, and it pushes and requests only that branch. -/
def Call.Within (w : Setting) (shipped : Option String) : Call → Prop
  | fetch branch => branch = w.base ∨ branch = w.default ∨ shipped = some branch
  | push branch _ => shipped = some branch
  | createRequest draft => shipped = some draft.head ∧ draft.base = w.base
  | _ => True

theorem Call.Asks.within {c : Call} (h : c.Asks) {w : Setting} {shipped : Option String} :
    c.Within w shipped := by
  cases c <;> trivial

/-- Until there is a branch to ship it can be any. -/
theorem Call.Within.mono {c : Call} {w : Setting} (h : c.Within w none) (shipped : Option String) :
    c.Within w shipped := by
  cases c with
  | fetch branch =>
      rcases h with h | h | h
      · exact .inl h
      · exact .inr (.inl h)
      · cases h
  | push branch mode => cases h
  | createRequest draft => cases h.1
  | _ => trivial

namespace Repository

variable {r r' r'' : Repository} {w : Setting} {shipped : Option String}

/-- Beside the branch to ship, `origin` and the tracking refs are as they were, but for the
tracking refs of the base and of the default branch. -/
structure Framed (w : Setting) (shipped : Option String) (r r' : Repository) : Prop where
  remote : ∀ k, shipped ≠ some k → r'.remote.get? k = r.remote.get? k
  tracking : ∀ k, k ≠ w.base → k ≠ w.default → shipped ≠ some k →
    r'.tracking.get? k = r.tracking.get? k

namespace Framed

theorem of_eq (hr : r'.remote = r.remote) (ht : r'.tracking = r.tracking) :
    Framed w shipped r r' :=
  ⟨fun k _ => by rw [hr], fun k _ _ _ => by rw [ht]⟩

theorem refl (r : Repository) : Framed w shipped r r := of_eq rfl rfl

theorem trans (h : Framed w shipped r r') (h' : Framed w shipped r' r'') :
    Framed w shipped r r'' where
  remote k hk := (h'.remote k hk).trans (h.remote k hk)
  tracking k hb hd hk := (h'.tracking k hb hd hk).trans (h.tracking k hb hd hk)

theorem mono (h : Framed w none r r') (shipped : Option String) : Framed w shipped r r' :=
  ⟨fun k _ => h.remote k nofun, fun k hb hd _ => h.tracking k hb hd nofun⟩

end Framed

/-- A call that is about the branch to ship changes nothing beside it on `origin`. -/
theorem Effect.framed {c : Call} {reply : Except Failure c.Answer} (h : Effect r c reply r')
    (hc : c.Within w shipped) : Framed w shipped r r' := by
  cases h with
  | fetched hf =>
      refine ⟨fun _ _ => rfl, fun k hb hd hk => Table.get?_set_of_ne ?_ _ _⟩
      rintro rfl
      rcases hc with hc | hc | hc
      · exact hb hc
      · exact hd hc
      · exact hk hc
  | pushed hv hf =>
      have hne {k : String} (hk : shipped ≠ some k) (e : _ = k) : False := hk (e ▸ hc)
      exact ⟨fun k hk => Table.get?_set_of_ne (hne hk) _ _,
        fun k _ _ hk => Table.get?_set_of_ne (hne hk) _ _⟩
  | rebased hv hcur =>
      obtain ⟨messages, e⟩ := replay_eq _ (missing _ r.head) r
      rw [e]
      exact .of_eq rfl rfl
  | _ => exact .of_eq rfl rfl

/-- The branch is nowhere yet, and is not the base. -/
structure Fresh (w : Setting) (r : Repository) (branch : String) : Prop where
  here : r.branches.get? branch = none
  there : r.remote.get? branch = none
  base : branch ≠ w.base

/-- The default branch, which `HEAD` was on, was brought up to what `origin` has. -/
structure CaughtUp (k : String) (r r' : Repository) : Prop where
  onDefault : r.current = some r.default ∧ k = r.default
  extended : ∃ h there, r.branches.get? k = some h ∧ r.remote.get? k = some there ∧ h <+: there ∧
    r'.branches.get? k = some there

/-- Beside the branch to ship, the local branches are as they were or have caught up. -/
def KeptBeside (shipped : Option String) (r r' : Repository) : Prop :=
  ∀ k, shipped ≠ some k → r'.branches.get? k = r.branches.get? k ∨ CaughtUp k r r'

namespace KeptBeside

theorem of_eq (h : r'.branches = r.branches) : KeptBeside shipped r r' :=
  fun k _ => .inl (by rw [h])

theorem trans_same (h : KeptBeside shipped r r')
    (h' : ∀ k, shipped ≠ some k → r''.branches.get? k = r'.branches.get? k) :
    KeptBeside shipped r r'' := by
  intro k hk
  rcases h k hk with h | ⟨hd, h₀, there, hh, hr, hp, hb⟩
  · exact .inl ((h' k hk).trans h)
  · exact .inr ⟨hd, h₀, there, hh, hr, hp, (h' k hk).trans hb⟩

theorem mono (h : KeptBeside none r r') (shipped : Option String) : KeptBeside shipped r r' :=
  fun k _ => h k nofun

end KeptBeside

end Repository

namespace Ship

open Call Site Repository

variable {α : Type} {F : Prop} {x : Session} {s s' : Site} {w : Setting} {o : Options}
variable {branch : String} {shipped : Option String} {l : List (Moment shipping Site)}

/-! ### Pieces -/

theorem within_asks {m : Ship α} (h : Footprint Asks m) : Uses (Within w shipped) m :=
  h.uses.mono fun _ hc => hc.within

theorem within_asksOr {c : Call} {m : Ship α} (h : Footprint (AsksOr c) m)
    (hc : c.Within w shipped) : Uses (Within w shipped) m := by
  refine h.uses.mono ?_
  rintro _ (hq | rfl)
  · exact hq.within
  · exact hc

theorem within_execute {a : Action} (h : a.call.Within w shipped) :
    Uses (Within w shipped) (execute a) :=
  (Footprint.execute h).uses

theorem within_lookNew : Uses (Within w none) (lookNew w) := by
  refine (footprint_enter _).uses.bind fun _ => ?_
  refine (within_execute (a := .fetch w.base) (.inl rfl)).bind fun _ => ?_
  have hlook : Uses (Within w none) (enter .inspectingTree >>= fun _ => snapshot w.base) :=
    (footprint_enter _).uses.bind fun _ => within_asks (footprint_snapshot w.base)
  refine .ite (fun _ => ?_) fun _ => hlook
  exact (within_execute (a := .fetch w.default) (.inr (.inl rfl))).bind fun _ => hlook

theorem within_settleBranch : Uses (Within w none) (settleBranch w o) :=
  within_asksOr footprint_settleBranch trivial

theorem within_cutBranch : Uses (Within w (some branch)) (cutBranch w branch) := by
  refine Uses.cutBranch trivial trivial ?_ fun c hc => ?_
  · refine (footprint_commitAndPush w.description branch).uses.mono ?_
    rintro c (hq | rfl | rfl | rfl)
    · exact hq.within
    · trivial
    · trivial
    · rfl
  · cases c <;> trivial

theorem within_requestForNew {draft : Bool} :
    Uses (Within w (some branch)) (requestForNew w branch draft) :=
  within_asksOr (footprint_requestForNew w branch draft) ⟨rfl, rfl⟩

theorem within_pushUpdate {staged : Bool} {ahead : Nat} :
    Uses (Within w (some w.current)) (pushUpdate w o staged ahead) := by
  have hfinish (pushed : Option PushMode) :
      Uses (Within w (some w.current)) (finishUpdate w o staged pushed) :=
    within_asksOr footprint_finishUpdate ⟨rfl, rfl⟩
  refine (footprint_enter _).uses.bind fun _ => ?_
  cases updatePushMode o.sync ahead with
  | none => exact hfinish none
  | some mode => exact (within_execute (a := .push w.current mode) rfl).bind fun _ => hfinish _

theorem within_stageAndShip {found : Option String} :
    Uses (Within w (some w.current)) (stageAndShip w o found) := by
  refine (footprint_enter _).uses.bind fun _ => ?_
  refine (within_execute (a := .stageAll) trivial).bind fun _ => ?_
  refine (Uses.ask (c := .hasStagedChanges) trivial).bind fun staged => ?_
  refine (Uses.ask (c := .countCommits _ _) trivial).bind fun ahead => ?_
  refine .ite (fun _ => (footprint_finishNoOp _ _ _ _).uses) fun _ => ?_
  rw [shipUpdate_eq]
  exact (within_asksOr (footprint_commitStaged _ _ _ _) trivial).bind fun _ => within_pushUpdate

theorem within_updateExisting : Uses (Within w (some w.current)) (updateExisting w o) := by
  have hlook : Uses (Within w (some w.current)) (lookUpdate w o) := by
    refine (within_asks (footprint_checkRequest _)).bind fun _ => ?_
    refine (within_asksOr (footprint_compareWithBase _ _) (.inl rfl)).bind fun _ => ?_
    have hfetch : Uses (Within w (some w.current)) (fetchCounterpart w.current) :=
      within_asksOr (footprint_fetchCounterpart _) (.inr (.inr rfl))
    exact .ite (fun _ => (within_asks footprint_requireClean).bind fun _ => hfetch) fun _ => hfetch
  rw [updateExisting_eq]
  refine hlook.bind fun found => .ite (fun _ => ?_) fun _ => within_stageAndShip
  exact (within_asksOr (footprint_rebaseOnto _ _ _) trivial).bind fun _ => within_stageAndShip

/-- The calls since are about one branch, and what they kept. -/
structure Traced (w : Setting) (shipped : Option String) (l : List (Moment shipping Site))
    (s : Site) (z : List (Moment shipping Site) × Site) : Prop where
  log : ∃ new, z.1 = l ++ new ∧ ∀ m ∈ new, m.call.Within w shipped
  framed : Framed w shipped s.repo z.2.repo

namespace Traced

variable {z : List (Moment shipping Site) × Site}

theorem mono (h : Traced w none l s z) (shipped : Option String) : Traced w shipped l s z := by
  obtain ⟨new, hz, hnew⟩ := h.log
  exact ⟨⟨new, hz, fun m hm => (hnew m hm).mono shipped⟩, h.framed.mono shipped⟩

theorem trans {z' : List (Moment shipping Site) × Site} (h : Traced w shipped l s z)
    (h' : Traced w shipped z.1 z.2 z') : Traced w shipped l s z' := by
  obtain ⟨new, hz, hnew⟩ := h.log
  obtain ⟨new', hz', hnew'⟩ := h'.log
  refine ⟨⟨new ++ new', ?_, List.forall_mem_append.mpr ⟨hnew, hnew'⟩⟩, h.framed.trans h'.framed⟩
  rw [hz', hz, List.append_assoc]

end Traced

theorem Uses.traced {m : Ship α} (h : Uses (Within w shipped) m) :
    m.Ensures (world F).logged (fun _ _ z => Traced w shipped l s z)
      (fun _ _ z => Traced w shipped l s z) x (l, s) := by
  have hframed := h.relates (T := fun s s' : Site => Framed w shipped s.repo s'.repo)
    (fun s => .refl s.repo) .trans (fun hc ha => (effect_of_answers (F := F) ha).framed hc)
    (x := x) (s := s)
  exact (h.logs.and hframed.logged).mono (fun _ _ _ h => ⟨h.1, h.2⟩) fun _ _ _ h => ⟨h.1, h.2⟩

/-! ## The new request flow -/

/-- The default branch has what was fetched of it, or nothing was done. -/
inductive Synced (w : Setting) (s : Site) : Site → Prop where
  | untouched : Synced w s s
  | forwarded {h there : History} : w.current = w.default →
      s.repo.branches.get? w.default = some h → s.repo.tracking.get? w.default = some there →
      h <+: there → Synced w s { s with repo := { s.repo with
        branches := s.repo.branches.set w.default there } }

/-- The name that was settled is of a branch that is nowhere. -/
theorem ensures_settleBranch_synced (hc : s.repo.current = some w.current) :
    (settleBranch w o).Ensures (world F)
      (fun branch _ s' => (s.repo.branches.get? branch = none ∧ s.repo.remote.get? branch = none) ∧
        (Plain w.default → Synced w s s'))
      (fun _ _ s' => s' = s) x s := by
  refine (ensures_settleBranch_of (fun _ => ensures_chooseName_stays) (fun s' hd hs => ?_)
    fun _ _ => .untouched).mono (fun _ _ _ h => h.2) fun _ _ _ h => h
  intro hp
  cases hs with
  | mk hc' hv ht hpre =>
      cases hc'.symm.trans (hd ▸ hc)
      rw [resolve?_of_plain hp] at hv
      rw [head_eq hc' hv] at hpre
      exact .forwarded hd hv ht hpre

/-- A cut branch is the only one that changes, also if it is undone. -/
theorem ensures_cutBranch_others :
    (cutBranch w branch).Ensures (world F)
      (fun _ _ s' => ∀ k, k ≠ branch → s'.repo.branches.get? k = s.repo.branches.get? k)
      (fun _ _ s' => ∀ k, k ≠ branch → s'.repo.branches.get? k = s.repo.branches.get? k) x s := by
  have others {message : String} {b : Bool} {repo : Repository}
      (h : (s.repo.createBranch branch).Progress message branch b repo) (k : String)
      (hk : k ≠ branch) : repo.branches.get? k = s.repo.branches.get? k :=
    (h.others hk).trans (Table.get?_set_of_ne (Ne.symm hk) _ _)
  refine ensures_cutBranch_world.mono ?_ ?_
  · rintro b x' s' ⟨repo, h, hprogress, -, -, -, rfl⟩
    exact fun k hk => others hprogress k hk
  · rintro e x' s' (rfl | ⟨b, repo, hprogress, hback⟩)
    · exact fun _ _ => rfl
    · exact fun k hk => (hback.others k hk).trans (others hprogress k hk)

/-- Where a new request ends that has a branch to ship, or none. -/
structure Cut (w : Setting) (shipped : Option String) (l : List (Moment shipping Site))
    (s : Site) (z : List (Moment shipping Site) × Site) : Prop where
  traced : Traced w shipped l s z
  fresh : ∀ branch, shipped = some branch → Fresh w s.repo branch
  branches : Plain w.default → KeptBeside shipped s.repo z.2.repo

/-- Bringing the default branch up to date is catching up, once it was fetched. -/
theorem Synced.keptBeside {seen : Snapshot} {s₁ s₂ : Site} (hc : s.repo.current = some w.current)
    (hd : w.default = s.repo.default) (hseen : Seen w s seen s₁) (h : Synced w s₁ s₂) :
    KeptBeside none s.repo s₂.repo := by
  obtain ⟨tracking, rfl⟩ := hseen.looked
  cases h with
  | untouched => exact .of_eq rfl
  | @forwarded h there hon hh ht hpre =>
      obtain ⟨there', hr, ht'⟩ := hseen.default hon
      cases ht.symm.trans ht'
      intro k _
      by_cases hk : k = w.default
      · subst hk
        exact .inr ⟨⟨hc.trans (congrArg some (hon.trans hd)), hd⟩, h, there, hh, hr, hpre,
          Table.get?_set_self _ _ _⟩
      · exact .inl (Table.get?_set_of_ne (Ne.symm hk) _ _)

/-- A new request ends with a branch of its own to ship, or it ends before it has cut one. -/
theorem ensures_newRequest_cut (hc : s.repo.current = some w.current)
    (hd : w.default = s.repo.default) :
    (newRequest w o).Ensures (world F).logged (fun _ _ z => ∃ shipped, Cut w shipped l s z)
      (fun _ _ z => ∃ shipped, Cut w shipped l s z) x (l, s) := by
  rw [newRequest_eq]
  have hlook := (footprint_lookNew (w := w)).uses.sees (F := F) (x := x) (s := s)
  refine (within_lookNew.traced.and (hlook.and ensures_lookNew_seen).logged).bind ?_ ?_
  · rintro e x₁ ⟨l₁, s₁⟩ ⟨ht₁, ⟨tracking, rfl⟩, -⟩
    exact ⟨none, ht₁, nofun, fun _ => .of_eq rfl⟩
  rintro seen x₁ ⟨l₁, s₁⟩ ⟨ht₁, -, hseen⟩
  have hnone : KeptBeside none s.repo s₁.repo := by
    obtain ⟨tracking, rfl⟩ := hseen.looked
    exact .of_eq rfl
  unfold shipSeen
  split
  · exact ensures_bind.mpr (ensures_enter.mpr ⟨none, ht₁, nofun, fun _ => hnone⟩)
  have hc₁ : s₁.repo.current = some w.current := hseen.looked.current.trans hc
  rw [shipNew_eq]
  refine (within_settleBranch.traced.and (ensures_settleBranch_synced hc₁).logged).bind ?_ ?_
  · rintro e x₂ ⟨l₂, s₂⟩ ⟨ht₂, rfl⟩
    exact ⟨none, ht₁.trans ht₂, nofun, fun _ => hnone⟩
  rintro branch x₂ ⟨l₂, s₂⟩ ⟨ht₂, ⟨hfree, hthere⟩, hsynced⟩
  have hfresh : Fresh w s.repo branch := by
    obtain ⟨onto, hbase, -⟩ := hseen.base
    obtain ⟨tracking, rfl⟩ := hseen.looked
    refine ⟨hfree, hthere, ?_⟩
    rintro rfl
    cases hthere.symm.trans hbase
  -- From here on there is a branch to ship, whether or not it gets to `origin`.
  have hkept (hp : Plain w.default) : KeptBeside (some branch) s.repo s₂.repo :=
    ((hsynced hp).keptBeside hc hd hseen).mono (some branch)
  have ht := (ht₁.trans ht₂).mono (some branch)
  have hcut {z : List (Moment shipping Site) × Site} (h : Traced w (some branch) l₂ s₂ z)
      (hb : ∀ k, k ≠ branch → z.2.repo.branches.get? k = s₂.repo.branches.get? k) :
      ∃ shipped, Cut w shipped l s z := by
    refine ⟨some branch, ht.trans h, ?_, fun hp => (hkept hp).trans_same fun k hk => hb k ?_⟩
    · rintro _ ⟨⟩
      exact hfresh
    · rintro rfl
      exact hk rfl
  refine (within_cutBranch.traced.and ensures_cutBranch_others.logged).bind ?_ ?_
  · rintro e x₃ z ⟨ht₃, hb₃⟩
    exact hcut ht₃ hb₃
  rintro committed x₃ ⟨l₃, s₃⟩ ⟨ht₃, hb₃⟩
  refine (within_requestForNew.traced.and ensures_requestForNew.logged).bind ?_ ?_
  · rintro e x₄ ⟨l₄, s₄⟩ ⟨ht₄, rfl⟩
    exact hcut (ht₃.trans ht₄) hb₃
  · rintro request x₄ ⟨l₄, s₄⟩ ⟨ht₄, hrequest⟩
    refine ensures_bind.mpr (ensures_enter.mpr (hcut (ht₃.trans ht₄) fun k hk => ?_))
    show s₄.repo.branches.get? k = _
    rw [hrequest.repo]
    exact hb₃ k hk

/-! ## Whole runs -/

/-- Where a run ends, with its log. -/
inductive RunsTo (accepted : Except Failure (Description × Verdict)) (o : Options) (s : Site)
    (z : List (Moment shipping Site) × Site) : Prop where
  /-- Before it had settled on a flow. -/
  | unsettled : (∀ m ∈ z.1, m.call.Asks) → z.2 = s → RunsTo accepted o s z
  | cut {w : Setting} {shipped : Option String} : w.Fits accepted o s .newRequest →
      Cut w shipped [] s z → RunsTo accepted o s z
  | updated {w : Setting} : w.Fits accepted o s .updateExisting →
      Traced w (some w.current) [] s z → OnlyHead s.repo z.2.repo → RunsTo accepted o s z

/-- A run ends before it has settled on a flow, or as its flow does. -/
theorem ensures_startWith_runsTo {accepted : Except Failure (Description × Verdict)} :
    (startWith accepted o).Ensures (world F).logged (fun _ _ z => RunsTo accepted o s z)
      (fun _ _ z => RunsTo accepted o s z) x ([], s) := by
  refine ensures_startWith.mpr ?_
  refine ((footprint_settle accepted o).uses.logs.and ensures_settle.logged).mono ?_ ?_
  · rintro ⟨w, flow⟩ x₁ ⟨l₁, s₁⟩ ⟨⟨new, hl, hasks⟩, rfl, hfits⟩
    have hsettled (shipped : Option String) : Traced w shipped [] s₁ (l₁, s₁) :=
      ⟨⟨new, hl, fun m hm => (hasks m hm).within⟩, .refl _⟩
    cases flow with
    | newRequest =>
        have hcut := ensures_newRequest_cut (F := F) (x := x₁) (l := l₁) (o := o) hfits.current
          hfits.default
        refine hcut.weaken ?_
        rintro _ z ⟨shipped, h⟩
        exact .cut hfits ⟨(hsettled shipped).trans h.traced, h.fresh, h.branches⟩
    | updateExisting =>
        refine ((within_updateExisting (w := w)).traced.and
          footprint_updateExisting.uses.onlyHead.logged).weaken ?_
        rintro _ z ⟨ht, honly⟩
        exact .updated hfits ((hsettled _).trans ht) honly
  · rintro e x₁ ⟨l₁, s₁⟩ ⟨⟨new, hl, hasks⟩, rfl⟩
    cases hl
    exact .unsettled hasks rfl

theorem runsTo_run {accepted : Except Failure (Description × Verdict)} {faults : List Fault}
    (hf : ∀ f ∈ faults, f.OnlyFails) :
    RunsTo accepted o s ((startWith accepted o).logWithFaults x faults s,
      ((startWith accepted o x).run answer.withFaults (faults, s)).world.2) :=
  ends_both.mp (ensures_startWith_runsTo.ends_log_withFaults hf)

/-- What a run changes in a repository that has a branch to ship, or none. -/
structure Confined (o : Options) (flow : Flow) (shipped : Option String) (r r' : Repository) :
    Prop where
  notDefault : shipped ≠ some r.default
  /-- A new request ships a branch that was nowhere. -/
  fresh : flow = .newRequest → ∀ branch, shipped = some branch →
    r.branches.get? branch = none ∧ r.remote.get? branch = none
  /-- An update ships the branch it stands on, and stays there. -/
  own : flow = .updateExisting → r'.current = r.current ∧
    ∀ branch, shipped = some branch → r.current = some branch
  remote : ∀ k, shipped ≠ some k → r'.remote.get? k = r.remote.get? k
  branches : ∀ k, shipped ≠ some k →
    r'.branches.get? k = r.branches.get? k ∨ flow = .newRequest ∧ CaughtUp k r r'
  tracking : ∀ k, k ≠ o.base.getD r.default → k ≠ r.default → shipped ≠ some k →
    r'.tracking.get? k = r.tracking.get? k

namespace RunsTo

variable {accepted : Except Failure (Description × Verdict)}
variable {z : List (Moment shipping Site) × Site}

/-- What a run of either flow has changed is what its own branch needs. -/
theorem confined (h : RunsTo accepted o s z) {current : String}
    (hc : s.repo.current = some current) (hd : s.repo.remote.get? s.repo.default ≠ none)
    (hp : Plain s.repo.default) :
    ∃ shipped, Confined o (Flow.select current s.repo.default o.new) shipped s.repo z.2.repo := by
  have hframed {w : Setting} {flow : Flow} {shipped : Option String}
      (hfits : w.Fits accepted o s flow) (h : Framed w shipped s.repo z.2.repo) (k : String)
      (hb : k ≠ o.base.getD s.repo.default) (hk : k ≠ s.repo.default) :
      shipped ≠ some k → z.2.repo.tracking.get? k = s.repo.tracking.get? k := by
    refine h.tracking k ?_ ?_
    · rwa [hfits.base, hfits.default]
    · rwa [hfits.default]
  cases h with
  | unsettled hasks hs =>
      rw [hs]
      exact ⟨none, nofun, nofun, fun _ => ⟨rfl, nofun⟩, fun _ _ => rfl, fun _ _ => .inl rfl,
        fun _ _ _ _ => rfl⟩
  | @cut w shipped hfits h =>
      cases hc.symm.trans hfits.current
      rw [← hfits.default, ← hfits.flow]
      refine ⟨shipped, ?_, fun _ branch hb => ⟨(h.fresh branch hb).here, (h.fresh branch hb).there⟩,
        nofun, h.traced.framed.remote, fun k hk => ?_, hframed hfits h.traced.framed⟩
      · exact fun e => hd (h.fresh _ e).there
      · exact (h.branches (hfits.default ▸ hp) k hk).imp_right fun hcaught => ⟨rfl, hcaught⟩
  | @updated w hfits ht honly =>
      cases hc.symm.trans hfits.current
      rw [← hfits.default, ← hfits.flow]
      refine ⟨some w.current, ?_, nofun, fun _ => ⟨honly.current, ?_⟩, ht.framed.remote,
        fun k hk => .inl (honly.others k (hc ▸ hk)), hframed hfits ht.framed⟩
      · exact fun e => hfits.away.1 (Option.some.inj e)
      · rintro _ ⟨⟩
        exact hc

/-- Nothing happens on a detached `HEAD`. -/
theorem detached (h : RunsTo accepted o s z) (hc : s.repo.current = none) : z.2 = s := by
  cases h with
  | unsettled hasks hs => exact hs
  | cut hfits h => cases hc.symm.trans hfits.current
  | updated hfits ht honly => cases hc.symm.trans hfits.current

end RunsTo

/-- Whatever calls fail, a run changes one branch on `origin` at most and not the default one,
here that branch and the default branch by what `origin` has of it, and the tracking refs of
those two and of the base.  It opens one request at most. -/
theorem run_changes_one_branch (raw : String) (o : Options) (x : Session) (s : Site)
    (faults : List Fault) (hf : ∀ f ∈ faults, f.OnlyFails)
    (hd : s.repo.remote.get? s.repo.default ≠ none) (hp : Plain s.repo.default) :
    let s' := ((start raw o x).run answer.withFaults (faults, s)).world.2
    (∀ current, s.repo.current = some current → ∃ shipped,
      Confined o (Flow.select current s.repo.default o.new) shipped s.repo s'.repo) ∧
      (s.repo.current = none → s' = s) ∧
      (s'.host = s.host ∨ ∃ d, s'.host = (s.host.create d).2) := by
  rw [start_eq]
  generalize Description.accept raw o.force = accepted
  intro s'
  have hrun : RunsTo accepted o s (_, s') := runsTo_run hf
  have hkept : Kept s.host ((startWith accepted o).logWithFaults x faults s) s'.host :=
    ends_both.mp (ensures_startWith_kept.ends_log_withFaults hf)
  exact ⟨fun current hc => hrun.confined hc hd hp, hrun.detached, hkept.host⟩

/-- The default branch is behind, the push fails, and going back fails at its second call. -/
theorem run_changes_one_branch_stuck :
    let behind : Site := { repo := {
      dirty := true
      branches := [("main", ["c0"]), ("old", ["c0"])]
      remote := [("main", ["c0", "c1"]), ("old", ["c0"])] } }
    let o : Options := { branch := some "topic" }
    let faults := [Fault.outage fun c => c = .push "topic" .tracking || c = .checkout "main"]
    let s' := ((start "feat: add widget" o .sample).run answer.withFaults (faults, behind)).world.2
    s'.repo.branches = [("main", ["c0", "c1"]), ("old", ["c0"]), ("topic", ["c0", "c1"])] ∧
      s'.repo.current = some "topic" ∧ s'.repo.remote = behind.repo.remote ∧
      ∃ shipped, Confined o .newRequest shipped behind.repo s'.repo := by
  intro behind o faults s'
  have hf : ∀ f ∈ faults, f.OnlyFails :=
    List.forall_mem_singleton.mpr (Fault.onlyFails_outage _)
  have hrun := run_changes_one_branch "feat: add widget" o .sample behind faults hf
    (by decide) (by decide +kernel)
  rw [show ((start _ _ _).run answer.withFaults (faults, behind)).world.2 = s' from rfl] at hrun
  have hrepo : s'.repo.branches = [("main", ["c0", "c1"]), ("old", ["c0"]),
      ("topic", ["c0", "c1"])] ∧ s'.repo.current = some "topic" ∧
      s'.repo.remote = behind.repo.remote := by
    decide +kernel
  exact ⟨hrepo.1, hrepo.2.1, hrepo.2.2, hrun.1 "main" rfl⟩

end Ship

end Shipment
