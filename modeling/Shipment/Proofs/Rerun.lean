import Shipment.Proofs.OneRequest
import Shipment.Proofs.Rollback
import Shipment.Proofs.Settled
import Shipment.Proofs.Sync

/-!
# Running again after a failure

Behind its push a run only looks for its request and opens it.  If that fails the branch
`Lands` all the same: it is pushed, the tree has nothing more to ship, and the host is what
it was.

A second run starts from there.  Without sync it has nothing to do, and as the guard that
says so never asks the host, the request stays missing.  With sync it pushes in any case,
and so it comes to the request.
-/

namespace Shipment

/-- Whether a call neither pushes nor opens a request. -/
def Call.Precedes (c : Call) : Prop := c.isPush = false ∧ c.isRequest = false

namespace Call

variable {c : Call} {message : String}

theorem precedes_of_prepares (h : c.Prepares) : c.Precedes := by
  rcases h with (h | ⟨branch, rfl⟩) | ⟨rev, rfl⟩
  · cases c <;> first | exact ⟨rfl, rfl⟩ | cases h
  · exact ⟨rfl, rfl⟩
  · exact ⟨rfl, rfl⟩

theorem precedes_of_works (h : c.Works) : c.Precedes := by
  rcases h with h | rfl | ⟨message, rfl⟩ | ⟨rev, rfl⟩
  · exact precedes_of_prepares (.inl (.inl h))
  · exact ⟨rfl, rfl⟩
  · exact ⟨rfl, rfl⟩
  · exact ⟨rfl, rfl⟩

theorem precedes_of_undoes (h : c.undoes = true) : c.Precedes := by
  cases c <;> first | exact ⟨rfl, rfl⟩ | cases h

end Call

namespace Ship

open Call Site Repository

variable {α β : Type} {F : Prop} {x : Session} {l new : List (Moment shipping Site)} {s : Site}
variable {h : ReviewHost} {w : Setting} {o : Options} {branch base : String}

/-! ## Up to the push -/

/-- Nothing was pushed, and the host is what it was. -/
structure Unshipped (h : ReviewHost) (l : List (Moment shipping Site)) (s : Site) : Prop where
  log : ¬Pushed l
  host : s.host = h

/-- Every branch that was pushed has landed, beside a base that is up to date, and the host is
what it was. -/
def Lands (base : String) (h : ReviewHost) (l : List (Moment shipping Site)) (s : Site) : Prop :=
  ∀ m ∈ l, ∀ branch mode, m.call = .push branch mode → m.Answered → Plain branch →
    s.Landed branch ∧ s.repo.UpToDate base ∧ s.host = h

theorem lands_of_not_pushed (hl : ¬Pushed l) : Lands base h l s :=
  fun m hm _ _ hc ha _ => absurd ⟨m, hm, by rw [hc]; rfl, ha⟩ hl

theorem Lands.append (hl : Lands base h l s) (hn : ∀ m ∈ new, m.call.isPush = false) :
    Lands base h (l ++ new) s := by
  intro m hm branch mode hc
  rcases List.mem_append.mp hm with hm | hm
  · exact hl m hm branch mode hc
  · have hp := hn m hm
    rw [hc] at hp
    cases hp

theorem ensures_unshipped {m : Ship α} (hm : Uses Precedes m) (hz : Unshipped h l s) :
    m.Ensures (world F).logged (fun _ _ z => Unshipped h z.1 z.2)
      (fun _ _ z => Unshipped h z.1 z.2) x (l, s) := by
  have hspares : Spares m := hm.mono fun _ hc => hc.2
  refine (hm.logs.and (ensures_host hspares).logged).weaken ?_
  rintro x' ⟨_, s'⟩ ⟨⟨new, rfl, hn⟩, hhost⟩
  refine ⟨?_, hhost.trans hz.host⟩
  rw [pushed_append, not_or]
  exact ⟨hz.log, not_pushed_of_forall fun k hk => (hn k hk).1⟩

/-- A piece before the push, followed by another. -/
theorem ensures_lands_bind {m : Ship α} {f : α → Ship β} {R : α → Session → Site → Prop}
    {E : Failure → Session → Site → Prop} (hm : Uses Precedes m) (hz : Unshipped h l s)
    (hr : m.Ensures (world F) R E x s)
    (hf : ∀ a x' l' s', Unshipped h l' s' → R a x' s' → s.Steady s' →
      (f a).Ensures (world F).logged (fun _ _ _ => True) (fun _ _ z => Lands base h z.1 z.2)
        x' (l', s')) :
    (m >>= f).Ensures (world F).logged (fun _ _ _ => True) (fun _ _ z => Lands base h z.1 z.2)
      x (l, s) := by
  refine ((ensures_unshipped hm hz).and hr.steadily.logged).bind ?_ ?_
  · rintro e x' z ⟨hz', -⟩
    exact lands_of_not_pushed hz'.log
  · rintro a x' ⟨l', s'⟩ ⟨hz', hr', hs⟩
    exact hf a x' l' s' hz' hr' hs

/-! ## The push -/

/-- If only one branch was pushed it is the one that has to land. -/
theorem Unshipped.lands (hz : Unshipped h l s) {s' : Site}
    (hn : ∀ m ∈ new, ∀ name mode, m.call = .push name mode → name = branch)
    (hs : Plain branch → s'.Landed branch) (hb : s'.repo.UpToDate base) (hh : s'.host = h) :
    Lands base h (l ++ new) s' := by
  intro m hm name mode hc ha hp
  rcases List.mem_append.mp hm with hm | hm
  · exact absurd ⟨m, hm, by rw [hc]; rfl, ha⟩ hz.log
  · cases hn m hm name mode hc
    exact ⟨hs hp, hb, hh⟩

/-- A branch that was cut is pushed, or the cut fails before the push. -/
theorem ensures_cutBranch_unpushed (hz : Unshipped h l s) :
    (cutBranch w branch).Ensures (world F).logged (fun _ _ _ => True)
      (fun _ _ z => ¬Pushed z.1) x (l, s) := by
  refine ensures_cutBranch.mpr ?_
  refine (ensures_unshipped (.ask ⟨rfl, rfl⟩) hz).mono ?_ fun _ _ _ h => h.log
  rintro start x₁ ⟨l₁, s₁⟩ h₁
  refine (ensures_unshipped (Footprint.execute ⟨rfl, rfl⟩).uses h₁).mono ?_ fun _ _ _ h => h.log
  rintro _ x₂ ⟨l₂, s₂⟩ h₂
  refine ensures_commitAndPush_unpushed.mono (fun _ _ _ h => h) ?_
  rintro e x₃ ⟨_, s₃⟩ ⟨new, rfl, hn⟩
  have hl : ¬Pushed (l₂ ++ new) := by
    rw [pushed_append, not_or]
    exact ⟨h₂.log, hn⟩
  have hback : Uses Precedes rollback := uses_rollback.mono fun _ => precedes_of_undoes
  exact (ensures_unshipped hback ⟨hl, rfl⟩).mono (fun _ _ _ h => h.log) fun _ _ _ h => h.log

/-- A cut branch that was pushed has landed, whatever fails behind the push. -/
theorem ensures_cutBranch_lands (hz : Unshipped h l s) (hb : s.repo.UpToDate base) :
    (cutBranch w branch).Ensures (world F).logged (fun _ _ z => Lands base h z.1 z.2)
      (fun _ _ z => Lands base h z.1 z.2) x (l, s) := by
  have hnames : Uses (fun c => ∀ name mode, c = .push name mode → name = branch)
      (cutBranch w branch) := by
    refine .cutBranch nofun nofun ((footprint_commitAndPush _ _).uses.mono ?_) fun c hc => ?_
    · rintro c hc name mode rfl
      rcases hc with hc | hc | hc | hc <;> cases hc
      rfl
    · rintro name mode rfl
      cases hc
  refine ((hnames.logs.and ensures_cutBranch_world.steadily.logged).and
    (ensures_cutBranch_unpushed hz)).mono ?_ ?_
  · rintro b x' ⟨_, s'⟩ ⟨⟨⟨new, rfl, hn⟩, hcut, hs⟩, -⟩
    refine hz.lands hn (fun hp => hcut.landed rfl hp) (hs.repo.upToDate base hb) ?_
    obtain ⟨repo, k, -, -, -, -, rfl⟩ := hcut
    exact hz.host
  · rintro e x' z ⟨-, hl⟩
    exact lands_of_not_pushed hl

/-- The branch of an update is pushed and lands, or nothing is pushed. -/
theorem ensures_push_lands {mode : PushMode} (hz : Unshipped h l s)
    (hc : s.repo.current = some branch) (hq : s.repo.Quiet) (hb : s.repo.UpToDate base)
    (hd : branch ≠ s.repo.default) :
    (execute (.push branch mode)).Ensures (world F).logged (fun _ _ z => Lands base h z.1 z.2)
      (fun _ _ z => Lands base h z.1 z.2) x (l, s) := by
  have hland : (execute (.push branch mode)).Ensures (world F)
      (fun _ _ s' => Plain branch → s'.Landed branch) (fun _ _ _ => True) x s := by
    by_cases hp : Plain branch
    · refine (ensures_push hp).steadily.mono ?_ fun _ _ _ _ => trivial
      rintro _ x' s' ⟨⟨hl, hc', hq'⟩, hs⟩ -
      exact ⟨hc'.trans hc, hl, hq' hq, fun e => absurd (hs.repo.default ▸ e) hd⟩
    · exact ensures_true.mono (fun _ _ _ _ h => absurd h hp) fun _ _ _ _ => trivial
  have hhost : (execute (.push branch mode)).Ensures (world F) (fun _ _ s' => s'.host = s.host)
      (fun _ _ s' => s'.host = s.host) x s := ensures_host (spares_execute rfl)
  refine ((ensures_execute_log.and hland.steadily.logged).and hhost.logged).mono ?_ ?_
  · rintro _ x' ⟨_, s'⟩ ⟨⟨⟨m, rfl, hcall, -⟩, hs', hs⟩, hh⟩
    refine hz.lands (List.forall_mem_singleton.mpr fun name mode' hpush => ?_) hs'
      (hs.repo.upToDate base hb) (Eq.trans hh hz.host)
    cases hcall.symm.trans hpush
    rfl
  · rintro e x' ⟨_, s'⟩ ⟨⟨⟨m, rfl, hm⟩, -⟩, -⟩
    refine lands_of_not_pushed ?_
    rw [pushed_append, not_or]
    refine ⟨hz.log, ?_⟩
    rintro ⟨k, hk, -, ha⟩
    cases List.mem_singleton.mp hk
    exact hm ha

/-! ## Behind the push -/

/-- A run that cannot settle its request has changed nothing since the push. -/
theorem ensures_settleRequest_lands {step : Step} {found : String → RequestResult}
    {d : RequestDraft} (hl : Lands base h l s) :
    (settleRequest step found d).Ensures (world F).logged (fun _ _ _ => True)
      (fun _ _ z => Lands base h z.1 z.2) x (l, s) := by
  refine ((footprint_settleRequest step found d).along ensures_settleRequest).mono
    (fun _ _ _ _ => trivial) ?_
  rintro e x' ⟨_, _⟩ ⟨rfl, -, new, rfl, hn, -⟩
  refine hl.append fun m hm => ?_
  rcases hn m hm with hc | hc
  · exact (precedes_of_prepares (.inl (.inl hc))).1
  · rw [hc]
    rfl

/-! ## The flows -/

theorem ensures_newRequest_lands (hz : Unshipped h l s) :
    (newRequest w o).Ensures (world F).logged (fun _ _ _ => True)
      (fun _ _ z => Lands w.base h z.1 z.2) x (l, s) := by
  rw [newRequest_eq]
  have hlook : Uses Precedes (lookNew w) :=
    footprint_lookNew.uses.mono fun _ hc => precedes_of_prepares (.inl hc)
  refine ensures_lands_bind hlook hz ensures_lookNew_seen fun seen x₁ l₁ s₁ h₁ hseen _ => ?_
  unfold shipSeen
  split
  · exact ensures_bind.mpr (ensures_enter.mpr trivial)
  rw [shipNew_eq]
  have hsettle : Uses Precedes (settleBranch w o) :=
    footprint_settleBranch.uses.mono fun _ hc =>
      precedes_of_prepares (hc.imp .inl fun e => ⟨_, e⟩)
  refine ensures_lands_bind hsettle h₁ ensures_true fun branch x₂ l₂ s₂ h₂ _ hs₂ => ?_
  have hb : s₂.repo.UpToDate w.base := hs₂.repo.upToDate _ hseen.base
  refine (ensures_cutBranch_lands h₂ hb).bind (fun _ _ _ h => h) ?_
  rintro committed x₃ ⟨l₃, s₃⟩ hl
  rw [requestForNew_eq]
  refine (ensures_settleRequest_lands hl).bind (fun _ _ _ h => h) fun _ _ _ _ => ?_
  exact ensures_bind.mpr (ensures_enter.mpr trivial)

/-- An update that failed behind its push has landed its branch. -/
theorem ensures_pushUpdate_lands {staged : Bool} {ahead : Nat} (hz : Unshipped h l s)
    (hc : s.repo.current = some w.current) (hq : s.repo.Quiet) (hb : s.repo.UpToDate base)
    (hd : w.current ≠ s.repo.default) :
    (pushUpdate w o staged ahead).Ensures (world F).logged (fun _ _ _ => True)
      (fun _ _ z => Lands base h z.1 z.2) x (l, s) := by
  have hfinish {pushed : Option PushMode} {x : Session} {l : List (Moment shipping Site)}
      {s : Site} (hl : Lands base h l s) :
      (finishUpdate w o staged pushed).Ensures (world F).logged (fun _ _ _ => True)
        (fun _ _ z => Lands base h z.1 z.2) x (l, s) := by
    rw [finishUpdate, requestForUpdate_eq]
    refine (ensures_settleRequest_lands hl).bind (fun _ _ _ h => h) fun _ _ _ _ => ?_
    exact ensures_bind.mpr (ensures_enter.mpr trivial)
  cases hmode : updatePushMode o.sync ahead with
  | none =>
      rw [pushUpdate_of_none hmode]
      exact ensures_bind.mpr (ensures_enter.mpr (hfinish (lands_of_not_pushed hz.log)))
  | some mode =>
      rw [pushUpdate_of_some hmode]
      refine ensures_bind.mpr (ensures_enter.mpr ?_)
      refine (ensures_push_lands hz hc hq hb hd).bind (fun _ _ _ h => h) ?_
      rintro _ x₁ ⟨l₁, s₁⟩ hl
      exact hfinish hl

theorem ensures_stageAll :
    (execute .stageAll).Ensures (world F)
      (fun _ _ s' => s'.repo.current = s.repo.current ∧
        (s'.repo.staged = false → s'.repo.Quiet))
      (fun _ _ _ => True) x s := by
  refine .execute (by simp [Action.call]) fun r repo he => ?_
  cases he with
  | failed e => trivial
  | asked a hq => cases hq
  | staged hd hi => exact ⟨rfl, fun h => by cases h⟩
  | nothing hd => exact ⟨rfl, fun h => ⟨h, hd⟩⟩

/-- What was staged is committed before the push, so a branch that was pushed has landed. -/
theorem ensures_stageAndShip_lands {found : Option String} {branch : String}
    (hz : Unshipped h l s) (hc : s.repo.current = some w.current)
    (hfound : found.getD (trackingRef w.base) = trackingRef branch)
    (hb : s.repo.UpToDate base) (hd : w.current ≠ s.repo.default) :
    (stageAndShip w o found).Ensures (world F).logged (fun _ _ _ => True)
      (fun _ _ z => Lands base h z.1 z.2) x (l, s) := by
  have asks {c : Call} (hc : c.Asks) : Uses Precedes (ask c) :=
    .ask (precedes_of_works (.inl hc))
  rw [stageAndShip_eq]
  refine ensures_bind.mpr (ensures_enter.mpr ?_)
  have hstage : Uses Precedes (execute .stageAll) := (Footprint.execute ⟨rfl, rfl⟩).uses
  refine ensures_lands_bind hstage hz ensures_stageAll fun _ x₁ l₁ s₁ h₁ hstaged hs₁ => ?_
  obtain ⟨hc₁, hq₁⟩ := hstaged
  have hquestion : (ask .hasStagedChanges).Ensures (world F)
      (fun staged _ s' => s' = s₁ ∧ staged = s₁.repo.staged) (fun _ _ _ => True) x₁ s₁ :=
    (ensures_question rfl).mpr ⟨⟨rfl, rfl⟩, fun _ _ => trivial⟩
  refine ensures_lands_bind (asks rfl) h₁ hquestion ?_
  rintro _ x₂ l₂ _ h₂ ⟨rfl, rfl⟩ -
  rw [hfound]
  have hcount : Uses Asks (ask (.countCommits (trackingRef branch) "HEAD")) := .ask rfl
  refine ensures_lands_bind (asks rfl) h₂ hcount.asks ?_
  rintro ahead x₃ l₃ _ h₃ rfl -
  split
  · exact ensures_bind.mpr (ensures_enter.mpr trivial)
  rw [shipUpdate_eq]
  have hcommit (staged : Bool) :
      Uses Precedes (commitStaged w.description (trackingRef branch) staged ahead) :=
    (footprint_commitStaged _ _ _ _).uses.mono fun _ hc =>
      precedes_of_works (hc.imp_right fun e => .inr (.inl ⟨_, e⟩))
  refine ensures_lands_bind (hcommit _) h₃ (ensures_commitStaged (hc₁.trans hc) hq₁) ?_
  rintro ahead' x₄ l₄ s₄ h₄ ⟨hc₄, hq₄, -⟩ hs₄
  have hs : s.Steady s₄ := hs₁.trans hs₄
  exact ensures_pushUpdate_lands h₄ hc₄ hq₄ (hs.repo.upToDate base hb) (hs.repo.default ▸ hd)

/-- An update that failed behind its push has landed its branch, beside a base it has fetched. -/
theorem ensures_updateExisting_lands (hz : Unshipped h l s)
    (hc : s.repo.current = some w.current) (hd : w.current ≠ s.repo.default) :
    (updateExisting w o).Ensures (world F).logged (fun _ _ _ => True)
      (fun _ _ z => Lands w.base h z.1 z.2) x (l, s) := by
  rw [updateExisting_eq]
  have hlook : Uses Precedes (lookUpdate w o) :=
    footprint_lookUpdate.uses.mono fun _ hc => precedes_of_prepares (.inl hc)
  refine ensures_lands_bind hlook hz (ensures_lookUpdate.and ensures_lookUpdate_upToDate) ?_
  rintro found x₁ l₁ s₁ h₁ ⟨⟨hc₁, branch, hfound⟩, hb⟩ hs₁
  have hrebase : Uses (AsksOr (.rebase (trackingRef w.base)))
      (rebaseOnto w.current w.base found) := (footprint_rebaseOnto _ _ _).uses
  split
  · refine ensures_lands_bind (hrebase.mono fun _ hc => ?_) h₁ (Uses.stays ?_) ?_
    · exact precedes_of_works (hc.imp_right fun e => .inr (.inr ⟨_, e⟩))
    · exact hrebase.mono fun _ hc => hc.elim (fun h => .inl (.inl h)) fun e => .inr (.inl ⟨_, e⟩)
    · rintro _ x₂ l₂ s₂ h₂ hc₂ hs₂
      exact ensures_stageAndShip_lands h₂ (hc₂.trans (hc₁.trans hc)) hfound
        (hs₂.repo.upToDate _ hb) ((hs₁.trans hs₂).repo.default ▸ hd)
  · exact ensures_stageAndShip_lands h₁ (hc₁.trans hc) hfound hb (hs₁.repo.default ▸ hd)

/-! ## Whole runs -/

variable {accepted : Except Failure (Description × Verdict)}

/-- A run that failed behind the push of a branch left a site where the branch rests, and the
host as it was. -/
structure BrokenOff (accepted : Except Failure (Description × Verdict)) (branch base : String)
    (s s' : Site) : Prop where
  accepted : ∃ d verdict, accepted = .ok (d, verdict)
  resting : s'.Resting branch base
  host : s'.host = s.host
  default : s'.repo.default = s.repo.default

/-- A run that failed behind its push leaves a site from which another can go on. -/
theorem ensures_startWith_brokenOff :
    (startWith accepted o).Ensures (world F).logged (fun _ _ _ => True)
      (fun _ _ z => ∀ m ∈ z.1, ∀ branch mode, m.call = .push branch mode → m.Answered →
        Plain branch → BrokenOff accepted branch (o.base.getD s.repo.default) s z.2)
      x ([], s) := by
  have hz : Unshipped s.host [] s := ⟨not_pushed_of_forall (by simp), rfl⟩
  have hsettle : Uses Precedes (settle accepted o) :=
    (footprint_settle accepted o).uses.mono fun _ hc => precedes_of_prepares (.inl (.inl hc))
  refine ensures_startWith.mpr (((ensures_unshipped hsettle hz).and ensures_settle.logged).mono
    ?_ ?_)
  · rintro ⟨w, flow⟩ x₁ ⟨l₁, s₁⟩ ⟨h₁, rfl, hfits⟩
    have hflow : (follow w o flow).Ensures (world F).logged (fun _ _ _ => True)
        (fun _ _ z => Lands w.base s₁.host z.1 z.2) x₁ (l₁, s₁) := by
      cases flow with
      | newRequest => exact ensures_newRequest_lands h₁
      | updateExisting => exact ensures_updateExisting_lands h₁ hfits.current hfits.away.1
    refine (hflow.and (ensures_steady _).logged).mono (fun _ _ _ _ => trivial) ?_
    rintro e x₂ ⟨l₂, s₂⟩ ⟨hlands, hs⟩ m hm branch mode hc ha hp
    obtain ⟨hlanded, hb, hhost⟩ := hlands m hm branch mode hc ha hp
    rw [hfits.base, hfits.default] at hb
    exact ⟨hfits.description.elim fun verdict hd => ⟨_, verdict, hd⟩,
      ⟨hlanded, hs.authenticated.trans hfits.authenticated,
        hs.repo.hasOrigin.trans hfits.hasOrigin, hs.repo.operation.trans hfits.idle, hb⟩,
      hhost, hs.repo.default⟩
  · rintro e x₁ ⟨l₁, s₁⟩ ⟨h₁, -⟩ m hm branch mode hc ha
    exact absurd ⟨m, hm, by rw [hc]; rfl, ha⟩ h₁.log

/-- A sync from a clean tree pushes the branch again, and finds or opens its request. -/
theorem ensures_startWith_sync_resting (hr : s.Resting branch (o.base.getD s.repo.default))
    (hp : Plain branch) (hd : branch ≠ s.repo.default) (hclean : s.repo.isClean = true)
    (hun : ∀ pr, PullRequest.forHead branch s.host.requests = some pr → pr.state ≠ .merged)
    (hs : o.sync = true) (hn : o.new = false) (d : Description) (verdict : Verdict) :
    (startWith (.ok (d, verdict)) o).Ensures (world False).logged
      (fun out _ z => out.branch = branch ∧ out.isNoOp = false ∧
        ∃ pr ∈ z.2.host.requests, pr.head = branch ∧ pr.state = .opened)
      (fun _ _ _ => False) x ([], s) := by
  let w : Setting := ⟨d, branch, s.repo.default, o.base.getD s.repo.default⟩
  have hfits : w.Fits (.ok (d, verdict)) o s .updateExisting :=
    fits_of_resting hr d verdict (by simp [Flow.select, hd, hn])
  obtain ⟨k, hk, hremote, -⟩ := hr.level
  obtain ⟨onto, hbase, -⟩ := hr.base
  have hsyncs : w.Syncs o s k onto := ⟨hs, hk, hp, hbase, hun⟩
  have hpush : (startWith (.ok (d, verdict)) o).Ensures (world False)
      (fun out _ _ => out.branch = branch ∧
        ∃ request, out.result = .shipped false (some .forceWithLease) request)
      (fun _ _ _ => False) x s := by
    refine ensures_startWith_of_fits hfits fun x' _ => ?_
    refine (reaches_updateExisting_pushes hsyncs hfits.current x').mono ?_ ?_
    · rintro out x'' s' ⟨-, -, -, tracking, hpushes⟩
      exact ⟨hpushes.branch, hpushes.result⟩
    · rintro e x'' s' ⟨-, ⟨hdirty, -⟩ | ⟨-, ⟨there, hthere, hunseen⟩, -⟩⟩
      · cases hdirty.symm.trans hclean
      · cases hremote.symm.trans hthere
        exact hunseen List.prefix_rfl
  refine (hpush.logged.and ensures_startWith_tells).mono ?_ fun _ _ _ h => h.1
  rintro out x' z ⟨⟨hbranch, request, hresult⟩, w', -, htells⟩
  obtain ⟨pr, hpr, hhead, hopened, -⟩ := (htells.shipped _ _ _ hresult).exists_opened
  exact ⟨hbranch, by simp [Outcome.isNoOp, hresult], pr, hpr, hhead.trans hbranch, hopened⟩

/-- A run that fails behind the push of its branch has left the host alone.  If it is run again
on its base, without a new branch and without faults, then

* without sync it leaves everything as it is, and ends as a no-op or refuses the branch since its
  request was merged, so that an open request of the branch is there only if it was before;
* with sync it pushes the branch once more and ends with an open request of the branch, if the
  tree is clean, the branch is not the default one, and its request was not merged. -/
theorem rerun_requests_only_with_sync (raw : String) (o o' : Options) (x x' : Session) (s : Site)
    (faults : List Fault) (hf : ∀ f ∈ faults, f.OnlyFails) (hbase : o'.base = o.base)
    (hforce : o'.force = o.force) (hnew : o'.new = false) :
    let first := (start raw o x).run answer.withFaults (faults, s)
    let second := (start raw o' x').run answer first.world.2
    ∀ e, first.value.1 = .error e →
      ∀ m ∈ (start raw o).logWithFaults x faults s, ∀ branch mode,
        m.call = .push branch mode → m.Answered → Plain branch →
        first.world.2.host = s.host ∧
        (o'.sync = false → second.world = first.world.2 ∧
          ((∃ out, second.value.1 = .ok out ∧ out.branch = branch ∧ out.result = .noOp
              (if branch = s.repo.default then .cleanDefaultBranch else .nothingToPush)) ∨
            ∃ e', second.value.1 = .error e' ∧ branch ≠ s.repo.default ∧
              RefusesMerged branch s e')) ∧
        (o'.sync = true → branch ≠ s.repo.default → first.world.2.repo.isClean = true →
          (∀ pr, PullRequest.forHead branch s.host.requests = some pr → pr.state ≠ .merged) →
          ∃ out, second.value.1 = .ok out ∧ out.branch = branch ∧ out.isNoOp = false ∧
            ∃ pr ∈ second.world.host.requests, pr.head = branch ∧ pr.state = .opened) := by
  rw [start_eq, start_eq, hforce]
  generalize Description.accept raw o.force = accepted
  intro first second e he m hm branch mode hc ha hp
  have hfirst : BrokenOff accepted branch (o.base.getD s.repo.default) s first.world.2 :=
    (ensures_startWith_brokenOff.ends_log_withFaults hf).error he m hm branch mode hc ha hp
  obtain ⟨⟨d, verdict, rfl⟩, hresting, hhost, hdefault⟩ := hfirst
  rw [← hbase, ← hdefault] at hresting
  rw [← hdefault]
  refine ⟨hhost, fun hsync => ?_, fun hsync hd hclean hun => ?_⟩
  · have hend : Ends _ _ second.value second.world :=
      (ensures_startWith_resting hresting (fun _ => hp) hsync hnew d verdict x').ends_run
    cases hv : second.value.1 with
    | ok out =>
        obtain ⟨hidle, hworld⟩ := hend.ok hv
        exact ⟨hworld, .inl ⟨out, rfl, hidle⟩⟩
    | error e' =>
        obtain ⟨hworld, hd, hmerged⟩ := hend.error hv
        rw [RefusesMerged, hhost] at hmerged
        exact ⟨hworld, .inr ⟨e', rfl, hd, hmerged⟩⟩
  · rw [← hhost] at hun
    have hend := (ensures_startWith_sync_resting (x := x') hresting hp hd hclean hun hsync hnew d
      verdict).ends_log
    cases hv : second.value.1 with
    | ok out => exact ⟨out, rfl, hend.ok hv⟩
    | error e' => exact (hend.error hv).elim

/-- A run on the default branch that cannot open its request is finished by a sync only. -/
theorem rerun_requests_only_with_sync_outage :
    let faults := [Fault.outage Call.isRequest]
    let first := (start "feat: add widget" { branch := some "topic" } .sample).run
      answer.withFaults (faults, .changed)
    let again (o : Options) := (start "feat: add widget" o .sample).run answer first.world.2
    (again {}).world = first.world.2 ∧
      ∃ pr ∈ (again { sync := true }).world.host.requests,
        pr.head = "topic" ∧ pr.state = .opened := by
  have hf : ∀ f ∈ [Fault.outage Call.isRequest], f.OnlyFails := by
    intro f h
    cases List.mem_singleton.mp h
    exact Fault.onlyFails_outage _
  have he : ((start "feat: add widget" { branch := some "topic" } .sample).run answer.withFaults
      ([.outage Call.isRequest], .changed)).value.1 = .error (.vcs "outage") := by
    decide +kernel
  have hpush : ∃ m ∈ (start "feat: add widget" { branch := some "topic" }).logWithFaults .sample
      [.outage Call.isRequest] .changed, m.call = .push "topic" .tracking ∧ m.Answered := by
    decide +kernel
  have hclean : ((start "feat: add widget" { branch := some "topic" } .sample).run
      answer.withFaults ([.outage Call.isRequest], .changed)).world.2.repo.isClean = true := by
    decide +kernel
  obtain ⟨m, hm, hc, ha⟩ := hpush
  have again (o' : Options) (hb : o'.base = none) (hforce : o'.force = false)
      (hnew : o'.new = false) :=
    rerun_requests_only_with_sync "feat: add widget" { branch := some "topic" } o' .sample .sample
      .changed _ hf hb hforce hnew _ he m hm "topic" .tracking hc ha (by decide)
  obtain ⟨-, hidle, -⟩ := again {} rfl rfl rfl
  obtain ⟨-, -, hsync⟩ := again { sync := true } rfl rfl rfl
  obtain ⟨out, -, -, -, hopened⟩ := hsync rfl (by decide) hclean nofun
  exact ⟨(hidle rfl).1, hopened⟩

/-- Without sync the second run of it finds nothing to push, and the request stays missing. -/
theorem rerun_misses_request :
    let faults := [Fault.outage Call.isRequest]
    let first := (start "feat: add widget" { branch := some "topic" } .sample).run
      answer.withFaults (faults, .changed)
    let second := (start "feat: add widget" {} .sample).run answer first.world.2
    (∃ m ∈ (start "feat: add widget" { branch := some "topic" }).logWithFaults .sample faults
        .changed, m.call = .push "topic" .tracking ∧ m.Answered) ∧
      first.value.1 = .error (.vcs "outage") ∧ first.world.2.host = changed.host ∧
      ∀ pr ∈ second.world.host.requests, ¬(pr.head = "topic" ∧ pr.state = .opened) := by
  decide +kernel

end Ship

end Shipment
