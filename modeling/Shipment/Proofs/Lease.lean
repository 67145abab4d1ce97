import Shipment.Proofs.Repository.Local
import Shipment.Proofs.Repository.Shared
import Shipment.Proofs.Run.Cut
import Shipment.Proofs.Run.Whole

/-!
# Forced pushes beside others

Others share `origin` with a run.  A forced push drops the commits that the lease is on
and the pushed branch is not.  `Leased` says which commits a lease can be on.  Either the
branch starts with them, or the run asked for the branch on `origin` at a moment when
others had deleted it, so that it did not compare, and has kept the tracking ref it began
with.  `dropped_by_push_iff` is the exact condition under which a push drops a commit
that the branch did not have at the start.
-/

namespace Shipment

/-! ## Which pushes are forced -/

namespace Call

theorem Asks.gentle {c : Call} (h : c.Asks) : c.Gentle := by
  rintro branch rfl
  cases h

theorem Looks.gentle {c : Call} (h : c.Looks) : c.Gentle := by
  rcases h with h | ⟨branch, rfl⟩
  · exact h.gentle
  · intro branch' e
    cases e

theorem AsksOr.gentle {c d : Call} (h : AsksOr d c) (hd : d.Gentle) : c.Gentle := by
  rcases h with h | rfl
  · exact h.gentle
  · exact hd

theorem Works.gentle {c : Call} (h : Works c) : c.Gentle := by
  rintro branch rfl
  simp [Works, Asks, isQuestion] at h

theorem Ships.gentle {c : Call} {message branch : String} (h : c.Ships message branch .tracking) :
    c.Gentle := by
  rcases h with h | rfl | rfl | rfl
  · exact h.gentle
  · intro branch' e
    cases e
  · intro branch' e
    cases e
  · intro branch' e
    cases e

theorem gentle_of_undoes {c : Call} (h : c.undoes = true) : c.Gentle := by
  rintro branch rfl
  cases h

end Call

namespace Ship

open Call Repository Site

variable {w : Setting} {o : Options} {branch : String}

theorem gentle_cutBranch : Uses Gentle (cutBranch w branch) :=
  .cutBranch (Asks.gentle rfl) nofun
    ((footprint_commitAndPush _ _).uses.mono fun _ => Ships.gentle) fun _ => gentle_of_undoes

/-- A new request never forces a push. -/
theorem uses_newRequest : Uses Gentle (newRequest w o) := by
  rw [newRequest_eq]
  refine (footprint_lookNew.uses.mono fun _ => Looks.gentle).bind fun seen => ?_
  unfold shipSeen
  split
  · exact (footprint_finishNoOp _ _ _ _).uses
  · rw [shipNew_eq]
    refine (footprint_settleBranch.uses.mono fun _ h => h.gentle ?_).bind fun branch => ?_
    · intro branch e
      cases e
    · refine gentle_cutBranch.bind fun b => ?_
      refine ((footprint_requestForNew _ _ _).uses.mono fun _ h => h.gentle ?_).bind fun _ =>
        (footprint_finishShipped _ _ _ _).uses
      intro branch e
      cases e

/-! ## Leases -/

/-- A run that began on a repository may force a push of a branch behind some calls.  The
lease is on commits the branch began with, or the branch was absent when asked for. -/
def Leased (o : Options) (init : Repository) (before : List (Moment shipping Site))
    (branch : String) (r : Repository) : Prop :=
  (∃ there h, r.tracking.get? branch = some there ∧ init.branches.get? branch = some h ∧
    there <+: h) ∨
  (∃ t t', (⟨.remoteBranchExists branch, t, .ok false, t'⟩ : Moment shipping Site) ∈ before) ∧
    (o.base ≠ some branch → r.tracking.get? branch = init.tracking.get? branch)

/-- Every forced push of a log was leased. -/
def AllLeased (o : Options) (init : Repository) (l : List (Moment shipping Site)) : Prop :=
  ∀ before m after branch, l = before ++ m :: after → m.call = .push branch .forceWithLease →
    Leased o init before branch m.before.repo

section Logs

variable {init r r' : Repository} {l k : List (Moment shipping Site)}

theorem Leased.mono (h : Leased o init l branch r)
    (ht : r'.tracking.get? branch = r.tracking.get? branch) :
    Leased o init (l ++ k) branch r' := by
  rcases h with ⟨there, h, hr, hs⟩ | ⟨⟨t, t', hm⟩, hr⟩
  · exact .inl ⟨there, h, ht.trans hr, hs⟩
  · exact .inr ⟨⟨t, t', List.mem_append_left k hm⟩, fun hb => ht.trans (hr hb)⟩

theorem allLeased_nil : AllLeased o init [] := by
  intro before m after branch h
  simp at h

/-- Calls behind a log force no push, or push with a lease that counts the calls between. -/
theorem AllLeased.append (hl : AllLeased o init l)
    (hk : ∀ before m after branch, k = before ++ m :: after →
      m.call = .push branch .forceWithLease → Leased o init (l ++ before) branch m.before.repo) :
    AllLeased o init (l ++ k) := by
  intro before m after branch he hc
  rcases List.append_eq_append_iff.mp he with ⟨k', rfl, hk'⟩ | ⟨k', rfl, hk'⟩
  · exact hk k' m after branch hk' hc
  · cases k' with
    | nil =>
        have hleased := hk [] m after branch hk'.symm hc
        rwa [List.append_nil, List.append_nil] at hleased
    | cons m' k' =>
        cases hk'
        exact hl before m k' branch rfl hc

theorem AllLeased.gentle (hl : AllLeased o init l) (hk : ∀ m ∈ k, m.call.Gentle) :
    AllLeased o init (l ++ k) := by
  refine hl.append ?_
  rintro before m after branch rfl hc
  exact absurd hc (hk m (List.mem_append_right _ List.mem_cons_self) branch)

theorem AllLeased.push {m : Moment shipping Site} (hl : AllLeased o init l)
    (hm : ∀ branch, m.call = .push branch .forceWithLease →
      Leased o init l branch m.before.repo) : AllLeased o init (l ++ [m]) := by
  refine hl.append ?_
  intro before m' after branch he hc
  cases before with
  | nil =>
      cases he
      rw [List.append_nil]
      exact hm branch hc
  | cons m'' before => simp at he

end Logs

variable {α : Type} {x : Session} {l : List (Moment shipping Site)} {s : Site}
variable {init : Repository}

theorem Uses.allLeased {m : Ship α} (h : Uses Gentle m) {W : Surroundings shipping Site}
    (hl : AllLeased o init l) :
    m.Ensures W.logged (fun _ _ z => AllLeased o init z.1) (fun _ _ z => AllLeased o init z.1)
      x (l, s) := by
  refine h.logs.weaken ?_
  intro x' z hend
  obtain ⟨_, s'⟩ := z
  obtain ⟨new, rfl, hn⟩ := hend
  exact hl.gentle hn

/-! ## What a shared site keeps -/

theorem Uses.local_shared {m : Ship α} (h : Uses Looks m) :
    m.Ensures shared (fun _ _ s' => s.repo.Local s'.repo) (fun _ _ s' => s.repo.Local s'.repo)
      x s := by
  refine h.relates (T := fun s s' : Site => s.repo.Local s'.repo) (fun s => .refl s.repo) .trans ?_
  intro c s r s' hc ha
  obtain ⟨repo, remote, he, hr⟩ := effect_of_shared ha
  obtain ⟨tracking, rfl⟩ := he.looked hc
  exact ⟨tracking, remote, hr⟩

/-- A fetch moves one tracking ref. -/
theorem Uses.tracking_of_fetch {m : Ship α} {base : String} (h : Uses (AsksOr (.fetch base)) m)
    (hb : base ≠ branch) :
    m.Ensures shared (fun _ _ s' => s'.repo.tracking.get? branch = s.repo.tracking.get? branch)
      (fun _ _ _ => True) x s := by
  refine (h.relates (W := shared)
    (T := fun s s' : Site => s'.repo.tracking.get? branch = s.repo.tracking.get? branch)
    (fun s => rfl) (fun h h' => Eq.trans h' h) ?_).mono (fun _ _ _ h => h) fun _ _ _ _ => trivial
  intro c s r s' hc ha
  obtain ⟨repo, remote, he, hr⟩ := effect_of_shared ha
  rw [hr]
  rcases hc with hc | rfl
  · cases he with
    | failed e => rfl
    | asked a hq => rfl
    | _ => first | rfl | cases hc
  · cases he with
    | failed e => rfl
    | asked a hq => rfl
    | fetched hf => exact Table.get?_set_of_ne hb _ _

/-- Work that is done here leaves the tracking refs alone.  Others only change `origin`. -/
theorem Uses.tracking_of_works {m : Ship α} (h : Uses Works m) :
    m.Ensures shared (fun _ _ s' => s'.repo.tracking = s.repo.tracking)
      (fun _ _ _ => True) x s := by
  refine (h.relates (W := shared) (T := fun s s' : Site => s'.repo.tracking = s.repo.tracking)
    (fun s => rfl) (fun h h' => Eq.trans h' h) ?_).mono (fun _ _ _ h => h) fun _ _ _ _ => trivial
  intro c s r s' hc ha
  obtain ⟨repo, remote, he, hr⟩ := effect_of_shared ha
  rw [hr]
  cases he with
  | @rebased _ _ h hv hcur =>
      obtain ⟨messages, e⟩ := replay_eq h (missing h s.repo.head) s.repo
      rw [e]
  | fetched hf => simp [Works, Asks, isQuestion] at hc
  | pushed hv hf => simp [Works, Asks, isQuestion] at hc
  | _ => rfl

/-! ## The update flow -/

/-- What an update knows of its branch on `origin` when it has looked. -/
def Looked (w : Setting) (init : Repository) (counterpart : Option String)
    (l : List (Moment shipping Site)) (r : Repository) : Prop :=
  counterpart = some (trackingRef w.current) ∨
    counterpart = none ∧
    (∃ t t', (⟨.remoteBranchExists w.current, t, .ok false, t'⟩ : Moment shipping Site) ∈ l) ∧
    (w.base ≠ w.current → r.tracking.get? w.current = init.tracking.get? w.current)

/-- The counterpart of a branch was fetched, or was found to be absent. -/
theorem ensures_fetchCounterpart_looked
    (hr : w.base ≠ w.current → s.repo.tracking.get? w.current = init.tracking.get? w.current) :
    (fetchCounterpart w.current).Ensures shared.logged
      (fun counterpart _ z => Looked w init counterpart z.1 z.2.repo) (fun _ _ _ => True)
      x (l, s) := by
  refine ensures_bind.mpr (ensures_ask.mpr ?_)
  intro r _ hend
  obtain ⟨s', ha, rfl⟩ := hend
  cases r with
  | error e => trivial
  | ok known =>
      cases known with
      | true =>
          refine ensures_bind.mpr (ensures_execute.mpr ?_)
          intro r z _
          cases r with
          | error e => trivial
          | ok v => exact .inl rfl
      | false =>
          obtain ⟨remote, -, rfl⟩ := ha
          exact .inr
            ⟨rfl, ⟨s, _, List.mem_append_right l (List.mem_singleton.mpr rfl)⟩, hr⟩

/-- An update that has looked has fetched its counterpart, or found it to be absent. -/
theorem ensures_lookUpdate_looked :
    (lookUpdate w o).Ensures shared.logged
      (fun counterpart _ z => Looked w s.repo counterpart z.1 z.2.repo) (fun _ _ _ => True)
      x (l, s) := by
  have keeps {m : Ship Unit} {x : Session} {l : List (Moment shipping Site)} {t : Site}
      (h : Uses (AsksOr (.fetch w.base)) m)
      (ht : w.base ≠ w.current → t.repo.tracking.get? w.current = s.repo.tracking.get? w.current) :
      m.Ensures shared.logged (fun _ _ z => w.base ≠ w.current →
        z.2.repo.tracking.get? w.current = s.repo.tracking.get? w.current)
        (fun _ _ _ => True) x (l, t) := by
    by_cases hb : w.base = w.current
    · exact h.logs.mono (fun _ _ _ _ h => absurd hb h) fun _ _ _ _ => trivial
    · refine (h.tracking_of_fetch hb).logged.mono ?_ fun _ _ _ h => h
      exact fun _ _ _ h _ => h.trans (ht hb)
  have asks {m : Ship Unit} (h : Footprint Asks m) : Uses (AsksOr (.fetch w.base)) m :=
    h.uses.mono fun _ => .inl
  refine (keeps (asks (footprint_checkRequest _)) fun _ => rfl).bind (fun _ _ _ h => h) ?_
  intro _ x₁ z h₁
  obtain ⟨l₁, s₁⟩ := z
  refine (keeps (footprint_compareWithBase _ _).uses h₁).bind (fun _ _ _ h => h) ?_
  intro _ x₂ z h₂
  obtain ⟨l₂, s₂⟩ := z
  refine Ensures.when (fun _ => keeps (asks footprint_requireClean) h₂) (fun _ _ _ h => h)
    (fun _ => h₂) ?_
  intro x₃ z h₃
  obtain ⟨l₃, s₃⟩ := z
  exact ensures_fetchCounterpart_looked h₃

theorem ensures_rebase_leased {base : String} {lg : List (Moment shipping Site)}
    (h : Leased o init lg branch s.repo) :
    (execute (.rebase base)).Ensures shared.logged
      (fun _ _ z => Leased o init z.1 branch z.2.repo) (fun _ _ _ => True) x (lg, s) := by
  have huses : Uses Works (execute (.rebase base)) :=
    (Footprint.execute (.inr (.inr (.inr ⟨_, rfl⟩)))).uses
  refine (huses.logs.and (huses.tracking_of_works).logged).mono ?_ fun _ _ _ _ => trivial
  intro u x' z hend
  obtain ⟨_, s'⟩ := z
  obtain ⟨⟨new, rfl, -⟩, ht⟩ := hend
  exact h.mono (congrArg (Table.get? branch) ht)

/-- A forced push after a rebase is leased. -/
theorem ensures_rebaseOnto_leased {counterpart : Option String}
    (hbase : w.base = w.current → o.base = some w.current)
    (hc : s.repo.current = some w.current) (hb : s.repo.branches = init.branches)
    (h : Looked w init counterpart l s.repo) :
    (rebaseOnto w.current w.base counterpart).Ensures shared.logged
      (fun _ _ z => Leased o init z.1 w.current z.2.repo) (fun _ _ _ => True) x (l, s) := by
  rcases h with rfl | ⟨rfl, hasked, ht⟩
  · refine ensures_bind.mpr (ensures_ask.mpr ?_)
    intro r _ hend
    obtain ⟨s', ha, rfl⟩ := hend
    have hanswer := answer_of_shared ha
    cases r with
    | error e => trivial
    | ok known =>
        cases known with
        | false => trivial
        | true =>
            obtain ⟨there, h, hthere, hhead, hp⟩ := isAncestor_eq_ok.mp hanswer
            rw [List.isPrefixOf_iff_prefix] at hp
            rw [resolve?_trackingRef] at hthere
            rw [resolve?_head hc, hb] at hhead
            obtain ⟨remote, -, rfl⟩ := ha
            exact ensures_rebase_leased (.inl ⟨there, h, hthere, hhead, hp⟩)
  · exact ensures_rebase_leased (.inr ⟨hasked, fun hne => ht fun e => hne (hbase e)⟩)

/-- Every forced push so far was leased, and one would be now if the run is a sync. -/
structure Ready (o : Options) (init : Repository) (branch : String)
    (l : List (Moment shipping Site)) (r : Repository) : Prop where
  /-- So far. -/
  all : AllLeased o init l
  /-- Now. -/
  now : o.sync = true → Leased o init l branch r

theorem Uses.ready {m : Ship α} (hm : Uses Works m) (h : Ready o init branch l s.repo) :
    m.Ensures shared.logged (fun _ _ z => Ready o init branch z.1 z.2.repo)
      (fun _ _ z => AllLeased o init z.1) x (l, s) := by
  refine ((hm.logs.and hm.tracking_of_works.logged)).mono ?_ ?_
  · intro a x' z hend
    obtain ⟨_, s'⟩ := z
    obtain ⟨⟨new, rfl, hn⟩, ht⟩ := hend
    exact ⟨h.all.gentle fun k hk => (hn k hk).gentle,
      fun hs => (h.now hs).mono (congrArg (Table.get? branch) ht)⟩
  · intro e x' z hend
    obtain ⟨_, s'⟩ := z
    obtain ⟨⟨new, rfl, hn⟩, -⟩ := hend
    exact h.all.gentle fun k hk => (hn k hk).gentle

theorem sync_of_updatePushMode {sync : Bool} {ahead : Nat}
    (h : updatePushMode sync ahead = some .forceWithLease) : sync = true := by
  cases sync with
  | true => rfl
  | false =>
      unfold updatePushMode at h
      split at h
      · assumption
      · split at h <;> cases h

/-- An update that is ready forces its push under a lease. -/
theorem ensures_pushUpdate_leased {staged : Bool} {ahead : Nat}
    (h : Ready o init w.current l s.repo) :
    (pushUpdate w o staged ahead).Ensures shared.logged (fun _ _ z => AllLeased o init z.1)
      (fun _ _ z => AllLeased o init z.1) x (l, s) := by
  have finish (pushed : Option PushMode) : Uses Gentle (finishUpdate w o staged pushed) := by
    refine footprint_finishUpdate.uses.mono fun _ h => h.gentle ?_
    intro branch e
    cases e
  refine ensures_bind.mpr (ensures_enter.mpr ?_)
  cases hmode : updatePushMode o.sync ahead with
  | none => exact (finish none).allLeased h.all
  | some mode =>
      refine ensures_bind.mpr (ensures_execute.mpr ?_)
      intro r _ hend
      obtain ⟨s', -, rfl⟩ := hend
      have hall : AllLeased o init (l ++ [⟨.push w.current mode, s, r, s'⟩]) := by
        refine h.all.push fun branch e => ?_
        cases e
        exact h.now (sync_of_updatePushMode hmode)
      cases r with
      | error e => exact hall
      | ok v => exact (finish _).allLeased hall

theorem ensures_shipUpdate_leased {reference : String} {staged : Bool} {ahead : Nat}
    (h : Ready o init w.current l s.repo) :
    (shipUpdate w o reference staged ahead).Ensures shared.logged
      (fun _ _ z => AllLeased o init z.1) (fun _ _ z => AllLeased o init z.1) x (l, s) := by
  have hcommit : Uses Works (commitStaged w.description reference staged ahead) :=
    (footprint_commitStaged _ _ _ _).uses.mono fun c hc =>
      hc.imp_right fun e => .inr (.inl ⟨_, e⟩)
  rw [shipUpdate_eq]
  refine (hcommit.ready h).bind (fun _ _ _ h => h) ?_
  intro ahead' x₁ z h₁
  obtain ⟨l₁, s₁⟩ := z
  exact ensures_pushUpdate_leased h₁

/-- Staging and committing keep the lease up to the push. -/
theorem ensures_stageAndShip_leased {counterpart : Option String}
    (h : Ready o init w.current l s.repo) :
    (stageAndShip w o counterpart).Ensures shared.logged (fun _ _ z => AllLeased o init z.1)
      (fun _ _ z => AllLeased o init z.1) x (l, s) := by
  have asks {c : Call} (hc : c.Asks) : Uses Works (ask c) := .ask (.inl hc)
  have hstage : Uses Works (execute .stageAll) := (Footprint.execute (.inr (.inl rfl))).uses
  rw [stageAndShip_eq]
  refine ensures_bind.mpr (ensures_enter.mpr ?_)
  refine (hstage.ready h).bind (fun _ _ _ h => h) ?_
  intro _ x₁ z h₁
  obtain ⟨l₁, s₁⟩ := z
  refine Ensures.bind ((asks (c := .hasStagedChanges) rfl).ready h₁) (fun _ _ _ h => h) ?_
  intro staged x₂ z h₂
  obtain ⟨l₂, s₂⟩ := z
  refine Ensures.bind ((asks (c := .countCommits _ _) rfl).ready h₂) (fun _ _ _ h => h) ?_
  intro ahead x₃ z h₃
  obtain ⟨l₃, s₃⟩ := z
  split
  · exact Uses.allLeased (footprint_finishNoOp _ _ _ _).uses h₃.all
  · exact ensures_shipUpdate_leased h₃

/-- An update forces no push without a lease, unless its own branch is a base it did not ask for. -/
theorem ensures_updateExisting_leased
    (hbase : w.base = w.current → o.base = some w.current)
    (hc : s.repo.current = some w.current) (hl : AllLeased o s.repo l) :
    (updateExisting w o).Ensures shared.logged (fun _ _ z => AllLeased o s.repo z.1)
      (fun _ _ z => AllLeased o s.repo z.1) x (l, s) := by
  have huses := (footprint_lookUpdate (w := w) (o := o)).uses
  have hgentle : Uses Gentle (lookUpdate w o) := huses.mono fun _ => Looks.gentle
  rw [updateExisting_eq]
  refine ((ensures_lookUpdate_looked.and (hgentle.allLeased hl)).and
    huses.local_shared.logged).bind (fun _ _ _ h => h.1.2) ?_
  intro counterpart x₁ z hend
  obtain ⟨l₁, s₁⟩ := z
  obtain ⟨⟨hlooked, hl₁⟩, tracking, remote, hr⟩ := hend
  have hc₁ : s₁.repo.current = some w.current := by rw [hr]; exact hc
  have hb₁ : s₁.repo.branches = s.repo.branches := by rw [hr]
  by_cases hsync : o.sync = true
  · rw [if_pos hsync]
    have hrebase : Uses Gentle (rebaseOnto w.current w.base counterpart) :=
      (footprint_rebaseOnto _ _ _).uses.mono fun _ h => h.gentle fun branch e => by cases e
    refine ((ensures_rebaseOnto_leased hbase hc₁ hb₁ hlooked).and (hrebase.allLeased hl₁)).bind
      (fun _ _ _ h => h.2) ?_
    intro _ x₂ z hend
    obtain ⟨l₂, s₂⟩ := z
    obtain ⟨hleased, hl₂⟩ := hend
    exact ensures_stageAndShip_leased ⟨hl₂, fun _ => hleased⟩
  · rw [if_neg hsync]
    exact ensures_stageAndShip_leased ⟨hl₁, fun hs => absurd hs hsync⟩

/-! ## Whole runs -/

theorem Uses.asks_shared {m : Ship α} (h : Uses Asks m) :
    m.Ensures shared (fun _ _ s' => ∃ remote, s'.repo = { s.repo with remote })
      (fun _ _ s' => ∃ remote, s'.repo = { s.repo with remote }) x s := by
  refine h.relates (T := fun s s' : Site => ∃ remote, s'.repo = { s.repo with remote })
    (fun s => ⟨s.repo.remote, rfl⟩) ?_ ?_
  · intro s s' s'' h h'
    obtain ⟨remote, e⟩ := h
    obtain ⟨remote', e'⟩ := h'
    exact ⟨remote', by rw [e', e]⟩
  · intro c s r s' hc hend
    obtain ⟨remote, -, rfl⟩ := hend
    rw [answer_of_asks hc]
    exact ⟨remote, rfl⟩

/-- The checks find the branch that `HEAD` is on, whatever others do to `origin`. -/
theorem ensures_checkPrerequisites_shared :
    checkPrerequisites.Ensures shared (fun current _ _ => s.repo.current = some current)
      (fun _ _ _ => True) x s := by
  have asks {c : Call} (hc : c.Asks) : Uses Asks (ask c) := .ask hc
  refine ensures_bind.mpr (ensures_enter.mpr ?_)
  refine (asks (c := .isAuthenticated) rfl).asks_shared.bind (fun _ _ _ _ => trivial) ?_
  intro _ x₁ s₁ hend
  obtain ⟨_, h₁⟩ := hend
  refine Ensures.orElse (fun _ => trivial) fun _ => ?_
  refine (asks (c := .hasOrigin) rfl).asks_shared.bind (fun _ _ _ _ => trivial) ?_
  intro _ x₂ s₂ hend
  obtain ⟨_, h₂⟩ := hend
  refine Ensures.orElse (fun _ => trivial) fun _ => ?_
  refine (asks (c := .operationInProgress) rfl).asks_shared.bind (fun _ _ _ _ => trivial) ?_
  intro operation x₃ s₃ hend
  obtain ⟨_, h₃⟩ := hend
  have hc : s₃.repo.current = s.repo.current := by rw [h₃, h₂, h₁]
  cases operation with
  | some op => trivial
  | none =>
      refine ensures_bind.mpr (ensures_ask.mpr ?_)
      intro r _ hend
      obtain ⟨remote, hr, rfl⟩ := hend
      cases r with
      | error e => trivial
      | ok current =>
          cases current with
          | none => trivial
          | some branch => exact hc.symm.trans (Except.ok.inj hr).symm

theorem ensures_resolveBase_shared {asked : Option String} {default : String} :
    (resolveBase asked default).Ensures shared (fun base _ _ => base = asked.getD default)
      (fun _ _ _ => True) x s := by
  cases asked with
  | none => exact rfl
  | some base =>
      refine ensures_bind.mpr (ensures_ask.mpr ?_)
      rintro (e | known) s' -
      · trivial
      · cases known with
        | false => trivial
        | true => exact rfl

/-- What an update has settled beside others. -/
theorem ensures_settle_shared {accepted : Except Failure (Description × Verdict)} :
    (settle accepted o).Ensures shared
      (fun p _ _ => s.repo.current = some p.1.current ∧ (p.2 = .updateExisting →
        p.1.base = p.1.current → o.base = some p.1.current))
      (fun _ _ _ => True) x s := by
  refine (footprint_acceptVerdict accepted).uses.asks_shared.bind (fun _ _ _ _ => trivial) ?_
  intro d x₁ s₁ hend
  obtain ⟨_, h₁⟩ := hend
  refine ensures_checkPrerequisites_shared.bind (fun _ _ _ _ => trivial) ?_
  intro current x₂ s₂ hc
  rw [h₁] at hc
  refine ensures_bind.mpr (ensures_enter.mpr (ensures_bind.mpr (ensures_ask.mpr ?_)))
  rintro (e | default) s₃ -
  · trivial
  · refine ensures_resolveBase_shared.bind (fun _ _ _ _ => trivial) ?_
    intro base x₃ s₄ hbase
    simp only [selectFlow, ensures_bind, ensures_enter, ensures_updateRecord, ensures_tell,
      ensures_pure]
    refine ⟨hc, fun hf hb => ?_⟩
    cases ho : o.base with
    | some branch =>
        rw [ho] at hbase
        exact congrArg some (hbase.symm.trans hb)
    | none =>
        rw [ho] at hbase
        rw [Flow.select, ← hb, hbase] at hf
        simp at hf

/-- A run forces no push without a lease, whatever others do to `origin`. -/
theorem ensures_startWith_leased {accepted : Except Failure (Description × Verdict)} :
    (startWith accepted o).Ensures shared.logged (fun _ _ z => AllLeased o s.repo z.1)
      (fun _ _ z => AllLeased o s.repo z.1) x ([], s) := by
  have huses := (footprint_settle accepted o).uses
  have hgentle : Uses Gentle (settle accepted o) := huses.mono fun _ => Asks.gentle
  have hnil : AllLeased o s.repo [] := allLeased_nil
  have hsettle := hgentle.allLeased (W := shared) (x := x.fresh) (s := s) hnil
  refine ensures_startWith.mpr ?_
  refine ((hsettle.and huses.asks_shared.logged).and ensures_settle_shared.logged).mono ?_ ?_
  · intro p x₁ z hend
    obtain ⟨w, flow⟩ := p
    obtain ⟨l, ⟨repo, host⟩⟩ := z
    obtain ⟨⟨hl, remote, hr⟩, hc, hbase⟩ := hend
    cases hr
    cases flow with
    | newRequest => exact uses_newRequest.allLeased hl
    | updateExisting => exact ensures_updateExisting_leased (hbase rfl) hc hl
  · exact fun _ _ _ h => h.1.1

/-! ## What a push drops -/

/-- The commits of a branch on `origin`. -/
def onOrigin (branch : String) (r : Repository) : History := (r.remote.get? branch).getD []

/-- The commits of a local branch. -/
def here (branch : String) (r : Repository) : History := (r.branches.get? branch).getD []

/-- A push drops a commit that the branch did not have at the start of the run. -/
def Drops (init : Repository) (m : Moment shipping Site) (branch id : String) : Prop :=
  id ∈ onOrigin branch m.before.repo ∧ id ∉ onOrigin branch (answer m.call m.before).2.repo ∧
    id ∉ here branch init

/-- A push that is not refused goes on from what `origin` has, or is forced with a true lease. -/
theorem refusal_eq_none {r : Repository} {mode : PushMode} {h there : History}
    (hr : r.refusal branch mode h = none) (ht : r.remote.get? branch = some there) :
    mode = .tracking ∧ there <+: h ∨
      mode = .forceWithLease ∧ r.tracking.get? branch = some there := by
  unfold refusal at hr
  rw [ht] at hr
  cases mode with
  | tracking =>
      simp only at hr
      split at hr
      · exact .inl ⟨rfl, List.isPrefixOf_iff_prefix.mp ‹_›⟩
      · cases hr
  | forceWithLease =>
      simp only at hr
      split at hr
      · exact .inr ⟨rfl, ‹_›⟩
      · cases hr

/-- What a push drops, it drops by force and under a lease. -/
theorem dropped {t : Site} {mode : PushMode} {id : String}
    (hb : id ∈ onOrigin branch t.repo)
    (ha : id ∉ onOrigin branch (answer (.push branch mode) t).2.repo) :
    mode = .forceWithLease ∧ ∃ there pushed, t.repo.remote.get? branch = some there ∧
      t.repo.tracking.get? branch = some there ∧ t.repo.resolve? branch = some pushed ∧
      id ∈ there ∧ id ∉ pushed := by
  unfold onOrigin at hb ha
  have he := answer_effect (.push branch mode) t
  generalize (answer (.push branch mode) t).1 = reply at he
  generalize (answer (.push branch mode) t).2.repo = repo at he ha
  cases he with
  | failed e => exact absurd hb ha
  | asked a hq => cases hq
  | @pushed _ _ h hv hr =>
      rw [Table.get?_set_self] at ha
      cases ht : t.repo.remote.get? branch with
      | none =>
          rw [ht] at hb
          cases hb
      | some there =>
          rw [ht] at hb
          rcases refusal_eq_none hr ht with ⟨-, hp⟩ | ⟨hm, htr⟩
          · exact absurd (hp.subset hb) ha
          · exact ⟨hm, there, h, rfl, htr, hv, hb, ha⟩

/-- A forced push with a true lease leaves `origin` with the history that was pushed. -/
theorem onOrigin_push {t : Site} {there pushed : History}
    (hre : t.repo.remote.get? branch = some there) (htr : t.repo.tracking.get? branch = some there)
    (hv : t.repo.resolve? branch = some pushed) :
    onOrigin branch (answer (.push branch .forceWithLease) t).2.repo = pushed := by
  have hpush : t.repo.push branch .forceWithLease = .ok { t.repo with
      remote := t.repo.remote.set branch pushed
      tracking := t.repo.tracking.set branch pushed } := by
    refine push_eq_ok hv (refusal_forceWithLease fun there' hthere => ?_)
    rw [htr, ← hre, hthere]
  show ((t.change (t.repo.push branch .forceWithLease)).2.repo.remote.get? branch).getD [] = _
  rw [hpush]
  exact congrArg (Option.getD · []) (Table.get?_set_self _ _ _)

/-- The pushes beside others that drop a commit the branch did not have at the start are
the forced ones of a run that asked for the branch on `origin` when it was not there, and
so did not compare.  Then the branch is back on `origin`, where the tracking ref has had
it since before the run, and the commit is not on the pushed branch. -/
theorem dropped_by_push_iff (raw : String) (o : Options) (x : Session) (s : Site)
    (others : Nat → Table String History → Table String History)
    (before : List (Moment shipping Site)) (m : Moment shipping Site)
    (after : List (Moment shipping Site)) (branch : String) (mode : PushMode) (id : String)
    (hlog : (start raw o).logWithOthers x others s = before ++ m :: after)
    (hcall : m.call = .push branch mode) :
    Drops s.repo m branch id ↔
      mode = .forceWithLease ∧
      (∃ t t', (⟨.remoteBranchExists branch, t, .ok false, t'⟩ : Moment shipping Site) ∈ before) ∧
      (∃ there pushed, m.before.repo.remote.get? branch = some there ∧
        m.before.repo.tracking.get? branch = some there ∧
        (o.base ≠ some branch → s.repo.tracking.get? branch = some there) ∧
        m.before.repo.resolve? branch = some pushed ∧ id ∈ there ∧ id ∉ pushed) ∧
      id ∉ here branch s.repo := by
  rw [start_eq] at hlog
  generalize Description.accept raw o.force = accepted at hlog
  unfold Drops
  rw [hcall]
  constructor
  · rintro ⟨hb, ha, hs⟩
    obtain ⟨rfl, there, pushed, hre, htr, hv, hid, hnot⟩ := dropped hb ha
    have hall : AllLeased o s.repo (before ++ m :: after) := by
      rw [← hlog]
      exact ensures_run_withOthers others ensures_startWith_leased
    rcases hall before m after branch rfl hcall with ⟨there', h, htr', hh, hp⟩ | ⟨hasked, ht⟩
    · cases htr.symm.trans htr'
      refine absurd ?_ hs
      rw [here, hh]
      exact hp.subset hid
    · exact ⟨rfl, hasked, ⟨there, pushed, hre, htr, fun hbase => (ht hbase).symm.trans htr, hv,
        hid, hnot⟩, hs⟩
  · rintro ⟨rfl, -, ⟨there, pushed, hre, htr, -, hv, hid, hnot⟩, hs⟩
    refine ⟨?_, ?_, hs⟩
    · rw [onOrigin, hre]
      exact hid
    · rw [onOrigin_push hre htr hv]
      exact hnot

/-- A branch with a commit that its tracking ref lacks, and the other way round. -/
def diverged : Site where
  repo :=
    { current := some "topic"
      branches := [("main", ["c0"]), ("topic", ["c0", "mine"])]
      tracking := [("main", ["c0"]), ("topic", ["c0", "theirs"])]
      remote := [("main", ["c0"]), ("topic", ["c0", "theirs"])] }

/-- Others delete the branch, and push it again once the run has asked for it. -/
def deleteAndRestore (k : Nat) (remote : Table String History) : Table String History :=
  if k < 9 then remote.erase "topic" else remote.set "topic" ["c0", "theirs"]

/-- A sync drops a commit that only others have. -/
theorem push_drops_commit :
    ∃ m ∈ (start "feat: add widget" { sync := true }).logWithOthers .sample deleteAndRestore
      diverged, m.call = .push "topic" .forceWithLease ∧
        "theirs" ∈ onOrigin "topic" m.before.repo ∧
        "theirs" ∉ onOrigin "topic" (answer m.call m.before).2.repo ∧
        "theirs" ∉ here "topic" diverged.repo := by
  decide +kernel

/-- The sync that drops the commit was told that the branch is not on `origin`. -/
theorem dropped_by_push_diverged :
    ∃ before m after, (start "feat: add widget" { sync := true }).logWithOthers .sample
        deleteAndRestore diverged = before ++ m :: after ∧
      m.call = .push "topic" .forceWithLease ∧ Drops diverged.repo m "topic" "theirs" ∧
      ∃ t t', (⟨.remoteBranchExists "topic", t, .ok false, t'⟩ : Moment shipping Site) ∈
        before := by
  have hdrops : ∃ m ∈ (start "feat: add widget" { sync := true }).logWithOthers .sample
      deleteAndRestore diverged, m.call = .push "topic" .forceWithLease ∧
        "theirs" ∈ onOrigin "topic" m.before.repo ∧
        "theirs" ∉ onOrigin "topic" (answer m.call m.before).2.repo ∧
        "theirs" ∉ here "topic" diverged.repo := by
    decide +kernel
  obtain ⟨m, hm, hc, hd⟩ := hdrops
  obtain ⟨before, after, hlog⟩ := List.append_of_mem hm
  have h := dropped_by_push_iff _ _ _ _ _ before m after "topic" _ "theirs" hlog hc
  obtain ⟨-, hasked, -⟩ := h.mp hd
  exact ⟨before, m, after, hlog, hc, hd, hasked⟩

end Ship

end Shipment
