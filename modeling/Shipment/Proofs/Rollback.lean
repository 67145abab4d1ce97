import Shipment.Proofs.Run.Ready
import Shipment.Proofs.Run.Whole

/-!
# Going back

A run that cut its branch and could not push it goes back.  If every call of the way
back is answered, the site is what it was before the cut and the last notice says so.
If one fails there is no such notice.  Either way the run fails with the failure that
made it go back, which `Blames` reads off the log before the way back.
-/

namespace Shipment

/-! ## What the log shows -/

/-- The failure of a log that could not push its branch: that of its last call, or that
there was nothing to commit. -/
inductive Blames {σ : Type} (branch : String) : List (Moment shipping σ) → Failure → Prop where
  /-- The last call failed, and gives the failure its name. -/
  | failed {l : List (Moment shipping σ)} {m : Moment shipping σ} {e : Failure} :
      (∀ k ∈ l, k.Answered) → m.reply = .error e → Blames branch (l ++ [m]) (m.call.failure e)
  /-- Every call was answered, and nothing was staged. -/
  | empty {l : List (Moment shipping σ)} : (∀ k ∈ l, k.Answered) →
      Blames branch l (.emptyCommit branch)

theorem Blames.of_halts {σ : Type} {branch : String} {l : List (Moment shipping σ)} {e : Failure}
    (h : Halts l e) (hg : e = .emptyCommit branch ∨ ∃ k ∈ l, ¬k.Answered) : Blames branch l e := by
  cases h with
  | failed hl hr => exact .failed hl hr
  | refused hl =>
      rcases hg with rfl | ⟨k, hk, hn⟩
      · exact .empty hl
      · exact absurd (hl k hk) hn

/-- The branches, tracking refs and the host are what they were, and so is `HEAD`. -/
structure Site.Restored (s s' : Site) : Prop where
  current : s'.repo.current = s.repo.current
  branches : s'.repo.branches = s.repo.branches
  tracking : s'.repo.tracking = s.repo.tracking
  remote : s'.repo.remote = s.repo.remote
  host : s'.host = s.host

/-- A run that cut a branch on a site went back.  It did one part of its calls before it
failed and undid the branch with the other. -/
structure WentBack (branch prior : String) (before : Site) (done undo : List (Moment shipping Site))
    (e : Failure) (x : Session) (after : Site) : Prop where
  /-- `HEAD` was on the prior branch. -/
  current : before.repo.current = some prior
  /-- Nothing was undone before the run failed. -/
  forth : ∀ k ∈ done, k.call.undoes = false
  /-- It did nothing else on the way back. -/
  back : ∀ k ∈ undo, k.call.undoes = true
  /-- The failure of the run is the one it had before it went back. -/
  blames : Blames branch done e
  /-- If nothing failed on the way back, the site is restored and the run says so. -/
  restored : (∀ k ∈ undo, k.Answered) →
    before.Restored after ∧ x.record.notices.getLast? = some (.rolledBack branch prior)
  /-- If something did, the run does not say so. -/
  stuck : (∃ k ∈ undo, ¬k.Answered) → ∀ n ∈ x.record.notices, n.isRollback = false

/-- Some push was answered. -/
def Pushed {σ : Type} (l : List (Moment shipping σ)) : Prop :=
  ∃ k ∈ l, k.call.isPush = true ∧ k.Answered

theorem pushed_append {σ : Type} {l l' : List (Moment shipping σ)} :
    Pushed (l ++ l') ↔ Pushed l ∨ Pushed l' := by
  simp only [Pushed, List.mem_append, or_and_right, exists_or]

theorem not_pushed_of_forall {σ : Type} {l : List (Moment shipping σ)}
    (h : ∀ k ∈ l, k.call.isPush = false) : ¬Pushed l := by
  rintro ⟨k, hk, hp, -⟩
  cases hp.symm.trans (h k hk)

namespace Ship

section Any

variable {α β σ : Type} {G : Failure → Prop}

/-- A piece fails only in such ways, or because a call failed. -/
structure FailsBy (G : Failure → Prop) (m : Ship α) : Prop where
  blames : ∀ {σ : Type} {W : Surroundings shipping σ} {x : Session}
    {l : List (Moment shipping σ)} {s : σ},
    m.Ensures W.logged (fun _ _ z => ∃ new, z.1 = l ++ new)
      (fun e _ z => ∃ new, z.1 = l ++ new ∧ (G e ∨ ∃ k ∈ new, ¬k.Answered)) x (l, s)

namespace FailsBy

/-- Two pieces fail one behind the other in the ways that each of them fails. -/
theorem bind {m : Ship α} {f : α → Ship β} (h : FailsBy G m) (hf : ∀ a, FailsBy G (f a)) :
    FailsBy G (m >>= f) := by
  refine ⟨fun {σ W x l s} => h.blames.bind (fun _ _ _ h => h) ?_⟩
  intro a x' z hend
  obtain ⟨_, s'⟩ := z
  obtain ⟨new, rfl⟩ := hend
  refine (hf a).blames.mono ?_ ?_
  · intro b x'' z hend
    obtain ⟨new', hz⟩ := hend
    exact ⟨new ++ new', by rw [hz, List.append_assoc]⟩
  · intro e x'' z hend
    obtain ⟨new', hz, hg⟩ := hend
    refine ⟨new ++ new', by rw [hz, List.append_assoc], hg.imp_right ?_⟩
    rintro ⟨k, hk, hn⟩
    exact ⟨k, List.mem_append_right new hk, hn⟩

theorem ite {c : Prop} [Decidable c] {m n : Ship α} (hm : FailsBy G m) (hn : FailsBy G n) :
    FailsBy G (if c then m else n) := by
  by_cases hc : c
  · rw [if_pos hc]
    exact hm
  · rw [if_neg hc]
    exact hn

theorem pure (a : α) : FailsBy G (Pure.pure a : Ship α) := ⟨⟨[], (List.append_nil _).symm⟩⟩

theorem fail {e : Failure} (h : G e) : FailsBy G (Ship.fail e : Ship α) :=
  ⟨⟨[], (List.append_nil _).symm, .inl h⟩⟩

theorem enter (step : Step) : FailsBy G (Ship.enter step) :=
  ⟨ensures_enter.mpr ⟨[], (List.append_nil _).symm⟩⟩

theorem ask (c : Call) : FailsBy G (Ship.ask c) := by
  refine ⟨fun {σ W x l s} => ?_⟩
  intro r _ hend
  obtain ⟨s', -, rfl⟩ := hend
  cases r with
  | ok a => exact ⟨_, rfl⟩
  | error e =>
      refine ⟨_, rfl, .inr ⟨_, List.mem_singleton.mpr rfl, Moment.not_answered.mpr ⟨e, rfl⟩⟩⟩

theorem execute (a : Action) : FailsBy G (Ship.execute a) := by
  refine ⟨fun {σ W x l s} => ensures_execute.mpr ?_⟩
  intro r _ hend
  obtain ⟨s', -, rfl⟩ := hend
  cases r with
  | ok v => exact ⟨_, rfl⟩
  | error e =>
      refine ⟨_, rfl, .inr ⟨_, List.mem_singleton.mpr rfl, Moment.not_answered.mpr ⟨e, rfl⟩⟩⟩

theorem stepsBack (cp : Checkpoint) : FailsBy G (Ship.stepsBack cp) := by
  have leave : FailsBy G (Ship.leave cp) := (ask _).bind fun _ => ask _
  exact .ite ((ask _).bind fun _ => leave) leave

theorem commitChanges (d : Description) (branch : String) :
    FailsBy (· = .emptyCommit branch) (Ship.commitChanges d branch) := by
  refine ((ask _).bind fun _ => pure _).bind fun dirty => .ite ?_ (pure false)
  refine (enter _).bind fun _ => (execute _).bind fun _ => (ask _).bind fun staged => ?_
  exact .ite ((execute _).bind fun _ => pure true) (fail rfl)

/-- A branch is pushed unless a call fails or there is nothing to commit. -/
theorem commitAndPush (d : Description) (branch : String) :
    FailsBy (· = .emptyCommit branch) (Ship.commitAndPush d branch) := by
  refine (commitChanges d branch).bind fun committed => (enter _).bind fun _ => ?_
  exact (execute _).bind fun _ => pure committed

end FailsBy

variable {W : Surroundings shipping σ} {x : Session} {l : List (Moment shipping σ)} {s : σ}

theorem ensures_commitAndPush_pushed {d : Description} {branch : String} :
    (commitAndPush d branch).Ensures W.logged (fun _ _ z => Pushed z.1) (fun _ _ _ => True)
      x (l, s) := by
  refine (FailsBy.commitChanges d branch).blames.bind (fun _ _ _ _ => trivial) ?_
  intro committed x₁ z _
  obtain ⟨l₁, s₁⟩ := z
  refine ensures_bind.mpr (ensures_enter.mpr ?_)
  refine ensures_execute_log.bind (fun _ _ _ _ => trivial) ?_
  rintro _ x₂ ⟨_, s₂⟩ ⟨m, rfl, hc, ha⟩
  exact ⟨m, List.mem_append_right _ (List.mem_singleton.mpr rfl), by rw [hc]; rfl, ha⟩

theorem isPush_of_commits {c : Call} {message : String} (h : c.Commits message) :
    c.isPush = false := by
  rcases h with h | rfl | rfl
  · cases c <;> first | rfl | cases h
  · rfl
  · rfl

/-- A push that is answered ends the piece, so the piece has not pushed if it fails. -/
theorem ensures_commitAndPush_unpushed {d : Description} {branch : String} :
    (commitAndPush d branch).Ensures W.logged (fun _ _ _ => True)
      (fun _ _ z => ∃ new, z.1 = l ++ new ∧ ¬Pushed new) x (l, s) := by
  refine (footprint_commitChanges d branch).uses.logs.bind ?_ ?_
  · rintro e x₁ z ⟨new, hz, hn⟩
    exact ⟨new, hz, not_pushed_of_forall fun k hk => isPush_of_commits (hn k hk)⟩
  · rintro committed x₁ ⟨_, s₁⟩ ⟨new, rfl, hn⟩
    refine ensures_bind.mpr (ensures_enter.mpr ?_)
    refine ensures_execute_log.bind ?_ fun _ _ _ _ => trivial
    rintro e x₂ ⟨_, s₂⟩ ⟨m, rfl, hf⟩
    refine ⟨_, List.append_assoc .., ?_⟩
    rw [pushed_append, not_or]
    refine ⟨not_pushed_of_forall fun k hk => isPush_of_commits (hn k hk), ?_⟩
    rintro ⟨k, hk, -, ha⟩
    cases List.mem_singleton.mp hk
    exact hf ha

/-- The log of a way back shows whether it was complete. -/
theorem ensures_rollback_log {cp : Checkpoint} (hx : x.checkpoint = some cp) :
    rollback.Ensures W.logged
      (fun n _ z => ∃ new, z.1 = l ++ new ∧ (∀ k ∈ new, k.call.undoes = true) ∧
        ((∀ k ∈ new, k.Answered) ↔ n.isSome = true))
      (fun _ _ _ => False) x (l, s) := by
  refine ensures_bind.mpr (ensures_session.mpr ?_)
  rw [hx]
  refine ensures_bind.mpr (ensures_disarm.mpr (ensures_bind.mpr (ensures_bind.mpr ?_)))
  refine ensures_attempt.mpr ?_
  have hsteps := (FailsBy.stepsBack (G := fun _ => False) cp).blames (W := W)
    (x := { x with checkpoint := none }) (l := l) (s := s)
  have hprint := (footprint_stepsBack cp).halts (W := W) (x := { x with checkpoint := none })
    (l := l) (s := s)
  refine ((hsteps.and hprint).and (footprint_stepsBack cp).uses.logs).mono ?_ ?_
  · intro _ x' z hend
    obtain ⟨⟨-, -, new, hz, hn⟩, new', hz', hu⟩ := hend
    cases List.append_cancel_left (hz.symm.trans hz')
    exact ⟨new, hz, hu, fun _ => rfl, fun _ => hn⟩
  · intro e x' z hend
    obtain ⟨⟨⟨new, hz, hn⟩, -⟩, new', hz', hu⟩ := hend
    cases List.append_cancel_left (hz.symm.trans hz')
    obtain ⟨k, hk, hn⟩ := hn.resolve_left id
    exact ⟨new, hz, hu, fun h => absurd (h k hk) hn, fun h => by cases h⟩

end Any

/-! ## Cutting a branch and going back -/

open Site Repository

/-- A branch that is undone leaves the branches as they were. -/
theorem undone_of_progress {r repo : Repository} {message branch prior : String} {b : Bool}
    {h : History} (hp : (r.createBranch branch).Progress message branch b repo)
    (hfree : r.branches.get? branch = none) (hne : r.head ≠ []) (hd : r.head.Nodup)
    {cp : Checkpoint} (hcp : cp = ⟨prior, branch, r.head.getLastD "", b⟩)
    (hu : cp.committed = true → upTo? cp.start repo.head = some h) :
    (undone cp h repo).branches = r.branches ∧ (undone cp h repo).tracking = r.tracking ∧
      (undone cp h repo).remote = r.remote := by
  subst hcp
  cases hp with
  | untouched => exact ⟨Table.erase_set hfree _, rfl, rfl⟩
  | staged hcl => exact ⟨Table.erase_set hfree _, rfl, rfl⟩
  | committed hcl =>
      have hcut : (r.createBranch branch).head = r.head :=
        head_eq rfl (Table.get?_set_self _ _ _)
      have hhead : ((r.createBranch branch).committed branch message).head =
          (r.createBranch branch).head ++ [(r.createBranch branch).nextId] :=
        head_eq rfl (Table.get?_set_self _ _ _)
      have hh := hu rfl
      rw [hhead, hcut, upTo?_getLastD hne hd] at hh
      cases hh
      refine ⟨?_, rfl, rfl⟩
      show ((((r.branches.set branch r.head).set branch _).set branch r.head).erase branch) = _
      rw [Table.set_set, Table.set_set, Table.erase_set hfree]

/-- A run is about to cut a branch. -/
structure BeforeCut (prior branch : String) (x : Session) (l : List (Moment shipping Site))
    (s : Site) : Prop where
  /-- It has only made calls that prepare it, and all were answered. -/
  log : ∀ k ∈ l, k.call.Prepares ∧ k.Answered
  /-- No rollback was told. -/
  quiet : x.record.notices.filter Notice.isRollback = []
  /-- `HEAD` is on the prior branch. -/
  current : s.repo.current = some prior
  /-- The name is free. -/
  free : s.repo.branches.get? branch = none
  /-- There are commits. -/
  head : s.repo.head ≠ []
  /-- The histories are tidy. -/
  tidy : s.repo.Tidy

/-- If a run that failed cut a branch and did not push, it went back. -/
def GoesBack (l : List (Moment shipping Site)) (e : Failure) (x : Session) (s : Site) : Prop :=
  ∀ m ∈ l, ∀ branch, m.call = .createBranch branch → m.Answered → ¬Pushed l →
    ∃ prior done undo, l = done ++ undo ∧ WentBack branch prior m.before done undo e x s

theorem goesBack_of_uncut {l : List (Moment shipping Site)} {e : Failure} {x : Session} {s : Site}
    (h : ∀ m ∈ l, ∀ branch, m.call = .createBranch branch → ¬m.Answered) : GoesBack l e x s :=
  fun m hm branch hc ha => absurd ha (h m hm branch hc)

theorem goesBack_of_pushed {l : List (Moment shipping Site)} {e : Failure} {x : Session} {s : Site}
    (h : Pushed l) : GoesBack l e x s := fun _ _ _ _ _ hn => absurd h hn

theorem not_createBranch_of_prepares {c : Call} (h : c.Prepares) (branch : String) :
    c ≠ .createBranch branch := by
  rintro rfl
  simp [Call.Prepares, Call.Looks, Call.Asks, Call.isQuestion] at h

theorem undoes_of_prepares {c : Call} (h : c.Prepares) : c.undoes = false := by
  rcases h with (h | ⟨branch, rfl⟩) | ⟨rev, rfl⟩
  · cases c <;> first | rfl | cases h
  · rfl
  · rfl

section Cut

variable {w : Setting} {branch prior : String} {x : Session} {l : List (Moment shipping Site)}
variable {s : Site}

/-- Going back, with the branch cut at one moment of the log. -/
theorem ensures_rollback_goesBack {message start : String} {b : Bool} {e : Failure} {x' : Session}
    {s' : Site} {forth : List (Moment shipping Site)} {m : Moment shipping Site}
    (h : BeforeCut prior branch x l s) (hm : m.before = s) (hc : m.call = .createBranch branch)
    (honly : ∀ k ∈ forth, ∀ name, k.call = .createBranch name → k = m)
    (hforth : ∀ k ∈ forth, k.call.undoes = false) (hblames : Blames branch forth e)
    (hs : start = s.repo.head.getLastD "")
    (hcut : CutAt message branch ⟨prior, branch, start, false⟩
      { s with repo := s.repo.createBranch branch } b x' s')
    (hquiet : x'.record.notices.filter Notice.isRollback = []) :
    rollback.Ensures (world True).logged (fun n x'' z => GoesBack z.1 e (x''.told n) z.2)
      (fun _ _ _ => False) x' (forth, s') := by
  have hcurrent : s'.repo.current = some branch := hcut.progress.current
  have hrollback := (ensures_rollback (F := True) hcut.checkpoint hcurrent).logged (l := forth)
  refine (hrollback.and (ensures_rollback_log hcut.checkpoint)).mono ?_ fun _ _ _ h => h.1
  intro n x'' z hend
  obtain ⟨_, s''⟩ := z
  obtain ⟨⟨rfl, hg, hn⟩, undo, rfl, hundo, hiff⟩ := hend
  intro m' hm' branch' hc' _ _
  have hm' : m' = m := by
    rcases List.mem_append.mp hm' with hk | hk
    · exact honly m' hk branch' hc'
    · have hu := hundo m' hk
      rw [hc'] at hu
      cases hu
  subst hm'
  cases hc.symm.trans hc'
  have hnone : ∀ k ∈ x'.record.notices, k.isRollback = false := by
    simpa [List.filter_eq_nil_iff] using hquiet
  refine ⟨prior, forth, undo, rfl, hm ▸ h.current, hforth, hundo, hblames, fun hall => ?_,
    fun hstuck => ?_⟩
  · obtain ⟨rfl, k, hu, hr⟩ := hn (hiff.mp hall)
    subst hs
    obtain ⟨hbr, htr, hre⟩ :=
      undone_of_progress hcut.progress h.free h.head h.tidy.head.1 rfl hu
    rw [hm]
    refine ⟨⟨?_, ?_, ?_, ?_, hg.host.trans hcut.host⟩, ?_⟩
    · rw [hr, h.current]
      rfl
    · rw [hr]
      exact hbr
    · rw [hr]
      exact htr
    · rw [hr]
      exact hre
    · simp [Session.told]
  · cases n with
    | none => exact hnone
    | some n =>
        obtain ⟨k, hk, hn⟩ := hstuck
        exact absurd (hiff.mpr rfl k hk) hn

theorem not_createBranch_of_ships {c : Call} {message : String} {mode : PushMode}
    (h : c.Ships message branch mode) (name : String) : c ≠ .createBranch name := by
  rintro rfl
  simp [Call.Ships, Call.Asks, Call.isQuestion] at h

theorem undoes_of_ships {c : Call} {message : String} {mode : PushMode}
    (h : c.Ships message branch mode) : c.undoes = false := by
  rcases h with h | rfl | rfl | rfl
  · cases c <;> first | rfl | cases h
  · rfl
  · rfl
  · rfl

/-- From the moment the branch is cut. -/
theorem ensures_orGoBack_goesBack {d : Description} {start : String}
    {done : List (Moment shipping Site)} {m : Moment shipping Site}
    (h : BeforeCut prior branch x l s) (hm : m.before = s) (hc : m.call = .createBranch branch)
    (ha : m.Answered) (hs : start = s.repo.head.getLastD "")
    (hdone : ∀ k ∈ done, k.call.Prepares ∧ k.Answered) :
    (commitAndPush d branch).Ensures (world True).logged (fun _ _ z => Pushed z.1)
      (fun e x z => rollback.Ensures (world True).logged
        (fun n x z => GoesBack z.1 e (x.told n) z.2) (fun e x z => GoesBack z.1 e x z.2) x z)
      { x with checkpoint := some ⟨prior, branch, start, false⟩ }
      (done ++ [m], { s with repo := s.repo.createBranch branch }) := by
  have hwork := ensures_commitAndPush (F := True) (d := d)
    (s := { s with repo := s.repo.createBranch branch })
    (x := { x with checkpoint := some ⟨prior, branch, start, false⟩ })
    ⟨prior, branch, start, false⟩ rfl rfl
  refine ((((footprint_commitAndPush d branch).along (l := done ++ [m]) hwork).and
    (FailsBy.commitAndPush d branch).blames).and ensures_commitAndPush_pushed).mono ?_ ?_
  · intro _ _ _ hend
    obtain ⟨-, hp⟩ := hend
    exact hp
  · intro e x' z hend
    obtain ⟨_, s'⟩ := z
    obtain ⟨⟨⟨⟨b, hcut⟩, hx, rest, rfl, hkinds, hhalts⟩, rest', hz, hfails⟩, -⟩ := hend
    cases List.append_cancel_left hz
    have hanswered : ∀ k ∈ done ++ [m], k.Answered :=
      List.forall_mem_append.mpr ⟨fun k hk => (hdone k hk).2, List.forall_mem_singleton.mpr ha⟩
    have honly : ∀ k ∈ done ++ [m] ++ rest, ∀ name, k.call = .createBranch name → k = m := by
      refine List.forall_mem_append.mpr ⟨List.forall_mem_append.mpr ⟨?_, ?_⟩, ?_⟩
      · exact fun k hk name e => absurd e (not_createBranch_of_prepares (hdone k hk).1 name)
      · exact fun k hk _ _ => List.mem_singleton.mp hk
      · exact fun k hk name e => absurd e (not_createBranch_of_ships (hkinds k hk) name)
    have hforth : ∀ k ∈ done ++ [m] ++ rest, k.call.undoes = false := by
      refine List.forall_mem_append.mpr ⟨List.forall_mem_append.mpr ⟨?_, ?_⟩, ?_⟩
      · exact fun k hk => undoes_of_prepares (hdone k hk).1
      · refine List.forall_mem_singleton.mpr ?_
        rw [hc]
        rfl
      · exact fun k hk => undoes_of_ships (hkinds k hk)
    have hfails' : e = .emptyCommit branch ∨ ∃ k ∈ done ++ [m] ++ rest, ¬k.Answered := by
      refine hfails.imp_right ?_
      rintro ⟨k, hk, hn⟩
      exact ⟨k, List.mem_append_right _ hk, hn⟩
    have hblames := Blames.of_halts (hhalts.append hanswered) hfails'
    exact (ensures_rollback_goesBack h hm hc honly hforth hblames hs hcut
      (hx.rollbacks.trans h.quiet)).mono (fun _ _ _ h => h) fun _ _ _ h => h.elim

/-- From the cut on, a run that failed goes back if the branch was not pushed. -/
theorem ensures_cutBranch_goesBack (h : BeforeCut w.current branch x l s) :
    (cutBranch w branch).Ensures (world True).logged (fun _ _ z => Pushed z.1)
      (fun e x' z => GoesBack z.1 e x' z.2) x (l, s) := by
  have hl : ∀ k ∈ l, ∀ name, k.call = .createBranch name → ¬k.Answered := fun k hk name hc =>
    absurd hc (not_createBranch_of_prepares (h.log k hk).1 name)
  refine ensures_cutBranch.mpr (ensures_ask.mpr ?_)
  intro r _ hend
  obtain ⟨s₁, hr | ⟨-, rfl, e, rfl⟩, rfl⟩ := hend
  · cases hr
    have hlog : ∀ k ∈ l ++ [⟨.headCommit, s, .ok (s.repo.head.getLastD ""), s⟩],
        k.call.Prepares ∧ k.Answered :=
      List.forall_mem_append.mpr
        ⟨h.log, List.forall_mem_singleton.mpr ⟨.inl (.inl rfl), _, rfl⟩⟩
    refine ensures_execute.mpr ?_
    intro r _ hend
    obtain ⟨s₂, hr | ⟨-, rfl, e, rfl⟩, rfl⟩ := hend
    · cases hr
      have h' : BeforeCut w.current branch (x.entered .creatingBranch) l s :=
        ⟨h.log, h.quiet, h.current, h.free, h.head, h.tidy⟩
      exact ensures_orGoBack_goesBack h' rfl rfl ⟨_, rfl⟩ rfl hlog
    · refine goesBack_of_uncut fun k hk name hc => ?_
      rcases List.mem_append.mp hk with hk | hk
      · exact absurd hc (not_createBranch_of_prepares (hlog k hk).1 name)
      · cases List.mem_singleton.mp hk
        exact Moment.not_answered.mpr ⟨e, rfl⟩
  · refine goesBack_of_uncut fun k hk name hc => ?_
    rcases List.mem_append.mp hk with hk | hk
    · exact hl k hk name hc
    · cases List.mem_singleton.mp hk
      cases hc

end Cut

/-! ## Whole runs -/

section Runs

variable {w : Setting} {o : Options} {x : Session} {l : List (Moment shipping Site)} {s : Site}

/-- A run that cut a branch and did not fail has pushed it. -/
def CutIsPushed (l : List (Moment shipping Site)) : Prop :=
  ∀ m ∈ l, ∀ branch, m.call = .createBranch branch → m.Answered → Pushed l

theorem goesBack_of_prepares {e : Failure} (h : ∀ k ∈ l, k.call.Prepares) : GoesBack l e x s :=
  goesBack_of_uncut fun k hk name hc => absurd hc (not_createBranch_of_prepares (h k hk) name)

theorem goesBack_entered {step : Step} {e : Failure} (h : GoesBack l e x s) :
    GoesBack l e (x.entered step) s := by
  intro m hm branch hc ha hn
  obtain ⟨prior, done, undo, hl, hb⟩ := h m hm branch hc ha hn
  exact ⟨prior, done, undo, hl, hb.current, hb.forth, hb.back, hb.blames, hb.restored, hb.stuck⟩

/-- The site and the log before a new request looks. -/
structure BeforeLook (current : String) (x : Session) (l : List (Moment shipping Site))
    (s : Site) : Prop where
  log : ∀ k ∈ l, k.call.Prepares ∧ k.Answered
  quiet : x.record.notices.filter Notice.isRollback = []
  current : s.repo.current = some current ∧ ∃ h, s.repo.branches.get? current = some h ∧ h ≠ []
  tidy : s.repo.Tidy

/-- A new request that has looked cuts a branch that it pushes or goes back from. -/
theorem ensures_shipNew_goesBack (h : BeforeLook w.current x l s) :
    (shipNew w o).Ensures (world True).logged (fun _ _ z => CutIsPushed z.1)
      (fun e x' z => GoesBack z.1 e x' z.2) x (l, s) := by
  have hprep {k : Call} (hk : Call.AsksOr (.mergeFastForward (trackingRef w.default)) k) :
      k.Prepares := by
    rcases hk with hk | rfl
    · exact .inl (.inl hk)
    · exact .inr ⟨_, rfl⟩
  obtain ⟨hc, k, hk, hne⟩ := h.current
  rw [shipNew_eq]
  refine (footprint_settleBranch.along (ensures_settleBranch_free hc hk).steadily).bind ?_ ?_
  · intro e x' z hend
    obtain ⟨_, s'⟩ := z
    obtain ⟨-, -, new, rfl, hnew, -⟩ := hend
    exact goesBack_of_prepares
      (List.forall_mem_append.mpr ⟨fun k hk => (h.log k hk).1, fun k hk => hprep (hnew k hk)⟩)
  · intro branch x₁ z hend
    obtain ⟨_, s₁⟩ := z
    obtain ⟨⟨⟨hg, hfree⟩, hs⟩, hx, new, rfl, hnew⟩ := hend
    obtain ⟨k', -, hhead, hp⟩ := hg.head hc hk
    have hcut : BeforeCut w.current branch x₁ (l ++ new) s₁ := by
      refine ⟨List.forall_mem_append.mpr ⟨h.log, fun k hk => ?_⟩, hx.rollbacks.trans h.quiet,
        hg.current.trans hc, hfree, ?_, hs.repo.tidy h.tidy⟩
      · exact ⟨hprep (hnew k hk).1, (hnew k hk).2⟩
      · rw [hhead]
        rintro rfl
        exact hne (List.prefix_nil.mp hp)
    refine (ensures_cutBranch_goesBack hcut).bind (fun _ _ _ h => h) ?_
    intro b x₂ z hpushed
    obtain ⟨l₂, s₂⟩ := z
    -- Behind the push nothing goes back, whatever becomes of the request.
    have hrest : Footprint (Call.AsksOr (.createRequest (w.draftFor branch o.draft))) (do
        let request ← requestForNew w branch o.draft
        finishShipped .newRequest branch w.base (.shipped b (some .tracking) request)) :=
      (footprint_requestForNew w branch o.draft).bind fun _ => footprint_finishShipped _ _ _ _
    have hgrown {new : List (Moment shipping Site)} : Pushed (l₂ ++ new) := by
      obtain ⟨k, hk, hpush⟩ := hpushed
      exact ⟨k, List.mem_append_left new hk, hpush⟩
    refine hrest.uses.logs.mono ?_ ?_
    · intro out x' z hend _ _ _ _ _
      obtain ⟨_, s'⟩ := z
      obtain ⟨new, rfl, -⟩ := hend
      exact hgrown
    · intro e x' z hend
      obtain ⟨_, s'⟩ := z
      obtain ⟨new, rfl, -⟩ := hend
      exact goesBack_of_pushed hgrown

/-- A new request cuts a branch that it pushes or goes back from. -/
theorem ensures_newRequest_goesBack (h : BeforeLook w.current x l s) :
    (newRequest w o).Ensures (world True).logged (fun _ _ z => CutIsPushed z.1)
      (fun e x' z => GoesBack z.1 e x' z.2) x (l, s) := by
  obtain ⟨hc, k, hk, hne⟩ := h.current
  rw [newRequest_eq]
  refine (footprint_lookNew.along ensures_lookNew.steadily).bind ?_ ?_
  · intro e x' z hend
    obtain ⟨_, s'⟩ := z
    obtain ⟨-, -, new, rfl, hnew, -⟩ := hend
    exact goesBack_of_prepares
      (List.forall_mem_append.mpr ⟨fun k hk => (h.log k hk).1, fun k hk => .inl (hnew k hk)⟩)
  · intro seen x₁ z hend
    obtain ⟨_, s₁⟩ := z
    obtain ⟨⟨⟨tracking, remote, hr⟩, hs⟩, hx, new, rfl, hnew⟩ := hend
    have hlog : ∀ k ∈ l ++ new, k.call.Prepares ∧ k.Answered :=
      List.forall_mem_append.mpr ⟨h.log, fun k hk => ⟨.inl (hnew k hk).1, (hnew k hk).2⟩⟩
    unfold shipSeen
    split
    · refine ensures_bind.mpr (ensures_enter.mpr fun m hm branch hcall => ?_)
      exact absurd hcall (not_createBranch_of_prepares (hlog m hm).1 branch)
    · refine ensures_shipNew_goesBack ⟨hlog, hx.rollbacks.trans h.quiet, ?_, hs.repo.tidy h.tidy⟩
      rw [hr]
      exact ⟨hc, k, hk, hne⟩

theorem not_createBranch_of_updates {c : Call} (h : c.Updates) (branch : String) :
    c ≠ .createBranch branch := by
  rintro rfl
  simp [Call.Updates, Call.Looks, Call.Asks, Call.isQuestion] at h

/-- A run that failed goes back from any branch that it cut and did not push. -/
theorem ensures_startWith_goesBack {accepted : Except Failure (Description × Verdict)}
    (hwf : s.repo.WellFormed) (hne : s.repo.head ≠ []) :
    (startWith accepted o).Ensures (world True).logged (fun _ _ z => CutIsPushed z.1)
      (fun e x' z => GoesBack z.1 e x' z.2) x ([], s) := by
  refine ensures_startWith.mpr ?_
  refine ((footprint_settle accepted o).along ensures_settle).mono ?_ ?_
  · intro p x₁ z hend
    obtain ⟨w, flow⟩ := p
    obtain ⟨l, s⟩ := z
    obtain ⟨⟨rfl, hfits⟩, hx, _, rfl, hnew⟩ := hend
    cases flow with
    | newRequest =>
        obtain ⟨current, h, hc, hh⟩ := hwf.onBranch
        cases hc.symm.trans hfits.current
        rw [head_eq hc hh] at hne
        refine (ensures_newRequest_goesBack (l := l) ⟨fun k hk => ?_, ?_, ⟨hc, h, hh, hne⟩,
          hwf.toTidy⟩).mono (fun _ _ _ h => h) fun _ _ _ => goesBack_entered
        · exact ⟨.inl (.inl (hnew k hk).1), (hnew k hk).2⟩
        · exact hx.rollbacks
    | updateExisting =>
        have hlogs := (footprint_updateExisting (w := w) (o := o)).uses.logs
          (W := world True) (x := x₁) (l := l) (s := s)
        have hnever {more : List (Moment shipping Site)} (hmore : ∀ m ∈ more, m.call.Updates) :
            ∀ m ∈ l ++ more, ∀ branch, m.call ≠ .createBranch branch :=
          List.forall_mem_append.mpr
            ⟨fun k hk => not_createBranch_of_prepares (.inl (.inl (hnew k hk).1)),
              fun k hk => not_createBranch_of_updates (hmore k hk)⟩
        refine hlogs.mono ?_ ?_
        · intro out x₂ z hend m hm branch hc
          obtain ⟨_, s₂⟩ := z
          obtain ⟨more, rfl, hmore⟩ := hend
          exact absurd hc (hnever hmore m hm branch)
        · intro e x₂ z hend
          obtain ⟨_, s₂⟩ := z
          obtain ⟨more, rfl, hmore⟩ := hend
          exact goesBack_of_uncut fun m hm branch hc => absurd hc (hnever hmore m hm branch)
  · intro e x₁ z hend
    obtain ⟨l, s'⟩ := z
    obtain ⟨-, -, _, rfl, hnew, -⟩ := hend
    exact goesBack_of_prepares fun k hk => .inl (.inl (hnew k hk))

end Runs

/-- A run that created its branch and did not push it fails and goes back, whatever calls
fail.  It fails with its original failure.  If no call of the way back failed, the site is
as it was when the branch was created, and the last notice says so. -/
theorem unpushed_run_goes_back (raw : String) (o : Options) (x : Session) (s : Site)
    (faults : List Fault) (hf : ∀ f ∈ faults, f.OnlyFails) (hwf : s.repo.WellFormed)
    (hne : s.repo.head ≠ []) :
    let run := (start raw o x).run answer.withFaults (faults, s)
    let log := (start raw o).logWithFaults x faults s
    ∀ m ∈ log, ∀ branch, m.call = .createBranch branch → m.Answered →
      (∀ k ∈ log, k.call.isPush = true → ¬k.Answered) →
      ∃ e prior done undo, run.value.1 = .error e ∧ log = done ++ undo ∧
        WentBack branch prior m.before done undo e run.value.2 run.world.2 := by
  rw [start_eq]
  generalize Description.accept raw o.force = accepted
  intro run log m hm branch hc ha hn
  have hrun : Ends (fun _ _ z => CutIsPushed z.1) (fun e x' z => GoesBack z.1 e x' z.2) run.value
      (log, run.world.2) := ensures_run_withFaults hf (ensures_startWith_goesBack hwf hne)
  have hn' : ¬Pushed log := by
    rintro ⟨k, hk, hpush, hans⟩
    exact hn k hk hpush hans
  rcases hv : run.value with ⟨e | out, x'⟩
  · rw [hv] at hrun
    obtain ⟨prior, done, undo, hl, hback⟩ := hrun m hm branch hc ha hn'
    exact ⟨e, prior, done, undo, rfl, hl, hback⟩
  · rw [hv] at hrun
    exact absurd (hrun m hm branch hc ha) hn'

/-- A push that fails is undone. -/
theorem unpushed_run_goes_back_changed :
    let faults := [Fault.outage fun c => c = .push "topic" .tracking]
    let run := (start "feat: add widget" { branch := some "topic" } .sample).run
      answer.withFaults (faults, .changed)
    let log := (start "feat: add widget" { branch := some "topic" }).logWithFaults .sample faults
      .changed
    ∃ m ∈ log, m.call = .createBranch "topic" ∧ ∃ e prior done undo,
      run.value.1 = .error e ∧ log = done ++ undo ∧
        WentBack "topic" prior m.before done undo e run.value.2 run.world.2 := by
  have hf : ∀ f ∈ [Fault.outage fun c => c = .push "topic" .tracking], f.OnlyFails := by
    intro f h
    cases List.mem_singleton.mp h
    exact Fault.onlyFails_outage _
  have hwf : changed.repo.WellFormed :=
    { toTidy := .of_entries (by decide +kernel), onBranch := ⟨"main", ["c0"], rfl, rfl⟩ }
  have hcut : ∃ m ∈ (start "feat: add widget" { branch := some "topic" }).logWithFaults .sample
      [.outage fun c => c = .push "topic" .tracking] .changed,
        m.call = .createBranch "topic" ∧ m.Answered := by
    decide +kernel
  have hpush : ∀ k ∈ (start "feat: add widget" { branch := some "topic" }).logWithFaults .sample
      [.outage fun c => c = .push "topic" .tracking] .changed,
        k.call.isPush = true → ¬k.Answered := by
    decide +kernel
  obtain ⟨m, hm, hc, ha⟩ := hcut
  exact ⟨m, hm, hc, unpushed_run_goes_back _ _ _ _ _ hf hwf (by decide) m hm "topic" hc ha hpush⟩

end Ship

end Shipment
