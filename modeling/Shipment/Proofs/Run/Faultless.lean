import Shipment.Proofs.Repository.Local
import Shipment.Proofs.Run.Whole

/-!
# Runs without faults

Without faults every call is answered from the site, so a run can be followed call by
call.  `Reaches` says how a piece ends, and has one rule for each building block.
`Gives` is the case of a piece that leaves the site alone and does not fail.
`gives_settle` is what a run settles where nothing speaks against it.
-/

namespace Shipment

namespace Ship

open Site Repository

variable {α β : Type} {s s' : Site} {P : α → Site → Prop} {E : Failure → Site → Prop}

/-- A question with its answer. -/
theorem Ensures.answered {c : Call} {v : c.Answer} {f : c.Answer → Ship α}
    {Q : α → Session → Site → Prop} {E : Failure → Session → Site → Prop} {x : Session}
    (h : answer c s = (.ok v, s)) (hf : (f v).Ensures (world False) Q E x s) :
    (Ship.ask c >>= f).Ensures (world False) Q E x s :=
  ensures_bind.mpr ((ensures_question h).mpr ⟨hf, nofun⟩)

/-- Two revisions that stand for something can be compared. -/
theorem answer_countCommits {start target : String} {a b : History}
    (ha : s.repo.resolve? start = some a) (hb : s.repo.resolve? target = some b) :
    answer (.countCommits start target) s = (.ok (missing a b).length, s) :=
  congrArg (·, s) (countCommits_eq_ok.mpr ⟨a, b, ha, hb, rfl⟩)

/-- In a run without faults the piece draws no name, and meets `P` with its value or `E`
with its failure. -/
def Reaches (s : Site) (m : Ship α) (P : α → Site → Prop) (E : Failure → Site → Prop) : Prop :=
  ∀ x, m.Ensures (world False) (fun a x' s' => x'.namer = x.namer ∧ P a s') (fun e _ s' => E e s')
    x s

/-- In a run without faults the piece leaves the site alone and gives such a value. -/
abbrev Gives (s : Site) (m : Ship α) (P : α → Prop) : Prop :=
  Reaches s m (fun a s' => P a ∧ s' = s) fun _ _ => False

namespace Reaches

/-! ## Rules -/

theorem mono {m : Ship α} {P' : α → Site → Prop} {E' : Failure → Site → Prop}
    (h : Reaches s m P E) (hP : ∀ a s', P a s' → P' a s') (hE : ∀ e s', E e s' → E' e s') :
    Reaches s m P' E' :=
  fun x => (h x).mono (fun a _ s' hend => ⟨hend.1, hP a s' hend.2⟩) fun e _ s' => hE e s'

theorem bind {m : Ship α} {f : α → Ship β} {R : α → Site → Prop} {F : Failure → Site → Prop}
    {P : β → Site → Prop} (h : Reaches s m R F) (hF : ∀ e s', F e s' → E e s')
    (hf : ∀ a s', R a s' → Reaches s' (f a) P E) : Reaches s (m >>= f) P E := by
  intro x
  refine (h x).bind (fun e _ s' => hF e s') ?_
  intro a x' s' hend
  obtain ⟨hx, hR⟩ := hend
  exact (hf a s' hR x').mono (fun _ _ _ hend => ⟨hend.1.trans hx, hend.2⟩) fun _ _ _ h => h

theorem when {c : Prop} [Decidable c] {m : Ship Unit} {k : Unit → Ship α}
    (h : c → Reaches s (m >>= k) P E) (hn : ¬c → Reaches s (k ()) P E) :
    Reaches s (if c then m >>= k else k ()) P E := by
  by_cases hc : c
  · rw [if_pos hc]
    exact h hc
  · rw [if_neg hc]
    exact hn hc

/-! ## Building blocks -/

theorem pure {a : α} (h : P a s) : Reaches s (Pure.pure a : Ship α) P E := fun _ => ⟨rfl, h⟩

theorem fail {e : Failure} (h : E e s) : Reaches s (Ship.fail e : Ship α) P E := fun _ => h

theorem enter {step : Step} {k : Unit → Ship α} (h : Reaches s (k ()) P E) :
    Reaches s (Ship.enter step >>= k) P E :=
  fun _ => ensures_bind.mpr (ensures_enter.mpr (h _))

theorem notify {n : Notice} {P : Unit → Site → Prop} (h : P () s) :
    Reaches s (Ship.notify n) P E :=
  fun _ => ensures_notify.mpr ⟨rfl, h⟩

theorem ask {c : Call} {v : c.Answer} {f : c.Answer → Ship α} (h : answer c s = (.ok v, s))
    (hf : Reaches s (f v) P E) : Reaches s (Ship.ask c >>= f) P E :=
  fun x => Ensures.answered h (hf x)

/-- A question that a piece ends with. -/
theorem ask_end {c : Call} {v : c.Answer} {P : c.Answer → Site → Prop}
    (h : answer c s = (.ok v, s)) (hP : P v s) : Reaches s (Ship.ask c) P E :=
  fun _ => (ensures_question h).mpr ⟨⟨rfl, hP⟩, nofun⟩

/-- A question that fails. -/
theorem ask_error {c : Call} {e : Failure} {f : c.Answer → Ship α}
    (h : answer c s = (.error e, s)) (hE : E e s) : Reaches s (Ship.ask c >>= f) P E := by
  intro x
  refine ensures_bind.mpr (ensures_ask_world.mpr ⟨?_, nofun⟩)
  rw [h]
  exact hE

/-- An action that succeeds. -/
theorem execute {a : Action} {v : a.call.Answer} {P : Unit → Site → Prop}
    (h : answer a.call s = (.ok v, s')) (hP : P () s') : Reaches s (Ship.execute a) P E := by
  intro x
  refine ensures_execute_world.mpr ⟨?_, nofun⟩
  rw [h]
  exact ⟨x.noted_namer a, hP⟩

theorem execute_bind {a : Action} {v : a.call.Answer} {k : Unit → Ship α}
    (h : answer a.call s = (.ok v, s')) (hk : Reaches s' (k ()) P E) :
    Reaches s (Ship.execute a >>= k) P E :=
  bind (R := fun _ s'' => s'' = s') (F := fun _ _ => False) (execute h rfl)
    (fun _ _ h => h.elim) fun _ _ e => e ▸ hk

/-- An action that fails. -/
theorem execute_error {a : Action} {e : Failure} {k : Unit → Ship α}
    (h : answer a.call s = (.error e, s)) (hE : E (a.failure e) s) :
    Reaches s (Ship.execute a >>= k) P E := by
  intro x
  refine ensures_bind.mpr (ensures_execute_world.mpr ⟨?_, nofun⟩)
  rw [h]
  exact hE

theorem fetch {branch : String} {h : History} {k : Unit → Ship α}
    (hr : s.repo.remote.get? branch = some h)
    (hk : Reaches { s with repo := { s.repo with tracking := s.repo.tracking.set branch h } }
      (k ()) P E) :
    Reaches s (Ship.execute (.fetch branch) >>= k) P E := by
  refine .execute_bind (v := ()) ?_ hk
  show s.change (s.repo.fetch branch) = _
  rw [Repository.fetch, hr]
  rfl

theorem openRequest {d : RequestDraft} {P : String → Site → Prop}
    (h : P (s.host.create d).1 { s with host := (s.host.create d).2 }) :
    Reaches s (Ship.openRequest d) P E := by
  intro x
  refine ensures_openRequest.mpr ?_
  rintro r s' (ha | ⟨hF, -⟩)
  · cases ha
    exact ⟨rfl, h⟩
  · exact hF.elim

end Reaches

theorem Gives.bind {m : Ship α} {f : α → Ship β} {R : α → Prop} {P : β → Site → Prop}
    (h : Gives s m R) (hf : ∀ a, R a → Reaches s (f a) P E) : Reaches s (m >>= f) P E := by
  refine Reaches.bind h (fun _ _ h => h.elim) ?_
  rintro a _ ⟨ha, rfl⟩
  exact hf a ha

theorem gives_currentBranch {branch : String} (hc : s.repo.current = some branch) :
    Gives s currentBranch (· = branch) :=
  .ask (congrArg (fun b => (Except.ok b, s)) hc) (.pure ⟨rfl, rfl⟩)

theorem gives_isDirty : Gives s isDirty (· = !s.repo.isClean) :=
  .ask (c := .isClean) rfl (.pure ⟨rfl, rfl⟩)

/-- A failure for a branch whose request was merged. -/
def RefusesMerged (branch : String) (s : Site) (e : Failure) : Prop :=
  ∃ pr, PullRequest.forHead branch s.host.requests = some pr ∧ pr.state = .merged ∧
    e = .mergedRequest branch (some pr.url)

theorem reaches_checkRequest {branch : String} :
    Reaches s (checkRequest branch) (fun _ s' => s' = s)
      fun e s' => s' = s ∧ RefusesMerged branch s e := by
  refine .enter (.ask (c := .findRequest branch) rfl ?_)
  cases hpr : PullRequest.forHead branch s.host.requests with
  | none => exact .pure rfl
  | some pr =>
      show Reaches s (match pr.state with | _ => _) _ _
      cases hs : pr.state with
      | merged => exact .fail ⟨rfl, pr, hpr, hs, rfl⟩
      | closed => exact .notify rfl
      | opened => exact .pure rfl
      | absent => exact .pure rfl

/-- A request that was not merged is no obstacle. -/
theorem gives_checkRequest {branch : String}
    (h : ∀ pr, PullRequest.forHead branch s.host.requests = some pr → pr.state ≠ .merged) :
    Gives s (checkRequest branch) fun _ => True := by
  refine reaches_checkRequest.mono (fun _ _ hs => ⟨trivial, hs⟩) ?_
  rintro e _ ⟨-, pr, hpr, hmerged, -⟩
  exact h pr hpr hmerged

/-- A base that is on `origin` is fetched and counted against. -/
theorem reaches_compareWithBase {branch base : String} {sync : Bool} {h onto : History}
    (hc : s.repo.current = some branch) (hh : s.repo.branches.get? branch = some h)
    (hbase : s.repo.remote.get? base = some onto) :
    Reaches s (compareWithBase base sync)
      (fun _ s' => s' = { s with repo := { s.repo with
        tracking := s.repo.tracking.set base onto } })
      fun _ _ => False := by
  refine .enter (.fetch hbase ?_)
  refine .ask (answer_countCommits (a := h) (b := onto) ?_ ?_) ?_
  · exact (resolve?_head (r := { s.repo with
      tracking := s.repo.tracking.set base onto }) hc).trans hh
  · exact (resolve?_trackingRef _ _).trans (Table.get?_set_self _ _ _)
  split
  · exact .notify rfl
  · exact .pure rfl

/-- A snapshot counts what is ahead of a base that was fetched.  On the default branch that
branch must have been fetched too. -/
theorem gives_snapshot {branch base : String} {h onto : History}
    (hc : s.repo.current = some branch) (hh : s.repo.branches.get? branch = some h)
    (hbase : s.repo.tracking.get? base = some onto)
    (hdefault : branch = s.repo.default →
      Plain branch ∧ ∃ there, s.repo.tracking.get? branch = some there) :
    Gives s (snapshot base) fun seen =>
      seen.dirty = (!s.repo.isClean) ∧ seen.ahead = (missing onto h).length := by
  have hhead := (resolve?_head hc).trans hh
  have hbase' := (resolve?_trackingRef base s.repo).trans hbase
  have hrest (unpushed : Nat) : Gives s (do
      let dirty ← isDirty
      let ahead ← aheadOf base
      let behind ← behind base
      return Snapshot.mk branch s.repo.default dirty ahead behind unpushed)
      fun seen => seen.dirty = (!s.repo.isClean) ∧ seen.ahead = (missing onto h).length := by
    refine gives_isDirty.bind ?_
    rintro _ rfl
    refine .ask (answer_countCommits hbase' hhead) (.ask (answer_countCommits hhead hbase') ?_)
    exact .pure ⟨⟨rfl, rfl⟩, rfl⟩
  refine (gives_currentBranch hc).bind ?_
  rintro _ rfl
  refine .ask (c := .defaultBranch) rfl ?_
  split
  · rename_i hd
    obtain ⟨hp, there, hthere⟩ := hdefault hd
    rw [hd] at hp hh hthere
    exact .ask (answer_countCommits ((resolve?_trackingRef _ s.repo).trans hthere)
      ((resolve?_of_plain hp s.repo).trans hh)) (hrest _)
  · exact hrest 0

/-- What a branch is compared with was fetched, if `origin` has the branch. -/
inductive Counterpart (branch : String) (s : Site) : Option String → Site → Prop where
  | missing : s.repo.remote.get? branch = none → Counterpart branch s none s
  | fetched {there : History} : s.repo.remote.get? branch = some there →
      Counterpart branch s (some (trackingRef branch))
        { s with repo := { s.repo with tracking := s.repo.tracking.set branch there } }

theorem reaches_fetchCounterpart {branch : String} :
    Reaches s (fetchCounterpart branch) (Counterpart branch s) fun _ _ => False := by
  cases hr : s.repo.remote.get? branch with
  | none =>
      refine .ask (c := .remoteBranchExists branch) (v := false) ?_ (.pure (.missing hr))
      exact congrArg (fun b => (Except.ok b, s)) (Table.has_eq_false.mpr hr)
  | some there =>
      refine .ask (c := .remoteBranchExists branch) (v := true) ?_ ?_
      · exact congrArg (fun b => (Except.ok b, s)) (Table.has_eq_true.mpr ⟨there, hr⟩)
      · exact .fetch hr (.pure (.fetched hr))

/-- The request of a branch is found or opened. -/
theorem reaches_settleRequest {step : Step} {found : String → RequestResult} {d : RequestDraft} :
    Reaches s (settleRequest step found d) (fun _ s' => s'.repo = s.repo) fun _ _ => False := by
  refine .enter (.bind (R := fun _ s' => s' = s) (F := fun _ _ => False) ?_ (fun _ _ h => h) ?_)
  · exact .ask (c := .findRequest d.head) rfl (.pure rfl)
  rintro url _ rfl
  cases url with
  | some url => exact .pure rfl
  | none => exact .bind (.openRequest rfl) (fun _ _ h => h) fun url s' h => .pure h

/-! ## Settling -/

variable {o : Options} {accepted : Except Failure (Description × Verdict)}

theorem gives_acceptVerdict {d : Description} {verdict : Verdict}
    (h : accepted = .ok (d, verdict)) : Gives s (acceptVerdict accepted) (· = d) := by
  subst h
  refine Gives.bind (R := (· = (d, verdict))) (.pure ⟨rfl, rfl⟩) ?_
  rintro _ rfl
  refine .when (fun _ => ?_) fun _ => .pure ⟨rfl, rfl⟩
  exact Gives.bind (R := fun _ => True) (.notify ⟨trivial, rfl⟩) fun _ _ => .pure ⟨rfl, rfl⟩

theorem gives_checkPrerequisites {branch : String} (hauth : s.host.authenticated = true)
    (horigin : s.repo.hasOrigin = true) (hidle : s.repo.operation = none)
    (hc : s.repo.current = some branch) : Gives s checkPrerequisites (· = branch) := by
  refine .enter (.ask (congrArg (fun b => (Except.ok b, s)) hauth) ?_)
  refine .ask (congrArg (fun b => (Except.ok b, s)) horigin) ?_
  exact .ask (congrArg (fun b => (Except.ok b, s)) hidle) (gives_currentBranch hc)

theorem gives_resolveBase {default : String}
    (h : ∀ branch, o.base = some branch → s.repo.remote.has branch = true) :
    Gives s (resolveBase o.base default) (· = o.base.getD default) := by
  cases hb : o.base with
  | none => exact .pure ⟨rfl, rfl⟩
  | some base =>
      refine .ask (congrArg (fun b => (Except.ok b, s)) (h base hb)) ?_
      exact .pure ⟨rfl, rfl⟩

theorem gives_selectFlow {current default : String} {new : Bool} :
    Gives s (selectFlow current default new) (· = Flow.select current default new) := by
  intro x
  simp only [selectFlow, ensures_bind, ensures_enter, ensures_updateRecord, ensures_tell,
    ensures_pure, Session.entered_namer, and_self]

/-- A run settles what fits the site. -/
theorem gives_settle {w : Setting} {flow : Flow} (h : w.Fits accepted o s flow) :
    Gives s (settle accepted o) (· = (w, flow)) := by
  obtain ⟨verdict, hd⟩ := h.description
  refine (gives_acceptVerdict hd).bind ?_
  rintro _ rfl
  refine (gives_checkPrerequisites h.authenticated h.hasOrigin h.idle h.current).bind ?_
  rintro _ rfl
  refine .enter (.ask (v := w.default) ?_ ?_)
  · exact congrArg (fun b => (Except.ok b, s)) h.default.symm
  refine (gives_resolveBase h.known).bind ?_
  rintro _ rfl
  refine gives_selectFlow.bind ?_
  rintro _ rfl
  refine .pure ⟨?_, rfl⟩
  rw [← h.base, ← h.flow]

/-- A run without faults follows the flow that fits the site. -/
theorem ensures_startWith_of_fits {w : Setting} {flow : Flow} {x : Session}
    {Q : Outcome → Session → Site → Prop} {E : Failure → Session → Site → Prop}
    (h : w.Fits accepted o s flow)
    (hf : ∀ x', x'.namer = x.namer → (follow w o flow).Ensures (world False) Q
      (fun e x s => E e (x.entered .failed) s) x' s) :
    (startWith accepted o).Ensures (world False) Q E x s := by
  refine ensures_startWith.mpr ((gives_settle h x.fresh).mono ?_ fun _ _ _ h => h.elim)
  rintro _ x' _ ⟨hx, rfl, rfl⟩
  exact hf x' hx

end Ship

end Shipment
