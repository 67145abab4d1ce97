import Shipment.Proofs.Clearance

/-!
# Fetched before it is read

A run reads a tracking ref of `origin` only behind a fetch of its branch.  Which branches
it has to fetch depends on the flow, on the base and on the answers, so each piece says
which of them were fetched when it is entered.

`Refreshed` has one exception.  A branch of any name can be the default one, and where
its commits are counted against `origin` the name stands for the local branch.  If that
name reads like a tracking ref, nobody has fetched what it could also mean.
-/

namespace Shipment

/-- The revisions a call reads. -/
def Call.revisions : Call → List String
  | countCommits start target | listCommits start target => [start, target]
  | isAncestor ancestor descendant => [ancestor, descendant]
  | mergeFastForward rev | rebase rev => [rev]
  | _ => []

/-- Whether a call compares a local branch with the branch of that name on `origin`. -/
def Call.Measures (branch : String) (c : Call) : Prop :=
  c = .countCommits (trackingRef branch) branch ∨ c = .listCommits (trackingRef branch) branch

/-- Whether a call, if it was answered, says that these are the current and the default
branch. -/
def Moment.Agrees (current : Option String) (default : String) : Moment shipping Unit → Prop
  | ⟨.currentBranch, _, .ok branch, _⟩ => branch = current
  | ⟨.defaultBranch, _, .ok branch, _⟩ => branch = default
  | _ => True

instance (current : Option String) (default : String) (m : Moment shipping Unit) :
    Decidable (m.Agrees current default) := by
  unfold Moment.Agrees
  split <;> infer_instance

/-- A branch was fetched. -/
def Fetched (branch : String) (l : Log) : Prop := .ok (.fetch branch) () ∈ l

/-- The branch of every tracking ref that a call reads was fetched, unless it is the name
of the default branch that is compared with `origin`. -/
def Refreshed (l : Log) (c : Call) : Prop :=
  ∀ branch, trackingRef branch ∈ c.revisions → Fetched branch l ∨
    .ok .defaultBranch (trackingRef branch) ∈ l ∧ c.Measures (trackingRef branch)

/-- A call is refreshed as long as the current and the default branch stay the same. -/
def Fresh (current : Option String) (default : String) (l : Log) (c : Call) : Prop :=
  (∀ m ∈ l, m.Agrees current default) → Refreshed l c

/-- A tracking ref of a branch that was fetched. -/
def Backed (l : Log) (rev : String) : Prop := ∃ branch, rev = trackingRef branch ∧ Fetched branch l

/-- What a flow that compares with its base has to have done. -/
structure Informed (w : Setting) (l : Log) : Prop where
  current : .ok .currentBranch (some w.current) ∈ l
  default : .ok .defaultBranch w.default ∈ l
  base : Fetched w.base l
  /-- On the default branch a run compares with that branch, too. -/
  onDefault : w.current = w.default → Fetched w.default l

variable {l new : Log} {c : Call} {rev branch default : String} {current : Option String}

theorem Fetched.append (h : Fetched branch l) : Fetched branch (l ++ new) :=
  List.mem_append_left new h

theorem Fetched.last (l : Log) (branch : String) (v : Unit) :
    Fetched branch (l ++ [.ok (.fetch branch) v]) :=
  List.mem_append_right l (List.mem_singleton.mpr rfl)

theorem Backed.append (h : Backed l rev) : Backed (l ++ new) rev := by
  obtain ⟨branch, e, hf⟩ := h
  exact ⟨branch, e, hf.append⟩

theorem Informed.append {w : Setting} (h : Informed w l) : Informed w (l ++ new) where
  current := List.mem_append_left new h.current
  default := List.mem_append_left new h.default
  base := h.base.append
  onDefault hc := (h.onDefault hc).append

/-- Branches that were read twice are the same. -/
theorem Informed.agree {w : Setting} (h : Informed w l) {here : String}
    (hc : .ok .currentBranch (some here) ∈ l) (hd : .ok .defaultBranch branch ∈ l)
    (hl : ∀ m ∈ l, m.Agrees current default) : here = w.current ∧ branch = w.default := by
  have hcurrent : some here = some w.current :=
    (hl _ hc : some here = current).trans (hl _ h.current : some w.current = current).symm
  have hdefault : branch = w.default :=
    (hl _ hd : branch = default).trans (hl _ h.default : w.default = default).symm
  exact ⟨Option.some.inj hcurrent, hdefault⟩

/-! ## Calls that are refreshed -/

theorem refreshed_of_backed (h : ∀ rev ∈ c.revisions, rev = "HEAD" ∨ Backed l rev) :
    Refreshed l c := by
  intro branch hb
  rcases h _ hb with e | ⟨branch', e, hf⟩
  · exact absurd e (trackingRef_ne_head branch)
  · rw [trackingRef_inj] at e
    subst e
    exact .inl hf

/-- A comparison of the default branch with `origin`. -/
theorem refreshed_of_measures (hc : c.Measures branch) (hd : .ok .defaultBranch branch ∈ l)
    (hf : Fetched branch l) : Refreshed l c := by
  intro branch' hb
  have hrev : c.revisions = [trackingRef branch, branch] := by
    rcases hc with rfl | rfl
    · rfl
    · rfl
  rw [hrev, List.mem_pair, trackingRef_inj] at hb
  rcases hb with rfl | rfl
  · exact .inl hf
  · exact .inr ⟨hd, hc⟩

/-- A call that reads no revision is always fresh. -/
theorem fresh_of_nil (h : c.revisions = []) : Fresh current default l c :=
  fun _ => refreshed_of_backed (by simp [h])

/-- A call that compares a tracking ref with `HEAD`. -/
theorem fresh_of_backed (h : ∀ rev ∈ c.revisions, rev = "HEAD" ∨ Backed l rev) :
    Fresh current default l c :=
  fun _ => refreshed_of_backed h

namespace Ship

open Call

variable {α : Type} {w : Setting} {o : Options}
variable {accepted : Except Failure (Description × Verdict)}

/-! ## Pieces that read no revision -/

/-- Pieces that read no revision. -/
abbrev Blind (m : Ship α) : Prop := Uses (·.revisions = []) m

theorem Blind.heeds {m : Ship α} (hm : Blind m) :
    Heeds (Fresh current default) m (fun _ l' => ∃ new, l' = l ++ new) l :=
  .ofUses hm fun _ _ => fresh_of_nil

theorem Blind.keeps {m : Ship α} (hm : Blind m) {R : Log → Prop} (hl : R l)
    (hR : ∀ new, R l → R (l ++ new)) : Heeds (Fresh current default) m (fun _ => R) l := by
  refine hm.heeds.mono ?_
  rintro _ _ ⟨new, rfl⟩
  exact hR new hl

theorem blind_resolveName {d : Description} {asked : Option String} :
    Blind (resolveName d asked) := by
  have hname : Blind (chooseName d asked) := by
    cases asked with
    | none => exact fun _ => trivial
    | some name =>
        refine .ite (fun _ _ => trivial) fun _ => .bind (.ask rfl) fun valid => ?_
        exact .ite (fun _ _ => trivial) fun _ _ => trivial
  refine hname.bind fun name => .bind (.ask rfl) fun here => ?_
  refine .ite (fun _ _ => trivial) fun _ => .bind (.ask rfl) fun there => ?_
  exact .ite (fun _ _ => trivial) fun _ _ => trivial

theorem blind_execute {a : Action} (ha : a.call.revisions = []) : Blind (execute a) :=
  (Footprint.execute ha).uses

theorem blind_isDirty : Blind isDirty := .bind (.ask rfl) fun _ _ => trivial

theorem blind_commitAndPush {d : Description} : Blind (commitAndPush d branch) := by
  have hcommit : Blind (commitChanges d branch) := by
    refine blind_isDirty.bind fun dirty => .ite (fun _ => ?_) fun _ _ => trivial
    refine (footprint_enter _).uses.bind fun _ => .bind (blind_execute rfl) fun _ => ?_
    refine .bind (.ask rfl) fun staged => .ite (fun _ => ?_) fun _ _ => trivial
    exact .bind (blind_execute rfl) fun _ _ => trivial
  refine hcommit.bind fun committed => (footprint_enter _).uses.bind fun _ => ?_
  exact .bind (blind_execute rfl) fun _ _ => trivial

theorem blind_cutBranch : Blind (cutBranch w branch) :=
  .cutBranch rfl rfl blind_commitAndPush fun c hc => by cases c <;> first | rfl | cases hc

theorem blind_settleRequest {step : Step} {found : String → RequestResult} {d : RequestDraft} :
    Blind (settleRequest step found d) := by
  have hurl : Blind (openRequestUrl d.head) := .bind (.ask rfl) fun _ _ => trivial
  refine (footprint_enter _).uses.bind fun _ => hurl.bind fun url => ?_
  cases url with
  | some url => exact fun _ => trivial
  | none => exact .bind (Footprint.uses (.openRequest rfl)) fun _ _ => trivial

theorem blind_checkRequest : Blind (checkRequest branch) := by
  refine (footprint_enter _).uses.bind fun _ => .bind (.ask rfl) fun found => ?_
  cases found with
  | none => exact fun _ => trivial
  | some pr =>
      show Blind (match pr.state with | _ => _)
      cases pr.state with
      | closed => exact (footprint_notify rfl).uses
      | _ => exact fun _ => trivial

theorem blind_requireClean : Blind requireClean := by
  refine (footprint_enter _).uses.bind fun _ => blind_isDirty.bind fun dirty => ?_
  exact .ite (fun _ _ => trivial) fun _ _ => trivial

theorem blind_finish {flow : Flow} {base : String} {result : RunResult} :
    Blind (finishShipped flow branch base result) :=
  (footprint_finishShipped _ _ _ _).uses

/-! ## The new request flow -/

/-- The branches that a snapshot reads again are those of the setting. -/
theorem heeds_snapshot (hl : Informed w l) :
    Heeds (Fresh current default) (snapshot w.base) (fun _ l' => Informed w l') l := by
  have hhere : Heeds (Fresh current default) currentBranch
      (fun here l' => l' = l ++ [.ok .currentBranch (some here)]) l := by
    refine .ask_bind (fresh_of_nil rfl) fun r => ?_
    cases r with
    | some here => exact .pure rfl
    | none => exact .fail
  -- Once both are read, what is left compares with branches that were fetched.
  have hrest {l : Log} (hl : Informed w l) {f : Bool → Nat → Nat → Snapshot} :
      Heeds (Fresh current default) (do
        let dirty ← isDirty
        let ahead ← aheadOf w.base
        let behind ← behind w.base
        return f dirty ahead behind) (fun _ l' => Informed w l') l := by
    have hbase {l : Log} (hl : Informed w l) : Backed l (trackingRef w.base) := ⟨_, rfl, hl.base⟩
    refine (blind_isDirty.keeps hl fun _ h => h.append).bind fun dirty l' hl' => ?_
    refine .ask_bind (fresh_of_backed ?_) fun ahead => ?_
    · simp [revisions, hbase hl']
    · refine .ask_bind (fresh_of_backed ?_) fun behind => .pure hl'.append.append
      simp [revisions, hbase hl'.append]
  refine hhere.bind ?_
  rintro here _ rfl
  refine .ask_bind (fresh_of_nil rfl) fun default' => ?_
  have hl' : Informed w (l ++ [.ok .currentBranch (some here)] ++ [.ok .defaultBranch default']) :=
    hl.append.append
  split
  · rename_i e
    refine .ask_bind (fun hagree => ?_) fun unpushed => hrest hl'.append
    have hfirst : .ok .currentBranch (some here) ∈
        l ++ [.ok .currentBranch (some here)] ++ [.ok .defaultBranch default'] := by simp
    have hlast : .ok .defaultBranch default' ∈
        l ++ [.ok .currentBranch (some here)] ++ [.ok .defaultBranch default'] := by simp
    obtain ⟨hc, hd⟩ := hl'.agree hfirst hlast hagree
    have hf := hl'.onDefault (hc.symm.trans (e.trans hd))
    rw [← hd] at hf
    exact refreshed_of_measures (.inl rfl) hlast hf
  · exact hrest hl'

/-- Looking fetches the base before it counts the commits beside it. -/
theorem heeds_lookNew (hc : .ok .currentBranch (some w.current) ∈ l)
    (hd : .ok .defaultBranch w.default ∈ l) :
    Heeds (Fresh current default) (lookNew w) (fun _ l' => Informed w l') l := by
  refine .enter (.execute_bind (fresh_of_nil rfl) fun v => ?_)
  have hbase := Fetched.last l w.base v
  have hc' := List.mem_append_left [.ok (.fetch w.base) v] hc
  have hd' := List.mem_append_left [.ok (.fetch w.base) v] hd
  refine .when (R := fun l' => Informed w l') (fun h => ?_) (fun h => ?_)
    fun l' hl' => .enter (heeds_snapshot hl')
  · refine .execute (fresh_of_nil rfl) fun v' => ?_
    exact ⟨List.mem_append_left _ hc', List.mem_append_left _ hd', hbase.append,
      fun _ => Fetched.last _ _ v'⟩
  · refine ⟨hc', hd', hbase, fun e => ?_⟩
    have hb : w.base = w.default := by simpa [e] using h
    exact hb ▸ hbase

theorem heeds_settleBranch (hl : Informed w l) :
    Heeds (Fresh current default) (settleBranch w o) (fun _ _ => True) l := by
  refine .enter ((blind_resolveName.keeps hl fun _ h => h.append).bind fun branch l' hl' => ?_)
  refine .when (R := fun _ => True) (fun e => ?_) (fun _ => trivial) fun _ _ => .pure trivial
  have hf := hl'.onDefault e
  refine .enter (.ask_bind (fun _ => refreshed_of_measures (.inr rfl) hl'.default hf) fun _ => ?_)
  split
  · refine .execute (fresh_of_backed ?_) fun _ => trivial
    simpa [Action.call, revisions] using Or.inr ⟨w.default, rfl, hf.append⟩
  · exact .fail

theorem heeds_newRequest_fresh (hc : .ok .currentBranch (some w.current) ∈ l)
    (hd : .ok .defaultBranch w.default ∈ l) :
    Heeds (Fresh current default) (newRequest w o) (fun _ _ => True) l := by
  rw [newRequest_eq]
  refine (heeds_lookNew hc hd).bind fun seen l₁ h₁ => ?_
  unfold shipSeen
  split
  · exact (Blind.heeds (footprint_finishNoOp _ _ _ _).uses).mono fun _ _ _ => trivial
  rw [shipNew_eq]
  refine (heeds_settleBranch h₁).bind fun branch l₂ _ => ?_
  refine (Blind.heeds (blind_cutBranch.bind fun committed => ?_)).mono fun _ _ _ => trivial
  rw [requestForNew_eq]
  exact blind_settleRequest.bind fun _ => blind_finish

/-! ## The update flow -/

theorem heeds_compareWithBase_fresh {base : String} :
    Heeds (Fresh current default) (compareWithBase base o.sync)
      (fun _ l' => Fetched base l') l := by
  refine .enter (.execute_bind (fresh_of_nil rfl) fun v => ?_)
  have hbase := Fetched.last l base v
  refine .ask_bind (fresh_of_backed ?_) fun commits => ?_
  · simpa [revisions] using Or.inr ⟨base, rfl, hbase⟩
  · split
    · exact .notify hbase.append
    · exact .pure hbase.append

theorem heeds_fetchCounterpart_fresh :
    Heeds (Fresh current default) (fetchCounterpart branch)
      (fun found l' => (∃ new, l' = l ++ new) ∧ ∀ rev, found = some rev → Backed l' rev) l := by
  refine .ask_bind (fresh_of_nil rfl) fun known => ?_
  split
  · refine .execute_bind (fresh_of_nil rfl) fun v => .pure ⟨⟨_, List.append_assoc _ _ _⟩, ?_⟩
    rintro _ ⟨⟩
    exact ⟨branch, rfl, Fetched.last _ _ v⟩
  · exact .pure ⟨⟨_, rfl⟩, nofun⟩

theorem heeds_lookUpdate_fresh :
    Heeds (Fresh current default) (lookUpdate w o)
      (fun found l' => Fetched w.base l' ∧ ∀ rev, found = some rev → Backed l' rev) l := by
  refine blind_checkRequest.heeds.bind fun _ l₁ _ => ?_
  refine heeds_compareWithBase_fresh.bind fun _ l₂ h₂ => ?_
  refine .when (fun _ => blind_requireClean.keeps h₂ fun _ h => h.append) (fun _ => h₂) ?_
  intro l₃ h₃
  refine heeds_fetchCounterpart_fresh.mono ?_
  rintro found _ ⟨⟨new, rfl⟩, hfound⟩
  exact ⟨h₃.append, hfound⟩

/-- A rebase reads only its base and the counterpart of its branch, which were fetched. -/
theorem heeds_rebaseOnto_fresh {base : String} {found : Option String} (hbase : Fetched base l)
    (hfound : ∀ rev, found = some rev → Backed l rev) :
    Heeds (Fresh current default) (rebaseOnto branch base found) (fun _ l' => ∃ new, l' = l ++ new)
      l := by
  have hrebase {l : Log} (hbase : Fetched base l) :
      Heeds (Fresh current default) (execute (.rebase base)) (fun _ l' => ∃ new, l' = l ++ new)
        l := by
    refine .execute (fresh_of_backed ?_) fun _ => ⟨_, rfl⟩
    simpa [Action.call, revisions] using Or.inr ⟨base, rfl, hbase⟩
  cases found with
  | none => exact hrebase hbase
  | some rev =>
      refine .ask_bind (fresh_of_backed ?_) fun seen => .orElse fun _ => ?_
      · simp [revisions, hfound rev rfl]
      · refine (hrebase hbase.append).mono ?_
        rintro _ _ ⟨new, rfl⟩
        exact ⟨_, List.append_assoc _ _ _⟩

/-- An update counts its commits beside its counterpart, or beside its base.  Either was fetched. -/
theorem heeds_stageAndShip_fresh {found : Option String} (hbase : Fetched w.base l)
    (hfound : ∀ rev, found = some rev → Backed l rev) :
    Heeds (Fresh current default) (stageAndShip w o found) (fun _ _ => True) l := by
  have href : Backed l (found.getD (trackingRef w.base)) := by
    cases found with
    | none => exact ⟨w.base, rfl, hbase⟩
    | some rev => exact hfound rev rfl
  have hcount {l : Log} (h : Backed l (found.getD (trackingRef w.base))) :
      Fresh current default l (.countCommits (found.getD (trackingRef w.base)) "HEAD") :=
    fresh_of_backed (by simp [revisions, h])
  refine .enter (.execute_bind (fresh_of_nil rfl) fun _ => .ask_bind (fresh_of_nil rfl) ?_)
  intro staged
  refine .ask_bind (hcount href.append.append) fun ahead => ?_
  split
  · exact (Blind.heeds (footprint_finishNoOp _ _ _ _).uses).mono fun _ _ _ => trivial
  rw [shipUpdate_eq]
  refine Heeds.bind (R := fun _ _ => True) ?_ fun ahead' l' _ => ?_
  · unfold commitStaged
    split
    · refine .enter (.execute_bind (fresh_of_nil rfl) fun _ => ?_)
      exact .ask (hcount href.append.append.append.append) fun _ => trivial
    · exact .pure trivial
  · refine (Blind.heeds ?_).mono fun _ _ _ => trivial
    have hfinish (pushed : Option PushMode) : Blind (finishUpdate w o staged pushed) := by
      rw [finishUpdate, requestForUpdate_eq]
      exact blind_settleRequest.bind fun _ => blind_finish
    refine (footprint_enter _).uses.bind fun _ => ?_
    show Blind (match updatePushMode o.sync ahead' with | _ => _)
    cases updatePushMode o.sync ahead' with
    | none => exact hfinish none
    | some mode => exact .bind (blind_execute rfl) fun _ => hfinish _

theorem heeds_updateExisting_fresh :
    Heeds (Fresh current default) (updateExisting w o) (fun _ _ => True) l := by
  rw [updateExisting_eq]
  refine heeds_lookUpdate_fresh.bind ?_
  rintro found l₁ ⟨hbase, hfound⟩
  refine .when (R := fun l' => ∃ new, l' = l₁ ++ new)
    (fun _ => heeds_rebaseOnto_fresh hbase hfound) (fun _ => ⟨[], by simp⟩) ?_
  rintro _ ⟨new, rfl⟩
  exact heeds_stageAndShip_fresh hbase.append fun rev h => (hfound rev h).append

/-! ## Whole runs -/

theorem revisions_of_questions : ∀ c ∈ questions o, c.revisions = [] := by
  unfold questions
  cases o.base with
  | none => simp [revisions]
  | some base => simp [revisions]

theorem heeds_fresh :
    Heeds (Fresh current default) (startWith accepted o) (fun _ _ => True) [] := by
  refine heeds_startWith (fun _ c hc => fresh_of_nil (revisions_of_questions c hc)) ?_
  intro w flow hw
  cases flow with
  | newRequest => exact heeds_newRequest_fresh (by simp [clearance]) (by simp [clearance])
  | updateExisting => exact heeds_updateExisting_fresh

/-- Whatever a run is answered, if only the current and the default branch stay the same,
it fetches a branch before it reads its tracking ref. -/
theorem revisions_are_fetched (raw : String) (o : Options) (x : Session) (t : Trace shipping)
    (out : Except Failure Outcome × Session) (current : Option String) (default : String)
    (ht : Program.Runs (start raw o x) t out)
    (hagree : ∀ m ∈ t.moments, m.Agrees current default) :
    ∀ before m after, t.moments = before ++ m :: after → Refreshed before m.call := by
  rw [start_eq] at ht
  intro before m after e
  refine ((heeds_fresh x).runs ht).2 before m after e fun k hk => hagree k ?_
  rw [e]
  exact List.mem_append_left _ hk

/-- Changes on a branch with a base of its own. -/
theorem revisions_are_fetched_based :
    let based : Site := { repo := {
      current := some "topic"
      dirty := true
      branches := [("main", ["c0"]), ("topic", ["c0", "mine"])]
      tracking := [("main", ["c0"]), ("next", ["c0"])]
      remote := [("main", ["c0"]), ("next", ["c0", "c1"])]
      messages := [("c0", "initial"), ("mine", "my work"), ("c1", "next")] } }
    let run := (start "feat: add widget" { base := some "next" } .sample).run Site.answer based
    (∀ m ∈ run.trace.moments, m.Agrees (some "topic") "main") ∧
    ∃ before m after, run.trace.moments = before ++ m :: after ∧
      m.call = .countCommits (trackingRef "next") "HEAD" ∧ Fetched "next" before := by
  intro based run
  have hagree : ∀ m ∈ run.trace.moments, m.Agrees (some "topic") "main" := by decide +kernel
  have hm : ∃ m ∈ run.trace.moments, m.call = .countCommits (trackingRef "next") "HEAD" := by
    decide +kernel
  obtain ⟨m, hm, hc⟩ := hm
  obtain ⟨before, after, e⟩ := List.append_of_mem hm
  refine ⟨hagree, before, m, after, e, hc, ?_⟩
  have hf := revisions_are_fetched "feat: add widget" _ _ _ run.value _ _ (Program.run_runs ..)
    hagree before m after e "next" (by simp [hc, revisions])
  rcases hf with hf | ⟨-, hmeasures⟩
  · exact hf
  · simp [Measures, hc, trackingRef, origin] at hmeasures

/-- A default branch with the name of a tracking ref is compared with what that ref was
before the run, and the run fails over it. -/
theorem default_like_tracking_ref_not_fetched :
    let misnamed : Site := { repo := {
      default := "origin/foo"
      current := some "origin/foo"
      dirty := true
      branches := [("origin/foo", ["c0"])]
      tracking := [("foo", ["c0", "old"]), ("origin/foo", ["c0"])]
      remote := [("origin/foo", ["c0"])]
      messages := [("c0", "initial"), ("old", "old work")] } }
    let run := (start "feat: add widget" { branch := some "topic" } .sample).run Site.answer
      misnamed
    (∀ m ∈ run.trace.moments, m.Agrees (some "origin/foo") "origin/foo") ∧
    run.value.1 = .error (.unpushedCommits "origin/foo" [⟨"old", "old work"⟩]) ∧
    ¬∀ before m after, run.trace.moments = before ++ m :: after →
      ∀ branch, trackingRef branch ∈ m.call.revisions → Fetched branch before := by
  intro misnamed run
  refine ⟨by decide +kernel, by decide +kernel, fun hall => ?_⟩
  have hm : ∃ m ∈ run.trace.moments, m.call = .listCommits "origin/origin/foo" "origin/foo" := by
    decide +kernel
  obtain ⟨m, hm, hc⟩ := hm
  obtain ⟨before, after, e⟩ := List.append_of_mem hm
  have hf : Fetched "foo" before :=
    hall before m after e "foo" (by simp [hc, revisions, trackingRef, origin])
  have hnone : ∀ k ∈ run.trace.moments, k.call ≠ .fetch "foo" := by decide +kernel
  exact hnone _ (e ▸ List.mem_append_left _ hf) rfl

end Ship

end Shipment
