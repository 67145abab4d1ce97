import Shipment.Proofs.Run.Whole
import Shipment.Proofs.Shipped

/-!
# What a new request ships

A new request cuts a branch that was nowhere before.  From the default branch it has what
`origin` has there and one new commit.  From elsewhere it has what the branch had the run
started on, and a new commit if there were changes.  Either way it has a commit its base
lacks, so no request is empty, and it has no commit of the default branch that `origin`
has not seen.

`Topped` is what cutting and pushing does to the repository, and `Forwarded` what was done
before.  `Launched` puts the two together.
-/

namespace Shipment

namespace Repository

variable {r r' : Repository} {message branch : String} {committed : Bool}

/-- A new branch at `HEAD` was pushed, with a commit of the changes if there were any. -/
structure Topped (message branch : String) (r : Repository) (committed : Bool)
    (r' : Repository) : Prop where
  current : r'.current = some branch
  changed : committed = !r.isClean
  level : r'.LevelAt branch (r.head ++ if committed then [r.nextId] else [])
  message : committed = true → r'.message r.nextId = message
  branches : ∀ k, k ≠ branch → r'.branches.get? k = r.branches.get? k
  remote : ∀ k, k ≠ branch → r'.remote.get? k = r.remote.get? k

/-- What a new request has shipped on a branch. -/
structure Launched (d : Description) (o : Options) (branch : String) (committed : Bool)
    (r r' : Repository) : Prop where
  /-- The branch is new. -/
  absent : r.branches.get? branch = none ∧ r.remote.get? branch = none
  current : r'.current = some branch
  /-- On the default branch every commit but the last is one of `origin`. -/
  onDefault : r.current = some r.default → committed = true ∧ ∃ there id,
    r.remote.get? r.default = some there ∧ r'.LevelAt branch (there ++ [id]) ∧
    r.New id ∧ r'.message id = d.text ∧
    r'.branches.get? r.default = some there ∧ r'.remote.get? r.default = some there
  /-- Elsewhere the branch goes on from where the run started, and beyond its base. -/
  elsewhere : r.current ≠ some r.default → o.new = true ∧ committed = !r.isClean ∧
    ∃ h there, r'.LevelAt branch h ∧ r.remote.get? (o.base.getD r.default) = some there ∧
    (∃ id ∈ h, id ∉ there) ∧ (committed = false → h = r.head) ∧
    (committed = true → ∃ id, h = r.head ++ [id] ∧ r.New id ∧ r'.message id = d.text)
  /-- The other branches are as they were, but for the default one if the run started there. -/
  others : ∀ k, k ≠ branch → r'.remote.get? k = r.remote.get? k ∧
    (r.current ≠ some r.default ∨ k ≠ r.default → r'.branches.get? k = r.branches.get? k)

end Repository

namespace Ship

open Site Repository

variable {F : Prop} {x : Session} {s : Site} {w : Setting} {o : Options} {branch : String}
variable {accepted : Except Failure (Description × Verdict)}

/-! ## Which flow a run followed -/

theorem ensures_follow_flow {σ : Type} {W : Surroundings shipping σ} {s : σ} (flow : Flow) :
    (follow w o flow).Ensures W (fun out _ _ => out.flow = flow) (fun _ _ _ => True) x s := by
  cases flow with
  | newRequest =>
      show (newRequest w o).Ensures _ _ _ _ _
      rw [newRequest_eq]
      refine ensures_true.bind (fun _ _ _ _ => trivial) fun seen _ _ _ => ?_
      unfold shipSeen
      split
      · exact ensures_bind.mpr (ensures_enter.mpr rfl)
      · exact ensures_shipNew_outcome.mono (fun _ _ _ h => h.1) fun _ _ _ h => h
  | updateExisting =>
      exact ensures_updateExisting_outcome.mono (fun _ _ _ h => h.1) fun _ _ _ h => h

/-! ## Settling the branch -/

/-- The default branch was fast-forwarded to what was fetched, if the run is on it. -/
structure Forwarded (w : Setting) (s s' : Site) : Prop where
  onDefault : w.current = w.default → ∃ there, s.repo.tracking.get? w.default = some there ∧
    s' = { s with repo := { s.repo with branches := s.repo.branches.set w.current there } }
  away : w.current ≠ w.default → s' = s

/-- The name of the new branch stands for it and is free, here and on `origin`. -/
theorem ensures_settleBranch_forwarded (ho : ∀ name, o.branch = some name → Plain name)
    (hc : s.repo.current = some w.current) :
    (settleBranch w o).Ensures (world F)
      (fun branch _ s' => Plain branch ∧
        (s.repo.branches.get? branch = none ∧ s.repo.remote.get? branch = none) ∧
        Forwarded w s s')
      (fun _ _ _ => True) x s := by
  refine (ensures_settleBranch_of (fun _ => ensures_chooseName ho) (fun s' hd hs => ?_)
    fun hne => ⟨fun hd => absurd hd hne, fun _ => rfl⟩).mono (fun _ _ _ h => h)
      fun _ _ _ _ => trivial
  cases hs with
  | mk hc' _ ht _ =>
      cases hc'.symm.trans hc
      exact ⟨fun _ => ⟨_, ht, rfl⟩, fun hne => absurd hd hne⟩

/-! ## Cutting the branch -/

/-- A branch that was cut and pushed tops what `HEAD` was on. -/
theorem CutPushed.topped {message : String} {b : Bool} {s' : Site}
    (h : CutPushed message branch { s with repo := s.repo.createBranch branch } b s')
    (hp : Plain branch) : Topped message branch s.repo b s'.repo := by
  obtain ⟨repo, h, hprog, hcl, hv, -, rfl⟩ := h
  rw [resolve?_of_plain hp] at hv
  have hhead : (s.repo.createBranch branch).head = s.repo.head :=
    head_eq rfl (Table.get?_set_self _ _ _)
  have hlevel : LevelAt branch h { repo with
      remote := repo.remote.set branch h, tracking := repo.tracking.set branch h } :=
    ⟨hv, Table.get?_set_self _ _ _, Table.get?_set_self _ _ _⟩
  cases hprog with
  | untouched =>
      have hset : (s.repo.createBranch branch).branches.get? branch = some s.repo.head :=
        Table.get?_set_self _ _ _
      have hclean : s.repo.isClean = true := hcl rfl
      cases hv.symm.trans hset
      refine ⟨rfl, by simp [hclean], by simpa using hlevel, nofun, fun k hk => ?_, fun k hk => ?_⟩
      · exact Table.get?_set_of_ne (Ne.symm hk) _ _
      · exact Table.get?_set_of_ne (Ne.symm hk) _ _
  | staged hd => exact absurd ((hcl rfl).symm.trans hd) (by simp)
  | committed hd =>
      have hset : ((s.repo.createBranch branch).committed branch message).branches.get? branch =
          some (s.repo.head ++ [s.repo.nextId]) := by
        rw [← hhead]
        exact Table.get?_set_self _ _ _
      have hdirty : s.repo.isClean = false := hd
      cases hv.symm.trans hset
      refine ⟨rfl, by simp [hdirty], by simpa using hlevel, fun _ => message_issue _ _,
        fun k hk => ?_, fun k hk => ?_⟩
      · exact (Table.get?_set_of_ne (Ne.symm hk) _ _).trans
          (Table.get?_set_of_ne (Ne.symm hk) _ _)
      · exact Table.get?_set_of_ne (Ne.symm hk) _ _

/-! ## The flow -/

/-- On the default branch there is something to ship only if there are changes. -/
theorem dirty_of_newRequestNoOp {asked dirty : Bool} {ahead : Nat}
    (h : newRequestNoOp true asked dirty ahead = none) : dirty = true := by
  cases dirty with
  | true => rfl
  | false => cases h

/-- Elsewhere there are changes or commits that the base lacks. -/
theorem ahead_of_newRequestNoOp {onDefault dirty : Bool} {ahead : Nat}
    (h : newRequestNoOp onDefault true dirty ahead = none) : dirty = true ∨ 0 < ahead := by
  cases dirty with
  | true => exact .inl rfl
  | false =>
      cases onDefault with
      | true => cases h
      | false =>
          refine .inr (Nat.pos_of_ne_zero fun h0 => ?_)
          rw [h0] at h
          cases h

/-- What was topped on the default branch. -/
theorem launched_onDefault {s₁ s₂ : Site} {seen : Snapshot} {r' : Repository} {committed : Bool}
    (ht : s.repo.Tidy) (hfits : w.Fits accepted o s .newRequest) (hseen : Seen w s seen s₁)
    (hsome : newRequestNoOp (decide (w.current = w.default)) o.new seen.dirty seen.ahead = none)
    (hfree : s₁.repo.branches.get? branch = none ∧ s₁.repo.remote.get? branch = none)
    (hf : Forwarded w s₁ s₂) (hd : w.current = w.default)
    (h : Topped w.description.text branch s₂.repo committed r') :
    Launched w.description o branch committed s.repo r' := by
  have hdirty : s.repo.isClean = false := by
    rw [decide_eq_true hd] at hsome
    simpa [hseen.dirty] using dirty_of_newRequestNoOp hsome
  obtain ⟨there, hre, htr⟩ := hseen.default hd
  obtain ⟨tracking, rfl⟩ := hseen.looked
  obtain ⟨there', hv, rfl⟩ := hf.onDefault hd
  cases hv.symm.trans htr
  have hhead : head { s.repo with
      tracking, branches := s.repo.branches.set w.current there } = there :=
    head_eq hfits.current (Table.get?_set_self _ _ _)
  have hcommitted : committed = true := h.changed.trans (congrArg Bool.not hdirty)
  have hlevel := h.level
  rw [hhead, if_pos hcommitted] at hlevel
  have hne : s.repo.default ≠ branch := by
    rintro rfl
    rw [hfits.default, hfree.2] at hre
    cases hre
  rw [← hfits.default] at hne
  refine ⟨hfree, h.current, fun _ => ⟨hcommitted, there, _, ?_, hlevel, ht.new_nextId,
    h.message hcommitted, ?_, ?_⟩, fun hn => absurd ?_ hn, fun k hk => ⟨h.remote k hk, ?_⟩⟩
  · exact hfits.default ▸ hre
  · rw [← hfits.default, h.branches _ hne, ← hd]
    exact Table.get?_set_self _ _ _
  · rw [← hfits.default, h.remote _ hne]
    exact hre
  · rw [← hfits.default, ← hd]
    exact hfits.current
  · rintro (hn | hkd)
    · exact absurd (hfits.current.trans (by rw [hd, hfits.default])) hn
    · refine (h.branches k hk).trans (Table.get?_set_of_ne ?_ _ _)
      rw [hd, hfits.default]
      exact Ne.symm hkd

/-- What was topped elsewhere. -/
theorem launched_elsewhere {s₁ s₂ : Site} {seen : Snapshot} {r' : Repository} {committed : Bool}
    (ht : s.repo.Tidy) (hfits : w.Fits accepted o s .newRequest) (hseen : Seen w s seen s₁)
    (hsome : newRequestNoOp (decide (w.current = w.default)) o.new seen.dirty seen.ahead = none)
    (hfree : s₁.repo.branches.get? branch = none ∧ s₁.repo.remote.get? branch = none)
    (hf : Forwarded w s₁ s₂) (hd : w.current ≠ w.default)
    (h : Topped w.description.text branch s₂.repo committed r') :
    Launched w.description o branch committed s.repo r' := by
  have hnew : o.new = true := by
    have hflow := hfits.flow
    unfold Flow.select at hflow
    simpa [hd] using hflow
  obtain ⟨there, hre, htr⟩ := hseen.base
  obtain ⟨a, b, ha, hb, hcount⟩ := countCommits_eq_ok.mp hseen.ahead
  obtain ⟨tracking, rfl⟩ := hseen.looked
  obtain rfl := hf.away hd
  rw [resolve?_trackingRef] at ha
  cases ha.symm.trans htr
  have hhead : s.repo.head = b :=
    head_eq hfits.current ((resolve?_head (r := { s.repo with tracking }) hfits.current).symm.trans
      hb)
  have hcommitted : committed = !s.repo.isClean := h.changed
  have hbase : s.repo.remote.get? (o.base.getD s.repo.default) = some there := by
    rw [← hfits.default, ← hfits.base]
    exact hre
  -- The new commit is in no history, and without one some commit was ahead of the base.
  have hahead : ∃ id ∈ s.repo.head ++ (if committed then [s.repo.nextId] else []),
      id ∉ there := by
    rw [hnew, hseen.dirty] at hsome
    rcases ahead_of_newRequestNoOp hsome with hdirty | hpos
    · refine ⟨s.repo.nextId, by simp [hcommitted, hdirty], ?_⟩
      exact ht.new_nextId there (.inr (.inr ⟨_, hbase⟩))
    · rw [← hcount] at hpos
      obtain ⟨id, hid⟩ := List.exists_mem_of_length_pos hpos
      obtain ⟨hid, hnot⟩ := mem_missing.mp hid
      exact ⟨id, List.mem_append_left _ (hhead ▸ hid), hnot⟩
  refine ⟨hfree, h.current, fun hc => absurd ?_ hd, fun _ => ⟨hnew, hcommitted,
    _, there, h.level, hbase, hahead, ?_, ?_⟩, fun k hk => ⟨h.remote k hk, fun _ => ?_⟩⟩
  · rw [hfits.default]
    exact Option.some.inj (hfits.current.symm.trans hc)
  · rintro rfl
    exact List.append_nil _
  · rintro rfl
    exact ⟨_, rfl, ht.new_nextId, h.message rfl⟩
  · exact h.branches k hk

/-- A new request that ships has launched its branch. -/
theorem ensures_newRequest_launched (ht : s.repo.Tidy) (hfits : w.Fits accepted o s .newRequest)
    (ho : ∀ name, o.branch = some name → Plain name) :
    (newRequest w o).Ensures (world F)
      (fun out _ s' => ∀ committed pushed request,
        out.result = .shipped committed pushed request → pushed = some .tracking ∧
          Launched w.description o out.branch committed s.repo s'.repo)
      (fun _ _ _ => True) x s := by
  rw [newRequest_eq]
  refine ensures_lookNew_seen.bind (fun _ _ _ h => h) fun seen x₁ s₁ hseen => ?_
  unfold shipSeen
  split
  · exact ensures_bind.mpr (ensures_enter.mpr nofun)
  rename_i hsome
  have hc : s₁.repo.current = some w.current := hseen.looked.current.trans hfits.current
  rw [shipNew_eq]
  refine (ensures_settleBranch_forwarded ho hc).bind (fun _ _ _ h => h) ?_
  intro branch x₂ s₂ hend
  obtain ⟨hp, hfree, hf⟩ := hend
  refine ensures_cutBranch_world.bind (fun _ _ _ _ => trivial) fun committed x₃ s₃ hcut => ?_
  refine ensures_requestForNew.bind (fun _ _ _ _ => trivial) fun request x₄ s₄ hrequest => ?_
  refine ensures_bind.mpr (ensures_enter.mpr ?_)
  rintro _ _ _ ⟨⟩
  have htop := CutPushed.topped hcut hp
  rw [← hrequest.repo] at htop
  refine ⟨rfl, ?_⟩
  by_cases hd : w.current = w.default
  · exact launched_onDefault ht hfits hseen hsome hfree hf hd htop
  · exact launched_elsewhere ht hfits hseen hsome hfree hf hd htop

/-! ## Whole runs -/

/-- A run that ships by a new request has launched the branch of its outcome. -/
theorem ensures_startWith_launched (ht : s.repo.Tidy)
    (ho : ∀ name, o.branch = some name → Plain name) :
    (startWith accepted o).Ensures (world F)
      (fun out _ s' => out.flow = .newRequest → ∀ committed pushed request,
        out.result = .shipped committed pushed request → pushed = some .tracking ∧
          ∃ d verdict, accepted = .ok (d, verdict) ∧
            Launched d o out.branch committed s.repo s'.repo)
      (fun _ _ _ => True) x s := by
  refine ensures_startWith.mpr (ensures_settle.mono ?_ fun _ _ _ _ => trivial)
  rintro ⟨w, flow⟩ x₁ s₁ ⟨rfl, hfits⟩
  obtain ⟨verdict, hd⟩ := hfits.description
  cases flow with
  | newRequest =>
      refine (ensures_newRequest_launched ht hfits ho).mono ?_ fun _ _ _ _ => trivial
      intro out x₂ s₂ hend _ committed pushed request hresult
      obtain ⟨hpushed, hlaunched⟩ := hend committed pushed request hresult
      exact ⟨hpushed, _, verdict, hd, hlaunched⟩
  | updateExisting =>
      refine (ensures_follow_flow .updateExisting).mono ?_ fun _ _ _ _ => trivial
      intro out x₂ s₂ hflow hnew
      cases hflow.symm.trans hnew

/-- A new request that ships launches its branch, whatever the histories, the base and the
changes were. -/
theorem new_request_launches (raw : String) (o : Options) (x : Session) (s : Site)
    (ht : s.repo.Tidy) (ho : ∀ name, o.branch = some name → Plain name) :
    let run := (start raw o x).run answer s
    ∀ out committed pushed request, run.value.1 = .ok out → out.flow = .newRequest →
      out.result = .shipped committed pushed request → pushed = some .tracking ∧
        ∃ d verdict, Description.accept raw o.force = .ok (d, verdict) ∧
          Launched d o out.branch committed s.repo run.world.repo := by
  rw [start_eq]
  generalize Description.accept raw o.force = accepted
  intro run out committed pushed request hout hflow hresult
  have hlaunched := Ensures.run_ok (ensures_startWith_launched ht ho) hout
  exact hlaunched hflow committed pushed request hresult

/-- Changes on a branch beside the default one, with another base. -/
theorem new_request_launches_based :
    let based : Site := { repo := {
      current := some "mine"
      dirty := true
      branches := [("main", ["c0"]), ("mine", ["c0", "c1"])]
      remote := [("main", ["c0"]), ("next", ["c0", "c2"])]
      messages := [("c0", "initial"), ("c1", "mine"), ("c2", "theirs")] } }
    let o : Options := { new := true, branch := some "topic", base := some "next" }
    let run := (start "feat: add widget" o .sample).run answer based
    run.world.repo.remote.get? "topic" = some ["c0", "c1", "n1"] ∧
      ∃ d verdict, Description.accept "feat: add widget" false = .ok (d, verdict) ∧
        Launched d o "topic" true based.repo run.world.repo := by
  intro based o run
  have hout : run.value.1 = .ok
      { flow := .newRequest, branch := "topic", base := "next", notices := [],
        result := .shipped true (some .tracking) (.created (based.host.address ++ "100")) } := by
    decide +kernel
  have ho : ∀ name, o.branch = some name → Plain name := by
    rintro _ ⟨⟩
    decide +kernel
  have h := new_request_launches "feat: add widget" o .sample based
    (.of_entries (by decide +kernel)) ho _ _ _ _ hout rfl rfl
  exact ⟨by decide +kernel, h.2⟩

end Ship

end Shipment
