import Shipment.Proofs.BranchName
import Shipment.Proofs.Requests
import Shipment.Proofs.Run.Cut
import Shipment.Proofs.Run.Ready

/-!
# What a run that ships ends with

Both flows end alike.  The branch is level: it has the same history here, on `origin`
and in its tracking ref.  Staging would stage nothing, and the branch has an open
request.
-/

namespace Shipment

namespace Repository

/-- The branch has one history: here, on `origin` and in its tracking ref. -/
def Level (branch : String) (r : Repository) : Prop :=
  ∃ h, r.branches.get? branch = some h ∧ r.remote.get? branch = some h ∧
    r.tracking.get? branch = some h

/-- The branch has this history: here, on `origin` and in its tracking ref. -/
def LevelAt (branch : String) (h : History) (r : Repository) : Prop :=
  r.branches.get? branch = some h ∧ r.remote.get? branch = some h ∧
    r.tracking.get? branch = some h

/-- Nothing is staged, and staging passes over what is changed. -/
def Quiet (r : Repository) : Prop := r.staged = false ∧ (r.dirty = true → r.ignored = true)

theorem quiet_of_isClean {r : Repository} (h : r.isClean = true) : r.Quiet := by
  simp only [isClean, Bool.and_eq_true, Bool.not_eq_true'] at h
  exact ⟨h.2, fun hd => by rw [h.1] at hd; cases hd⟩

end Repository

/-- A branch that was shipped. -/
structure Site.Shipped (branch : String) (s : Site) : Prop where
  current : s.repo.current = some branch
  level : s.repo.Level branch
  quiet : s.repo.Quiet
  request : PullRequest.OpenFor branch s.host.requests

/-- A branch that was pushed, with nothing to ship behind the push. -/
structure Site.Landed (branch : String) (s : Site) : Prop where
  current : s.repo.current = some branch
  level : s.repo.Level branch
  quiet : s.repo.Quiet
  clean : branch = s.repo.default → s.repo.isClean = true

/-- Away from the default branch a branch that was shipped has landed. -/
theorem Site.Shipped.landed {branch : String} {s : Site} (h : s.Shipped branch)
    (hd : branch ≠ s.repo.default) : s.Landed branch :=
  ⟨h.current, h.level, h.quiet, fun e => absurd e hd⟩

namespace Ship

open Site Repository

variable {F : Prop} {x : Session} {s : Site} {w : Setting} {o : Options}

/-- Staging when there is nothing to stage. -/
theorem stageAll_of_quiet (h : s.repo.Quiet) : answer .stageAll s = (.ok (), s) := by
  have hn : s.repo.stageAll = s.repo := by
    refine if_neg fun hd => ?_
    rw [Bool.and_eq_true, Bool.not_eq_true'] at hd
    rw [h.2 hd.1] at hd
    cases hd.2
  show s.change (.ok s.repo.stageAll) = _
  rw [hn]
  rfl

/-! ## The new request flow -/

/-- A generated name stands for its branch. -/
theorem plain_generate (description : String) (n : Namer) :
    Plain (n.generate description).1 := by
  refine ⟨fun h => ?_, fun h => ?_⟩
  · have hm := Namer.hyphen_mem_generate description n
    rw [h] at hm
    exact absurd hm (by decide)
  · have hm : '/' ∈ (n.generate description).1.toList := h.subset (by decide)
    exact absurd (Namer.mem_generate hm) (by decide)

theorem ensures_chooseName {d : Description} {asked : Option String}
    (ho : ∀ name, asked = some name → Plain name) :
    (chooseName d asked).Ensures (world F) (fun name _ s' => s' = s ∧ Plain name)
      (fun _ _ s' => s' = s) x s := by
  cases asked with
  | none => exact ⟨rfl, plain_generate d.text x.namer⟩
  | some name =>
      simp only [chooseName]
      split
      · exact rfl
      · refine ensures_bind.mpr ((ensures_question rfl).mpr ⟨?_, fun _ _ => rfl⟩)
        split
        · exact ⟨rfl, ho name rfl⟩
        · exact rfl

/-- What was changed when the branch was cut is committed. -/
theorem CutPushed.isClean {message branch : String} {b : Bool} {s' : Site}
    (h : CutPushed message branch s b s') : s'.repo.isClean = true := by
  obtain ⟨repo, h, hprog, hcl, -, -, rfl⟩ := h
  have hclean : repo.isClean = true := by
    cases hprog with
    | untouched => exact hcl rfl
    | staged hd =>
        rw [hcl rfl] at hd
        cases hd
    | committed hd => rfl
  exact hclean

/-- A branch that was cut and pushed has landed. -/
theorem CutPushed.landed {message branch : String} {b : Bool} {s' : Site}
    (h : CutPushed message branch s b s') (hc : s.repo.current = some branch)
    (hp : Plain branch) : s'.Landed branch := by
  have hclean := h.isClean
  obtain ⟨repo, h, hprog, -, hv, -, rfl⟩ := h
  rw [resolve?_of_plain hp] at hv
  exact ⟨hprog.current.trans hc, ⟨h, hv, Table.get?_set_self _ _ _, Table.get?_set_self _ _ _⟩,
    quiet_of_isClean hclean, fun _ => hclean⟩

theorem ensures_settleBranch (ho : ∀ name, o.branch = some name → Plain name) :
    (settleBranch w o).Ensures (world F)
      (fun branch _ _ => Plain branch ∧ s.repo.remote.get? branch = none)
      (fun _ _ _ => True) x s :=
  (ensures_settleBranch_of (R := fun _ => True) (fun _ => ensures_chooseName ho)
    (fun _ _ _ => trivial) fun _ => trivial).mono (fun _ _ _ h => ⟨h.1, h.2.1.2⟩)
      fun _ _ _ _ => trivial

/-- A new request that has something to ship leaves its branch shipped, or fails. -/
theorem ensures_shipNew (ho : ∀ name, o.branch = some name → Plain name)
    (hd : s.repo.remote.get? s.repo.default ≠ none) :
    (shipNew w o).Ensures (world F)
      (fun out _ s' => s'.Shipped out.branch ∧ out.branch ≠ s.repo.default)
      (fun _ _ _ => True) x s := by
  rw [shipNew_eq]
  refine (ensures_settleBranch ho).bind (fun _ _ _ h => h) ?_
  intro branch x₂ s₂ hend
  obtain ⟨hp, hr⟩ := hend
  have hne : branch ≠ s.repo.default := fun e => hd (e ▸ hr)
  refine ensures_cutBranch_world.bind (fun _ _ _ _ => trivial) ?_
  intro b x₃ s₃ hcut
  have hlanded := hcut.landed rfl hp
  refine ensures_requestForNew.bind (fun _ _ _ _ => trivial) ?_
  intro request x₄ z hend
  obtain ⟨repo, host⟩ := z
  obtain ⟨rfl, hopen⟩ := hend
  refine ensures_bind.mpr (ensures_enter.mpr ?_)
  exact ⟨⟨hlanded.current, hlanded.level, hlanded.quiet, hopen⟩, hne⟩

/-- A new request that is no no-op leaves its branch shipped, beside a base it has fetched. -/
theorem ensures_newRequest_shipped (ho : ∀ name, o.branch = some name → Plain name)
    (hd : s.repo.remote.get? s.repo.default ≠ none) :
    (newRequest w o).Ensures (world F)
      (fun out _ s' => out.isNoOp = false →
        s'.Shipped out.branch ∧ out.branch ≠ s.repo.default ∧ s'.repo.UpToDate w.base)
      (fun _ _ _ => True) x s := by
  have hbase : (newRequest w o).Ensures (world F) (fun _ _ s' => s'.repo.UpToDate w.base)
      (fun _ _ _ => True) x s :=
    ensures_bind.mpr (ensures_enter.mpr ensures_fetch)
  have hship : (newRequest w o).Ensures (world F)
      (fun out _ s' => out.isNoOp = false → s'.Shipped out.branch ∧ out.branch ≠ s.repo.default)
      (fun _ _ _ => True) x s := by
    rw [newRequest_eq]
    refine (ensures_steady _).bind (fun _ _ _ _ => trivial) fun seen x₁ s₁ hs => ?_
    unfold shipSeen
    split
    · exact ensures_bind.mpr (ensures_enter.mpr fun h => by cases h)
    · have hd₁ : s₁.repo.remote.get? s₁.repo.default ≠ none := by
        rw [hs.repo.default]
        exact hs.repo.remote _ hd
      refine (ensures_shipNew ho hd₁).mono (fun out _ s' h _ => ?_) fun _ _ _ h => h
      rw [← hs.repo.default]
      exact h
  exact (hship.and hbase).mono (fun out _ s' h hout => ⟨(h.1 hout).1, (h.1 hout).2, h.2⟩)
    fun _ _ _ _ => trivial

/-! ## The update flow -/

/-- An update stays on its branch. -/
theorem Uses.stays {α : Type} {m : Ship α} (h : Uses Call.Updates m) :
    m.Ensures (world F) (fun _ _ s' => s'.repo.current = s.repo.current)
      (fun _ _ s' => s'.repo.current = s.repo.current) x s :=
  h.onlyHead.weaken fun _ _ hs => hs.current

theorem ensures_fetchCounterpart {branch : String} :
    (fetchCounterpart branch).Ensures (world F)
      (fun counterpart _ _ => counterpart = none ∨ counterpart = some (trackingRef branch))
      (fun _ _ _ => True) x s := by
  refine ensures_bind.mpr ((ensures_question rfl).mpr ⟨?_, fun _ _ => trivial⟩)
  split
  · refine (ensures_steady _).bind (fun _ _ _ _ => trivial) fun _ _ _ _ => ?_
    exact .inr rfl
  · exact .inl rfl

/-- Looking at a branch stays on it, and finds a tracking ref to compare it with. -/
theorem ensures_lookUpdate :
    (lookUpdate w o).Ensures (world F)
      (fun counterpart _ s' => s'.repo.current = s.repo.current ∧
        ∃ branch, counterpart.getD (trackingRef w.base) = trackingRef branch)
      (fun _ _ _ => True) x s := by
  have hcounterpart : (lookUpdate w o).Ensures (world F)
      (fun counterpart _ _ => counterpart = none ∨ counterpart = some (trackingRef w.current))
      (fun _ _ _ => True) x s := by
    refine (ensures_steady _).bind (fun _ _ _ _ => trivial) fun _ x₁ s₁ _ => ?_
    refine (ensures_steady _).bind (fun _ _ _ _ => trivial) fun _ x₂ s₂ _ => ?_
    refine Ensures.when (R := fun _ _ => True) (fun _ => ?_) (fun _ _ _ h => h)
      (fun _ => trivial) fun _ _ _ => ensures_fetchCounterpart
    exact (ensures_steady _).mono (fun _ _ _ _ => trivial) fun _ _ _ _ => trivial
  have hstays : Uses Call.Updates (lookUpdate w o) := footprint_lookUpdate.uses.mono fun _ => .inl
  refine (hstays.stays.and hcounterpart).mono ?_ fun _ _ _ _ => trivial
  intro counterpart x' s' hend
  obtain ⟨hs, rfl | rfl⟩ := hend
  · exact ⟨hs, w.base, rfl⟩
  · exact ⟨hs, w.current, rfl⟩

/-- A commit puts the branch ahead of every tracking ref. -/
theorem count_pos_of_committed {r : Repository} (ht : r.Tidy) {current message branch : String}
    {n : Nat} (hc : r.current = some current)
    (hn : (r.committed current message).countCommits (trackingRef branch) "HEAD" = .ok n) :
    0 < n := by
  obtain ⟨a, b, ha, hb, rfl⟩ := countCommits_eq_ok.mp hn
  rw [resolve?_trackingRef] at ha
  rw [resolve?_head (r := r.committed current message) hc] at hb
  have hb : r.head ++ [r.nextId] = b :=
    Option.some.inj ((Table.get?_set_self _ _ _).symm.trans hb)
  have hnew : r.nextId ∉ a := ht.unused a (.inr (.inl ⟨branch, ha⟩)) _ (Nat.lt_succ_self _)
  refine List.length_pos_of_mem (a := r.nextId) (mem_missing.mpr ⟨?_, hnew⟩)
  rw [← hb]
  exact List.mem_append_right _ (List.mem_singleton.mpr rfl)

/-- Once what is staged is committed, nothing is, and the branch is ahead if there was anything. -/
theorem ensures_commitStaged {d : Description} {branch current : String} {ahead : Nat}
    (hc : s.repo.current = some current) (hq : s.repo.staged = false → s.repo.Quiet) :
    (commitStaged d (trackingRef branch) s.repo.staged ahead).Ensures (world F)
      (fun ahead' _ s' => s'.repo.current = some current ∧ s'.repo.Quiet ∧
        (s.repo.staged = false → ahead' = ahead) ∧
        (s.repo.Tidy → s.repo.staged = true → 0 < ahead'))
      (fun _ _ _ => True) x s := by
  unfold commitStaged
  split
  · rename_i hs
    refine ensures_bind.mpr (ensures_enter.mpr (ensures_bind.mpr ?_))
    refine .execute (by simp [Action.call]) fun r repo he => ?_
    cases he with
    | failed e => trivial
    | asked a hq => cases hq
    | detached e hn => cases hn.symm.trans hc
    | committed hs' hc' =>
        cases hc'.symm.trans hc
        refine ensures_ask_world.mpr ⟨?_, fun _ _ => trivial⟩
        show Ends _ _ ((s.repo.committed current d.text).countCommits _ _, _) _
        cases hn : (s.repo.committed current d.text).countCommits (trackingRef branch) "HEAD" with
        | error e => trivial
        | ok n =>
            refine ⟨hc, ⟨rfl, fun h => by cases h⟩, fun h => ?_, fun ht _ => ?_⟩
            · rw [hs] at h
              cases h
            · exact count_pos_of_committed ht hc hn
  · rename_i hs
    rw [Bool.not_eq_true] at hs
    exact ⟨hc, hq hs, fun _ => rfl, fun _ h => by rw [hs] at h; cases h⟩

/-- An update that has something to ship is pushed. -/
theorem updatePushMode_isSome {staged sync : Bool} {ahead ahead' : Nat}
    (h : updateIsNoOp staged ahead sync = false) (hunstaged : staged = false → ahead' = ahead)
    (hstaged : staged = true → 0 < ahead') : ∃ mode, updatePushMode sync ahead' = some mode := by
  unfold updatePushMode
  cases sync with
  | true => exact ⟨_, rfl⟩
  | false =>
      have hpos : 0 < ahead' := by
        cases staged with
        | true => exact hstaged rfl
        | false =>
            rw [hunstaged rfl]
            refine Nat.pos_of_ne_zero fun h0 => ?_
            rw [h0] at h
            cases h
      exact ⟨.tracking, by simp [hpos]⟩

theorem ensures_push {branch : String} {mode : PushMode} (hp : Plain branch) :
    (execute (.push branch mode)).Ensures (world F)
      (fun _ _ s' => s'.repo.Level branch ∧ s'.repo.current = s.repo.current ∧
        (s.repo.Quiet → s'.repo.Quiet))
      (fun _ _ _ => True) x s := by
  refine .execute (by simp [Action.call]) fun r repo he => ?_
  cases he with
  | failed e => trivial
  | asked a hq => cases hq
  | @pushed _ _ h hv hf =>
      rw [resolve?_of_plain hp] at hv
      exact ⟨⟨h, hv, Table.get?_set_self _ _ _, Table.get?_set_self _ _ _⟩, rfl, id⟩

/-- An update that has something to push leaves its branch shipped, or fails. -/
theorem ensures_shipUpdate {branch : String} {ahead : Nat} (ht : s.repo.Tidy)
    (hc : s.repo.current = some w.current) (hp : Plain w.current)
    (hq : s.repo.staged = false → s.repo.Quiet)
    (hsome : updateIsNoOp s.repo.staged ahead o.sync = false) :
    (shipUpdate w o (trackingRef branch) s.repo.staged ahead).Ensures (world F)
      (fun out _ s' => s'.Shipped out.branch ∧ out.branch = w.current)
      (fun _ _ _ => True) x s := by
  refine (ensures_commitStaged hc hq).bind (fun _ _ _ h => h) ?_
  intro ahead' x₁ s₁ hend
  obtain ⟨hc₁, hq₁, hunstaged, hstaged⟩ := hend
  refine ensures_bind.mpr (ensures_enter.mpr ?_)
  obtain ⟨mode, hmode⟩ := updatePushMode_isSome hsome hunstaged (hstaged ht)
  simp only [hmode]
  refine (ensures_push hp).bind (fun _ _ _ h => h) ?_
  intro u x₂ s₂ hend
  obtain ⟨hl, hc₂, hq₂⟩ := hend
  refine ensures_requestForUpdate.bind (fun _ _ _ _ => trivial) ?_
  intro request x₃ z hend
  obtain ⟨repo, host⟩ := z
  obtain ⟨rfl, hopen⟩ := hend
  refine ensures_bind.mpr (ensures_enter.mpr ?_)
  exact ⟨⟨hc₂.trans hc₁, hl, hq₂ hq₁, hopen⟩, rfl⟩

theorem ensures_shipStaged {counterpart : Option String} {branch : String} (ht : s.repo.Tidy)
    (hc : s.repo.current = some w.current) (hp : Plain w.current)
    (href : counterpart.getD (trackingRef w.base) = trackingRef branch)
    (hq : s.repo.staged = false → s.repo.Quiet) :
    (shipStaged w o counterpart).Ensures (world F)
      (fun out _ s' => out.isNoOp = false → s'.Shipped out.branch ∧ out.branch = w.current)
      (fun _ _ _ => True) x s := by
  refine ensures_bind.mpr ((ensures_question rfl).mpr ⟨?_, fun _ _ => trivial⟩)
  simp only [href]
  refine (Footprint.question (.countCommits _ _) rfl).uses.asks.bind (fun _ _ _ _ => trivial) ?_
  rintro ahead x₁ _ rfl
  split
  · exact ensures_bind.mpr (ensures_enter.mpr fun h => by cases h)
  · rename_i hsome
    rw [Bool.not_eq_true] at hsome
    exact (ensures_shipUpdate ht hc hp hq hsome).mono (fun _ _ _ h _ => h) fun _ _ _ h => h

theorem ensures_stageAndShip {counterpart : Option String} {branch : String} (ht : s.repo.Tidy)
    (hc : s.repo.current = some w.current) (hp : Plain w.current)
    (href : counterpart.getD (trackingRef w.base) = trackingRef branch) :
    (stageAndShip w o counterpart).Ensures (world F)
      (fun out _ s' => out.isNoOp = false → s'.Shipped out.branch ∧ out.branch = w.current)
      (fun _ _ _ => True) x s := by
  rw [stageAndShip_eq]
  refine ensures_bind.mpr (ensures_enter.mpr (ensures_bind.mpr ?_))
  refine .execute (by simp [Action.call]) fun r repo he => ?_
  have ht' := he.tidy ht
  cases he with
  | failed e => trivial
  | asked a hq => cases hq
  | staged hd hi => exact ensures_shipStaged ht' hc hp href fun h => by cases h
  | nothing hd => exact ensures_shipStaged ht' hc hp href fun h => ⟨h, hd⟩

/-- An update that is no no-op leaves its branch shipped, beside a base it has fetched. -/
theorem ensures_updateExisting_shipped (ht : s.repo.Tidy) (hc : s.repo.current = some w.current)
    (hp : Plain w.current) :
    (updateExisting w o).Ensures (world F)
      (fun out _ s' => out.isNoOp = false →
        s'.Shipped out.branch ∧ out.branch = w.current ∧ s'.repo.UpToDate w.base)
      (fun _ _ _ => True) x s := by
  have hbase : (updateExisting w o).Ensures (world F) (fun _ _ s' => s'.repo.UpToDate w.base)
      (fun _ _ _ => True) x s := by
    rw [updateExisting_eq]
    refine ensures_lookUpdate_upToDate.bind (fun _ _ _ _ => trivial) fun _ x₁ s₁ hb => ?_
    refine (ensures_steady _).mono (fun _ _ s' hs => ?_) fun _ _ _ _ => trivial
    exact hs.repo.upToDate w.base hb
  have hship : (updateExisting w o).Ensures (world F)
      (fun out _ s' => out.isNoOp = false → s'.Shipped out.branch ∧ out.branch = w.current)
      (fun _ _ _ => True) x s := by
    rw [updateExisting_eq]
    refine ensures_lookUpdate.steadily.bind (fun _ _ _ _ => trivial) ?_
    intro counterpart x₁ s₁ hend
    obtain ⟨⟨hc₁, branch, href⟩, hs₁⟩ := hend
    refine Ensures.when (F := fun _ _ _ => True)
      (R := fun _ s' => s'.repo.Tidy ∧ s'.repo.current = some w.current) (fun _ => ?_)
      (fun _ _ _ _ => trivial) (fun _ => ⟨hs₁.repo.tidy ht, hc₁.trans hc⟩) ?_
    · have huses : Uses Call.Updates (rebaseOnto w.current w.base counterpart) :=
        (footprint_rebaseOnto _ _ _).uses.mono fun c hc =>
          hc.elim (fun h => .inl (.inl h)) fun h => .inr (.inl ⟨_, h⟩)
      refine huses.stays.steadily.mono ?_ fun _ _ _ _ => trivial
      intro u x₂ s₂ hend
      obtain ⟨hc₂, hs₂⟩ := hend
      exact ⟨hs₂.repo.tidy (hs₁.repo.tidy ht), hc₂.trans (hc₁.trans hc)⟩
    · intro x₂ s₂ hend
      obtain ⟨ht₂, hc₂⟩ := hend
      exact ensures_stageAndShip ht₂ hc₂ hp href
  exact (hship.and hbase).mono (fun out _ s' h hout => ⟨(h.1 hout).1, (h.1 hout).2, h.2⟩)
    fun _ _ _ _ => trivial

end Ship

end Shipment
