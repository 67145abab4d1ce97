import Shipment.Proofs.Run.Pieces

/-!
# The flows in parts

A flow looks before it changes anything, and then does the one thing it is about.
`newRequest_eq`, `shipNew_eq` and `updateExisting_eq` cut the flows there, so that a
proof can take the parts one by one.  An update is cut once more behind its staging.
-/

namespace Shipment.Ship

open Call

variable {w : Setting} {o : Options}

/-! ## The new request flow -/

/-- Fetch what a new request is compared with, and look at it. -/
def lookNew (w : Setting) : Ship Snapshot := do
  enter .fetchingBase
  execute (.fetch w.base)
  if decide (w.current = w.default) && w.base != w.default then execute (.fetch w.default)
  enter .inspectingTree
  snapshot w.base

/-- Settle the name of the new branch and bring the default branch up to date. -/
def settleBranch (w : Setting) (o : Options) : Ship String := do
  enter .resolvingBranchName
  let branch ← resolveName w.description o.branch
  if w.current = w.default then syncDefault w.default
  return branch

/-- Ship what was seen, if there is anything to ship. -/
def shipSeen (w : Setting) (o : Options) (seen : Snapshot) : Ship Outcome :=
  match newRequestNoOp (decide (w.current = w.default)) o.new seen.dirty seen.ahead with
  | some reason => finishNoOp .newRequest w.current w.base reason
  | none => shipNew w o

theorem newRequest_eq : newRequest w o = lookNew w >>= shipSeen w o := by
  by_cases h : (decide (w.current = w.default) && w.base != w.default) = true
  · simp only [newRequest, lookNew, LawfulMonad.bind_assoc, if_pos h]
    rfl
  · simp only [newRequest, lookNew, LawfulMonad.bind_assoc, if_neg h]
    rfl

theorem shipNew_eq : shipNew w o = (do
    let branch ← settleBranch w o
    let committed ← cutBranch w branch
    let request ← requestForNew w branch o.draft
    finishShipped .newRequest branch w.base (.shipped committed (some .tracking) request)) := by
  by_cases h : w.current = w.default
  · simp only [shipNew, settleBranch, LawfulMonad.bind_assoc, LawfulMonad.pure_bind, if_pos h]
  · simp only [shipNew, settleBranch, LawfulMonad.bind_assoc, LawfulMonad.pure_bind, if_neg h]

theorem footprint_lookNew : Footprint Looks (lookNew w) := by
  refine (footprint_enter _).bind fun _ => ?_
  refine (Footprint.execute (.inr ⟨_, rfl⟩)).bind fun _ => ?_
  refine .when (.execute (.inr ⟨_, rfl⟩)) ?_
  exact (footprint_enter _).bind fun _ => (footprint_snapshot w.base).mono fun _ => .inl

theorem footprint_settleBranch :
    Footprint (AsksOr (.mergeFastForward (trackingRef w.default))) (settleBranch w o) := by
  refine (footprint_enter _).bind fun _ => ?_
  refine (footprint_resolveName _ _).asksOr.bind fun branch => ?_
  exact .when (footprint_syncDefault _) (.pure branch)

/-! ## The update flow -/

/-- Look at the branch and fetch what it is compared with. -/
def lookUpdate (w : Setting) (o : Options) : Ship (Option String) := do
  checkRequest w.current
  compareWithBase w.base o.sync
  if o.sync then requireClean
  fetchCounterpart w.current

/-- Stage everything, and ship it if there is anything to ship. -/
def stageAndShip (w : Setting) (o : Options) (counterpart : Option String) : Ship Outcome := do
  enter .staging
  execute .stageAll
  let staged ← ask .hasStagedChanges
  let reference := counterpart.getD (trackingRef w.base)
  let ahead ← ask (.countCommits reference "HEAD")
  if updateIsNoOp staged ahead o.sync then
    finishNoOp .updateExisting w.current w.base .nothingToPush
  else
    shipUpdate w o reference staged ahead

theorem updateExisting_eq : updateExisting w o = (do
    let counterpart ← lookUpdate w o
    if o.sync then rebaseOnto w.current w.base counterpart
    stageAndShip w o counterpart) := by
  by_cases h : o.sync = true
  · simp only [updateExisting, lookUpdate, stageAndShip, LawfulMonad.bind_assoc, if_pos h]
  · simp only [updateExisting, lookUpdate, stageAndShip, LawfulMonad.bind_assoc, if_neg h]

/-- Ship what was staged, if there is anything to ship. -/
def shipStaged (w : Setting) (o : Options) (counterpart : Option String) : Ship Outcome := do
  let staged ← ask .hasStagedChanges
  let reference := counterpart.getD (trackingRef w.base)
  let ahead ← ask (.countCommits reference "HEAD")
  if updateIsNoOp staged ahead o.sync then
    finishNoOp .updateExisting w.current w.base .nothingToPush
  else
    shipUpdate w o reference staged ahead

theorem stageAndShip_eq {counterpart : Option String} : stageAndShip w o counterpart = (do
    enter .staging
    execute .stageAll
    shipStaged w o counterpart) := rfl

/-- Push what there is to push and settle the request. -/
def pushUpdate (w : Setting) (o : Options) (staged : Bool) (ahead : Nat) : Ship Outcome := do
  enter .pushingUpdate
  let pushed := updatePushMode o.sync ahead
  match pushed with
  | some mode => execute (.push w.current mode)
  | none => pure ()
  let request ← requestForUpdate w o.draft
  finishShipped .updateExisting w.current w.base (.shipped staged pushed request)

theorem shipUpdate_eq {reference : String} {staged : Bool} {ahead : Nat} :
    shipUpdate w o reference staged ahead =
      commitStaged w.description reference staged ahead >>= pushUpdate w o staged := rfl

/-- Settle the request of an update and end it. -/
def finishUpdate (w : Setting) (o : Options) (staged : Bool) (pushed : Option PushMode) :
    Ship Outcome := do
  let request ← requestForUpdate w o.draft
  finishShipped .updateExisting w.current w.base (.shipped staged pushed request)

theorem pushUpdate_of_none {staged : Bool} {ahead : Nat}
    (h : updatePushMode o.sync ahead = none) : pushUpdate w o staged ahead = (do
      enter .pushingUpdate
      finishUpdate w o staged none) := by
  rw [pushUpdate, h]
  rfl

theorem pushUpdate_of_some {staged : Bool} {ahead : Nat} {mode : PushMode}
    (h : updatePushMode o.sync ahead = some mode) : pushUpdate w o staged ahead = (do
      enter .pushingUpdate
      execute (.push w.current mode)
      finishUpdate w o staged (some mode)) := by
  rw [pushUpdate, h]
  rfl

theorem footprint_finishUpdate {staged : Bool} {pushed : Option PushMode} :
    Footprint (AsksOr (.createRequest (w.draftFor w.current o.draft)))
      (finishUpdate w o staged pushed) :=
  (footprint_requestForUpdate w o.draft).bind fun _ => footprint_finishShipped _ _ _ _

theorem footprint_pushUpdate {staged : Bool} {ahead : Nat} :
    Footprint Afar (pushUpdate w o staged ahead) := by
  have finish (pushed : Option PushMode) : Footprint Afar (finishUpdate w o staged pushed) := by
    refine footprint_finishUpdate.mono fun c hc => ?_
    rcases hc with hc | rfl
    · exact .inl (.inl hc)
    · exact .inr (.inr ⟨_, rfl⟩)
  refine (footprint_enter _).bind fun _ => ?_
  cases updatePushMode o.sync ahead with
  | none => exact finish none
  | some mode => exact (Footprint.execute (.inr (.inl ⟨_, _, rfl⟩))).bind fun _ => finish _

theorem footprint_lookUpdate : Footprint Looks (lookUpdate w o) := by
  have fetch {α : Type} {m : Ship α} {branch : String} (h : Footprint (AsksOr (.fetch branch)) m) :
      Footprint Looks m := h.mono fun c hc => hc.imp_right fun e => ⟨branch, e⟩
  refine ((footprint_checkRequest _).mono fun _ => .inl).bind fun _ => ?_
  refine (fetch (footprint_compareWithBase _ _)).bind fun _ => ?_
  exact .when (footprint_requireClean.mono fun _ => .inl) (fetch (footprint_fetchCounterpart _))

/-- An update that has looked makes only calls of an update. -/
theorem footprint_stageAndShip {counterpart : Option String} :
    Footprint Updates (stageAndShip w o counterpart) := by
  refine (footprint_enter _).bind fun _ => ?_
  refine (Footprint.execute (.inr (.inr (.inl rfl)))).bind fun _ => ?_
  refine ((Footprint.question .hasStagedChanges rfl).mono fun _ h => .inl (.inl h)).bind ?_
  intro staged
  refine ((Footprint.question (.countCommits _ _) rfl).mono fun _ h => .inl (.inl h)).bind ?_
  intro ahead
  refine .ite (fun _ => footprint_finishNoOp _ _ _ _) fun _ => ?_
  rw [shipUpdate_eq]
  refine ((footprint_commitStaged _ _ _ _).mono fun c hc => ?_).bind fun ahead' => ?_
  · rcases hc with hc | rfl
    · exact .inl (.inl hc)
    · exact .inr (.inr (.inr (.inl ⟨_, rfl⟩)))
  · refine footprint_pushUpdate.mono fun c hc => ?_
    rcases hc with hc | hc | hc
    · exact .inl hc
    · exact .inr (.inr (.inr (.inr (.inl hc))))
    · exact .inr (.inr (.inr (.inr (.inr hc))))

theorem footprint_updateExisting : Footprint Updates (updateExisting w o) := by
  rw [updateExisting_eq]
  refine (footprint_lookUpdate.mono fun _ => .inl).bind fun counterpart => ?_
  refine .when ((footprint_rebaseOnto _ _ _).mono fun c hc => ?_) footprint_stageAndShip
  rcases hc with hc | rfl
  · exact .inl (.inl hc)
  · exact .inr (.inl ⟨_, rfl⟩)

/-! ## How the flows end -/

section Outcome

variable {σ : Type} {W : Surroundings shipping σ} {x : Session} {s : σ}

/-- A new branch is not a no-op. -/
theorem ensures_shipNew_outcome :
    (shipNew w o).Ensures W (fun out _ _ => out.flow = .newRequest ∧ out.isNoOp = false)
      (fun _ _ _ => True) x s := by
  rw [shipNew_eq]
  refine ensures_true.bind (fun _ _ _ _ => trivial) fun branch _ _ _ => ?_
  refine ensures_true.bind (fun _ _ _ _ => trivial) fun committed _ _ _ => ?_
  refine ensures_true.bind (fun _ _ _ _ => trivial) fun request _ _ _ => ?_
  exact ensures_bind.mpr (ensures_enter.mpr ⟨rfl, rfl⟩)

/-- An update that has something to ship is not a no-op. -/
theorem ensures_shipUpdate_outcome {reference : String} {staged : Bool} {ahead : Nat} :
    (shipUpdate w o reference staged ahead).Ensures W
      (fun out _ _ => out.flow = .updateExisting ∧ out.isNoOp = false) (fun _ _ _ => True) x s := by
  have hfinish {pushed : Option PushMode} {x : Session} {s : σ} :
      (finishUpdate w o staged pushed).Ensures W
        (fun out _ _ => out.flow = .updateExisting ∧ out.isNoOp = false)
        (fun _ _ _ => True) x s := by
    refine ensures_true.bind (fun _ _ _ _ => trivial) fun request _ _ _ => ?_
    exact ensures_bind.mpr (ensures_enter.mpr ⟨rfl, rfl⟩)
  rw [shipUpdate_eq]
  refine ensures_true.bind (fun _ _ _ _ => trivial) fun ahead' _ _ _ => ?_
  refine ensures_bind.mpr (ensures_enter.mpr ?_)
  show Ensures _ (match updatePushMode o.sync ahead' with | _ => _) _ _ _ _
  cases updatePushMode o.sync ahead' with
  | none => exact hfinish
  | some mode => exact ensures_true.bind (fun _ _ _ _ => trivial) fun _ _ _ _ => hfinish

/-- An update ends as one, and a sync is never a no-op. -/
theorem ensures_updateExisting_outcome :
    (updateExisting w o).Ensures W
      (fun out _ _ => out.flow = .updateExisting ∧ (o.sync = true → out.isNoOp = false))
      (fun _ _ _ => True) x s := by
  rw [updateExisting_eq]
  refine ensures_true.bind (fun _ _ _ _ => trivial) fun found _ _ _ => ?_
  refine Ensures.when (R := fun _ _ => True) (fun _ => ensures_true)
    (fun _ _ _ _ => trivial) (fun _ => trivial) fun _ _ _ => ?_
  refine ensures_bind.mpr (ensures_enter.mpr ?_)
  refine ensures_true.bind (fun _ _ _ _ => trivial) fun _ _ _ _ => ?_
  refine ensures_true.bind (fun _ _ _ _ => trivial) fun staged _ _ _ => ?_
  refine ensures_true.bind (fun _ _ _ _ => trivial) fun ahead _ _ _ => ?_
  split
  · rename_i hnoop
    refine ensures_bind.mpr (ensures_enter.mpr ⟨rfl, fun hsync => ?_⟩)
    simp [updateIsNoOp, hsync] at hnoop
  · exact ensures_shipUpdate_outcome.mono (fun _ _ _ h => ⟨h.1, fun _ => h.2⟩) fun _ _ _ h => h

end Outcome

end Shipment.Ship
