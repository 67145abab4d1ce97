import Shipment.Proofs.Run.Footprint

/-!
# The footprints of the pieces of a run

One lemma for each piece that does not go back after a failure, in the order in
which a run comes to them.  A piece that only asks has the footprint `Asks`.  Most
of the others do one thing besides, and have the footprint `AsksOr` of it.
`settleRequest` is the piece with which both flows end.
-/

namespace Shipment

namespace Ship

open Call

variable {α : Type} {w : Setting} {o : Options}

namespace Footprint

/-- A piece that only asks is of every kind that has the questions. -/
theorem asksOr {m : Ship α} {d : Call} (h : Footprint Asks m) : Footprint (AsksOr d) m :=
  h.mono fun _ => .inl

theorem question (c : Call) (h : c.Asks) : Footprint Asks (Ship.ask c) :=
  ask (funext (failure_of_asks h)) h

end Footprint

/-! ## Telling -/

theorem footprint_enter {P : Call → Prop} (step : Step) : Footprint P (enter step) := by
  refine ⟨fun _ => trivial, ?_⟩
  intro σ W x l s
  exact ensures_enter.mpr ⟨.entered step x, [], (List.append_nil l).symm, by simp⟩

theorem footprint_notify {P : Call → Prop} {n : Notice} (h : n.isRollback = false) :
    Footprint P (notify n) := by
  refine ⟨fun _ => trivial, ?_⟩
  intro σ W x l s
  exact ensures_notify.mpr ⟨.noticed h x, [], (List.append_nil l).symm, by simp⟩

theorem footprint_finishNoOp {P : Call → Prop} (flow : Flow) (branch base : String)
    (reason : NoOpReason) : Footprint P (finishNoOp flow branch base reason) :=
  (footprint_enter _).bind fun _ => Footprint.notices.bind fun _ => .pure _

theorem footprint_finishShipped {P : Call → Prop} (flow : Flow) (branch base : String)
    (result : RunResult) : Footprint P (finishShipped flow branch base result) :=
  (footprint_enter _).bind fun _ => Footprint.notices.bind fun _ => .pure _

/-! ## Looking -/

theorem footprint_currentBranch : Footprint Asks currentBranch := by
  refine (Footprint.question .currentBranch rfl).bind fun r => ?_
  cases r with
  | some branch => exact .pure branch
  | none => exact .fail _

theorem footprint_isDirty : Footprint Asks isDirty :=
  (Footprint.question .isClean rfl).bind fun _ => .pure _

theorem footprint_behind (branch : String) : Footprint Asks (behind branch) :=
  .question (.countCommits _ _) rfl

theorem footprint_snapshot (base : String) : Footprint Asks (snapshot base) := by
  refine footprint_currentBranch.bind fun current => ?_
  refine (Footprint.question .defaultBranch rfl).bind fun default => ?_
  refine .fork (.question (.countCommits _ _) rfl) (.pure 0) fun unpushed => ?_
  refine footprint_isDirty.bind fun dirty => ?_
  refine (Footprint.question (.countCommits _ _) rfl).bind fun ahead => ?_
  exact (footprint_behind base).bind fun behind => .pure _

theorem footprint_openRequestUrl (head : String) : Footprint Asks (openRequestUrl head) :=
  (Footprint.question (.findRequest head) rfl).bind fun _ => .pure _

/-! ## The request -/

/-- How both flows settle the request of a branch.  They differ in what they tell of an open
one. -/
def settleRequest (step : Step) (found : String → RequestResult) (d : RequestDraft) :
    Ship RequestResult := do
  enter step
  match ← openRequestUrl d.head with
  | some url => return found url
  | none => return .created (← openRequest d)

theorem requestForNew_eq (w : Setting) (branch : String) (draft : Bool) :
    requestForNew w branch draft =
      settleRequest .openingRequest .alreadyExists (w.draftFor branch draft) := rfl

theorem requestForUpdate_eq (w : Setting) (draft : Bool) :
    requestForUpdate w draft =
      settleRequest .finalizingRequest .updated (w.draftFor w.current draft) := rfl

theorem footprint_settleRequest (step : Step) (found : String → RequestResult)
    (d : RequestDraft) : Footprint (AsksOr (.createRequest d)) (settleRequest step found d) := by
  refine (footprint_enter _).bind fun _ => ?_
  refine (footprint_openRequestUrl d.head).asksOr.bind fun url => ?_
  cases url with
  | some url => exact .pure _
  | none => exact (Footprint.openRequest (.inr rfl)).bind fun _ => .pure _

/-! ## Before the flows -/

theorem footprint_checkPrerequisites : Footprint Asks checkPrerequisites := by
  refine (footprint_enter _).bind fun _ => ?_
  refine (Footprint.question .isAuthenticated rfl).bind fun authenticated => ?_
  refine .orElse (.fail _) ?_
  refine (Footprint.question .hasOrigin rfl).bind fun hasOrigin => ?_
  refine .orElse (.fail _) ?_
  refine (Footprint.question .operationInProgress rfl).bind fun operation => ?_
  cases operation with
  | some op => exact .fail _
  | none => exact footprint_currentBranch

theorem footprint_resolveBase (asked : Option String) (default : String) :
    Footprint Asks (resolveBase asked default) := by
  cases asked with
  | none => exact .pure default
  | some base =>
      refine (Footprint.question (.remoteBranchExists base) rfl).bind fun known => ?_
      exact .ite (fun _ => .pure base) fun _ => .fail _

theorem footprint_selectFlow (current default : String) (new : Bool) :
    Footprint Asks (selectFlow current default new) := by
  refine (footprint_enter _).bind fun _ => ?_
  refine Footprint.bind (.quiet (fun _ => rfl) fun x => ⟨rfl, rfl⟩) fun _ => ?_
  exact (Footprint.tell _).bind fun _ => .pure _

/-! ## The new request flow -/

theorem footprint_chooseName (d : Description) (asked : Option String) :
    Footprint Asks (chooseName d asked) := by
  cases asked with
  | none => exact .quiet (fun _ => rfl) fun x => ⟨rfl, rfl⟩
  | some name =>
      refine .ite (fun _ => .fail _) fun _ => ?_
      refine (Footprint.question (.isValidBranchName name) rfl).bind fun valid => ?_
      exact .ite (fun _ => .pure name) fun _ => .fail _

theorem footprint_resolveName (d : Description) (asked : Option String) :
    Footprint Asks (resolveName d asked) := by
  refine (footprint_chooseName d asked).bind fun name => ?_
  refine (Footprint.question (.localBranchExists name) rfl).bind fun here => ?_
  refine .ite (fun _ => .fail _) fun _ => ?_
  refine (Footprint.question (.remoteBranchExists name) rfl).bind fun there => ?_
  exact .ite (fun _ => .fail _) fun _ => .pure name

theorem footprint_syncDefault (default : String) :
    Footprint (AsksOr (.mergeFastForward (trackingRef default))) (syncDefault default) := by
  refine (footprint_enter _).bind fun _ => ?_
  refine (Footprint.question (.listCommits _ _) rfl).asksOr.bind fun commits => ?_
  exact .ite (fun _ => .execute (.inr rfl)) fun _ => .fail _

theorem footprint_commitChanges (d : Description) (branch : String) :
    Footprint (Commits d.text) (commitChanges d branch) := by
  have asks {m : Ship Bool} (h : Footprint Asks m) : Footprint (Commits d.text) m :=
    h.mono fun _ => .inl
  refine (asks footprint_isDirty).bind fun dirty => .ite (fun _ => ?_) fun _ => .pure false
  refine (footprint_enter _).bind fun _ => ?_
  refine (Footprint.execute (.inr (.inl rfl))).bind fun _ => ?_
  refine (asks (.question .hasStagedChanges rfl)).bind fun staged => ?_
  refine .ite (fun _ => ?_) fun _ => .fail _
  exact (Footprint.execute (.inr (.inr rfl))).bind fun _ => .pure true

theorem footprint_commitAndPush (d : Description) (branch : String) :
    Footprint (Ships d.text branch .tracking) (commitAndPush d branch) := by
  refine ((footprint_commitChanges d branch).mono ?_).bind fun committed => ?_
  · rintro c (hc | rfl | rfl)
    · exact .inl hc
    · exact .inr (.inl rfl)
    · exact .inr (.inr (.inl rfl))
  refine (footprint_enter _).bind fun _ => ?_
  exact (Footprint.execute (.inr (.inr (.inr rfl)))).bind fun _ => .pure committed

theorem footprint_requestForNew (w : Setting) (branch : String) (draft : Bool) :
    Footprint (AsksOr (.createRequest (w.draftFor branch draft)))
      (requestForNew w branch draft) :=
  footprint_settleRequest _ _ _

/-! ## The update flow -/

theorem footprint_checkRequest (branch : String) : Footprint Asks (checkRequest branch) := by
  refine (footprint_enter _).bind fun _ => ?_
  refine (Footprint.question (.findRequest branch) rfl).bind fun found => ?_
  cases found with
  | none => exact .pure ()
  | some pr =>
      show Footprint Asks (match pr.state with | _ => _)
      cases pr.state with
      | merged => exact .fail _
      | closed => exact footprint_notify rfl
      | opened => exact .pure ()
      | absent => exact .pure ()

theorem footprint_compareWithBase (base : String) (sync : Bool) :
    Footprint (AsksOr (.fetch base)) (compareWithBase base sync) := by
  refine (footprint_enter _).bind fun _ => ?_
  refine (Footprint.execute (.inr rfl)).bind fun _ => ?_
  refine (footprint_behind base).asksOr.bind fun commits => ?_
  exact .ite (fun _ => footprint_notify rfl) fun _ => .pure ()

theorem footprint_requireClean : Footprint Asks requireClean := by
  refine (footprint_enter _).bind fun _ => footprint_isDirty.bind fun dirty => ?_
  exact .ite (fun _ => .fail _) fun _ => .pure ()

theorem footprint_fetchCounterpart (branch : String) :
    Footprint (AsksOr (.fetch branch)) (fetchCounterpart branch) := by
  refine (Footprint.question (.remoteBranchExists branch) rfl).asksOr.bind fun known => ?_
  refine .ite (fun _ => ?_) fun _ => .pure none
  exact (Footprint.execute (.inr rfl)).bind fun _ => .pure _

theorem footprint_rebaseOnto (branch base : String) (counterpart : Option String) :
    Footprint (AsksOr (.rebase (trackingRef base))) (rebaseOnto branch base counterpart) := by
  cases counterpart with
  | none => exact .execute (.inr rfl)
  | some remote =>
      refine (Footprint.question (.isAncestor remote "HEAD") rfl).asksOr.bind fun seen => ?_
      exact .orElse (.fail _) (.execute (.inr rfl))

theorem footprint_commitStaged (d : Description) (reference : String) (staged : Bool)
    (ahead : Nat) :
    Footprint (AsksOr (.commit d.text)) (commitStaged d reference staged ahead) := by
  refine .ite (fun _ => ?_) fun _ => .pure ahead
  refine (footprint_enter _).bind fun _ => ?_
  refine (Footprint.execute (.inr rfl)).bind fun _ => ?_
  exact (Footprint.question (.countCommits _ _) rfl).asksOr

theorem footprint_requestForUpdate (w : Setting) (draft : Bool) :
    Footprint (AsksOr (.createRequest (w.draftFor w.current draft)))
      (requestForUpdate w draft) :=
  footprint_settleRequest _ _ _

end Ship

end Shipment
