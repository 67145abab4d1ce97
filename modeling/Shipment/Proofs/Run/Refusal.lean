import Shipment.Proofs.Description
import Shipment.Proofs.Rollback

/-!
# Refusals

A run that fails although every call was answered has refused to go on, and only its
guards refuse.  The proof follows each piece, as for its footprint.
-/

namespace Shipment

/-- Whether a failure is that of a guard. -/
def Failure.isRefusal : Failure → Bool
  | invalidIntent _ | missingPrerequisite _ | unknownBase _ | unpushedCommits _ _ => true
  | emptyCommit _ | unusableName _ _ | mergedRequest _ _ => true
  | dirtyTreeDuringSync | unseenCommits _ => true
  | _ => false

/-- A failure of a guard. -/
def Failure.Refuses (e : Failure) : Prop := e.isRefusal = true

namespace Ship

open Failure

variable {α β : Type} {G : Failure → Prop} {w : Setting} {o : Options}

namespace FailsBy

/-! ## Rules -/

theorem mono {G' : Failure → Prop} {m : Ship α} (h : FailsBy G m) (hG : ∀ e, G e → G' e) :
    FailsBy G' m := by
  refine ⟨h.blames.mono (fun _ _ _ h => h) ?_⟩
  intro e x' z hend
  obtain ⟨new, hz, hg⟩ := hend
  exact ⟨new, hz, hg.imp_left (hG e)⟩

theorem when {c : Prop} [Decidable c] {m : Ship Unit} {k : Unit → Ship α} (hm : FailsBy G m)
    (hk : FailsBy G (k ())) : FailsBy G (if c then m >>= k else k ()) :=
  .ite (hm.bind fun _ => hk) hk

/-- One of two pieces and then a third. -/
theorem fork {c : Prop} [Decidable c] {m n : Ship α} {k : α → Ship β} (hm : FailsBy G m)
    (hn : FailsBy G n) (hk : ∀ a, FailsBy G (k a)) :
    FailsBy G (if c then m >>= k else n >>= k) :=
  .ite (hm.bind hk) (hn.bind hk)

theorem orElse {c : Prop} [Decidable c] {m : Ship Unit} {k : Unit → Ship α} (hm : FailsBy G m)
    (hk : FailsBy G (k ())) : FailsBy G (if c then k () else m >>= k) :=
  .ite hk (hm.bind fun _ => hk)

theorem ofExcept {r : Except Failure α} (h : ∀ e, r = .error e → G e) :
    FailsBy G (Ship.ofExcept r) := by
  cases r with
  | ok a => exact pure a
  | error e => exact fail (h e rfl)

/-- A piece that makes no call and gives a value. -/
theorem quiet {m : Ship α} {a : Session → α} {f : Session → Session}
    (hm : ∀ x, m x = .done (.ok (a x), f x)) : FailsBy G m := by
  refine ⟨fun {σ W x l s} => ?_⟩
  unfold Ensures
  rw [hm]
  exact ⟨[], (List.append_nil l).symm⟩

theorem notify (n : Notice) : FailsBy G (Ship.notify n) :=
  ⟨ensures_notify.mpr ⟨[], (List.append_nil _).symm⟩⟩

theorem tell (e : Event) : FailsBy G (Ship.tell e) :=
  ⟨ensures_tell.mpr ⟨[], (List.append_nil _).symm⟩⟩

/-- An opened request has an address. -/
theorem openRequest (d : RequestDraft) : FailsBy G (Ship.openRequest d) := by
  refine ⟨fun {σ W x l s} => ensures_openRequest.mpr ?_⟩
  intro r _ hend
  obtain ⟨s', -, rfl⟩ := hend
  cases r with
  | ok url => exact ⟨_, rfl⟩
  | error e =>
      exact ⟨_, rfl, .inr ⟨_, List.mem_singleton.mpr rfl, Moment.not_answered.mpr ⟨e, rfl⟩⟩⟩

/-! ## Before the flows -/

theorem currentBranch : FailsBy Refuses Ship.currentBranch := by
  refine (ask .currentBranch).bind fun r => ?_
  cases r with
  | some branch => exact pure branch
  | none => exact fail rfl

theorem settle {accepted : Except Failure (Description × Verdict)}
    (h : ∀ e, accepted = .error e → e.Refuses) : FailsBy Refuses (Ship.settle accepted o) := by
  refine ((ofExcept h).bind fun p => .when (notify _) (pure p.1)).bind fun d => ?_
  refine FailsBy.bind ?_ fun current => (enter _).bind fun _ => (ask _).bind fun default => ?_
  · refine (enter _).bind fun _ => (ask _).bind fun authenticated => .orElse (fail rfl) ?_
    refine (ask _).bind fun origin => .orElse (fail rfl) ((ask _).bind fun operation => ?_)
    cases operation with
    | some op => exact fail rfl
    | none => exact currentBranch
  · refine FailsBy.bind ?_ fun base => (FailsBy.bind ?_ fun flow => pure _)
    · cases o.base with
      | none => exact pure default
      | some base => exact (ask _).bind fun known => .ite (pure base) (fail rfl)
    · refine (enter _).bind fun _ => .bind (quiet fun _ => rfl) fun _ => ?_
      exact (tell _).bind fun _ => pure _

/-! ## The new request flow -/

theorem finishNoOp (flow : Flow) (branch base : String) (reason : NoOpReason) :
    FailsBy G (Ship.finishNoOp flow branch base reason) :=
  (enter _).bind fun _ => .bind (quiet fun _ => rfl) fun _ => pure _

theorem finishShipped (flow : Flow) (branch base : String) (result : RunResult) :
    FailsBy G (Ship.finishShipped flow branch base result) :=
  (enter _).bind fun _ => .bind (quiet fun _ => rfl) fun _ => pure _

theorem isDirty : FailsBy G Ship.isDirty := (ask _).bind fun _ => pure _

theorem lookNew : FailsBy Refuses (Ship.lookNew w) := by
  refine (enter _).bind fun _ => (execute _).bind fun _ => .when (execute _) ?_
  refine (enter _).bind fun _ => currentBranch.bind fun current => ?_
  refine (ask _).bind fun default => .fork (ask _) (pure 0) fun unpushed => ?_
  refine isDirty.bind fun dirty => (ask _).bind fun ahead => ?_
  exact (ask _).bind fun behind => pure _

theorem settleBranch : FailsBy Refuses (Ship.settleBranch w o) := by
  refine (enter _).bind fun _ => .bind (.bind ?_ fun name => ?_) fun branch => ?_
  · cases o.branch with
    | none => exact quiet fun _ => rfl
    | some name =>
        exact .ite (fail rfl) ((ask _).bind fun valid => .ite (pure name) (fail rfl))
  · refine (ask _).bind fun here => .ite (fail rfl) ?_
    exact (ask _).bind fun there => .ite (fail rfl) (pure name)
  · refine .when ((enter _).bind fun _ => (ask _).bind fun commits => ?_) (pure branch)
    exact .ite (execute _) (fail rfl)

theorem settleRequest {step : Step} {found : String → RequestResult} {d : RequestDraft} :
    FailsBy G (Ship.settleRequest step found d) := by
  refine (enter _).bind fun _ => .bind ((ask _).bind fun _ => pure _) fun url => ?_
  cases url with
  | some url => exact pure _
  | none => exact (openRequest _).bind fun _ => pure _

theorem requestForNew {branch : String} {draft : Bool} :
    FailsBy G (Ship.requestForNew w branch draft) := by
  rw [requestForNew_eq]
  exact settleRequest

/-! ## The update flow -/

theorem finishUpdate {staged : Bool} {pushed : Option PushMode} :
    FailsBy G (Ship.finishUpdate w o staged pushed) := by
  rw [Ship.finishUpdate, requestForUpdate_eq]
  exact settleRequest.bind fun _ => finishShipped _ _ _ _

theorem stageAndShip {found : Option String} :
    FailsBy G (Ship.stageAndShip w o found) := by
  refine (enter _).bind fun _ => (execute _).bind fun _ => (ask _).bind fun staged => ?_
  refine (ask _).bind fun ahead => .ite (finishNoOp _ _ _ _) ?_
  rw [shipUpdate_eq]
  refine FailsBy.bind ?_ fun ahead' => (enter _).bind fun _ => ?_
  · exact .ite ((enter _).bind fun _ => (execute _).bind fun _ => ask _) (pure ahead)
  · cases updatePushMode o.sync ahead' with
    | none => exact finishUpdate
    | some mode => exact (execute _).bind fun _ => finishUpdate

/-- Looking at a branch fails by a guard, or because a call failed. -/
theorem lookUpdate : FailsBy Refuses (Ship.lookUpdate w o) := by
  refine FailsBy.bind ((enter _).bind fun _ => (ask _).bind fun found => ?_) fun _ => ?_
  · cases found with
    | none => exact pure ()
    | some pr =>
        show FailsBy Refuses (match pr.state with | _ => _)
        cases pr.state with
        | merged => exact fail rfl
        | closed => exact notify _
        | opened => exact pure ()
        | absent => exact pure ()
  · refine FailsBy.bind ((enter _).bind fun _ => (execute _).bind fun _ => ?_) fun _ => ?_
    · exact (ask _).bind fun commits => .ite (notify _) (pure ())
    · refine .when ((enter _).bind fun _ => isDirty.bind fun dirty => ?_) ?_
      · exact .ite (fail rfl) (pure ())
      · exact (ask _).bind fun known => .ite ((execute _).bind fun _ => pure _) (pure none)

theorem rebaseOnto {found : Option String} :
    FailsBy Refuses (Ship.rebaseOnto w.current w.base found) := by
  cases found with
  | none => exact execute _
  | some remote => exact (ask _).bind fun seen => .orElse (fail rfl) (execute _)

theorem updateExisting : FailsBy Refuses (Ship.updateExisting w o) := by
  rw [updateExisting_eq]
  exact lookUpdate.bind fun found => .when rebaseOnto stageAndShip

end FailsBy

/-! ## Without faults -/

/-- Without faults a piece fails as a guard of it, or as a call that the version control
system failed. -/
theorem ensures_guarded {P : Call → Prop} {m : Ship α} {x : Session} {s : Site}
    (hm : Footprint P m) (hr : FailsBy G m) :
    m.Ensures (Site.world False) (fun _ _ _ => True)
      (fun e _ _ => G e ∨ ∃ (c : Call) (detail : String), e = c.failure (.vcs detail)) x s := by
  have hanswered : m.Ensures (Site.world False).logged
      (fun _ _ z => ∃ new, z.1 = [] ++ new ∧
        ∀ k ∈ new, (Site.world False).answers k.call k.before k.reply k.after)
      (fun _ _ z => ∃ new, z.1 = [] ++ new ∧
        ∀ k ∈ new, (Site.world False).answers k.call k.before k.reply k.after) x ([], s) :=
    Program.Ensures.mono Program.ensures_answered fun _ _ h => ends_both.mpr h
  refine Ensures.unlogged (l := []) (((hm.halts.and hr.blames).and hanswered).mono
    (fun _ _ _ _ => trivial) ?_)
  rintro e x' z ⟨⟨⟨-, new, hz, hh⟩, new', hz', hg⟩, new'', hz'', hw⟩
  cases List.append_cancel_left (hz.symm.trans hz')
  cases List.append_cancel_left (hz.symm.trans hz'')
  cases hh with
  | refused hall =>
      refine .inl (hg.resolve_right ?_)
      rintro ⟨k, hk, hn⟩
      exact hn (hall k hk)
  | @failed l k e' hl he =>
      refine .inr ⟨k.call, ?_⟩
      have hk := hw k (List.mem_append_right l (List.mem_singleton.mpr rfl))
      rcases hk with hk | ⟨hF, -⟩
      · obtain ⟨detail, rfl⟩ := Site.vcs_of_error k.call k.before e' (by rw [hk]; exact he)
        exact ⟨detail, rfl⟩
      · exact hF.elim

end Ship

end Shipment
