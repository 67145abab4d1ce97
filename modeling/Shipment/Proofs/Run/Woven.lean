import Shipment.Proofs.Run.Whole

/-!
# How a run is woven

The pieces of a run are woven from few building blocks, and each of them reports what it
does in the same breath in which it does it.  `Ship.Woven` lists the blocks.  It relates a
piece to its twin: the same piece, but for the draft marker of the requests it opens.  What
is true of every block and of two pieces in sequence is true of whatever is woven, so a
proof about all pieces goes by induction on `Woven` and does not follow their text again.

A whole run is not woven, because the flow is selected only once.  `prepare` is what comes
before that, and `settle_eq` cuts a run there.
-/

namespace Shipment

/-- A draft with its marker set. -/
def RequestDraft.marked (draft : Bool) (d : RequestDraft) : RequestDraft := { d with draft }

namespace Ship

/-- Two pieces are woven alike.  The second opens each request with its marker set to
`draft`.  `draws` is whether random words may be drawn. -/
inductive Woven (draft : Bool) (draws : Prop) : {α : Type} → Ship α → Ship α → Prop where
  | pure {α : Type} (a : α) : Woven draft draws (Pure.pure a) (Pure.pure a)
  | fail {α : Type} (e : Failure) : Woven draft draws (fail e : Ship α) (fail e)
  | notices : Woven draft draws notices notices
  | ask (c : Call) : c.isQuestion = true → Woven draft draws (ask c) (ask c)
  | enter (step : Step) : step ≠ .selectingFlow → Woven draft draws (enter step) (enter step)
  | notify (n : Notice) : Woven draft draws (notify n) (notify n)
  | execute (a : Action) : (∀ d, a ≠ .openRequest d) →
      Woven draft draws (execute a) (execute a)
  | openRequest (d : RequestDraft) :
      Woven draft draws (openRequest d) (openRequest (d.marked draft))
  | generateName (d : Description) : draws →
      Woven draft draws (generateName d) (generateName d)
  | arm (c : Checkpoint) : Woven draft draws (arm c) (arm c)
  | disarm : Woven draft draws disarm disarm
  | orGoBack {α : Type} {m m' : Ship α} : Woven draft draws m m' →
      Woven draft draws (orGoBack m) (orGoBack m')
  | bind {α β : Type} {m m' : Ship α} {k k' : α → Ship β} : Woven draft draws m m' →
      (∀ a, Woven draft draws (k a) (k' a)) → Woven draft draws (m >>= k) (m' >>= k')

variable {α β : Type} {draft : Bool} {draws : Prop} {w : Setting} {o : Options}

namespace Woven

/-! ## Rules -/

theorem ite {c : Prop} [Decidable c] {m m' n n' : Ship α} (hm : c → Woven draft draws m m')
    (hn : ¬c → Woven draft draws n n') :
    Woven draft draws (if c then m else n) (if c then m' else n') := by
  by_cases hc : c
  · rw [if_pos hc, if_pos hc]
    exact hm hc
  · rw [if_neg hc, if_neg hc]
    exact hn hc

/-- One of two pieces and then a third. -/
theorem fork {c : Prop} [Decidable c] {m n : Ship α} {k k' : α → Ship β}
    (hm : Woven draft draws m m) (hn : Woven draft draws n n)
    (hk : ∀ a, Woven draft draws (k a) (k' a)) :
    Woven draft draws (if c then m >>= k else n >>= k) (if c then m >>= k' else n >>= k') :=
  .ite (fun _ => hm.bind hk) fun _ => hn.bind hk

/-- A piece that is done only on a condition, followed by another. -/
theorem when {c : Prop} [Decidable c] {m : Ship Unit} {k k' : Unit → Ship α}
    (hm : Woven draft draws m m) (hk : Woven draft draws (k ()) (k' ())) :
    Woven draft draws (if c then m >>= k else k ()) (if c then m >>= k' else k' ()) :=
  .ite (fun _ => hm.bind fun _ => hk) fun _ => hk

/-- A piece that fails unless a condition holds, followed by another. -/
theorem orElse {c : Prop} [Decidable c] {m : Ship Unit} {k k' : Unit → Ship α}
    (hm : Woven draft draws m m) (hk : Woven draft draws (k ()) (k' ())) :
    Woven draft draws (if c then k () else m >>= k) (if c then k' () else m >>= k') :=
  .ite (fun _ => hk) fun _ => hm.bind fun _ => hk

/-! ## Before the flow is selected -/

theorem currentBranch : Woven draft draws Ship.currentBranch Ship.currentBranch := by
  refine (ask .currentBranch rfl).bind fun r => ?_
  cases r with
  | some branch => exact .pure branch
  | none => exact .fail _

theorem isDirty : Woven draft draws Ship.isDirty Ship.isDirty :=
  (ask .isClean rfl).bind fun _ => .pure _

theorem acceptVerdict (accepted : Except Failure (Description × Verdict)) :
    Woven draft draws (Ship.acceptVerdict accepted) (Ship.acceptVerdict accepted) := by
  cases accepted with
  | error e => exact Woven.bind (.fail e) fun p => .when (.notify _) (.pure p.1)
  | ok out => exact Woven.bind (.pure out) fun p => .when (.notify _) (.pure p.1)

theorem checkPrerequisites :
    Woven draft draws Ship.checkPrerequisites Ship.checkPrerequisites := by
  refine (enter _ (by decide)).bind fun _ => (ask _ (by rfl)).bind fun authenticated => ?_
  refine .orElse (.fail _) ((ask _ (by rfl)).bind fun origin => .orElse (.fail _) ?_)
  refine (ask .operationInProgress rfl).bind fun operation => ?_
  cases operation with
  | some op => exact .fail _
  | none => exact currentBranch

theorem resolveBase (asked : Option String) (default : String) :
    Woven draft draws (Ship.resolveBase asked default) (Ship.resolveBase asked default) := by
  cases asked with
  | none => exact .pure default
  | some base =>
      exact (ask _ (by rfl)).bind fun known => .ite (fun _ => .pure base) fun _ => .fail _

/-! ## How a run ends -/

theorem finishNoOp (flow : Flow) (branch base : String) (reason : NoOpReason) :
    Woven draft draws (Ship.finishNoOp flow branch base reason)
      (Ship.finishNoOp flow branch base reason) :=
  (enter _ (by decide)).bind fun _ => notices.bind fun _ => .pure _

theorem finishShipped (flow : Flow) (branch base : String) (result : RunResult) :
    Woven draft draws (Ship.finishShipped flow branch base result)
      (Ship.finishShipped flow branch base result) :=
  (enter _ (by decide)).bind fun _ => notices.bind fun _ => .pure _

theorem settleRequest {step : Step} (hs : step ≠ .selectingFlow)
    (found : String → RequestResult) (d : RequestDraft) :
    Woven draft draws (Ship.settleRequest step found d)
      (Ship.settleRequest step found (d.marked draft)) := by
  refine (enter step hs).bind fun _ => Woven.bind ?_ fun url => ?_
  · exact (ask (.findRequest d.head) rfl).bind fun _ => .pure _
  · cases url with
    | some url => exact .pure _
    | none => exact (openRequest d).bind fun _ => .pure _

/-! ## The new request flow -/

theorem chooseName {d : Description} {asked : Option String} (hd : asked = none → draws) :
    Woven draft draws (Ship.chooseName d asked) (Ship.chooseName d asked) := by
  cases asked with
  | none => exact .generateName d (hd rfl)
  | some name =>
      refine .ite (fun _ => .fail _) fun _ => (ask _ (by rfl)).bind fun valid => ?_
      exact .ite (fun _ => .pure name) fun _ => .fail _

theorem resolveName {d : Description} {asked : Option String} (hd : asked = none → draws) :
    Woven draft draws (Ship.resolveName d asked) (Ship.resolveName d asked) := by
  refine (chooseName hd).bind fun name => (ask _ (by rfl)).bind fun here => ?_
  refine .ite (fun _ => .fail _) fun _ => (ask _ (by rfl)).bind fun there => ?_
  exact .ite (fun _ => .fail _) fun _ => .pure name

theorem syncDefault (default : String) :
    Woven draft draws (Ship.syncDefault default) (Ship.syncDefault default) := by
  refine (enter _ (by decide)).bind fun _ => (ask _ (by rfl)).bind fun commits => ?_
  exact .ite (fun _ => .execute _ (by simp)) fun _ => .fail _

theorem settleBranch (hd : o.branch = none → draws) :
    Woven draft draws (Ship.settleBranch w o) (Ship.settleBranch w o) :=
  (enter _ (by decide)).bind fun _ => (resolveName hd).bind fun branch =>
    .when (syncDefault _) (.pure branch)

theorem commitAndPush (d : Description) (branch : String) :
    Woven draft draws (Ship.commitAndPush d branch) (Ship.commitAndPush d branch) := by
  refine Woven.bind (isDirty.bind fun dirty => .ite (fun _ => ?_) fun _ => .pure _) fun _ => ?_
  · refine (enter _ (by decide)).bind fun _ => (execute _ (by simp)).bind fun _ => ?_
    refine (ask _ (by rfl)).bind fun staged => .ite (fun _ => ?_) fun _ => .fail _
    exact (execute _ (by simp)).bind fun _ => .pure _
  · refine (enter _ (by decide)).bind fun _ => (execute _ (by simp)).bind fun _ => .pure _

theorem cutBranch (w : Setting) (branch : String) :
    Woven draft draws (Ship.cutBranch w branch) (Ship.cutBranch w branch) := by
  refine (enter _ (by decide)).bind fun _ => (ask _ (by rfl)).bind fun start => ?_
  refine (execute _ (by simp)).bind fun _ => (arm _).bind fun _ => ?_
  exact (commitAndPush _ _).orGoBack.bind fun _ => disarm.bind fun _ => .pure _

theorem lookNew (w : Setting) : Woven draft draws (Ship.lookNew w) (Ship.lookNew w) := by
  refine (enter _ (by decide)).bind fun _ => (execute _ (by simp)).bind fun _ => ?_
  refine .when (.execute _ (by simp)) ((enter _ (by decide)).bind fun _ => ?_)
  refine currentBranch.bind fun current => (ask _ (by rfl)).bind fun default => ?_
  refine .fork (.ask _ (by rfl)) (.pure 0) fun unpushed => isDirty.bind fun dirty => ?_
  exact (ask _ (by rfl)).bind fun ahead => (ask _ (by rfl)).bind fun behind => .pure _

theorem shipSeen (hd : o.branch = none → draws) (seen : Snapshot) :
    Woven draft draws (Ship.shipSeen w o seen) (Ship.shipSeen w { o with draft } seen) := by
  unfold Ship.shipSeen
  cases newRequestNoOp (decide (w.current = w.default)) o.new seen.dirty seen.ahead with
  | some reason => exact finishNoOp _ _ _ _
  | none =>
      simp only [shipNew_eq, requestForNew_eq]
      refine (settleBranch hd).bind fun branch => (cutBranch w branch).bind fun committed => ?_
      exact (settleRequest (by decide) _ _).bind fun request => finishShipped _ _ _ _

theorem newRequest (hd : o.branch = none → draws) :
    Woven draft draws (Ship.newRequest w o) (Ship.newRequest w { o with draft }) := by
  rw [newRequest_eq, newRequest_eq]
  exact (lookNew w).bind fun seen => shipSeen hd seen

/-! ## The update flow -/

/-- Looking at a branch depends neither on the marker of requests nor on random words. -/
theorem lookUpdate : Woven draft draws (Ship.lookUpdate w o) (Ship.lookUpdate w o) := by
  refine Woven.bind ((enter _ (by decide)).bind fun _ => ?_) fun _ => Woven.bind ?_ fun _ => ?_
  · refine (ask (.findRequest w.current) rfl).bind fun found => ?_
    cases found with
    | none => exact .pure ()
    | some pr =>
        show Woven draft draws (match pr.state with | _ => _) (match pr.state with | _ => _)
        cases pr.state with
        | merged => exact .fail _
        | closed => exact .notify _
        | opened => exact .pure ()
        | absent => exact .pure ()
  · refine (enter _ (by decide)).bind fun _ => (execute _ (by simp)).bind fun _ => ?_
    exact (ask _ (by rfl)).bind fun commits => .ite (fun _ => .notify _) fun _ => .pure ()
  · refine .when ((enter _ (by decide)).bind fun _ => isDirty.bind fun dirty => ?_) ?_
    · exact .ite (fun _ => .fail _) fun _ => .pure ()
    · refine (ask _ (by rfl)).bind fun known => .ite (fun _ => ?_) fun _ => .pure _
      exact (execute _ (by simp)).bind fun _ => .pure _

theorem rebaseOnto (branch base : String) (counterpart : Option String) :
    Woven draft draws (Ship.rebaseOnto branch base counterpart)
      (Ship.rebaseOnto branch base counterpart) := by
  cases counterpart with
  | none => exact .execute _ (by simp)
  | some remote =>
      exact (ask _ (by rfl)).bind fun seen => .orElse (.fail _) (.execute _ (by simp))

theorem finishUpdate (staged : Bool) (pushed : Option PushMode) :
    Woven draft draws (Ship.finishUpdate w o staged pushed)
      (Ship.finishUpdate w { o with draft } staged pushed) := by
  unfold Ship.finishUpdate
  rw [requestForUpdate_eq, requestForUpdate_eq]
  exact (settleRequest (by decide) _ _).bind fun request => finishShipped _ _ _ _

theorem pushUpdate (staged : Bool) (ahead : Nat) :
    Woven draft draws (Ship.pushUpdate w o staged ahead)
      (Ship.pushUpdate w { o with draft } staged ahead) := by
  -- The draft marker has no part in the choice of the push.
  cases hmode : updatePushMode o.sync ahead with
  | none =>
      rw [pushUpdate_of_none hmode, pushUpdate_of_none (o := { o with draft }) hmode]
      exact (enter _ (by decide)).bind fun _ => finishUpdate staged none
  | some mode =>
      rw [pushUpdate_of_some hmode, pushUpdate_of_some (o := { o with draft }) hmode]
      refine (enter _ (by decide)).bind fun _ => ?_
      exact (execute _ (by simp)).bind fun _ => finishUpdate staged (some mode)

theorem stageAndShip (counterpart : Option String) :
    Woven draft draws (Ship.stageAndShip w o counterpart)
      (Ship.stageAndShip w { o with draft } counterpart) := by
  refine (enter _ (by decide)).bind fun _ => (execute _ (by simp)).bind fun _ => ?_
  refine (ask _ (by rfl)).bind fun staged => (ask _ (by rfl)).bind fun ahead => ?_
  refine .ite (fun _ => finishNoOp _ _ _ _) fun _ => ?_
  rw [shipUpdate_eq, shipUpdate_eq]
  refine Woven.bind (.ite (fun _ => ?_) fun _ => .pure ahead) fun ahead' => ?_
  · exact (enter _ (by decide)).bind fun _ => (execute _ (by simp)).bind fun _ => .ask _ (by rfl)
  · exact pushUpdate staged ahead'

theorem updateExisting :
    Woven draft draws (Ship.updateExisting w o) (Ship.updateExisting w { o with draft }) := by
  rw [updateExisting_eq, updateExisting_eq]
  exact lookUpdate.bind fun counterpart =>
    .when (rebaseOnto _ _ counterpart) (stageAndShip counterpart)

/-- What follows the selection of the flow is woven. -/
theorem follow {flow : Flow} (hd : flow = .newRequest → o.branch = none → draws) :
    Woven draft draws (Ship.follow w o flow) (Ship.follow w { o with draft } flow) := by
  cases flow with
  | newRequest => exact newRequest (hd rfl)
  | updateExisting => exact updateExisting

end Woven

/-! ## Whole runs -/

/-- Settle everything the flow is selected from. -/
def prepare (accepted : Except Failure (Description × Verdict)) (asked : Option String) :
    Ship Setting := do
  let description ← acceptVerdict accepted
  let current ← checkPrerequisites
  enter .resolvingBase
  let default ← ask .defaultBranch
  let base ← resolveBase asked default
  return { description, current, default, base }

variable {accepted : Except Failure (Description × Verdict)}

theorem settle_eq : settle accepted o = (do
    let w ← prepare accepted o.base
    let flow ← selectFlow w.current w.default o.new
    return (w, flow)) := by
  simp only [settle, prepare, LawfulMonad.bind_assoc, LawfulMonad.pure_bind]

/-- A run selects its flow once, between two woven pieces. -/
theorem settle_follow_eq : (settle accepted o >>= fun p => follow p.1 o p.2) = (do
    let w ← prepare accepted o.base
    let flow ← selectFlow w.current w.default o.new
    follow w o flow) := by
  simp only [settle_eq, LawfulMonad.bind_assoc, LawfulMonad.pure_bind]

/-- What comes before the selection of the flow is woven. -/
theorem Woven.prepare (accepted : Except Failure (Description × Verdict)) (asked : Option String) :
    Woven draft draws (Ship.prepare accepted asked) (Ship.prepare accepted asked) := by
  refine (acceptVerdict accepted).bind fun description => checkPrerequisites.bind fun current => ?_
  refine (enter _ (by decide)).bind fun _ => (ask _ (by rfl)).bind fun default => ?_
  exact (resolveBase _ _).bind fun base => .pure _

end Ship

end Shipment
