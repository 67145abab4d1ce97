import Shipment.Proofs.OneRequest
import Shipment.Proofs.Run.Woven

/-!
# Twins

A twin of a run opens its requests with another marker and may start with other random
words.  `Ship.Twins` says that the twin of a piece is the piece itself, but for these.  Every
woven piece has a twin, and so has a whole run: it is the same program.

The twin of a run needs a reply to another call where it opens a request.  If the host
replies alike, then all goes alike, because a request is the last thing a run asks for.
`Program.Last` says the latter, and `Program.Last.run_marked` is the conclusion.
-/

namespace Shipment

/-! ## Markers and names -/

namespace Action

/-- An action with the marker set, if it opens a request. -/
def marked (draft : Bool) : Action → Action
  | openRequest d => openRequest (d.marked draft)
  | a => a

end Action

namespace Event

/-- An event with the marker set, if it is about a request that is opened. -/
def marked (draft : Bool) : Event → Event
  | action a status => action (a.marked draft) status
  | e => e

end Event

namespace Entry

/-- An entry with the marker set.  What was replied stays. -/
def marked (draft : Bool) : Entry shipping → Entry shipping
  | .called (.createRequest d) r => .called (I := shipping) (.createRequest (d.marked draft)) r
  | .called c r => .called c r
  | .told e => .told (e.marked draft)

end Entry

namespace Call

/-- A call with the marker set, as a program. -/
def marked (draft : Bool) : (c : Call) → Program shipping (Except Failure c.Answer)
  | .createRequest d => .call (I := shipping) (.createRequest (d.marked draft)) .done
  | c => .call (I := shipping) c .done

theorem marked_of_spared {draft : Bool} {c : Call} (hc : c.isRequest = false) :
    c.marked draft = .call (I := shipping) c .done := by
  cases c <;> first | rfl | cases hc

end Call

namespace Program

variable {α β : Type}

/-- A program with the marker of its requests set. -/
def marked (draft : Bool) (p : Program shipping α) : Program shipping α :=
  p.through (Call.marked draft) fun e : Event => .tell (I := shipping) (e.marked draft) (.done ())

theorem marked_bind {draft : Bool} {p : Program shipping α} {f : α → Program shipping β} :
    (p.bind f).marked draft = (p.marked draft).bind fun a => (f a).marked draft := by
  induction p with
  | done a => rfl
  | call c next ih =>
      refine Eq.trans ?_ (bind_assoc _ _ _).symm
      exact congrArg (Program.bind _) (funext ih)
  | tell e next ih => exact congrArg (Program.tell _) ih

end Program

/-- A session with another namer. -/
def Session.renamed (n : Namer → Namer) (x : Session) : Session := { x with namer := n x.namer }

namespace Ship

variable {α β : Type} {draft : Bool} {draws : Prop} {n : Namer → Namer}

/-- The second piece is the first one, but for the namer it starts with and the marker of the
requests it opens. -/
def Twins (draft : Bool) (n : Namer → Namer) (m m' : Ship α) : Prop :=
  ∀ x, m' (x.renamed n) =
    ((m x).marked draft).bind fun out => .done (out.1, out.2.renamed n)

namespace Twins

theorem bind {m m' : Ship α} {f f' : α → Ship β} (h : Twins draft n m m')
    (hf : ∀ a, Twins draft n (f a) (f' a)) : Twins draft n (m >>= f) (m' >>= f') := by
  intro x
  show (m' (x.renamed n)).bind _ = (((m x).bind _).marked draft).bind _
  rw [h, Program.marked_bind, Program.bind_assoc, Program.bind_assoc]
  refine congrArg (Program.bind _) (funext ?_)
  rintro ⟨r, x'⟩
  cases r with
  | ok a => exact hf a x'
  | error e => rfl

theorem attempt {m m' : Ship α} (h : Twins draft n m m') :
    Twins draft n (attempt m) (attempt m') := by
  intro x
  show (m' (x.renamed n)).bind _ = (((m x).bind _).marked draft).bind _
  rw [h, Program.marked_bind, Program.bind_assoc, Program.bind_assoc]
  rfl

theorem pure (a : α) : Twins draft n (Pure.pure a) (Pure.pure a) := fun _ => rfl

theorem fail (e : Failure) : Twins draft n (Ship.fail e : Ship α) (Ship.fail e) := fun _ => rfl

theorem ite {c : Prop} [Decidable c] {m m' k k' : Ship α} (hm : Twins draft n m m')
    (hk : Twins draft n k k') : Twins draft n (if c then m else k) (if c then m' else k') := by
  split
  · exact hm
  · exact hk

/-- A change of the session that does not touch the namer. -/
theorem update {f : Session → Session} (hf : ∀ x, f (x.renamed n) = (f x).renamed n) :
    Twins draft n (Ship.update f) (Ship.update f) :=
  fun x => congrArg (fun x' => Program.done (Except.ok (), x')) (hf x)

theorem updateRecord (f : RunRecord → RunRecord) :
    Twins draft n (Ship.updateRecord f) (Ship.updateRecord f) := fun _ => rfl

theorem ask {c : Call} (hc : c.isRequest = false) : Twins draft n (Ship.ask c) (Ship.ask c) := by
  intro x
  show _ = ((c.marked draft).bind _).bind _
  rw [Call.marked_of_spared hc]
  rfl

theorem tell {e : Event} (he : e.marked draft = e) :
    Twins draft n (Ship.tell e) (Ship.tell e) := by
  intro x
  show _ = Program.tell (I := shipping) (e.marked draft) _
  rw [he]
  rfl

theorem enter (hn : ∀ m, (n m).now = m.now) (step : Step) :
    Twins draft n (Ship.enter step) (Ship.enter step) := by
  intro x
  show Program.tell _ (.done (_, (x.renamed n).entered step)) = _
  rw [Session.entered, Session.time, show (x.renamed n).namer.now = x.namer.now from hn _]
  rfl

theorem execute {a : Action} (ha : ∀ d, a ≠ .openRequest d) :
    Twins draft n (Ship.execute a) (Ship.execute a) := by
  intro x
  cases a with
  | openRequest d => exact absurd rfl (ha d)
  | _ =>
      refine congrArg (Program.tell _) (congrArg (Program.call _) (funext fun r => ?_))
      cases r <;> rfl

theorem openRequest (d : RequestDraft) :
    Twins draft n (Ship.openRequest d) (Ship.openRequest (d.marked draft)) := by
  intro x
  refine congrArg (Program.tell _) (congrArg (Program.call _) (funext fun r => ?_))
  cases r <;> rfl

theorem stepsBack (c : Checkpoint) : Twins draft n (Ship.stepsBack c) (Ship.stepsBack c) := by
  have hleave : Twins draft n (leave c) (leave c) := (ask rfl).bind fun _ => ask rfl
  rw [stepsBack_eq]
  exact ite ((ask rfl).bind fun _ => hleave) hleave

theorem goBack (c : Checkpoint) : Twins draft n (Ship.goBack c) (Ship.goBack c) := by
  refine (stepsBack c).attempt.bind fun r => ?_
  cases r with
  | ok u => exact pure true
  | error e => exact pure false

theorem rollback : Twins draft n Ship.rollback Ship.rollback := by
  intro x
  cases hx : x.checkpoint with
  | none =>
      rw [rollback_of_none hx, rollback_of_none (show (x.renamed n).checkpoint = none from hx)]
      rfl
  | some c =>
      have htell (back : Bool) : Twins draft n (tellBack c back) (tellBack c back) :=
        ite ((tell rfl).bind fun _ => pure _) (pure none)
      rw [rollback_of_some hx, rollback_of_some (show (x.renamed n).checkpoint = some c from hx)]
      exact (goBack c).bind htell { x with checkpoint := none }

theorem orGoBack {m m' : Ship α} (h : Twins draft n m m') :
    Twins draft n (Ship.orGoBack m) (Ship.orGoBack m') := by
  refine h.attempt.bind fun r => ?_
  cases r with
  | ok a => exact pure a
  | error e =>
      refine rollback.bind fun back => ?_
      cases back with
      | none => exact fail e
      | some notice => exact (updateRecord _).bind fun _ => fail e

end Twins

/-- Woven pieces are twins, unless names are drawn from other words. -/
theorem Woven.twins {m m' : Ship α} (hn : ∀ k, (n k).now = k.now) (hd : draws → n = id)
    (h : Woven draft draws m m') : Twins draft n m m' := by
  induction h with
  | pure a => exact .pure a
  | fail e => exact .fail e
  | notices => exact fun _ => rfl
  | ask c hc => exact .ask (isRequest_of_asks hc)
  | enter step hs => exact .enter hn step
  | notify k => exact fun _ => rfl
  | execute a ha => exact .execute ha
  | openRequest d => exact .openRequest d
  | generateName d hdraws => exact hd hdraws ▸ fun _ => rfl
  | arm c => exact fun _ => rfl
  | disarm => exact fun _ => rfl
  | orGoBack h ih => exact ih.orGoBack
  | bind h hk ih ihk => exact ih.bind ihk

variable {accepted : Except Failure (Description × Verdict)} {o : Options}

/-- A whole run has a twin. -/
theorem twins_startWith (hn : ∀ k, (n k).now = k.now) (hd : o.branch = none → n = id) :
    Twins draft n (startWith accepted o) (startWith accepted { o with draft }) := by
  have hwoven : Woven draft False (prepare accepted o.base) (prepare accepted o.base) :=
    .prepare accepted o.base
  have hprepare : Twins draft n (prepare accepted o.base) (prepare accepted o.base) :=
    hwoven.twins hn False.elim
  have hselect (w : Setting) : Twins draft n (selectFlow w.current w.default o.new)
      (selectFlow w.current w.default o.new) :=
    (Twins.enter hn _).bind fun _ => (Twins.updateRecord _).bind fun _ =>
      (Twins.tell rfl).bind fun _ => .pure _
  have hfollow (w : Setting) (flow : Flow) :
      Twins draft n (follow w o flow) (follow w { o with draft } flow) :=
    Woven.twins hn id (.follow fun _ => hd)
  refine (Twins.update fun x => ?_).bind fun _ => (Twins.tell rfl).bind fun _ => Twins.bind ?_ ?_
  · rw [Session.fresh, Session.time, show (x.renamed n).namer.now = x.namer.now from hn _]
    rfl
  · rw [settle_follow_eq, settle_follow_eq]
    exact (hprepare.bind fun w => (hselect w).bind fun flow => hfollow w flow).attempt
  · intro r
    cases r with
    | ok out => exact .pure out
    | error e => exact (Twins.enter hn _).bind fun _ => .fail e

end Ship

/-! ## What follows a request -/

namespace Program

section Last

variable {I : Interface} {α β : Type} {P : I.Call → Prop} {p : Program I α}

/-- No call follows one of the kind. -/
def Last (P : I.Call → Prop) : Program I α → Prop
  | done _ => True
  | call c next => (P c → ∀ r, (next r).Uses fun _ => False) ∧ ∀ r, (next r).Last P
  | tell _ next => next.Last P

theorem Uses.last (h : p.Uses fun c => ¬P c) : p.Last P := by
  induction p with
  | done a => trivial
  | call c next ih => exact ⟨fun hc => absurd hc h.1, fun r => ih r (h.2 r)⟩
  | tell e next ih => exact ih h

theorem Uses.bind_last {f : α → Program I β} (h : p.Uses fun c => ¬P c)
    (hf : ∀ a, (f a).Last P) : (p.bind f).Last P := by
  induction p with
  | done a => exact hf a
  | call c next ih => exact ⟨fun hc => absurd hc h.1, fun r => ih r (h.2 r)⟩
  | tell e next ih => exact ih h

theorem Last.bind {f : α → Program I β} (h : p.Last P) (hf : ∀ a, (f a).Uses fun _ => False) :
    (p.bind f).Last P := by
  induction p with
  | done a => exact ((hf a).mono fun _ => False.elim).last
  | call c next ih => exact ⟨fun hc r => (h.1 hc r).bind hf, fun r => ih r (h.2 r)⟩
  | tell e next ih => exact ih h

/-- A program without calls makes none. -/
theorem Uses.calls_eq_nil {t : Trace I} {a : α} (h : p.Uses fun _ => False) (ht : Runs p t a) :
    t.calls = [] := by
  induction ht with
  | done a => rfl
  | call r ht ih => exact h.1.elim
  | tell ht ih => exact ih h

/-- There is one call of the kind at most. -/
theorem Last.countP_calls_le_one {kind : I.Call → Bool} {t : Trace I} {a : α}
    (h : p.Last fun c => kind c = true) (ht : Runs p t a) : t.calls.countP kind ≤ 1 := by
  induction ht with
  | done a => exact Nat.zero_le 1
  | @call c next t a r ht ih =>
      by_cases hc : kind c = true
      · rw [Trace.calls, (h.1 hc r).calls_eq_nil ht]
        exact List.countP_le_length
      · rw [Trace.calls, List.countP_cons_of_neg hc]
        exact ih (h.2 r)
  | tell ht ih => exact ih h

end Last

variable {α σ : Type} {p : Program shipping α} {h : Handler shipping σ} {draft : Bool}

/-- A twin without calls runs alike, wherever it starts. -/
theorem Uses.run_marked (hp : p.Uses fun _ => False) (s s' : σ) :
    ((p.marked draft).run h s').trace = (p.run h s).trace.map (Entry.marked draft) ∧
      ((p.marked draft).run h s').value = (p.run h s).value := by
  induction p with
  | done a => exact ⟨rfl, rfl⟩
  | call c next ih => exact hp.1.elim
  | tell e next ih => exact ⟨congrArg (List.cons _) (ih hp).1, (ih hp).2⟩

/-- A twin runs alike if its requests are replied to alike. -/
theorem Last.run_marked (hp : p.Last fun c : Call => c.isRequest = true)
    (halike : ∀ d s, (h (.createRequest (d.marked draft)) s).1 = (h (.createRequest d) s).1)
    (s : σ) :
    ((p.marked draft).run h s).trace = (p.run h s).trace.map (Entry.marked draft) ∧
      ((p.marked draft).run h s).value = (p.run h s).value := by
  induction p generalizing s with
  | done a => exact ⟨rfl, rfl⟩
  | tell e next ih => exact ⟨congrArg (List.cons _) (ih hp s).1, (ih hp s).2⟩
  | call c next ih =>
      cases c with
      | createRequest d =>
          -- The states may differ behind the request, but nothing asks any more.
          have hrest (r : Except Failure String) (s₁ s₂ : σ) :
              (((next r).marked draft).run h s₂).trace =
                  ((next r).run h s₁).trace.map (Entry.marked draft) ∧
                (((next r).marked draft).run h s₂).value = ((next r).run h s₁).value :=
            (hp.1 rfl r).run_marked s₁ s₂
          have hreply := halike d s
          constructor
          · show Entry.called (I := shipping) _ (h (.createRequest (d.marked draft)) s).1 ::
              (((next (h (.createRequest (d.marked draft)) s).1).marked draft).run h _).trace = _
            rw [hreply]
            exact congrArg (List.cons _) (hrest _ _ _).1
          · show (((next (h (.createRequest (d.marked draft)) s).1).marked draft).run h _).value = _
            rw [hreply]
            exact (hrest _ _ _).2
      | _ => exact ⟨congrArg (List.cons _) (ih _ (hp.2 _) _).1, (ih _ (hp.2 _) _).2⟩

end Program

namespace Ship

variable {α β : Type} {w : Setting} {o : Options}
variable {accepted : Except Failure (Description × Verdict)}

/-- Nothing is asked behind a request. -/
def RequestsLast (m : Ship α) : Prop := ∀ x, (m x).Last fun c : Call => c.isRequest = true

namespace RequestsLast

/-- A piece that opens no request, followed by another. -/
theorem behind {m : Ship α} {f : α → Ship β} (hm : Spares m) (hf : ∀ a, RequestsLast (f a)) :
    RequestsLast (m >>= f) := by
  refine fun x => ((hm x).mono fun _ => ne_true_of_eq_false).bind_last ?_
  rintro ⟨r, x'⟩
  cases r with
  | ok a => exact hf a x'
  | error e => trivial

/-- A piece followed by one that asks nothing. -/
theorem before {m : Ship α} {f : α → Ship β} (hm : RequestsLast m)
    (hf : ∀ a, Uses (fun _ => False) (f a)) : RequestsLast (m >>= f) := by
  refine fun x => (hm x).bind ?_
  rintro ⟨r, x'⟩
  cases r with
  | ok a => exact hf a x'
  | error e => trivial

theorem attempt {m : Ship α} (hm : RequestsLast m) : RequestsLast (Ship.attempt m) :=
  fun x => (hm x).bind fun _ => trivial

theorem openRequest (d : RequestDraft) : RequestsLast (Ship.openRequest d) := by
  refine fun x => ⟨fun _ r => ?_, fun r => ?_⟩ <;> cases r <;> trivial

theorem settleRequest {step : Step} {found : String → RequestResult} {d : RequestDraft} :
    RequestsLast (Ship.settleRequest step found d) := by
  refine behind (fun _ => trivial) fun _ => ?_
  refine behind (spares_asks (footprint_openRequestUrl _)) fun url => ?_
  cases url with
  | some url => exact fun _ => trivial
  | none => exact (openRequest d).before fun _ _ => trivial

/-- A new request asks nothing behind the request it opens. -/
theorem newRequest : RequestsLast (Ship.newRequest w o) := by
  rw [newRequest_eq]
  refine behind (spares_looks footprint_lookNew) fun seen => ?_
  unfold shipSeen
  cases newRequestNoOp (decide (w.current = w.default)) o.new seen.dirty seen.ahead with
  | some reason => exact fun _ => trivial
  | none =>
      show RequestsLast (shipNew w o)
      rw [shipNew_eq]
      refine behind (spares_asksOr rfl footprint_settleBranch) fun branch => ?_
      refine behind spares_cutBranch fun committed => ?_
      exact settleRequest.before fun request _ => trivial

theorem pushUpdate {staged : Bool} {ahead : Nat} :
    RequestsLast (Ship.pushUpdate w o staged ahead) := by
  have hfinish {pushed : Option PushMode} : RequestsLast (finishUpdate w o staged pushed) :=
    settleRequest.before fun request _ => trivial
  cases hmode : updatePushMode o.sync ahead with
  | none =>
      rw [pushUpdate_of_none hmode]
      exact behind (fun _ => trivial) fun _ => hfinish
  | some mode =>
      rw [pushUpdate_of_some hmode]
      exact behind (fun _ => trivial) fun _ => behind (spares_execute rfl) fun _ => hfinish

theorem stageAndShip {counterpart : Option String} :
    RequestsLast (Ship.stageAndShip w o counterpart) := by
  refine behind (fun _ => trivial) fun _ => behind (spares_execute rfl) fun _ => ?_
  refine behind (spares_asks (.question .hasStagedChanges rfl)) fun staged => ?_
  refine behind (spares_asks (.question (.countCommits _ _) rfl)) fun ahead => ?_
  split
  · exact fun _ => trivial
  · rw [shipUpdate_eq]
    exact behind (spares_asksOr rfl (footprint_commitStaged _ _ _ _)) fun _ => pushUpdate

theorem updateExisting : RequestsLast (Ship.updateExisting w o) := by
  rw [updateExisting_eq]
  refine behind (spares_looks footprint_lookUpdate) fun counterpart => ?_
  split
  · exact behind (spares_asksOr rfl (footprint_rebaseOnto _ _ _)) fun _ => stageAndShip
  · exact stageAndShip

/-- A run asks nothing behind the request it opens. -/
theorem startWith : RequestsLast (Ship.startWith accepted o) := by
  have hfollow (w : Setting) (flow : Flow) : RequestsLast (follow w o flow) := by
    cases flow with
    | newRequest => exact newRequest
    | updateExisting => exact updateExisting
  refine behind (fun _ => trivial) fun _ => behind (fun _ => trivial) fun _ => ?_
  refine before (attempt (behind (spares_asks (footprint_settle accepted o)) fun p => ?_)) ?_
  · exact hfollow p.1 p.2
  · intro r
    cases r with
    | ok out => exact fun _ => trivial
    | error e => exact fun _ => trivial

end RequestsLast

end Ship

end Shipment
