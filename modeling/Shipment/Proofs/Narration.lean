import Shipment.Proofs.Recorded
import Shipment.Proofs.Trace

/-!
# What a run reports

A run keeps its record and tells its events in different places.  `Told` is the grammar of a
trace: an action is told right before its call and right behind it, and a flow right behind
the step that selects it.  `Narrates` says that what a piece has told is what it has
recorded, and every woven piece keeps to it, also one that goes back after a failure.
-/

namespace Shipment

/-! ## Events -/

namespace Event

/-- The step an event tells. -/
def step? : Event → Option Step
  | step s => some s
  | _ => none

/-- The notice an event tells. -/
def notice? : Event → Option Notice
  | notice n => some n
  | _ => none

/-- The flow an event tells. -/
def flow? : Event → Option Flow
  | flow f => some f
  | _ => none

/-- The action an event tells the start of. -/
def started? : Event → Option Action
  | action a .started => some a
  | _ => none

/-- The action an event tells the end of, and whether it succeeded. -/
def ended? : Event → Option (Action × Bool)
  | action a .succeeded => some (a, true)
  | action a (.failed _) => some (a, false)
  | _ => none

/-- What an event tells of the failure of an action. -/
def failure? : Event → Option String
  | action _ (.failed text) => some text
  | _ => none

/-- Where an event stands.  The end of an action comes right behind its start, and a flow
right behind the step that selects it. -/
def Placed (before : List Event) (e : Event) (after : List Event) : Prop :=
  match e with
  | action a .started => ∃ status later, after = action a status :: later ∧ status ≠ .started
  | action a _ => ∃ earlier, before = earlier ++ [action a .started]
  | flow _ => ∃ earlier, before = earlier ++ [step .selectingFlow]
  | _ => True

theorem Placed.cons {before after : List Event} {e : Event} (h : Placed before e after)
    (e' : Event) : Placed (e' :: before) e after := by
  have hcons {e₀ : Event} (h : ∃ earlier, before = earlier ++ [e₀]) :
      ∃ earlier, e' :: before = earlier ++ [e₀] := by
    obtain ⟨earlier, rfl⟩ := h
    exact ⟨e' :: earlier, rfl⟩
  cases e with
  | step s => trivial
  | notice n => trivial
  | flow f => exact hcons h
  | action a status =>
      cases status with
      | started => exact h
      | succeeded => exact hcons h
      | failed text => exact hcons h

/-- Every event stands where it should. -/
def AllPlaced (es : List Event) : Prop :=
  ∀ before e after, es = before ++ e :: after → Placed before e after

theorem AllPlaced.cons {e : Event} {es : List Event} (h : AllPlaced es) (he : Placed [] e es) :
    AllPlaced (e :: es) := by
  intro before e' after hes
  rcases List.cons_eq_append_iff.mp hes with ⟨rfl, h'⟩ | ⟨before', rfl, hes'⟩
  · cases h'
    exact he
  · exact (h before' e' after hes').cons e

/-- Two events of which the second stands right behind the first. -/
theorem AllPlaced.cons_cons {e₁ e₂ : Event} {es : List Event} (h : AllPlaced es)
    (h₁ : Placed [] e₁ (e₂ :: es)) (h₂ : Placed [e₁] e₂ es) : AllPlaced (e₁ :: e₂ :: es) := by
  intro before e after hes
  rcases List.cons_eq_append_iff.mp hes with ⟨rfl, h'⟩ | ⟨before', rfl, hes'⟩
  · cases h'
    exact h₁
  · rcases List.cons_eq_append_iff.mp hes' with ⟨rfl, h'⟩ | ⟨before'', rfl, hes''⟩
    · cases h'
      exact h₂
    · exact ((h before'' e after hes'').cons e₂).cons e₁

end Event

/-- Whether a call is that of an action. -/
def Call.isAction (c : Call) : Bool := !c.isQuestion && !c.undoes

@[simp] theorem Action.isAction_call (a : Action) : a.call.isAction = true := by cases a <;> rfl

/-- The calls of actions in a trace, and whether they were answered. -/
def Trace.attempts (t : Trace shipping) : List (Call × Bool) :=
  (t.moments.filter fun m => m.call.isAction).map fun m => (m.call, m.reply.toBool)

theorem Trace.attempts_doing (a : Action) (r : Except Failure a.call.Answer)
    (t : Trace shipping) :
    Trace.attempts (Ship.doing a r ++ t) = (a.call, r.toBool) :: Trace.attempts t := by
  simp [Trace.attempts, Trace.moments, Ship.doing]

/-! ## The grammar of a trace -/

/-- A trace of a run in which these flows were told. -/
inductive Told : List Flow → Trace shipping → Prop where
  | nil : Told [] []
  | asked {fs : List Flow} {t : Trace shipping} (c : Call) (r : Except Failure c.Answer) :
      c.isAction = false → Told fs t → Told fs (.called c r :: t)
  | acted {fs : List Flow} {t : Trace shipping} (a : Action) (r : Except Failure a.call.Answer) :
      Told fs t → Told fs (Ship.doing a r ++ t)
  | stepped {fs : List Flow} {t : Trace shipping} (s : Step) : s ≠ .selectingFlow → Told fs t →
      Told fs (.told (.step s) :: t)
  | noticed {fs : List Flow} {t : Trace shipping} (n : Notice) : Told fs t →
      Told fs (.told (.notice n) :: t)
  | selected {fs : List Flow} {t : Trace shipping} (f : Flow) : Told fs t →
      Told (f :: fs) (.told (.step .selectingFlow) :: .told (.flow f) :: t)

namespace Told

variable {fs fs' : List Flow} {t t' : Trace shipping}

theorem append (h : Told fs t) (h' : Told fs' t') : Told (fs ++ fs') (t ++ t') := by
  induction h with
  | nil => exact h'
  | asked c r hc _ ih => exact .asked c r hc ih
  | acted a r _ ih => exact .acted a r ih
  | stepped s hs _ ih => exact .stepped s hs ih
  | noticed n _ ih => exact .noticed n ih
  | selected f _ ih => exact .selected f ih

theorem flows (h : Told fs t) : t.events.filterMap Event.flow? = fs := by
  induction h with
  | nil => rfl
  | asked c r hc _ ih => exact ih
  | acted a r _ ih => cases r <;> exact ih
  | stepped s hs _ ih => exact ih
  | noticed n _ ih => exact ih
  | selected f _ ih => exact congrArg (f :: ·) ih

/-- The actions that were started are those whose calls were made. -/
theorem started (h : Told fs t) :
    (t.events.filterMap Event.started?).map Action.call = t.calls.filter Call.isAction := by
  induction h with
  | nil => rfl
  | asked c r hc _ ih => rwa [Trace.calls, List.filter_cons_of_neg (by simp [hc])]
  | acted a r _ ih =>
      refine Eq.trans ?_ (List.filter_cons_of_pos a.isAction_call).symm
      cases r <;> exact congrArg (a.call :: ·) ih
  | stepped s hs _ ih => exact ih
  | noticed n _ ih => exact ih
  | selected f _ ih => exact ih

/-- An action succeeded if and only if its call was answered. -/
theorem ended (h : Told fs t) :
    (t.events.filterMap Event.ended?).map (fun e => (e.1.call, e.2)) = t.attempts := by
  induction h with
  | nil => rfl
  | asked c r hc _ ih => simpa [Trace.attempts, Trace.moments, Trace.events, hc] using ih
  | acted a r _ ih =>
      rw [Trace.attempts_doing, ← ih]
      cases r <;> rfl
  | stepped s hs _ ih => exact ih
  | noticed n _ ih => exact ih
  | selected f _ ih => exact ih

/-- In what a run has told, every event is in its place. -/
theorem allPlaced (h : Told fs t) : Event.AllPlaced t.events := by
  induction h with
  | nil => exact fun before e after hes => by simp [Trace.events] at hes
  | asked c r hc _ ih => exact ih
  | acted a r _ ih =>
      cases r with
      | ok v => exact ih.cons_cons ⟨_, _, rfl, by simp [Action.ending]⟩ ⟨[], rfl⟩
      | error e => exact ih.cons_cons ⟨_, _, rfl, by simp [Action.ending]⟩ ⟨[], rfl⟩
  | stepped s hs _ ih => exact ih.cons trivial
  | noticed n _ ih => exact ih.cons trivial
  | selected f _ ih => exact ih.cons_cons trivial ⟨[], rfl⟩

end Told

/-- The events of a run beside its calls, its record and its result. -/
structure Narrated (t : Trace shipping) (result : Except Failure Outcome) (r : RunRecord) :
    Prop where
  /-- The trace keeps to the grammar. -/
  told : Told r.flow.toList t
  /-- The steps told are the path. -/
  steps : t.events.filterMap Event.step? = r.path
  /-- The notices told are those of the record. -/
  notices : t.events.filterMap Event.notice? = r.notices
  /-- The flow is told once, if it was selected, and is that of the record. -/
  flow : t.events.filterMap Event.flow? = r.flow.toList
  /-- Ends stand behind starts, and the flow behind its step. -/
  placed : Event.AllPlaced t.events
  /-- The actions started are those whose calls were made. -/
  started : (t.events.filterMap Event.started?).map Action.call = t.calls.filter Call.isAction
  /-- An action succeeded if and only if its call was answered. -/
  ended : (t.events.filterMap Event.ended?).map (fun e => (e.1.call, e.2)) = t.attempts
  /-- An action that failed tells the failure of the run. -/
  failures : ∀ text ∈ t.events.filterMap Event.failure?, ∃ e, result = .error e ∧ text = e.text

namespace Ship

variable {α β : Type} {x : Session}

/-! ## Pieces that keep to themselves -/

/-- A piece tells no event and leaves the session alone. -/
def Silent (m : Ship α) : Prop :=
  ∀ x, m.Traces x fun t out => Told [] t ∧ t.events = [] ∧ out.2 = x

theorem Silent.ask {c : Call} (hc : c.isAction = false) : Silent (Ship.ask c) :=
  fun _ => traces_ask.mpr fun r => ⟨.asked c r hc .nil, rfl, rfl⟩

theorem Silent.bind {m : Ship α} {f : α → Ship β} (h : Silent m) (hf : ∀ a, Silent (f a)) :
    Silent (m >>= f) := by
  intro x
  refine (h x).bind (fun _ _ _ h => h) ?_
  rintro t a x' ⟨ht, he, hx⟩
  refine (hf a x').mono ?_
  rintro t' out ⟨ht', he', hx'⟩
  exact ⟨ht.append ht', by rw [Trace.events_append, he, he']; rfl, hx'.trans hx⟩

theorem silent_stepsBack (c : Checkpoint) : Silent (stepsBack c) := by
  have hleave : Silent (leave c) := (Silent.ask rfl).bind fun _ => .ask rfl
  rw [stepsBack_eq]
  split
  · exact (Silent.ask rfl).bind fun _ => hleave
  · exact hleave

theorem traces_goBack {c : Checkpoint} : (goBack c).Traces x fun t out => Told [] t ∧
    t.events = [] ∧ out.2 = x ∧ ∃ back, out.1 = .ok back := by
  refine Traces.bind (R := fun t out => (Told [] t ∧ t.events = [] ∧ out.2 = x) ∧
    ∃ r, out.1 = .ok r) (traces_attempt.mpr ?_) ?_ ?_
  · exact (silent_stepsBack c x).mono fun t out h => ⟨h, out.1, rfl⟩
  · rintro _ _ _ ⟨-, r, h⟩
    cases h
  · rintro t r x' ⟨⟨ht, he, rfl⟩, -⟩
    cases r with
    | ok u => exact ⟨ht.append .nil, by simp [he], rfl, true, rfl⟩
    | error e => exact ⟨ht.append .nil, by simp [he], rfl, false, rfl⟩

/-- Going back tells the notice it gives and nothing else, and records nothing. -/
theorem traces_rollback : rollback.Traces x fun t out => Told [] t ∧
    out.2.record = x.record ∧ ∃ n, out.1 = .ok n ∧ t.events = (n.map Event.notice).toList := by
  unfold Traces
  cases hx : x.checkpoint with
  | none =>
      rw [rollback_of_none hx]
      exact ⟨.nil, rfl, none, rfl, rfl⟩
  | some c =>
      rw [rollback_of_some hx]
      refine traces_goBack.bind ?_ ?_
      · rintro _ _ _ ⟨-, -, -, back, h⟩
        cases h
      · rintro t back x' ⟨ht, he, rfl, -⟩
        cases back with
        | false => exact ⟨ht.append .nil, rfl, none, rfl, by simp [he]⟩
        | true =>
            refine ⟨ht.append (.noticed _ .nil), rfl, some (.rolledBack c.created c.prior), rfl, ?_⟩
            rw [Trace.events_append, he]
            rfl

/-! ## Woven pieces -/

/-- What a piece told is what it recorded.  It told of these flows. -/
structure Narrates (fs : List Flow) (x : Session) (t : Trace shipping)
    (out : Except Failure α × Session) : Prop where
  told : Told fs t
  flow : out.2.record.flow = fs.getLast?.or x.record.flow
  steps : out.2.record.path = x.record.path ++ t.events.filterMap Event.step?
  notices : out.2.record.notices = x.record.notices ++ t.events.filterMap Event.notice?
  failures : ∀ text ∈ t.events.filterMap Event.failure?, ∃ e, out.1 = .error e ∧ text = e.text

namespace Narrates

variable {fs fs' : List Flow}

/-- A piece that tells nothing and records nothing. -/
theorem of_silent {t : Trace shipping} {out : Except Failure α × Session} (ht : Told [] t)
    (he : t.events = []) (hx : out.2.record = x.record) : Narrates [] x t out := by
  refine ⟨ht, ?_, ?_, ?_, ?_⟩
  · simp [hx]
  · simp [he, hx]
  · simp [he, hx]
  · simp [he]

/-- What a piece that failed told, whatever the type of its value. -/
theorem of_error {t : Trace shipping} {e : Failure} {x' : Session}
    (h : Narrates fs x t ((.error e, x') : Except Failure α × Session)) :
    Narrates fs x t ((.error e, x') : Except Failure β × Session) := by
  refine ⟨h.told, h.flow, h.steps, h.notices, fun text htext => ?_⟩
  obtain ⟨e', he, htext⟩ := h.failures text htext
  cases he
  exact ⟨e, rfl, htext⟩

/-- An action that was done records nothing, and fails with what it told. -/
theorem of_doing {a : Action} {r : Except Failure a.call.Answer}
    {out : Except Failure α × Session} (hx : out.2.record = x.record)
    (hr : ∀ e, r = .error e → out.1 = .error (a.failure e)) : Narrates [] x (doing a r) out := by
  refine ⟨.acted a r .nil, by simp [hx], ?_, ?_, ?_⟩
  · cases r <;> simp [doing, Trace.events, Event.step?, hx]
  · cases r <;> simp [doing, Trace.events, Event.notice?, hx]
  · intro text htext
    cases r with
    | ok v => simp [doing, Trace.events, Event.failure?, Action.ending] at htext
    | error e =>
        refine ⟨a.failure e, hr e rfl, Eq.symm ?_⟩
        simpa [doing, Trace.events, Event.failure?, Action.ending] using htext

/-- What a piece told, and then the next. -/
theorem append {t t' : Trace shipping} {a : α} {x' : Session}
    {out : Except Failure β × Session} (h : Narrates fs x t (.ok a, x'))
    (h' : Narrates fs' x' t' out) : Narrates (fs ++ fs') x (t ++ t') out := by
  refine ⟨h.told.append h'.told, ?_, ?_, ?_, ?_⟩
  · rw [h'.flow, h.flow, List.getLast?_append, Option.or_assoc]
  · rw [h'.steps, h.steps, Trace.events_append, List.filterMap_append, List.append_assoc]
  · rw [h'.notices, h.notices, Trace.events_append, List.filterMap_append, List.append_assoc]
  · intro text htext
    rw [Trace.events_append, List.filterMap_append, List.mem_append] at htext
    rcases htext with htext | htext
    · obtain ⟨e, he, -⟩ := h.failures text htext
      cases he
    · exact h'.failures text htext

/-- What a piece that failed told, and then the way back. -/
theorem append_rollback {t t' : Trace shipping} {e : Failure} {x' x'' : Session}
    {n : Option Notice} (h : Narrates [] x t ((.error e, x') : Except Failure α × Session))
    (ht : Told [] t') (hx : x''.record = x'.record)
    (he : t'.events = (n.map Event.notice).toList) :
    Narrates [] x (t ++ t') ((.error e, x''.told n) : Except Failure β × Session) := by
  have hpath : x'.record.path = x.record.path ++ t.events.filterMap Event.step? := h.steps
  have hnotices : x'.record.notices = x.record.notices ++ t.events.filterMap Event.notice? :=
    h.notices
  have htold : (x''.told n).record.path = x'.record.path ∧
      (x''.told n).record.notices = x'.record.notices ++ n.toList := by
    cases n with
    | none => exact ⟨congrArg RunRecord.path hx, by rw [Session.told, hx]; simp⟩
    | some n =>
        exact ⟨congrArg (fun r : RunRecord => (r.addNotice n).path) hx,
          congrArg (fun r : RunRecord => r.notices ++ [n]) hx⟩
  have hevents : t'.events.filterMap Event.step? = [] ∧
      t'.events.filterMap Event.notice? = n.toList ∧
      t'.events.filterMap Event.failure? = [] := by
    rw [he]
    cases n with
    | none => exact ⟨rfl, rfl, rfl⟩
    | some n => exact ⟨rfl, rfl, rfl⟩
  refine ⟨h.told.append ht, ?_, ?_, ?_, ?_⟩
  · have hflow : (x''.told n).record.flow = x''.record.flow := by cases n <;> rfl
    exact (hflow.trans (congrArg RunRecord.flow hx)).trans h.flow
  · simp [Trace.events_append, htold.1, hevents.1, hpath]
  · simp [Trace.events_append, htold.2, hevents.2.1, hnotices]
  · intro text htext
    rw [Trace.events_append, List.filterMap_append, hevents.2.2, List.append_nil] at htext
    exact (of_error h).failures text htext

/-- A piece that failed, and then the step into which it failed. -/
theorem failed {t : Trace shipping} {e : Failure} {x' : Session}
    (h : Narrates fs x t ((.error e, x') : Except Failure α × Session)) :
    Narrates fs x (t ++ [.told (.step .failed)])
      ((.error e, x'.entered .failed) : Except Failure β × Session) := by
  have htold : Told (fs ++ []) (t ++ [.told (.step .failed)]) :=
    h.told.append (.stepped .failed (by decide) .nil)
  have hpath : x'.record.path = x.record.path ++ t.events.filterMap Event.step? := h.steps
  refine ⟨by simpa using htold, h.flow, ?_, ?_, ?_⟩
  · rw [Trace.events_append, List.filterMap_append, ← List.append_assoc, ← hpath]
    exact RunRecord.path_enter ..
  · rw [Trace.events_append, List.filterMap_append, ← List.append_assoc, ← h.notices]
    exact (List.append_nil _).symm
  · intro text htext
    rw [Trace.events_append, List.filterMap_append] at htext
    exact h.of_error.failures text (by simpa [Trace.events, Event.failure?] using htext)

/-- What a run tells between its first step and its end, and the first step. -/
theorem narrated {t : Trace shipping} {r : Except Failure Outcome} {x' : Session}
    (h : Narrates fs x.fresh t (r, x')) (hfs : fs.length ≤ 1) :
    Narrated (.told (.step .validatingIntent) :: t) r x'.record := by
  have htold : Told fs (.told (.step .validatingIntent) :: t) :=
    .stepped _ (by decide) h.told
  have hflow : fs = x'.record.flow.toList := by
    rw [show x'.record.flow = fs.getLast?.or none from h.flow]
    match fs, hfs with
    | [], _ => rfl
    | [f], _ => rfl
  exact ⟨hflow ▸ htold, h.steps.symm, h.notices.symm, htold.flows.trans hflow, htold.allPlaced,
    htold.started, htold.ended, h.failures⟩

end Narrates

/-- Every woven piece reports what it records. -/
theorem Woven.tells {draft : Bool} {draws : Prop} {m m' : Ship α}
    (h : Woven draft draws m m') : m.Traces x (Narrates [] x) := by
  induction h generalizing x with
  | pure a => exact .of_silent .nil rfl rfl
  | fail e => exact .of_silent .nil rfl rfl
  | notices => exact .of_silent .nil rfl rfl
  | ask c hc =>
      have ha : c.isAction = false := by rw [Call.isAction, hc]; rfl
      exact traces_ask.mpr fun r => .of_silent (.asked c r ha .nil) rfl rfl
  | enter step hs =>
      refine traces_enter.mpr ⟨.stepped step hs .nil, rfl, RunRecord.path_enter .., ?_, ?_⟩
      · exact (List.append_nil _).symm
      · simp [Trace.events, Event.failure?]
  | notify n =>
      refine traces_notify.mpr ⟨.noticed n .nil, rfl, (List.append_nil _).symm, rfl, ?_⟩
      simp [Trace.events, Event.failure?]
  | execute a ha =>
      refine traces_execute.mpr fun r => ?_
      cases r with
      | ok v => exact .of_doing (Session.noted_record a x) fun e h => by cases h
      | error e =>
          refine .of_doing rfl fun e' h => ?_
          cases h
          rfl
  | openRequest d =>
      refine traces_openRequest.mpr fun r => .of_doing rfl fun e h => ?_
      cases h
      rfl
  | generateName d hd => exact .of_silent .nil rfl rfl
  | arm c => exact .of_silent .nil rfl rfl
  | disarm => exact .of_silent .nil rfl rfl
  | orGoBack h ih =>
      refine Traces.bind (R := fun t out => ∃ r, out.1 = .ok r ∧ Narrates [] x t (r, out.2))
        (traces_attempt.mpr (ih.mono fun t out h => ⟨out.1, rfl, h⟩)) ?_ ?_
      · rintro _ _ _ ⟨_, h, -⟩
        cases h
      · rintro t r x' ⟨_, h, hr⟩
        cases h
        cases r with
        | ok a =>
            show Narrates [] x (t ++ []) _
            rwa [List.append_nil]
        | error e =>
            refine traces_rollback.bind ?_ ?_
            · rintro _ _ _ ⟨-, -, _, h, -⟩
              cases h
            · rintro t' n x'' ⟨ht, hx, _, h, he⟩
              cases h
              -- The notice was told on the way back and is recorded here.
              cases n with
              | none =>
                  show Narrates [] x (t ++ (t' ++ [])) _
                  rw [List.append_nil]
                  exact hr.append_rollback ht hx he
              | some n =>
                  show Narrates [] x (t ++ (t' ++ [])) _
                  rw [List.append_nil]
                  exact hr.append_rollback ht hx he
  | bind h hk ih ihk =>
      refine Traces.bind ih ?_ ?_
      · exact fun t e x' h => h.of_error
      · exact fun t a x' h => (ihk a).mono fun t' out h' => h.append h'

/-! ## Whole runs -/

variable {accepted : Except Failure (Description × Verdict)} {o : Options}

/-- Everything between the start of a run and its end tells at most one flow. -/
theorem traces_settle_follow :
    (settle accepted o >>= fun p => follow p.1 o p.2).Traces x fun t out =>
      ∃ fs, fs.length ≤ 1 ∧ Narrates fs x t out := by
  have hprepare : Woven o.draft False (prepare accepted o.base) (prepare accepted o.base) :=
    .prepare _ _
  rw [settle_follow_eq]
  refine hprepare.tells.bind (fun t e x' h => ⟨[], by simp, h.of_error⟩) ?_
  intro t w x' h
  let flow := Flow.select w.current w.default o.new
  have hselect : (selectFlow w.current w.default o.new).Traces x' fun t out =>
      out.1 = .ok flow ∧ Narrates [flow] x' t out := by
    refine ⟨rfl, .selected flow .nil, rfl, ?_, (List.append_nil _).symm, ?_⟩
    · exact RunRecord.path_enter x'.time .selectingFlow x'.record
    · simp [Trace.events, Event.failure?]
  refine hselect.bind (fun _ _ _ h => by cases h.1) ?_
  rintro t' _ x'' ⟨hflow, h'⟩
  cases hflow
  have hfollow : Woven o.draft True (follow w o flow) (follow w o flow) :=
    .follow fun _ _ => trivial
  refine hfollow.tells.mono fun t'' out h'' => ⟨_, ?_, h.append (h'.append h'')⟩
  simp

/-- A run reports what it records and does. -/
theorem traces_startWith : (startWith accepted o).Traces x fun t out =>
    Narrated t out.1 out.2.record := by
  show ((attempt (settle accepted o >>= fun p => follow p.1 o p.2) >>= _).Traces x.fresh _)
  refine Traces.bind (R := fun t out => ∃ r fs, out.1 = .ok r ∧ fs.length ≤ 1 ∧
    Narrates fs x.fresh t (r, out.2)) (traces_attempt.mpr ?_) ?_ ?_
  · refine traces_settle_follow.mono fun t out h => ?_
    obtain ⟨fs, hfs, h⟩ := h
    exact ⟨out.1, fs, rfl, hfs, h⟩
  · rintro _ _ _ ⟨_, _, h, -⟩
    cases h
  · rintro t r x' ⟨_, fs, h, hfs, htells⟩
    cases h
    cases r with
    | ok out =>
        show Narrated (_ :: (t ++ [])) (.ok out) x'.record
        rw [List.append_nil]
        exact htells.narrated hfs
    | error e => exact htells.failed.narrated hfs

/-- What a run tells is what it does, what it records and what it ends with. -/
theorem narrated_of_run (raw : String) (o : Options) (x : Session) (t : Trace shipping)
    (out : Except Failure Outcome × Session) (ht : Program.Runs (start raw o x) t out) :
    Narrated t out.1 out.2.record := by
  rw [start_eq] at ht
  exact Program.Traces.runs traces_startWith ht

/-- A run whose push is rejected tells the rejection, and then that it went back. -/
theorem narrated_of_run_rejected :
    let o : Options := { branch := some "topic" }
    let faults := [Fault.outage fun c => c = .push "topic" .tracking]
    let run := (start "feat: add widget" o .sample).run Site.answer.withFaults (faults, .changed)
    [.action (.push "topic" .tracking) (.failed (Failure.pushRejected "topic" "outage").text),
        .notice (.rolledBack "topic" "main"), .step .failed] <:+ run.trace.events ∧
      run.value.1 = .error (.pushRejected "topic" "outage") ∧
      Narrated run.trace run.value.1 run.value.2.record := by
  intro o faults run
  refine ⟨by decide +kernel, by decide +kernel, ?_⟩
  exact narrated_of_run _ _ _ _ _ (Program.run_runs ..)

end Ship

end Shipment
