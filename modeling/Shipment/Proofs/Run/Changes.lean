import Shipment.Proofs.Run.Record

/-!
# Records under changes

Three things are done to a record: a step is entered, a flow is selected, a notice is added.
Each is a `Change`, and `RunRecord.after` makes changes one behind the other.

What one change does to a part of the record comes first.  A part either collects what the
changes bring (`collected_after`) or holds what the last of them brought (`latest_after`).
`RunRecord.Sound` is kept by every change, and what is said of the transitions and of the
status is read off it.  The main statement is that a new record is `Faithful` to any changes
made to it, in any order: steps may be entered again, and after a terminal one too.
-/

namespace Shipment

/-- Something done to a record. -/
inductive RunRecord.Change where
  /-- A step is entered at a time. -/
  | enter (now : Int) (step : Step)
  /-- A flow is selected. -/
  | selectFlow (flow : Flow)
  /-- A notice is added. -/
  | addNotice (notice : Notice)
deriving DecidableEq, Repr

namespace RunRecord

namespace Change

/-- Do it to a record. -/
def apply : Change → RunRecord → RunRecord
  | enter now step => RunRecord.enter now step
  | selectFlow flow => RunRecord.selectFlow flow
  | addNotice notice => RunRecord.addNotice notice

/-- The step it enters. -/
def step? : Change → Option Step
  | enter _ step => some step
  | _ => none

/-- The flow it selects. -/
def flow? : Change → Option Flow
  | selectFlow flow => some flow
  | _ => none

/-- The notice it adds. -/
def notice? : Change → Option Notice
  | addNotice notice => some notice
  | _ => none

/-- The time it ends the run at. -/
def endsAt? : Change → Option Int
  | enter now step => if step.isTerminal then some now else none
  | _ => none

end Change

/-- The record once changes were made to it, the first one first. -/
def after : RunRecord → List Change → RunRecord
  | r, [] => r
  | r, c :: cs => (c.apply r).after cs

/-- The record of a run that starts at a time. -/
def starting (now : Int) : RunRecord := { startedAt := now }

variable {r : RunRecord}

/-! ## What is collected and what is replaced -/

section Parts

variable {β : Type} {part : Change → Option β}

theorem path_apply (c : Change) (r : RunRecord) :
    (c.apply r).path = r.path ++ c.step?.toList := by
  cases c with
  | enter now step => exact path_enter now step r
  | selectFlow _ | addNotice _ => exact (List.append_nil _).symm

theorem notices_apply (c : Change) (r : RunRecord) :
    (c.apply r).notices = r.notices ++ c.notice?.toList := by
  cases c with
  | enter _ _ | selectFlow _ => exact (List.append_nil _).symm
  | addNotice _ => rfl

theorem flow_apply (c : Change) (r : RunRecord) : (c.apply r).flow = c.flow?.or r.flow := by
  cases c <;> rfl

theorem finishedAt_apply (c : Change) (r : RunRecord) :
    (c.apply r).finishedAt = c.endsAt?.or r.finishedAt := by
  cases c with
  | enter now step =>
      cases h : step.isTerminal <;> simp [Change.apply, RunRecord.enter, Change.endsAt?, h]
  | selectFlow _ | addNotice _ => rfl

/-- A list to which each change adds its part ends in the parts of all of them. -/
theorem collected_after {view : RunRecord → List β}
    (h : ∀ c r, view (Change.apply c r) = view r ++ (part c).toList) (cs : List Change)
    (r : RunRecord) : view (r.after cs) = view r ++ cs.filterMap part := by
  induction cs generalizing r with
  | nil => exact (List.append_nil _).symm
  | cons c cs ih =>
      calc view ((c.apply r).after cs)
        _ = view (c.apply r) ++ cs.filterMap part := ih _
        _ = view r ++ ((part c).toList ++ cs.filterMap part) := by rw [h, List.append_assoc]
        _ = view r ++ (c :: cs).filterMap part := by cases hc : part c <;> simp [hc]

/-- A value that each change with a part replaces is the part of the last such change. -/
theorem latest_after {view : RunRecord → Option β}
    (h : ∀ c r, view (Change.apply c r) = (part c).or (view r)) (cs : List Change)
    (r : RunRecord) : view (r.after cs) = (cs.filterMap part).getLast?.or (view r) := by
  induction cs generalizing r with
  | nil => rfl
  | cons c cs ih =>
      calc view ((c.apply r).after cs)
        _ = (cs.filterMap part).getLast?.or (view (c.apply r)) := ih _
        _ = (cs.filterMap part).getLast?.or ((part c).or (view r)) := by rw [h]
        _ = ((c :: cs).filterMap part).getLast?.or (view r) := by
              cases hc : part c <;> simp [hc, List.getLast?_cons]

end Parts

/-! ## Sound records stay sound -/

theorem Sound.starting (now : Int) : (starting now).Sound := ⟨rfl, rfl, rfl, rfl⟩

theorem Sound.apply (h : r.Sound) (c : Change) : (c.apply r).Sound := by
  cases c with
  | enter now step => exact h.enter now step
  | selectFlow flow => exact h.selectFlow flow
  | addNotice n => exact h.addNotice n

theorem Sound.after (h : r.Sound) (cs : List Change) : (r.after cs).Sound := by
  induction cs generalizing r with
  | nil => exact h
  | cons c cs ih => exact ih (h.apply c)

end RunRecord

/-! ## Transitions and their path -/

/-- Transitions from a step to a step.  Each starts where the one before it ended. -/
inductive Step.Leads : Step → List (Step × Step) → Step → Prop where
  | stay {a : Step} : Leads a [] a
  | go {a b c : Step} {ts : List (Step × Step)} : Leads b ts c → Leads a ((a, b) :: ts) c

/-- The neighbours on a path lead from its first step to its last. -/
theorem Step.leads_neighbours {a b : Step} {l : List Step} (h : (a :: l).getLast? = some b) :
    Leads a ((a :: l).zip l) b := by
  induction l generalizing a with
  | nil =>
      cases h
      exact .stay
  | cons c l ih => exact .go (ih (by simpa using h))

namespace RunRecord

variable {r : RunRecord}

theorem length_path (r : RunRecord) : r.path.length = r.history.length + 1 := by
  unfold path
  cases r.history <;> simp

theorem Sound.mem_path_of_visited (h : r.Sound) {s : Step} (hs : r.visited s = true) :
    s ∈ r.path := by
  rw [visited, Bool.or_eq_true, List.any_eq_true] at hs
  obtain hstep | ⟨t, ht, hs⟩ := hs
  · rw [← eq_of_beq hstep]
    exact List.mem_of_getLast? h.last
  · -- Both ends of a transition are on the path, since they are neighbours there.
    rw [h.history] at ht
    obtain ⟨hfrom, hto⟩ := List.of_mem_zip ht
    rw [Bool.or_eq_true, beq_iff_eq, beq_iff_eq] at hs
    obtain rfl | rfl := hs
    · exact hfrom
    · exact List.mem_of_mem_tail hto

theorem visited_of_mem_path {s : Step} (hs : s ∈ r.path) : r.visited s = true := by
  rw [visited, Bool.or_eq_true, List.any_eq_true]
  unfold path at hs
  cases hr : r.history with
  | nil =>
      rw [hr, List.mem_singleton] at hs
      exact .inl (beq_iff_eq.mpr hs.symm)
  | cons t ts =>
      rw [hr, List.mem_cons, List.mem_map] at hs
      obtain rfl | ⟨u, hu, rfl⟩ := hs
      · exact .inr ⟨t, List.mem_cons_self, by simp⟩
      · exact .inr ⟨u, hu, by simp⟩

end RunRecord

/-! ## The status a path leads to -/

/-- A run that enters a terminal step stands so from then on. -/
inductive Step.EndsAs : Step → RunStatus → Prop where
  | completed : EndsAs .completed .completed
  | noOp : EndsAs .noOp .noOp
  | failed : EndsAs .failed .failed

theorem Step.endsAs_of_ofStep {s : Step} {st : RunStatus} (h : RunStatus.ofStep s = some st) :
    s.EndsAs st := by
  cases s with
  | completed =>
      cases h
      exact .completed
  | noOp =>
      cases h
      exact .noOp
  | failed =>
      cases h
      exact .failed
  | _ => cases h

namespace RunRecord

variable {r : RunRecord}

theorem Sound.running (h : r.Sound) (hopen : ∀ s ∈ r.path, s.isTerminal = false) :
    r.status = .running := by
  rw [h.status, RunStatus.filterMap_ofStep_eq_nil hopen]
  rfl

theorem Sound.ended (h : r.Sound) {front back : List Step} {s : Step}
    (hpath : r.path = front ++ s :: back) (hs : s.isTerminal = true)
    (hback : ∀ t ∈ back, t.isTerminal = false) : s.EndsAs r.status :=
  Step.endsAs_of_ofStep (h.ofStep_last hpath hs hback)

/-! ## Faithful records -/

/-- What a record that was new tells of the changes made to it. -/
structure Faithful (r : RunRecord) (cs : List Change) : Prop where
  /-- The path is the first step of a run and then the steps entered, in order. -/
  path : r.path = .validatingIntent :: cs.filterMap Change.step?
  /-- The transitions lead from the first step of a run to the one it is in. -/
  leads : Step.Leads .validatingIntent r.history r.step
  /-- The path has one step more than there are transitions, which are its neighbours. -/
  length : r.path.length = r.history.length + 1
  neighbours : r.path.zip r.path.tail = r.history
  /-- The steps visited are those on the path. -/
  visited : ∀ s, r.visited s = true ↔ s ∈ r.path
  /-- The run goes on if no step on the path is terminal. -/
  running : (∀ s ∈ r.path, s.isTerminal = false) → r.status = .running
  /-- It stands as the last terminal step on the path says. -/
  ended : ∀ front s back, r.path = front ++ s :: back → s.isTerminal = true →
    (∀ t ∈ back, t.isTerminal = false) → s.EndsAs r.status
  /-- The time the run was over is set if and only if a step on the path is terminal. -/
  finished : r.finishedAt.isSome = true ↔ ∃ s ∈ r.path, s.isTerminal = true
  /-- It is the time at which the last terminal step was entered. -/
  finishedAt : r.finishedAt = (cs.filterMap Change.endsAt?).getLast?
  /-- The notices are those added, in order. -/
  notices : r.notices = cs.filterMap Change.notice?
  /-- The flow is the last one selected. -/
  flow : r.flow = (cs.filterMap Change.flow?).getLast?

/-- Whatever is done to a new record, the record is faithful to it. -/
theorem faithful_to_changes (now : Int) (cs : List Change) :
    ((starting now).after cs).Faithful cs := by
  have hs : ((starting now).after cs).Sound := (Sound.starting now).after cs
  have hpath : ((starting now).after cs).path = .validatingIntent :: cs.filterMap Change.step? :=
    collected_after path_apply cs (starting now)
  refine ⟨hpath, ?leads, length_path _, hs.history.symm, ?visited, hs.running,
    fun _ _ _ => hs.ended, ?finished, ?finishedAt, ?notices, ?flow⟩
  case leads =>
    rw [hs.history, hpath]
    exact Step.leads_neighbours (hpath ▸ hs.last)
  case visited => exact fun s => ⟨hs.mem_path_of_visited, visited_of_mem_path⟩
  case finished => rw [hs.finished, List.any_eq_true]
  case finishedAt =>
    exact (latest_after finishedAt_apply cs (starting now)).trans (Option.or_none ..)
  case notices => exact collected_after notices_apply cs (starting now)
  case flow => exact (latest_after flow_apply cs (starting now)).trans (Option.or_none ..)

/-- A run that ends, goes on and fails stands as failed from then on. -/
example :
    let r := (starting 0).after
      [.enter 1 .noOp, .enter 2 .pushing, .enter 3 .failed, .enter 4 .pushing]
    r.path = [.validatingIntent, .noOp, .pushing, .failed, .pushing] ∧
      r.status = .failed ∧ r.finishedAt = some 3 := by decide

end RunRecord

end Shipment
