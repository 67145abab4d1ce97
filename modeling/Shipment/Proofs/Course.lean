import Shipment.Outcome
import Shipment.Step

/-!
# Courses

The steps of a run are decided by five things: its flow, whether it starts on the default
branch, whether it syncs, whether there is nothing to do, and whether it commits.
`Course.steps` are the steps that follow, but for the last one.  A run goes through all of
them and ends in `Course.last`, or it breaks off behind any of them and ends in `failed`.
-/

namespace Shipment

/-- What decides the steps of a run. -/
structure Course where
  /-- The flow. -/
  flow : Flow
  /-- Whether it starts on the default branch. -/
  onDefault : Bool
  /-- Whether it syncs. -/
  sync : Bool
  /-- Whether there is nothing to do. -/
  idle : Bool
  /-- Whether it commits. -/
  committed : Bool
deriving DecidableEq, Repr

/-- A step that is taken only on a condition. -/
def Step.onlyIf (c : Bool) (s : Step) : List Step := if c then [s] else []

namespace Course

/-- The steps of a flow that has something to do. -/
def work (c : Course) : List Step :=
  match c.flow with
  | .newRequest =>
      .resolvingBranchName :: Step.syncingDefaultBranch.onlyIf c.onDefault ++
        .creatingBranch :: Step.committing.onlyIf c.committed ++ [.pushing, .openingRequest]
  | .updateExisting =>
      Step.committing.onlyIf c.committed ++ [.pushingUpdate, .finalizingRequest]

/-- The steps by which a flow finds out if it has something to do. -/
def look (c : Course) : List Step :=
  match c.flow with
  | .newRequest => [.fetchingBase, .inspectingTree]
  | .updateExisting =>
      .checkingRequestState :: .checkingBehind :: Step.syncing.onlyIf c.sync ++ [.staging]

/-- The steps of a flow, but for the last one. -/
def flowSteps (c : Course) : List Step := c.look ++ if c.idle then [] else c.work

/-- The steps of a run, but for the last one. -/
def steps (c : Course) : List Step :=
  [.validatingIntent, .checkingPreconditions, .resolvingBase, .selectingFlow] ++ c.flowSteps

/-- The step a run ends in that does not fail. -/
def last (c : Course) : Step := if c.idle then .noOp else .completed

/-- The course with a result. -/
def endingIn (flow : Flow) (onDefault sync : Bool) : RunResult → Course
  | .noOp _ => { flow, onDefault, sync, idle := true, committed := false }
  | .shipped committed _ _ => { flow, onDefault, sync, idle := false, committed }

@[simp] theorem endingIn_flow (flow : Flow) (onDefault sync : Bool) (r : RunResult) :
    (endingIn flow onDefault sync r).flow = flow := by cases r <;> rfl

@[simp] theorem endingIn_onDefault (flow : Flow) (onDefault sync : Bool) (r : RunResult) :
    (endingIn flow onDefault sync r).onDefault = onDefault := by cases r <;> rfl

@[simp] theorem endingIn_sync (flow : Flow) (onDefault sync : Bool) (r : RunResult) :
    (endingIn flow onDefault sync r).sync = sync := by cases r <;> rfl

theorem isTerminal_last (c : Course) : c.last.isTerminal = true := by
  unfold last
  split <;> rfl

theorem isTerminal_steps (c : Course) : ∀ s ∈ c.steps, s.isTerminal = false := by
  obtain ⟨flow, onDefault, sync, idle, committed⟩ := c
  cases flow <;> cases onDefault <;> cases sync <;> cases idle <;> cases committed <;> decide

theorem nodup_steps (c : Course) : c.steps.Nodup := by
  obtain ⟨flow, onDefault, sync, idle, committed⟩ := c
  cases flow <;> cases onDefault <;> cases sync <;> cases idle <;> cases committed <;> decide

theorem committing_mem_steps (c : Course) :
    .committing ∈ c.steps ↔ c.idle = false ∧ c.committed = true := by
  obtain ⟨flow, onDefault, sync, idle, committed⟩ := c
  cases flow <;> cases onDefault <;> cases sync <;> cases idle <;> cases committed <;> decide

/-- A run follows a course to its end, or breaks off and fails. -/
inductive Follows (c : Course) : List Step → Prop where
  | toTheEnd : Follows c (c.steps ++ [c.last])
  | brokenOff {p : List Step} : p ≠ [] → p <+: c.steps → Follows c (p ++ [.failed])

namespace Follows

variable {c : Course} {path : List Step}

theorem head (h : c.Follows path) : path.head? = some .validatingIntent := by
  cases h with
  | toTheEnd => rfl
  | @brokenOff p hp hsteps =>
      cases p with
      | nil => exact absurd rfl hp
      | cons s p =>
          obtain ⟨rfl, -⟩ := List.cons_prefix_cons.mp hsteps
          rfl

/-- The last step of a followed course is its only terminal one. -/
theorem ends (h : c.Follows path) : ∃ front last, path = front ++ [last] ∧
    front <+: c.steps ∧ last.isTerminal = true ∧ ∀ s ∈ front, s.isTerminal = false := by
  cases h with
  | toTheEnd => exact ⟨_, _, rfl, List.prefix_rfl, c.isTerminal_last, c.isTerminal_steps⟩
  | brokenOff _ hsteps =>
      exact ⟨_, _, rfl, hsteps, rfl, fun s hs => c.isTerminal_steps s (hsteps.subset hs)⟩

theorem nodup (h : c.Follows path) : path.Nodup := by
  obtain ⟨front, last, rfl, hsteps, hlast, hfront⟩ := h.ends
  refine List.nodup_append.mpr ⟨c.nodup_steps.sublist hsteps.sublist, by simp, ?_⟩
  intro s hs t ht e
  cases List.mem_singleton.mp ht
  rw [← e, hfront s hs] at hlast
  cases hlast

end Follows

end Course

end Shipment
