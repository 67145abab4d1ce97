import Shipment.Proofs.Repository.World
import Shipment.Proofs.Run.Flows

/-!
# Whole runs

A run settles its description, branches and flow and only asks meanwhile.  Then it
follows the flow.  `startWith` is a run cut there, from the verdict on its
description, so that no proof about runs looks into the grammar.  `start_eq` says that
a run is one of these.  `Setting.Fits` is what a run without wrong answers has settled.
-/

namespace Shipment

/-- A session at the start of a run. -/
def Session.fresh (x : Session) : Session :=
  { x with record := { startedAt := x.time }, checkpoint := none }

/-- A session on a day in March, with no random words to draw. -/
def Session.sample : Session :=
  { namer := { now := { seconds := 1709649000, nanos := 0 }, words := [] } }

/-- Changes on the default branch. -/
def Site.changed : Site := { repo := { dirty := true } }

/-- What a run settled is so on the site, and is what was asked for. -/
structure Setting.Fits (accepted : Except Failure (Description × Verdict)) (o : Options) (s : Site)
    (w : Setting) (flow : Flow) : Prop where
  description : ∃ verdict, accepted = .ok (w.description, verdict)
  authenticated : s.host.authenticated = true
  hasOrigin : s.repo.hasOrigin = true
  idle : s.repo.operation = none
  current : s.repo.current = some w.current
  default : w.default = s.repo.default
  base : w.base = o.base.getD w.default
  known : ∀ branch, o.base = some branch → s.repo.remote.has branch = true
  flow : flow = Flow.select w.current w.default o.new

/-- An update is away from the default branch, and no new request was asked for. -/
theorem Setting.Fits.away {accepted : Except Failure (Description × Verdict)} {o : Options}
    {s : Site} {w : Setting} (h : w.Fits accepted o s .updateExisting) :
    w.current ≠ s.repo.default ∧ o.new = false := by
  have hf := h.flow
  unfold Flow.select at hf
  split at hf
  · cases hf
  · rename_i hn
    rw [Bool.or_eq_true, decide_eq_true_eq, not_or, h.default, Bool.not_eq_true] at hn
    exact hn

namespace Ship

open Call Site

/-- Go on with a description, and tell if force was needed. -/
def acceptVerdict (accepted : Except Failure (Description × Verdict)) : Ship Description := do
  let (d, verdict) ← ofExcept accepted
  if verdict = .acceptedWithWarning then notify (.intentOverridden d.text)
  return d

/-- Settle everything a flow needs, and the flow. -/
def settle (accepted : Except Failure (Description × Verdict)) (o : Options) :
    Ship (Setting × Flow) := do
  let description ← acceptVerdict accepted
  let current ← checkPrerequisites
  enter .resolvingBase
  let default ← ask .defaultBranch
  let base ← resolveBase o.base default
  let flow ← selectFlow current default o.new
  return ({ description, current, default, base }, flow)

/-- Follow a flow. -/
def follow (w : Setting) (o : Options) : Flow → Ship Outcome
  | .newRequest => newRequest w o
  | .updateExisting => updateExisting w o

/-- A run from the verdict on its description. -/
def startWith (accepted : Except Failure (Description × Verdict)) (o : Options) :
    Ship Outcome := do
  update Session.fresh
  tell (.step .validatingIntent)
  match ← attempt (settle accepted o >>= fun p => follow p.1 o p.2) with
  | .ok outcome => return outcome
  | .error e => do
      enter .failed
      fail e

theorem drive_eq (raw : String) (o : Options) :
    drive raw o = settle (Description.accept raw o.force) o >>= fun p => follow p.1 o p.2 := by
  simp only [drive, settle, LawfulMonad.bind_assoc, LawfulMonad.pure_bind]
  rfl

/-- A run only needs the verdict on its description. -/
theorem start_eq (raw : String) (o : Options) :
    start raw o = startWith (Description.accept raw o.force) o := by
  rw [start, drive_eq]
  rfl

theorem footprint_acceptVerdict (accepted : Except Failure (Description × Verdict)) :
    Footprint Asks (acceptVerdict accepted) := by
  refine (Footprint.ofExcept _).bind ?_
  rintro ⟨d, verdict⟩
  exact .ite (fun _ => (footprint_notify rfl).bind fun _ => .pure d) fun _ => .pure d

theorem footprint_settle (accepted : Except Failure (Description × Verdict)) (o : Options) :
    Footprint Asks (settle accepted o) := by
  refine (footprint_acceptVerdict accepted).bind fun description => ?_
  refine footprint_checkPrerequisites.bind fun current => ?_
  refine (footprint_enter _).bind fun _ => ?_
  refine (Footprint.question .defaultBranch rfl).bind fun default => ?_
  refine (footprint_resolveBase _ _).bind fun base => ?_
  exact (footprint_selectFlow _ _ _).bind fun flow => .pure _

variable {accepted : Except Failure (Description × Verdict)} {o : Options}

section Any

variable {σ : Type} {W : Surroundings shipping σ} {x : Session} {s : σ}
variable {Q : Outcome → Session → σ → Prop} {E : Failure → Session → σ → Prop}

theorem ensures_startWith :
    (startWith accepted o).Ensures W Q E x s ↔
      (settle accepted o).Ensures W (fun p x s => (follow p.1 o p.2).Ensures W Q
        (fun e x s => E e (x.entered .failed) s) x s)
        (fun e x s => E e (x.entered .failed) s) x.fresh s := by
  simp only [startWith, ensures_bind, ensures_update, ensures_tell, ensures_attempt,
    ensures_enter, ensures_pure, ensures_fail]

end Any

variable {F : Prop} {x : Session} {s : Site}

/-- The checks pass only on a site that meets them, and change nothing. -/
theorem ensures_checkPrerequisites :
    checkPrerequisites.Ensures (world F)
      (fun current _ s' => s' = s ∧ s.host.authenticated = true ∧ s.repo.hasOrigin = true ∧
        s.repo.operation = none ∧ s.repo.current = some current)
      (fun _ _ s' => s' = s) x s := by
  refine ensures_bind.mpr (ensures_enter.mpr ?_)
  refine ensures_bind.mpr ((ensures_question rfl).mpr ⟨?_, fun _ _ => rfl⟩)
  refine Ensures.orElse (fun _ => rfl) fun hauth => ?_
  refine ensures_bind.mpr ((ensures_question rfl).mpr ⟨?_, fun _ _ => rfl⟩)
  refine Ensures.orElse (fun _ => rfl) fun horigin => ?_
  refine ensures_bind.mpr ((ensures_question rfl).mpr ⟨?_, fun _ _ => rfl⟩)
  split
  · exact rfl
  · rename_i hidle
    refine ensures_bind.mpr ((ensures_question rfl).mpr ⟨?_, fun _ _ => rfl⟩)
    split
    · rename_i current hc
      exact ⟨rfl, hauth, horigin, hidle, hc⟩
    · exact rfl

theorem ensures_resolveBase {asked : Option String} {default : String} :
    (resolveBase asked default).Ensures (world F)
      (fun base _ s' => s' = s ∧ base = asked.getD default ∧
        ∀ branch, asked = some branch → s.repo.remote.has branch = true)
      (fun _ _ s' => s' = s) x s := by
  cases asked with
  | none => exact ⟨rfl, rfl, fun branch h => by cases h⟩
  | some base =>
      refine ensures_bind.mpr ((ensures_question rfl).mpr ⟨?_, fun _ _ => rfl⟩)
      split
      · rename_i hk
        exact ⟨rfl, rfl, fun branch h => by cases h; exact hk⟩
      · exact rfl

theorem ensures_acceptVerdict :
    (acceptVerdict accepted).Ensures (world F)
      (fun d _ s' => s' = s ∧ ∃ verdict, accepted = .ok (d, verdict))
      (fun _ _ s' => s' = s) x s := by
  refine ensures_bind.mpr (ensures_ofExcept.mpr ?_)
  cases accepted with
  | error e => exact rfl
  | ok out =>
      refine Ensures.when (F := fun _ _ _ => False) (R := fun _ s' => s' = s)
        (fun _ => ensures_notify.mpr rfl) (fun _ _ _ h => h.elim) (fun _ => rfl) ?_
      exact fun _ _ hs => ⟨hs, out.2, rfl⟩

theorem ensures_selectFlow {current default : String} {new : Bool} :
    (selectFlow current default new).Ensures (world F)
      (fun flow _ s' => s' = s ∧ flow = Flow.select current default new)
      (fun _ _ s' => s' = s) x s := by
  simp only [selectFlow, ensures_bind, ensures_enter, ensures_updateRecord, ensures_tell,
    ensures_pure, and_self]

/-- What a run settles fits the site, which is as it was. -/
theorem ensures_settle :
    (settle accepted o).Ensures (world F)
      (fun p _ s' => s' = s ∧ p.1.Fits accepted o s p.2) (fun _ _ s' => s' = s) x s := by
  refine ensures_acceptVerdict.bind (fun _ _ _ h => h) ?_
  intro d x₁ _ hend
  obtain ⟨rfl, hd⟩ := hend
  refine ensures_checkPrerequisites.bind (fun _ _ _ h => h) ?_
  intro current x₂ _ hend
  obtain ⟨rfl, hauth, horigin, hidle, hc⟩ := hend
  refine ensures_bind.mpr (ensures_enter.mpr ?_)
  refine ensures_bind.mpr ((ensures_question rfl).mpr ⟨?_, fun _ _ => rfl⟩)
  refine ensures_resolveBase.bind (fun _ _ _ h => h) ?_
  intro base x₃ _ hend
  obtain ⟨rfl, hbase, hknown⟩ := hend
  refine ensures_selectFlow.bind (fun _ _ _ h => h) ?_
  intro flow x₄ _ hend
  obtain ⟨rfl, hflow⟩ := hend
  exact ⟨rfl, hd, hauth, horigin, hidle, hc, rfl, hbase, hknown, hflow⟩

end Ship

end Shipment
