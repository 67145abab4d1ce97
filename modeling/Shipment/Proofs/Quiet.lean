import Shipment.Command.Ship
import Shipment.Proofs.System

/-!
# What stays off standard output

`Program.TellsOnly` says which events a program tells, whatever it is answered, and has a law for
each way to put programs together.  A piece of a command is *silent* if it prints nothing, and
*quiet* if it prints to standard error at most.  The clients of git and of the review host are
silent, and so is loading a configuration.  A run shows its progress on standard error, so it is
quiet.
-/

namespace Shipment

namespace Program

variable {I J : Interface} {α β : Type} {P : I.Event → Prop} {p : Program I α} {t : Trace I} {a : α}

/-- Every event of a program is of a kind, whatever it is answered. -/
def TellsOnly (P : I.Event → Prop) : Program I α → Prop
  | done _ => True
  | call _ next => ∀ r, (next r).TellsOnly P
  | tell e next => P e ∧ next.TellsOnly P

namespace TellsOnly

theorem bind {f : α → Program I β} (h : p.TellsOnly P) (hf : ∀ a, (f a).TellsOnly P) :
    (p.bind f).TellsOnly P := by
  induction p with
  | done a => exact hf a
  | call c next ih => exact fun r => ih r (h r)
  | tell e next ih => exact ⟨h.1, ih h.2⟩

theorem mono {P' : I.Event → Prop} (h : p.TellsOnly P) (hP : ∀ e, P e → P' e) :
    p.TellsOnly P' := by
  induction p with
  | done a => trivial
  | call c next ih => exact fun r => ih r (h r)
  | tell e next ih => exact ⟨hP e h.1, ih h.2⟩

/-- What answers the calls of a program, and what retells its events, tells the rest. -/
theorem through {Q : J.Event → Prop} {answer : (c : I.Call) → Program J (I.Reply c)}
    {retell : I.Event → Program J Unit} (p : Program I α) (hanswer : ∀ c, (answer c).TellsOnly Q)
    (hretell : ∀ e, (retell e).TellsOnly Q) : (p.through answer retell).TellsOnly Q := by
  induction p with
  | done a => trivial
  | call c next ih => exact (hanswer c).bind ih
  | tell e next ih => exact (hretell e).bind fun _ => ih

/-- The events of a run are of the kind. -/
theorem events (h : p.TellsOnly P) (hrun : Runs p t a) : ∀ e ∈ t.events, P e := by
  induction hrun with
  | done a => exact nofun
  | call r _ ih => exact ih (h r)
  | tell _ ih => exact List.forall_mem_cons.mpr ⟨h.1, ih h.2⟩

end TellsOnly

end Program

namespace Printed

/-- Whether something goes to standard error. -/
def isErr : Printed → Bool
  | .out _ => false
  | .err _ => true

theorem stdout_append (ps qs : List Printed) : stdout (ps ++ qs) = stdout ps ++ stdout qs := by
  rw [stdout, List.map_append, String.join_append]
  rfl

theorem stdout_of_isErr {ps : List Printed} (h : ∀ p ∈ ps, p.isErr = true) : stdout ps = "" := by
  induction ps with
  | nil => rfl
  | cons p ps ih =>
      obtain ⟨hp, hps⟩ := List.forall_mem_cons.mp h
      cases p with
      | out text => cases hp
      | err text =>
          rw [← List.singleton_append, stdout_append, ih hps]
          rfl

theorem stdout_told_out (text : String) :
    stdout (Trace.events (I := system) [.told (.out text)]) = text := by
  show String.join [text] = text
  rw [String.join_cons, String.join_nil, String.append_empty]

/-- One run prints behind another. -/
theorem stdout_events_append (t t' : Trace system) :
    stdout (Trace.events (t ++ t')) = stdout t.events ++ stdout t'.events := by
  rw [Trace.events_append]
  exact stdout_append _ _

end Printed

namespace Work

variable {α β σ : Type} {P : Printed → Prop} {m : Work α} {f : α → Work β}

/-- Everything that a piece of a command prints is of a kind, whatever it is answered. -/
def TellsOnly (P : Printed → Prop) (m : Work α) : Prop :=
  Program.TellsOnly (I := system) P m.run

/-- A piece of a command that prints nothing. -/
abbrev Silent (m : Work α) : Prop := TellsOnly (fun _ => False) m

/-- A piece of a command that prints nothing to standard output. -/
abbrev Quiet (m : Work α) : Prop := TellsOnly (fun p => p.isErr = true) m

namespace TellsOnly

theorem bind (hm : TellsOnly P m) (hf : ∀ a, TellsOnly P (f a)) : TellsOnly P (m >>= f) := by
  rw [TellsOnly, run_bind_eq]
  refine Program.TellsOnly.bind hm fun r => ?_
  cases r with
  | ok a => exact hf a
  | error e => trivial

theorem pure (a : α) : TellsOnly P (Pure.pure a : Work α) := trivial

theorem ofExcept (r : Except Failure α) : TellsOnly P (ofExcept r) := trivial

theorem fail (e : Failure) : TellsOnly P (fail e : Work α) := trivial

theorem ofSystem (r : Except IoProblem α) : TellsOnly P (ofSystem r) := by cases r <;> trivial

theorem ask (c : SystemCall) : TellsOnly P (ask c) := fun _ => trivial

theorem attempt (h : TellsOnly P m) : TellsOnly P (attempt m) :=
  Program.TellsOnly.bind h fun _ => trivial

theorem ite {c : Prop} [Decidable c] {n : Work α} (hm : TellsOnly P m) (hn : TellsOnly P n) :
    TellsOnly P (if c then m else n) := by
  split
  · exact hm
  · exact hn

end TellsOnly

theorem Silent.tells (hm : Silent m) : TellsOnly P m :=
  Program.TellsOnly.mono hm fun _ => False.elim

theorem Silent.printed (hm : Silent m) (h : Handler system σ) (s : σ) : printed h m s = [] :=
  List.eq_nil_iff_forall_not_mem.mpr (Program.TellsOnly.events hm (Program.run_runs h m.run s))

theorem Quiet.stdout (hm : Quiet m) {t : Trace system} {r : Except Failure α}
    (hrun : Program.Runs (I := system) m.run t r) : Printed.stdout t.events = "" :=
  Printed.stdout_of_isErr (Program.TellsOnly.events hm hrun)

end Work

open Work

/-! ## git -/

namespace Git

variable {root dir : Path} {args : List String}

theorem silent_start : Silent (start root args) := (TellsOnly.ask _).bind TellsOnly.ofSystem

theorem silent_command : Silent (command root args) :=
  silent_start.bind fun _ => .ite (.pure _) (.fail _)

theorem silent_change : Silent (change root args) := silent_command.bind fun _ => .pure _

theorem silent_predicate : Silent (predicate root args) :=
  silent_start.bind fun _ => .ite (.pure _) (.ite (.pure _) (.fail _))

theorem silent_probe : Silent (probe root args) := silent_start.bind fun _ => .pure _

theorem silent_discover : Silent (discover dir) :=
  silent_start.bind fun _ => .ite (.pure _) (.fail _)

theorem silent_keepsFile {name : String} : Silent (keepsFile root name) :=
  silent_command.bind fun _ => .ask _

theorem silent_defaultBranch : Silent (defaultBranch root) := by
  refine silent_start.bind fun o => ?_
  split
  · exact .pure _
  · refine silent_command.bind fun listing => ?_
    split
    · exact .pure _
    · exact .fail _

theorem silent_operationInProgress : Silent (operationInProgress root) :=
  silent_keepsFile.bind fun _ => .ite (.pure _) <|
    silent_keepsFile.bind fun _ => .ite (.pure _) <|
      silent_keepsFile.bind fun _ => .ite (.pure _) <|
        silent_keepsFile.bind fun _ => .ite (.pure _) (.pure _)

end Git

/-! ## The review host -/

namespace ReviewClient

variable {root : Path} {args : List String} {aim head : String}

theorem silent_start : Silent (start root args) := by
  refine (TellsOnly.ask _).bind fun reply => ?_
  split
  · exact .pure _
  · exact .fail _
  · exact .fail _

theorem silent_command : Silent (command root args aim) :=
  silent_start.bind fun _ => .ite (.pure _) (.fail _)

theorem silent_createRequest {draft : RequestDraft} : Silent (createRequest root draft) := by
  refine silent_command.bind fun text => ?_
  split
  · exact .pure _
  · exact .fail _

end ReviewClient

/-- No call of a run prints anything. -/
theorem Call.silent_work (root : Path) (c : Call) : Silent (c.work root) := by
  cases c with
  | isAuthenticated => exact ReviewClient.silent_start.bind fun _ => .pure _
  | findRequest head =>
      exact ReviewClient.silent_command.bind fun _ => (TellsOnly.ofExcept _).bind fun _ => .pure _
  | createRequest draft => exact ReviewClient.silent_createRequest
  | operationInProgress => exact Git.silent_operationInProgress
  | currentBranch => exact Git.silent_start.bind fun _ => .pure _
  | defaultBranch => exact Git.silent_defaultBranch
  | remoteBranchExists branch =>
      exact Git.silent_start.bind fun _ => .ite (.pure _) (.ite (.pure _) (.fail _))
  | hasOrigin | isClean | listCommits => exact Git.silent_command.bind fun _ => .pure _
  | headCommit => exact Git.silent_command
  | countCommits => exact Git.silent_command.bind fun _ => .ofExcept _
  | localBranchExists | isValidBranchName => exact Git.silent_probe
  | isAncestor => exact Git.silent_predicate
  | hasStagedChanges => exact Git.silent_predicate.bind fun _ => .pure _
  | fetch | createBranch | checkout | deleteBranch | resetSoft | mergeFastForward | stageAll |
      commit | rebase | push => exact Git.silent_change

/-! ## The configuration -/

namespace Config

variable {path : Path} {project : String}

theorem silent_directory : Silent directory := by
  refine (TellsOnly.ask _).bind fun home => ?_
  split
  · exact .pure _
  · exact .fail _

theorem silent_globalPath : Silent globalPath := silent_directory.bind fun _ => .pure _

theorem silent_projectPath : Silent (projectPath project) := silent_directory.bind fun _ => .pure _

theorem silent_load : Silent (load path) := by
  refine (TellsOnly.ask _).bind fun reply => (TellsOnly.ofSystem reply).bind fun text => ?_
  split
  · exact .pure _
  · exact .fail _

theorem silent_loadGlobal : Silent loadGlobal :=
  silent_directory.bind fun _ => (TellsOnly.ask _).bind fun _ => .ite silent_load <|
    (TellsOnly.ask _).bind fun reply => (TellsOnly.ofSystem reply).bind fun _ =>
      (TellsOnly.ask _).bind fun reply => (TellsOnly.ofSystem reply).bind fun _ => .pure _

theorem silent_effective (project : Option String) : Silent (effective project) := by
  cases project with
  | none => exact silent_loadGlobal
  | some project =>
      exact silent_projectPath.bind fun _ => (TellsOnly.ask _).bind fun _ =>
        .ite silent_load silent_loadGlobal

end Config

/-! ## A run -/

namespace Command

variable {root : Path} {dir : Option Path} {display : Display} {description : String}
variable {options : Options}

theorem silent_workingDir : Silent (workingDir dir) := by
  cases dir with
  | none => exact (TellsOnly.ask _).bind TellsOnly.ofSystem
  | some dir => exact .pure dir

theorem quiet_showEvent (e : Event) :
    (showEvent display e).TellsOnly (I := system) fun p : Printed => p.isErr = true := by
  unfold showEvent
  extract_lets text
  split
  · trivial
  · exact ⟨rfl, trivial⟩

theorem quiet_run : Quiet (run root display description options) := by
  have hwork (c : Call) : Quiet (c.work root) := Silent.tells (Call.silent_work root c)
  refine (TellsOnly.ask _).bind fun namer => ?_
  exact (Program.TellsOnly.through _ hwork quiet_showEvent).bind fun _ => trivial

end Command

end Shipment
