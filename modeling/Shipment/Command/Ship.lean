import Shipment.Backend.Client
import Shipment.Config.Store
import Shipment.Run.Whole
import Shipment.Terminal.Progress
import Shipment.Terminal.Summary

/-!
# The ship command

The command checks the description first, so a bad one has no effect at all.
Then it finds the working tree and the configuration, and runs.  The outcome is
shown as a summary or as a document.  With a document nothing else is printed
while the run works.
-/

namespace Shipment.Command

/-- Print text to standard output. -/
def out (text : String) : Work Unit := Work.print (.out text)

/-- Print text to standard error. -/
def err (text : String) : Work Unit := Work.print (.err text)

/-- The directory a command works in: the one asked for, or the current one. -/
def workingDir (asked : Option Path) : Work Path := do
  match asked with
  | some dir => return dir
  | none => Work.ofSystem (← Work.ask .currentDirectory)

/-- How the ship command was asked to show its work. -/
structure Display where
  /-- Show the outcome as a document and nothing else. -/
  json : Bool := false
  /-- Show the steps too. -/
  verbose : Bool := false
deriving DecidableEq, Repr

/-- Show an event of a run. -/
def showEvent (display : Display) (e : Event) : Program system Unit :=
  let text := Terminal.progress display.verbose Terminal.defaultWidth e
  if display.json || text.isEmpty then .done () else .tell (I := system) (.err text) (.done ())

/-- A run in the working tree at a root. -/
def run (root : Path) (display : Display) (description : String) (options : Options) :
    Work Outcome := do
  let namer ← Work.ask .namer
  let whole := (Ship.start description options { namer }).through
    (fun c => (c.work root).run) (showEvent display)
  ExceptT.mk (whole.bind fun result => .done result.1)

/-- The outcome as it is shown. -/
def outcomeText (display : Display) (o : Outcome) : String :=
  if display.json then Terminal.line (String.ofList o.toJson.pretty) else Terminal.summary o

/-- The ship command. -/
def ship (description : Option String) (options : Options) (dir : Option Path)
    (display : Display) : Work Unit := do
  let description := description.getD ""
  let _ ← Work.ofExcept (Description.validate (Text.trimmed description) options.force)
  let root ← Git.discover (← workingDir dir)
  let config ← Config.effective (Git.nameOf root)
  let outcome ← run root display description (config.applyTo options)
  out (outcomeText display outcome)

end Shipment.Command
