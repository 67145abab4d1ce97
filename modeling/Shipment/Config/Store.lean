import Shipment.Config.Document
import Shipment.System

/-!
# Where configurations are kept

The configuration directory is below the home of the user.  The global file is
in it, and the file of a project is in a directory with the name of the project.
A project with a file of its own takes nothing from the global one.

The global file is created with the defaults when it is needed and missing.  A
project file is created only when it is written.
-/

namespace Shipment.Config

/-- The name of every configuration file. -/
def fileName : Path := ⟨"config.toml"⟩

/-- The configuration directory. -/
def directory : Work Path := do
  match ← Work.ask .home with
  | some home => return (home.join ⟨".config"⟩).join ⟨"shipr"⟩
  | none => Work.fail (.config "Could not determine home directory")

/-- The global file. -/
def globalPath : Work Path := do
  return (← directory).join fileName

/-- The file of a project. -/
def projectPath (project : String) : Work Path := do
  return ((← directory).join ⟨project⟩).join fileName

/-- Load the file at a path. -/
def load (path : Path) : Work Config := do
  let text ← Work.ofSystem (← Work.ask (.readText path))
  match read text with
  | .ok c => return c
  | .error problem =>
      Work.fail (.config ("Failed to parse config file at " ++ path.text ++ ": " ++ problem.text))

/-- Write the file at a path, and create the directories above it. -/
def save (path : Path) (c : Config) : Work Unit := do
  match path.parent? with
  | some parent => Work.ofSystem (← Work.ask (.createDirs parent))
  | none => pure ()
  Work.ofSystem (← Work.ask (.writeText path c.fileText))

/-- Load the global file, and create it first if it is missing. -/
def loadGlobal : Work Config := do
  let dir ← directory
  let path := dir.join fileName
  if ← Work.ask (.isThere path) then load path
  else do
    Work.ofSystem (← Work.ask (.createDirs dir))
    Work.ofSystem (← Work.ask (.writeText path (fileText {})))
    return {}

/-- The configuration of a run: that of the project if it has a file, or the
global one. -/
def effective (project : Option String) : Work Config := do
  match project with
  | none => loadGlobal
  | some project => do
      let path ← projectPath project
      if ← Work.ask (.isThere path) then load path else loadGlobal

end Shipment.Config
