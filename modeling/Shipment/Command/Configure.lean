import Shipment.Command.Ship

/-!
# The config commands

The configuration is shown, set and reset.  The configuration of a project is
found by the name of the repository, so it needs a working tree.  Showing writes
nothing.  A project file that is set for the first time starts from the values
that applied before.
-/

namespace Shipment.Command

/-- Which configuration is shown. -/
inductive Scope where
  /-- The global one. -/
  | global
  /-- That of the project. -/
  | project
  /-- The global one, and that of the project if there is one. -/
  | both
deriving DecidableEq, Repr

/-- The name of the repository around a directory, if it is in one. -/
def projectName (dir : Option Path) : Work (Option String) := do
  match ← Work.attempt (do Git.discover (← workingDir dir)) with
  | .ok root => return Git.nameOf root
  | .error _ => return none

/-- The name of the repository around a directory. -/
def requireProject (dir : Option Path) : Work String := do
  match ← projectName dir with
  | some project => return project
  | none =>
      Work.fail <| .config <|
        "Not in a git repository.\n\n" ++
        "Project configuration is keyed by repository.\n" ++
        "Run this command from within a repository, or use --global."

/-! ## Showing -/

/-- A line of a configuration as it is shown, with its key coloured. -/
def shownLine (line : List Char) : String :=
  match Text.splitOnce " = ".toList line with
  | some (key, value) =>
      Terminal.line
        (Terminal.styled Terminal.cyan (String.ofList key) ++ " = " ++ String.ofList value)
  | none => Terminal.line (String.ofList line)

/-- A configuration as it is shown. -/
def shownConfig (c : Config) : String :=
  String.join ((Text.lines c.shortText.toList).map shownLine)

/-- The heading of a configuration. -/
def heading (title : String) (path : Path) : String :=
  Terminal.line (Terminal.styled Terminal.bold ("# " ++ title)) ++
  Terminal.line (Terminal.styled Terminal.gray ("# " ++ path.text)) ++
  Terminal.line ""

/-- The remark that a file is missing. -/
def missingFile (instead : String) : String :=
  Terminal.line
    (Terminal.styled Terminal.yellow ("# (file does not exist, using " ++ instead ++ ")")) ++
  Terminal.line ""

/-- Load a file that may be missing. -/
def loadOr (otherwise : Work Config) (path : Path) : Work Config := do
  if ← Work.ask (.isThere path) then Config.load path else otherwise

/-- Show the global configuration. -/
def showGlobal : Work Unit := do
  let path ← Config.globalPath
  out (heading "Global config" path)
  let config ← loadOr (do out (missingFile "defaults"); return {}) path
  out (shownConfig config)

/-- Show the configuration of a project. -/
def showProject (project : String) : Work Unit := do
  let path ← Config.projectPath project
  out (heading ("Project config (" ++ project ++ ")") path)
  let fallback : Work Config := do
    out (missingFile "global config or defaults")
    loadOr (return {}) (← Config.globalPath)
  out (shownConfig (← loadOr fallback path))

/-- Show configurations. -/
def showConfig (scope : Scope) (dir : Option Path) : Work Unit := do
  match scope with
  | .global => showGlobal
  | .project => showProject (← requireProject dir)
  | .both => do
      showGlobal
      match ← projectName dir with
      | some project => do
          out (Terminal.line "")
          showProject project
      | none => return ()

/-! ## Changing -/

/-- The file that is changed. -/
def changedPath (global : Bool) (dir : Option Path) : Work Path := do
  if global then Config.globalPath else Config.projectPath (← requireProject dir)

/-- Set a key in a file.  A missing file starts from the global one. -/
def setIn (path globalPath : Path) (key value : String) : Work Unit := do
  let config ← loadOr (loadOr (return {}) globalPath) path
  Config.save path (← Work.ofExcept (config.set key value))

/-- Set a key. -/
def setConfig (key value : String) (global : Bool) (dir : Option Path) : Work Unit := do
  let globalPath ← Config.globalPath
  let path ← changedPath global dir
  setIn path globalPath key value
  err (Terminal.info ("Set " ++ key ++ " in " ++ path.text))

/-- Reset a configuration to the defaults. -/
def resetConfig (global : Bool) (dir : Option Path) : Work Unit := do
  let path ← changedPath global dir
  Config.save path {}
  err (Terminal.info ("Reset " ++ path.text ++ " to defaults"))

end Shipment.Command
