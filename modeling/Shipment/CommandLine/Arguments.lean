import Shipment.CommandLine.Reader
import Shipment.Flow
import Shipment.Path

/-!
# The command line

`program` is the shape of the command line, and `Arguments` is what it says.
Help and the version can be asked for on the first level, help on every level,
and more output on every level too.
-/

namespace Shipment.CommandLine

/-! ## The shape -/

/-- The version of the program. -/
def versionText : String := "shipr 0.1.0"

/-- The flag that asks for more output. -/
def verboseFlag : Flag where
  name := "verbose"
  short := some 'v'
  long := some "verbose"
  about := "Print debug logs (same as SHIPR_LOG=shipr=debug)"

/-- The flag that asks for the help page. -/
def helpFlag : Flag where
  name := "help"
  short := some 'h'
  long := some "help"
  effect := .help
  about := "Print help"

/-- The flag that asks for the version. -/
def versionFlag : Flag where
  name := "version"
  short := some 'V'
  long := some "version"
  effect := .version
  about := "Print version"

/-- A flag that marks something, with the short name its long name starts
with. -/
def markFlag (name about : String) : Flag where
  name := name
  short := name.toList.head?
  long := some name
  about := about

/-- The flags of the first level. -/
def shipFlags : List Flag := [
  { name := "message", short := some 'm', long := some "message", effect := .value "TEXT" true,
    about := "Change description (alternative to the positional argument)" },
  markFlag "sync" "Rebase onto the base branch before pushing; requires a clean tree",
  markFlag "new" "Open a new pull request even when not on the default branch",
  { name := "branch", short := some 'b', long := some "branch", effect := .value "NAME" true,
    about := "Use this branch name instead of generating one" },
  markFlag "force" "Accept a description that is not a conventional commit message",
  markFlag "draft" "Open the pull request as a draft",
  { name := "base", long := some "base", effect := .value "BRANCH" true,
    about := "Target branch for the pull request (defaults to the repository default)" },
  { name := "json", long := some "json", about := "Print the run outcome as JSON on stdout" },
  { name := "repo", short := some 'C', effect := .value "PATH" false,
    about := "Run as if started in PATH" },
  verboseFlag, helpFlag, versionFlag]

/-- The command that sets a key. -/
def setLevel : Level :=
  .mk "set" "Set a configuration value"
    [markFlag "global" "Write to the global config instead of the project config", verboseFlag,
      helpFlag]
    [⟨"key", "Key to set (draft, sync, base)", true⟩, ⟨"value", "New value", true⟩] [] []

/-- The command that resets the configuration. -/
def resetLevel : Level :=
  .mk "reset" "Reset configuration to default values"
    [markFlag "global" "Reset the global config instead of the project config", verboseFlag,
      helpFlag]
    [] [] []

/-- The command for the configuration. -/
def configLevel : Level :=
  .mk "config" "View, modify, or reset configuration values"
    [markFlag "global" "Show only the global configuration",
      markFlag "project" "Show only the project configuration", verboseFlag, helpFlag]
    [] [("global", "project")] [setLevel, resetLevel]

/-- The command for completion scripts. -/
def completionsLevel : Level :=
  .mk "completions" "Output shell completion script to stdout (hidden utility command)"
    [verboseFlag, helpFlag]
    [⟨"shell", "Shell type to generate completions for (bash, zsh, or fish)", true⟩] [] []

/-- The first level. -/
def program : Level :=
  .mk "shipr" "Turn local edits into a pushed branch and a pull request, safely" shipFlags
    [⟨"description", "Change description in conventional commit form, e.g. \"feat: add widget\"",
      false⟩]
    [("description", "message")] [configLevel, completionsLevel]

/-! ## What it says -/

/-- A change of the configuration. -/
inductive ConfigChange where
  /-- Set a key. -/
  | set (global : Bool) (key value : String)
  /-- Reset to the defaults. -/
  | reset (global : Bool)
deriving DecidableEq, Repr

/-- A command. -/
inductive Command where
  /-- Show or change the configuration. -/
  | config (global project : Bool) (change : Option ConfigChange)
  /-- Print a completion script. -/
  | completions (shell : String)
deriving DecidableEq, Repr

/-- What a command line says. -/
structure Arguments where
  /-- The description as a word. -/
  description : Option String
  /-- The description as the value of a flag. -/
  message : Option String
  /-- The options of the run. -/
  options : Options
  /-- Show the outcome as a document. -/
  json : Bool
  /-- The directory to work in. -/
  dir : Option Path
  /-- Show more. -/
  verbose : Bool
  /-- The command, unless it is the run itself. -/
  command : Option Command
deriving DecidableEq, Repr

namespace Visit

/-- Whether a flag was given. -/
def marked (v : Visit) (name : String) : Bool := v.given.has name

/-- The value of a flag. -/
def value? (v : Visit) (name : String) : Option String := (v.given.get? name).join

/-- A word that must have been given. -/
def word (v : Visit) (place : Nat) : String := v.words.getD place ""

/-- The change of the configuration on a level. -/
def change? (v : Visit) : Option ConfigChange :=
  if v.level = setLevel.name then some (.set (v.marked "global") (v.word 0) (v.word 1))
  else if v.level = resetLevel.name then some (.reset (v.marked "global"))
  else none

/-- The command of a level, with the levels below. -/
def command? (v : Visit) (below : List Visit) : Option Command :=
  if v.level = configLevel.name then
    some (.config (v.marked "global") (v.marked "project") (below.head?.bind change?))
  else if v.level = completionsLevel.name then some (.completions (v.word 0))
  else none

end Visit

namespace Arguments

/-- What the levels of a command line say together. -/
def ofVisits (first : Visit) (below : List Visit) : Arguments where
  description := first.words.head?
  message := first.value? "message"
  options :=
    { sync := first.marked "sync"
      new := first.marked "new"
      branch := first.value? "branch"
      force := first.marked "force"
      draft := first.marked "draft"
      base := first.value? "base" }
  json := first.marked "json"
  dir := (first.value? "repo").map Path.mk
  verbose := (first :: below).any fun v => v.marked "verbose"
  command := below.head?.bind fun v => v.command? below.tail

/-- Read a command line. -/
def read (args : List String) : Except Stop Arguments := do
  match ← CommandLine.read program args with
  | first :: below => return ofVisits first below
  | [] => return ofVisits { level := program.name } []

end Arguments

end Shipment.CommandLine
