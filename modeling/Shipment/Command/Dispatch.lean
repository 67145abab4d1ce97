import Shipment.Command.Configure
import Shipment.CommandLine.Completion
import Shipment.CommandLine.Help
import Shipment.Terminal.Panel

/-!
# From the command line to the end

A command line that cannot be read ends with its own exit code.  Otherwise the
command does its work.  A failure is shown as a panel, and the exit code is one.
-/

namespace Shipment.Command

open CommandLine (Arguments Shell Stop)

/-- Which configuration the flags of the config command select. -/
def scopeOf (global project : Bool) : Scope :=
  if global && !project then .global
  else if project && !global then .project
  else .both

/-- The work that a command line asks for. -/
def perform (a : Arguments) : Work Unit :=
  match a.command with
  | none =>
      ship (a.description <|> a.message) a.options a.dir
        { json := a.json, verbose := a.verbose }
  | some (.completions shell) => do out (← Work.ofExcept (Shell.ofText shell)).script
  | some (.config global project none) => showConfig (scopeOf global project) a.dir
  | some (.config _ _ (some (.set global key value))) => setConfig key value global a.dir
  | some (.config _ _ (some (.reset global))) => resetConfig global a.dir

/-- Show how a piece of work ended.  Gives the exit code. -/
def conclude : Except Failure Unit → Program system UInt32
  | .ok () => .done 0
  | .error e => .tell (I := system) (.err (Terminal.failurePanel e)) (.done 1)

/-- Show why a command line started no command.  Gives the exit code. -/
def decline (s : Stop) : Program system UInt32 :=
  .tell (I := system) (if s.isAnswer then .out s.text else .err s.text) (.done s.exitCode)

/-- The whole program.  Gives the exit code. -/
def main (args : List String) : Program system UInt32 :=
  match Arguments.read args with
  | .ok a => (perform a).run.bind conclude
  | .error s => decline s

end Shipment.Command
