import Shipment.Text.Similarity

/-!
# The shape of a command line

A command line is read level by level.  The program is the first level and each
command after it goes one level down.  A level has flags, words and further
commands.

A flag has a short name, a long name or both.  It marks something, takes a
value, or asks for the help page or the version.  Words are told apart by their
order.  Some names exclude each other.
-/

namespace Shipment.CommandLine

/-- What a flag does. -/
inductive Effect where
  /-- It marks something. -/
  | mark
  /-- It takes a value, which is called by a label on the help page. -/
  | value (label : String) (mayBeEmpty : Bool)
  /-- It asks for the help page. -/
  | help
  /-- It asks for the version. -/
  | version
deriving DecidableEq, Repr

/-- A flag. -/
structure Flag where
  /-- The name the flag is looked up by. -/
  name : String
  /-- The name behind one dash. -/
  short : Option Char := none
  /-- The name behind two dashes. -/
  long : Option String := none
  /-- What it does. -/
  effect : Effect := .mark
  /-- What it is for. -/
  about : String
deriving DecidableEq, Repr

/-- A word. -/
structure Word where
  /-- The name the word is looked up by. -/
  name : String
  /-- What it is for. -/
  about : String
  /-- Whether it must be there. -/
  required : Bool
deriving DecidableEq, Repr

/-- A level of a command line. -/
inductive Level where
  /-- The name of the level, what it is for, its flags and words, the names that
  exclude each other, and the commands it has. -/
  | mk (name about : String) (flags : List Flag) (words : List Word)
      (exclusive : List (String × String)) (commands : List Level)

namespace Level

/-- The name of a level. -/
def name : Level → String
  | mk name _ _ _ _ _ => name

/-- What a level is for. -/
def about : Level → String
  | mk _ about _ _ _ _ => about

/-- The flags of a level. -/
def flags : Level → List Flag
  | mk _ _ flags _ _ _ => flags

/-- The words of a level, in order. -/
def words : Level → List Word
  | mk _ _ _ words _ _ => words

/-- The names of a level that exclude each other. -/
def exclusive : Level → List (String × String)
  | mk _ _ _ _ exclusive _ => exclusive

/-- The commands of a level. -/
def commands : Level → List Level
  | mk _ _ _ _ _ commands => commands

/-- The command of a name. -/
def command? (name : String) (l : Level) : Option Level :=
  l.commands.find? fun c => c.name == name

/-- The flag of a short name. -/
def short? (c : Char) (l : Level) : Option Flag := l.flags.find? fun f => f.short == some c

/-- The flag of a long name. -/
def long? (name : String) (l : Level) : Option Flag :=
  l.flags.find? fun f => f.long == some name

/-- The command that shows help pages.  Every level with commands has it. -/
def helpName : String := "help"

/-- The names of all commands of a level. -/
def commandNames (l : Level) : List String :=
  if l.commands.isEmpty then [] else l.commands.map Level.name ++ [helpName]

end Level

/-- How a flag is shown: by its long name if it has one. -/
def Flag.shown (f : Flag) : String :=
  match f.long, f.short with
  | some long, _ => "--" ++ long
  | none, some c => String.ofList ['-', c]
  | none, none => f.name

end Shipment.CommandLine
