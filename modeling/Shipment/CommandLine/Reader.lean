import Shipment.CommandLine.Level
import Shipment.Table
import Shipment.Text.Lines

/-!
# Reading a command line

`read` goes through the arguments of a level from left to right.  An argument is
the name of a command, a flag, the value of the flag before it, or a word.

* The name of a command ends the level.  What follows is read by the command.
* Two dashes alone say that only words follow.
* A long flag may have its value behind an equals sign.
* Short flags may be written together.  One that takes a value takes the rest of
  the argument, less an equals sign in front.
* A flag that waits for its value takes the next argument that is no flag, even
  if it is the name of a command.

The value of a flag is checked only when something else is given.  So of two
faults in a command line an unknown flag is reported before a flag it follows
lacks its value, and a fault of a command before one of the level above.
-/

namespace Shipment.CommandLine

/-- Why a command line starts no command. -/
inductive Stop where
  /-- There is no such flag, or there are too many words. -/
  | unknownArgument (argument : String)
  /-- There is no such command. -/
  | unknownCommand (argument : String)
  /-- A flag lacks its value, or the value is empty and must not be. -/
  | invalidValue (flag : String)
  /-- A word is missing. -/
  | missingWord (word : String)
  /-- A flag is given twice, or with one that excludes it. -/
  | conflict (first second : String)
  /-- A flag that takes no value has one. -/
  | surplusValue (flag : String)
  /-- The help page of a level was asked for. -/
  | help (level : Level)
  /-- The version was asked for. -/
  | version

/-- What was given on a level. -/
structure Visit where
  /-- The name of the level. -/
  level : String
  /-- The flags that were given, with their values. -/
  given : Table String (Option String) := []
  /-- The words that were given. -/
  words : List String := []
deriving DecidableEq, Repr

/-- How far a level has been read. -/
structure Reading where
  /-- What was given. -/
  visit : Visit
  /-- The last flag that takes a value, with its value if that was given, until
  both are checked. -/
  pending : Option (Flag × Option String) := none
  /-- Whether only words follow. -/
  onlyWords : Bool := false

namespace Reading

/-- Whether a flag waits for its value. -/
def awaitsValue (r : Reading) : Bool :=
  match r.pending with
  | some (_, none) => true
  | _ => false

/-- Record a flag with its value. -/
def record (f : Flag) (value : Option String) (r : Reading) : Except Stop Reading :=
  if r.visit.given.has f.name then .error (.conflict f.shown f.shown)
  else
    match f.effect, value with
    | .value _ false, some "" => .error (.invalidValue f.shown)
    | _, _ => .ok { r with visit := { r.visit with given := r.visit.given.set f.name value } }

/-- Check and record the flag that is pending. -/
def settle (r : Reading) : Except Stop Reading :=
  match r.pending with
  | none => .ok r
  | some (f, none) => .error (.invalidValue f.shown)
  | some (f, some value) => { r with pending := none }.record f (some value)

/-- Take a flag, with the value written in the same argument if there is one. -/
def takeFlag (l : Level) (f : Flag) (attached : Option String) (r : Reading) :
    Except Stop Reading :=
  match f.effect, attached with
  | .value _ _, none => r.settle.map fun r => { r with pending := some (f, none) }
  | .value _ _, some value => r.settle.bind fun r => r.record f (some value)
  | _, some _ => .error (.surplusValue f.shown)
  | .mark, none => r.settle.bind fun r => r.record f none
  | .help, none => r.settle.bind fun _ => .error (.help l)
  | .version, none => r.settle.bind fun _ => .error .version

/-- A value behind an equals sign or right behind its flag. -/
def attachedValue : List Char → Option String
  | [] => none
  | '=' :: cs => some (String.ofList cs)
  | cs => some (String.ofList cs)

/-- Take short flags written together. -/
def takeShorts (l : Level) : List Char → Reading → Except Stop Reading
  | [], r => .ok r
  | c :: cs, r =>
      match l.short? c with
      | none => .error (.unknownArgument (String.ofList ['-', c]))
      | some f =>
          match f.effect with
          | .value _ _ => r.takeFlag l f (attachedValue cs)
          | _ => (r.takeFlag l f none).bind fun r => takeShorts l cs r

/-- Take a long flag. -/
def takeLong (l : Level) (text : List Char) (r : Reading) : Except Stop Reading :=
  let (name, value) :=
    match Text.splitOnce ['='] text with
    | some (name, value) => (String.ofList name, some (String.ofList value))
    | none => (String.ofList text, none)
  match l.long? name with
  | none => .error (.unknownArgument ("--" ++ name))
  | some f => r.takeFlag l f value

/-- Why a level has no place for a word. -/
def surplus (l : Level) (word : String) (r : Reading) : Stop :=
  if r.onlyWords ∧ word ∈ l.commandNames then .unknownArgument word
  else if l.commandNames.any fun name => Text.similar word.toList name.toList then
    .unknownCommand word
  else if !l.commands.isEmpty ∧ l.words.isEmpty then .unknownCommand word
  else .unknownArgument word

/-- Take a word. -/
def takeWord (l : Level) (word : String) (r : Reading) : Except Stop Reading :=
  if r.visit.words.length < l.words.length then
    r.settle.map fun r => { r with visit := { r.visit with words := r.visit.words ++ [word] } }
  else .error (surplus l word r)

/-- Take the value of the flag that waits, or a word. -/
def takePlain (l : Level) (text : String) (r : Reading) : Except Stop Reading :=
  match r.pending with
  | some (f, none) => .ok { r with pending := some (f, some text) }
  | _ => r.takeWord l text

/-- Take an argument that is no command and does not say that only words
follow. -/
def takeArgument (l : Level) (text : String) (r : Reading) : Except Stop Reading :=
  match text.toList with
  | '-' :: '-' :: cs => r.takeLong l cs
  | '-' :: c :: cs => r.takeShorts l (c :: cs)
  | _ => r.takePlain l text

end Reading

namespace Visit

/-- Whether something of a name was given on a level. -/
def has (l : Level) (name : String) (v : Visit) : Bool :=
  v.given.has name || ((l.words.take v.words.length).any fun w => w.name == name)

end Visit

/-- Check what was given on a level as a whole. -/
def check (l : Level) (v : Visit) : Except Stop Visit :=
  match l.exclusive.find? fun pair => v.has l pair.1 && v.has l pair.2 with
  | some pair => .error (.conflict pair.1 pair.2)
  | none =>
      match (l.words.drop v.words.length).find? Word.required with
      | some w => .error (.missingWord w.name)
      | none => .ok v

/-- End a level. -/
def finish (l : Level) (r : Reading) : Except Stop Visit :=
  r.settle.bind fun r => check l r.visit

/-- The help page of the command that names lead to. -/
def helpOf (l : Level) : List String → Stop
  | [] => .help l
  | name :: names =>
      match l.command? name with
      | some c => helpOf c names
      | none =>
          if name = Level.helpName ∧ names.isEmpty ∧ !l.commands.isEmpty then .help l
          else .unknownCommand name

/-- Read arguments from a level on.  Gives what was given on each level. -/
def readFrom (l : Level) (r : Reading) : List String → Except Stop (List Visit)
  | [] => (finish l r).map fun v => [v]
  | text :: rest =>
      if r.onlyWords then (r.takeWord l text).bind fun r => readFrom l r rest
      else if !r.awaitsValue ∧ text = Level.helpName ∧ !l.commands.isEmpty then
        .error (helpOf l rest)
      else
        match (if r.awaitsValue then none else l.command? text) with
        | some c => do
            let inner ← readFrom c { visit := { level := c.name } } rest
            return (← finish l r) :: inner
        | none =>
            if text = "--" then readFrom l { r with onlyWords := true } rest
            else (r.takeArgument l text).bind fun r => readFrom l r rest

/-- Read a command line. -/
def read (l : Level) (args : List String) : Except Stop (List Visit) :=
  readFrom l { visit := { level := l.name } } args

end Shipment.CommandLine
