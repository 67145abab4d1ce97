import Shipment.BranchName
import Shipment.Failure
import Shipment.Path
import Shipment.Program
import Shipment.Text.Utf8

/-!
# The system around a command

A command starts two tools, reads and writes files, and prints.  `SystemCall`
lists what it may ask of the system, and the events are what it prints.

`Work α` is a piece of a command.  It makes system calls and prints, and ends
with a value or a failure.
-/

namespace Shipment

/-- A tool that can be started. -/
inductive Tool where
  /-- The version control system. -/
  | git
  /-- The command line of the review host. -/
  | gh
deriving DecidableEq, Repr

/-- The name of a tool. -/
def Tool.name : Tool → String
  | .git => "git"
  | .gh => "gh"

/-- Whether the directory or an argument for a tool has the character NUL.  Such a
start is refused before anything else is looked at. -/
def Tool.refuses (dir : Path) (args : List String) : Bool := (dir.text :: args).any Text.hasNul

/-- What a tool that has ended leaves behind. -/
structure Output where
  /-- What it wrote to standard output. -/
  out : ByteArray
  /-- What it wrote to standard error. -/
  err : ByteArray
  /-- Its exit code, unless a signal ended it. -/
  code : Option Nat

namespace Output

/-- Whether the tool succeeded. -/
def succeeded (o : Output) : Bool := o.code == some 0

/-- Standard output as text, trimmed. -/
def outText (o : Output) : String := Text.trimmed (Text.decodeLossy o.out)

/-- Standard error as text, trimmed. -/
def errText (o : Output) : String := Text.trimmed (Text.decodeLossy o.err)

end Output

/-- What a command asks of the system. -/
inductive SystemCall where
  /-- Start a tool in a directory and wait for its end. -/
  | start (tool : Tool) (dir : Path) (args : List String)
  /-- Is there anything at a path? -/
  | isThere (path : Path)
  /-- Read a file as text. -/
  | readText (path : Path)
  /-- Write a file. -/
  | writeText (path : Path) (text : String)
  /-- Create a directory and those above it, where they are missing. -/
  | createDirs (path : Path)
  /-- Where is the home of the user? -/
  | home
  /-- Which directory is the current one? -/
  | currentDirectory
  /-- What time is it, and which random words come next? -/
  | namer

namespace SystemCall

/-- What a system call is answered with. -/
abbrev Answer : SystemCall → Type
  | start _ _ _ => Except IoProblem Output
  | isThere _ => Bool
  | readText _ => Except IoProblem String
  | writeText _ _ | createDirs _ => Except IoProblem Unit
  | home => Option Path
  | currentDirectory => Except IoProblem Path
  | namer => Namer

end SystemCall

/-- What a command prints. -/
inductive Printed where
  /-- To standard output. -/
  | out (text : String)
  /-- To standard error. -/
  | err (text : String)
deriving DecidableEq, Repr

/-- The interface of a command. -/
def system : Interface where
  Call := SystemCall
  Reply := SystemCall.Answer
  Event := Printed

/-- The text on standard output. -/
def Printed.stdout (ps : List Printed) : String :=
  String.join <| ps.map fun p =>
    match p with
    | .out text => text
    | .err _ => ""

/-- The text on standard error. -/
def Printed.stderr (ps : List Printed) : String :=
  String.join <| ps.map fun p =>
    match p with
    | .out _ => ""
    | .err text => text

/-- A piece of a command. -/
abbrev Work (α : Type) := ExceptT Failure (Program system) α

namespace Work

variable {α : Type}

/-- Make a system call. -/
def ask (c : SystemCall) : Work c.Answer :=
  ExceptT.mk (.call (I := system) c fun reply => .done (.ok reply))

/-- Give a value or stop with a failure. -/
def ofExcept (r : Except Failure α) : Work α := ExceptT.mk (.done r)

/-- Stop with a failure. -/
def fail (e : Failure) : Work α := ofExcept (.error e)

/-- Give a value or stop with a problem of the system. -/
def ofSystem : Except IoProblem α → Work α
  | .ok a => pure a
  | .error problem => fail (.io problem)

/-- Give the failure of a piece as a value. -/
def attempt (m : Work α) : Work (Except Failure α) :=
  ExceptT.mk (m.run.bind fun r => .done (.ok r))

/-- Print. -/
def print (p : Printed) : Work Unit :=
  ExceptT.mk (.tell (I := system) p (.done (.ok ())))

end Work

end Shipment
