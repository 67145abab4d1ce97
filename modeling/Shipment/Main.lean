import Shipment.Command.Dispatch
import Shipment.Json.Reader

/-!
# The program

The outer layer answers the system calls of a command from the real system, and
prints what it prints.

Tools are started by a launcher.  The environment variable `SHIPR_LAUNCHER` names
a directory with two pipes of the launcher, `request` and `reply`.  A request is
a line with a JSON object that has the tool, the directory and the arguments.  A
reply is a line with a JSON object that has what the tool wrote and its exit
code, or no exit code if a signal ended it.  Without a launcher no tool is found.
-/

namespace Shipment.Outer

/-! ## Files -/

/-- The problem behind an error of the system. -/
def problemOf : IO.Error → IoProblem
  | .noFileOrDirectory _ _ _ => .notFound
  | .alreadyExists _ _ _ => .alreadyExists
  | .inappropriateType _ code _ =>
      if code = 21 ∨ code = -21 then .isADirectory else .notADirectory
  | .invalidArgument _ code _ =>
      if code = 36 ∨ code = -36 then .nameTooLong else .nulInPath
  | e => .other (toString e)

/-- Do something that may fail. -/
def tried {α : Type} (act : IO α) : IO (Except IoProblem α) := do
  match ← act.toBaseIO with
  | .ok a => return .ok a
  | .error e => return .error (problemOf e)

/-- Whether there is anything at a path. -/
def isThere (path : Path) : IO Bool := do
  match ← tried (IO.FS.realPath path.text) with
  | .ok _ => return true
  | .error _ => return false

/-- Read a file as text. -/
def readText (path : Path) : IO (Except IoProblem String) := do
  match ← tried (IO.FS.readBinFile path.text) with
  | .error problem => return .error problem
  | .ok bytes =>
      match Text.decode? bytes with
      | some text => return .ok text
      | none => return .error .notUtf8

/-! ## Names -/

/-- How many random words a run may use. -/
def randomWords : Nat := 64

/-- A random word. -/
def randomWord : IO UInt64 := do
  let bytes ← IO.getRandomBytes 8
  return bytes.toList.foldl (fun n b => n * 256 + b.toUInt64) 0

/-- The time.  A file that was written just now has it. -/
def now : IO Instant := do
  let (_, file) ← IO.FS.createTempFile
  let written := (← file.metadata).modified
  IO.FS.removeFile file
  return ⟨written.1, written.2.toNat⟩

/-- The source of branch names. -/
def namer : IO Namer := do
  return ⟨← now, ← (List.replicate randomWords ()).mapM fun _ => randomWord⟩

/-! ## Tools -/

/-- The request for a tool. -/
def requestOf (tool : Tool) (dir : Path) (args : List String) : Json :=
  .fields [("tool", .text tool.name), ("dir", .text dir.text),
    ("args", .array (args.map Json.text))]

/-- What was written, from a reply. -/
def writtenOf (key : String) (reply : Json) : ByteArray :=
  match reply.get? key with
  | some (.string (some text)) => Text.encode text
  | _ => .empty

/-- The end of a tool, from a reply. -/
def outputOf (reply : Json) : Output where
  out := writtenOf "out" reply
  err := writtenOf "err" reply
  code :=
    match reply.get? "code" with
    | some (.natural n) => some n
    | _ => none

/-- Start a tool and wait for its end. -/
def start (tool : Tool) (dir : Path) (args : List String) : IO (Except IoProblem Output) := do
  if Tool.refuses dir args then return .error .nulInStart
  match ← IO.getEnv "SHIPR_LAUNCHER" with
  | none => return .error .notFound
  | some launcher => do
      let request := String.ofList (requestOf tool dir args).compact ++ "\n"
      match ← tried (IO.FS.writeFile (launcher ++ "/request") request) with
      | .error problem => return .error problem
      | .ok () => do
          match ← tried (IO.FS.readFile (launcher ++ "/reply")) with
          | .error problem => return .error problem
          | .ok text =>
              match Json.read? text.toList with
              | some reply => return .ok (outputOf reply)
              | none => return .error .notFound

/-! ## Commands -/

/-- Answer a system call. -/
def answer : (c : SystemCall) → IO c.Answer
  | .start tool dir args => start tool dir args
  | .isThere path => isThere path
  | .readText path => readText path
  | .writeText path text => tried (IO.FS.writeFile path.text text)
  | .createDirs path => tried (IO.FS.createDirAll path.text)
  | .home => do
      match ← IO.getEnv "HOME" with
      | some home => return if home.isEmpty then none else some ⟨home⟩
      | none => return none
  | .currentDirectory => tried do return ⟨(← IO.currentDir).toString⟩
  | .namer => namer

/-- Print. -/
def print : Printed → IO Unit
  | .out text => IO.print text
  | .err text => IO.eprint text

/-- Run a program in the real system. -/
def run {α : Type} : Program system α → IO α
  | .done a => pure a
  | .call c next => do
      let reply ← answer c
      run (next reply)
  | .tell e next => do
      print e
      run next

end Shipment.Outer

/-- The program. -/
def main (args : List String) : IO UInt32 := Shipment.Outer.run (Shipment.Command.main args)
