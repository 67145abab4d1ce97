import Shipment.System
import Shipment.System.Files

/-!
# A scripted system

A system in memory.  Its files are real, and its tools follow a script: each
start takes the next answer, whichever tool it is.  A start without an answer
left fails.  A tool that is not installed cannot be started, and neither can any
tool in a directory that is not there or with an argument of 128 KiB or more.  The
character NUL in the directory or an argument is found before all that.  Such
starts take no answer.
-/

namespace Shipment

/-- A tool that was started, with the place it was started in. -/
structure Started where
  /-- The tool. -/
  tool : Tool
  /-- The place. -/
  place : Place
  /-- Its arguments. -/
  args : List String

/-- A scripted system. -/
structure Scripted where
  /-- The files. -/
  files : Files := {}
  /-- The current directory. -/
  here : Place := []
  /-- The home of the user. -/
  home : Option Path := none
  /-- The tools that are not installed. -/
  missing : List Tool := []
  /-- The answers that are left. -/
  script : List Output := []
  /-- The tools that were started, in order. -/
  started : List Started := []
  /-- The source of branch names. -/
  namer : Namer := ⟨⟨0, 0⟩, []⟩

namespace Scripted

/-- The answer when none is left. -/
def noAnswer : Output := ⟨.empty, Text.encode "no reply left", some 127⟩

/-- How many bytes an argument may have. -/
def maxArgument : Nat := Nat.pow 2 17 - 1

/-- Start a tool. -/
def start (tool : Tool) (dir : Path) (args : List String) (s : Scripted) :
    Except IoProblem Output × Scripted :=
  if Tool.refuses dir args then (.error .nulInStart, s)
  else
    match s.files.directory s.here dir with
    | .error problem => (.error problem, s)
    | .ok place =>
        if tool ∈ s.missing then (.error .notFound, s)
        else if args.any fun arg => maxArgument < arg.utf8ByteSize then
          (.error .argumentTooLong, s)
        else
          (.ok (s.script.headD noAnswer),
            { s with script := s.script.tail, started := s.started ++ [⟨tool, place, args⟩] })

/-- How the system answers. -/
def answer : Handler system Scripted
  | .start tool dir args, s => s.start tool dir args
  | .isThere path, s => (s.files.isThere s.here path, s)
  | .readText path, s => (s.files.readText s.here path, s)
  | .writeText path text, s =>
      match s.files.write s.here path (Text.encode text) with
      | .ok files => (.ok (), { s with files })
      | .error problem => (.error problem, s)
  | .createDirs path, s =>
      let out := s.files.createDirs s.here path
      (out.1, { s with files := out.2 })
  | .home, s => (s.home, s)
  | .currentDirectory, s => (.ok (Path.ofParts true s.here), s)
  | .namer, s => (s.namer, s)

end Scripted

end Shipment
