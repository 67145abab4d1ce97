import Shipment.Failure
import Shipment.Path
import Shipment.Table
import Shipment.Text.Utf8

/-!
# Files in memory

A file system is a table of places.  A place is the list of names on the way
from the root to it, and has a file or a directory.  The root is always a
directory.

A path is followed from a directory, part by part, and each part but the last
must lead to a directory.  So a missing directory and a file in its place are
different problems, and both show only where the path goes through them.

A name has at most 255 bytes and a path at most 4095, and neither has the
character NUL.  A path with too many bytes leads nowhere.  A name with too many
bytes shows only where the path goes to it.
-/

namespace Shipment

/-- The names on the way from the root. -/
abbrev Place := List String

/-- What is at a place. -/
inductive Node where
  /-- A file with its content. -/
  | file (content : ByteArray)
  /-- A directory. -/
  | directory

/-- A file system. -/
structure Files where
  /-- What is where, the root apart. -/
  nodes : Table Place Node := []

namespace Files

/-- What is at a place. -/
def at? (place : Place) (fs : Files) : Option Node :=
  match place with
  | [] => some .directory
  | _ => fs.nodes.get? place

/-- Put something at a place. -/
def put (place : Place) (node : Node) (fs : Files) : Files :=
  { fs with nodes := fs.nodes.set place node }

/-! ## Following paths -/

/-- The place a part leads to from a directory. -/
def step (place : Place) (part : String) : Place :=
  if part = "." then place else if part = ".." then place.dropLast else place ++ [part]

/-- How many bytes a name may have. -/
def maxName : Nat := 255

/-- How many bytes a path may have. -/
def maxPath : Nat := 4095

/-- The place that parts lead to.  There may be nothing yet. -/
def follow (fs : Files) : Place → List String → Except IoProblem Place
  | place, [] => .ok place
  | place, part :: parts =>
      match fs.at? place with
      | none => .error .notFound
      | some (.file _) => .error .notADirectory
      | some .directory =>
          if part.utf8ByteSize ≤ maxName then fs.follow (step place part) parts
          else .error .nameTooLong

/-- Check a path by itself. -/
def checkPath (path : Path) : Except IoProblem Unit :=
  if Text.hasNul path.text then .error .nulInPath
  else if path.text.utf8ByteSize ≤ maxPath then .ok ()
  else .error .nameTooLong

/-- Where the parts of a path start, seen from a directory. -/
def origin (here : Place) (path : Path) : Place := if path.isAbsolute then [] else here

/-- The place of a path, seen from a directory. -/
def locate (fs : Files) (here : Place) (path : Path) : Except IoProblem Place := do
  checkPath path
  if path.text = "" then .error .notFound
  else
    fs.follow (origin here path) (path.parts ++ if path.endsInSlash then ["."] else [])

/-- What is at a path. -/
def lookup (fs : Files) (here : Place) (path : Path) : Except IoProblem (Place × Node) :=
  match fs.locate here path with
  | .error problem => .error problem
  | .ok place =>
      match fs.at? place with
      | none => .error .notFound
      | some node => .ok (place, node)

/-! ## What can be done -/

/-- Whether there is anything at a path. -/
def isThere (fs : Files) (here : Place) (path : Path) : Bool :=
  match fs.lookup here path with
  | .ok _ => true
  | .error _ => false

/-- The directory at a path. -/
def directory (fs : Files) (here : Place) (path : Path) : Except IoProblem Place :=
  match fs.lookup here path with
  | .ok (place, .directory) => .ok place
  | .ok (_, .file _) => .error .notADirectory
  | .error problem => .error problem

/-- The bytes of the file at a path. -/
def read (fs : Files) (here : Place) (path : Path) : Except IoProblem ByteArray :=
  match fs.lookup here path with
  | .ok (_, .file content) => .ok content
  | .ok (_, .directory) => .error .isADirectory
  | .error problem => .error problem

/-- The text of the file at a path. -/
def readText (fs : Files) (here : Place) (path : Path) : Except IoProblem String :=
  match fs.read here path with
  | .ok content =>
      match Text.decode? content with
      | some text => .ok text
      | none => .error .notUtf8
  | .error problem => .error problem

/-- Write the file at a path. -/
def write (fs : Files) (here : Place) (path : Path) (content : ByteArray) :
    Except IoProblem Files := do
  checkPath path
  if path.text = "" then .error .notFound
  else if path.endsInSlash then
    let _ ← fs.follow (origin here path) (path.parts.dropLast ++ ["."])
    .error .isADirectory
  else
    let place ← fs.follow (origin here path) path.parts
    match fs.at? place with
    | some .directory => .error .isADirectory
    | _ => .ok (fs.put place (.file content))

/-- Create the directory that parts lead to. -/
def makeDir (fs : Files) (start : Place) (parts : List String) : Except IoProblem Files :=
  match fs.follow start parts with
  | .error problem => .error problem
  | .ok place =>
      match fs.at? place with
      | some _ => .error .alreadyExists
      | none => .ok (fs.put place .directory)

/-- Create the directory that parts lead to, unless it is there. -/
def ensureDir (fs : Files) (start : Place) (parts : List String) : Except IoProblem Files :=
  match fs.makeDir start parts with
  | .ok fs => .ok fs
  | .error problem =>
      match fs.follow start parts with
      | .error _ => .error problem
      | .ok place =>
          match fs.at? place with
          | some .directory => .ok fs
          | _ => .error problem

/-- Create the directory that parts lead to and those above it, where they are
missing.  The parts come last one first.  Directories that were created stay
when a later one fails. -/
def ensureDirs (start : Place) : List String → Files → Except IoProblem Unit × Files
  | [], fs => (.ok (), fs)
  | part :: above, fs =>
      match fs.ensureDir start (part :: above).reverse with
      | .ok fs => (.ok (), fs)
      | .error .notFound =>
          match ensureDirs start above fs with
          | (.ok (), fs) =>
              match fs.ensureDir start (part :: above).reverse with
              | .ok fs => (.ok (), fs)
              | .error problem => (.error problem, fs)
          | failed => failed
      | .error problem => (.error problem, fs)

/-- Create the directory at a path and those above it, where they are missing. -/
def createDirs (fs : Files) (here : Place) (path : Path) : Except IoProblem Unit × Files :=
  match checkPath path with
  | .ok () => ensureDirs (origin here path) path.components.reverse fs
  | .error problem => (.error problem, fs)

/-! ## Listing -/

/-- The files below a place, with the names on the way from there. -/
def filesBelow (place : Place) (fs : Files) : List (List String × ByteArray) :=
  fs.nodes.filterMap fun entry =>
    match entry.2 with
    | .file content =>
        if place.isPrefixOf entry.1 then some (entry.1.drop place.length, content) else none
    | .directory => none

end Files

end Shipment
