import Shipment.Text.Lines

/-!
# Paths

A path is a text whose parts have slashes between them.  It is absolute when it
starts with a slash, and relative to some directory otherwise.  Empty parts mean
nothing.  The part `.` stays where it is and `..` goes up.  A slash at the end
says that a directory is meant.
-/

namespace Shipment

/-- A path. -/
structure Path where
  /-- The path as it is written. -/
  text : String
deriving DecidableEq, Repr

namespace Path

/-- The pieces between the slashes of a text, empty ones included. -/
def pieces : List Char → List (List Char)
  | [] => [[]]
  | '/' :: cs => [] :: pieces cs
  | c :: cs =>
      match pieces cs with
      | [] => [[c]]
      | p :: ps => (c :: p) :: ps

/-- Whether a path starts at the root. -/
def isAbsolute (p : Path) : Bool := p.text.toList.head? == some '/'

/-- Whether a path ends in a slash. -/
def endsInSlash (p : Path) : Bool := p.text.toList.getLast? == some '/'

/-- The parts of a path, without empty ones. -/
def parts (p : Path) : List String :=
  ((pieces p.text.toList).filter fun piece => !piece.isEmpty).map String.ofList

/-- The parts of a path that name something: all but `.`, which counts only in
front of a relative path. -/
def components (p : Path) : List String :=
  match p.parts with
  | [] => []
  | first :: rest =>
      if first = "." ∧ !p.isAbsolute then first :: rest.filter (· ≠ ".")
      else (first :: rest).filter (· ≠ ".")

/-- The path of parts, from the root or not. -/
def ofParts (absolute : Bool) (parts : List String) : Path :=
  ⟨(if absolute then "/" else "") ++ Text.joinWith "/" parts⟩

/-- A path seen from another. -/
def join (p q : Path) : Path :=
  if q.isAbsolute ∨ p.text = "" then q
  else if p.endsInSlash then ⟨p.text ++ q.text⟩
  else ⟨p.text ++ "/" ++ q.text⟩

/-- Whether a piece stays where it is. -/
def isIdle (piece : List Char) : Bool := piece.isEmpty || piece == ['.']

/-- The path without its last component, if it has one.  What is in front of that
component stays as it is written, without slashes and `.` at its end. -/
def parent? (p : Path) : Option Path :=
  let all := pieces p.text.toList
  let (start, body) :=
    if all.head? == some ['.'] then ([['.']], all.drop 1)
    else if p.isAbsolute then ([], all.drop 1)
    else ([], all)
  match body.reverse.dropWhile isIdle with
  | [] => if start.isEmpty then none else some ⟨""⟩
  | _ :: above =>
      let left := start ++ (above.dropWhile isIdle).reverse
      some (ofParts p.isAbsolute (left.map String.ofList))

/-- The last component, if it is a name. -/
def fileName? (p : Path) : Option String :=
  match p.components.getLast? with
  | none => none
  | some last => if last = "." ∨ last = ".." then none else some last

example : (Path.mk "a").join ⟨""⟩ = ⟨"a/"⟩ := by decide +kernel
example : (Path.mk "a//b/.").parent? = some ⟨"a"⟩ := by decide +kernel
example : (Path.mk "a//b/./c").parent? = some ⟨"a//b"⟩ := by decide +kernel
example : (Path.mk "./a").parent? = some ⟨"."⟩ := by decide +kernel
example : (Path.mk ".").parent? = some ⟨""⟩ := by decide +kernel
example : (Path.mk "//a").parent? = some ⟨"/"⟩ := by decide +kernel
example : (Path.mk "/").parent? = none := by decide +kernel
example : (Path.mk "a/..").fileName? = none := by decide +kernel
example : (Path.mk "a/b/").fileName? = some "b" := by decide +kernel

end Path

end Shipment
