import Shipment.Failure

/-!
# Change descriptions

A change description is a conventional commit message.  Its header is one of
nine types, an optional scope in parentheses, an optional exclamation mark and a
colon.  Spaces or tabs follow, and then the subject, which starts with a
character that is not blank.  Anything may come behind it.

`headerEnd?` finds the end of the header and `matchesGrammar` decides the
grammar.  `Description.accept` trims a text first.  An empty description is
never accepted.  Any other one outside the grammar is accepted only by force.
-/

namespace Shipment

namespace Intent

/-- The types a header may start with.  None starts with another. -/
def types : List String :=
  ["feat", "fix", "docs", "chore", "refactor", "perf", "test", "ci", "build"]

/-- What follows the type of a header. -/
def afterType? (cs : List Char) : Option (List Char) :=
  types.findSome? fun type => Text.after? type.toList cs

/-- The characters of a scope. -/
def isScopeChar (c : Char) : Bool := c != '(' && c != ')' && c != '\n'

/-- What follows the scope of a header, if it has one.  A scope holds a
character that is not blank. -/
def afterScope? : List Char → Option (List Char)
  | '(' :: cs =>
      match cs.dropWhile isScopeChar with
      | ')' :: rest =>
          if (cs.takeWhile isScopeChar).any fun c => !Text.isBlank c then some rest else none
      | _ => none
  | cs => some cs

/-- What follows the exclamation mark of a header, if it has one. -/
def afterMark : List Char → List Char
  | '!' :: cs => cs
  | cs => cs

/-- What follows the colon of a header. -/
def afterColon? : List Char → Option (List Char)
  | ':' :: cs => some cs
  | _ => none

/-- What follows the header of a text that starts with one. -/
def headerEnd? (cs : List Char) : Option (List Char) := do
  let cs ← afterType? cs
  let cs ← afterScope? cs
  afterColon? (afterMark cs)

/-- The characters between the header and the subject. -/
def isGap (c : Char) : Bool := c == ' ' || c == '\t'

/-- Whether a gap and a subject follow. -/
def startsSubject : List Char → Bool
  | [] => false
  | c :: cs =>
      isGap c &&
        match cs.dropWhile isGap with
        | d :: _ => !Text.isBlank d
        | [] => false

/-- Whether a text is a conventional commit message. -/
def matchesGrammar (text : String) : Bool :=
  match headerEnd? text.toList with
  | some rest => startsSubject rest
  | none => false

end Intent

/-- How a description was accepted. -/
inductive Verdict where
  /-- It follows the grammar. -/
  | accepted
  /-- It does not, and force let it through. -/
  | acceptedWithWarning
deriving DecidableEq, Repr

namespace Verdict

/-- The name of the verdict in a document. -/
def name : Verdict → String
  | accepted => "accepted"
  | acceptedWithWarning => "accepted-with-warning"

end Verdict

/-- A description that was accepted. -/
structure Description where
  /-- The text, trimmed. -/
  text : String
deriving DecidableEq, Repr

namespace Description

/-- Decide a text as it stands. -/
def validate (text : String) (force : Bool) : Except Failure Verdict :=
  if (Text.trimmed text).isEmpty then .error (.invalidIntent text)
  else if Intent.matchesGrammar text then .ok .accepted
  else if force then .ok .acceptedWithWarning
  else .error (.invalidIntent text)

/-- Trim a text and accept it. -/
def accept (raw : String) (force : Bool) : Except Failure (Description × Verdict) := do
  let text := Text.trimmed raw
  let verdict ← validate text force
  return (⟨text⟩, verdict)

end Description

end Shipment
