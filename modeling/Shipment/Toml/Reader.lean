import Shipment.Toml.Scalar

/-!
# Reading TOML

`Toml.read` reads a whole text as statements first and settles them then.  Numbers
without a value come to light last.  A byte order mark in front is skipped.  Each
reader takes a text and gives what it read with the text behind it, or fails where
a bracket, a comma or a line end is not where it has to be.  What is between these
need not mean anything yet.

A statement takes the rest of its line, where only blanks and a comment may
follow it.  Where a value is left out, or where a header ends in nothing, the rest
of the line does not matter.  Inside brackets and braces, line ends and comments
may stand between items, and a comma may follow the last one.  In braces they may
also stand around `=`, and a key may have no value.  Brackets and braces nest no
deeper than eighty levels.
-/

namespace Shipment.Toml

/-! ## Between tokens -/

/-- Drop blanks. -/
def skipBlanks (cs : List Char) : List Char := cs.dropWhile fun c => c == ' ' || c == '\t'

/-- Drop a comment up to the end of its line.  Fails if it has a character that
is not allowed. -/
def skipComment : List Char → Option (List Char)
  | [] => some []
  | '\n' :: cs => some ('\n' :: cs)
  | '\r' :: '\n' :: cs => some ('\r' :: '\n' :: cs)
  | c :: cs => if isAllowed c then skipComment cs else none

/-- Drop blanks and a comment. -/
def skipTrailing (cs : List Char) : Option (List Char) :=
  match skipBlanks cs with
  | '#' :: cs => skipComment cs
  | cs => some cs

/-- Read the end of a statement. -/
def statementEnd (cs : List Char) : Option (List Char) :=
  match skipTrailing cs with
  | some [] => some []
  | some cs => lineEnd? cs
  | none => none

/-- Drop blanks, comments and line ends.  The number bounds how many lines there
are. -/
def skipLines : Nat → List Char → Option (List Char)
  | 0, _ => none
  | n + 1, cs =>
      match skipTrailing cs with
      | none => none
      | some cs =>
          match lineEnd? cs with
          | some cs => skipLines n cs
          | none => some cs

/-- Drop what may stand between items. -/
def skipGap (cs : List Char) : Option (List Char) := skipLines (cs.length + 1) cs

/-! ## Keys -/

/-- The characters of bare keys. -/
def isKeyChar (c : Char) : Bool :=
  Text.isAsciiLetter c || Text.isAsciiDigit c || c == '_' || c == '-'

/-- Read one part of a key.  It may be missing. -/
def keyPart : List Char → KeyPart × List Char
  | [] => (.missing, [])
  | c :: cs =>
      if isQuote c then
        if startsLong (c :: cs) then (.malformed, behindQuotation (c :: cs))
        else
          let (text, behind) := anyQuotation (c :: cs)
          (match text with
            | some s => .text s
            | none => .malformed,
            behind)
      else
        let part := (c :: cs).takeWhile fun c => !endsPart c
        (if part.isEmpty then .missing
          else if part.all isKeyChar then .text (String.ofList part)
          else .malformed,
          (c :: cs).dropWhile fun c => !endsPart c)

/-- Read the parts of a key, with dots between them.  The number bounds how many
there are. -/
def keyParts : Nat → List Char → KeyDraft × List Char
  | 0, cs => ([], cs)
  | n + 1, cs =>
      let (part, cs) := keyPart (skipBlanks cs)
      match skipBlanks cs with
      | '.' :: cs =>
          let (parts, cs) := keyParts n cs
          (part :: parts, cs)
      | cs => ([part], cs)

/-- Read a key and the blanks around it. -/
def key (cs : List Char) : KeyDraft × List Char := keyParts (cs.length + 1) cs

/-- Whether a key ends in nothing. -/
def endsMissing (key : KeyDraft) : Bool :=
  match key.getLast? with
  | some .missing => true
  | _ => false

/-! ## Values -/

/-- Read an assignment in braces, with a reader for its value. -/
def assignmentWith (value : List Char → Option (Draft × List Char)) (cs : List Char) :
    Option ((KeyDraft × Draft) × List Char) := do
  let (key, cs) := key cs
  match ← skipGap cs with
  | '=' :: cs =>
      match ← skipGap cs with
      | '\x7d' :: cs => return ((key, .absent), '\x7d' :: cs)
      | cs => do
          let (v, cs) ← value cs
          return ((key, v), cs)
  | '\x7d' :: cs => return ((key, .absent), '\x7d' :: cs)
  | _ => none

/-- Read items up to a closing character, with commas between them.  The number
bounds how many there are. -/
def itemsWith {α : Type} (close : Char) (item : List Char → Option (α × List Char)) :
    Nat → List Char → Option (List α × List Char)
  | 0, _ => none
  | n + 1, cs => do
      let cs ← skipGap cs
      match cs with
      | [] => none
      | c :: cs' =>
          if c = close then return ([], cs')
          else do
            let (a, cs) ← item cs
            let cs ← skipGap cs
            match cs with
            | [] => none
            | c :: cs =>
                if c = close then return ([a], cs)
                else if c = ',' then do
                  let (as, cs) ← itemsWith close item n cs
                  return (a :: as, cs)
                else none

/-- Read a value that nests no deeper than the given number of levels. -/
def value : Nat → List Char → Option (Draft × List Char)
  | 0, cs => scalar cs
  | depth + 1, '[' :: cs => do
      let (items, cs) ← itemsWith ']' (value depth) (cs.length + 1) cs
      return (.array items, cs)
  | depth + 1, '\x7b' :: cs => do
      let (items, cs) ← itemsWith '\x7d' (assignmentWith (value depth)) (cs.length + 1) cs
      return (.table items, cs)
  | _ + 1, cs => scalar cs

/-- How deep values nest. -/
def maxDepth : Nat := 80

/-! ## Statements -/

/-- Drop what is left of a line in front of its comment and its end.  The number
bounds how many words and strings there are. -/
def skipWords : Nat → List Char → List Char
  | 0, cs => cs
  | _ + 1, [] => []
  | n + 1, c :: cs =>
      if c == '#' || c == '\n' || c == '\r' then c :: cs
      else if isQuote c then skipWords n (behindQuotation (c :: cs))
      else if endsPart c then skipWords n cs
      else skipWords n (cs.dropWhile fun c => !endsPart c)

/-- Drop what is left of a line. -/
def skipRest (cs : List Char) : List Char := skipWords (cs.length + 1) cs

/-- Read the value of a statement.  It may be left out, and then the statement has
none. -/
def statementValue (cs : List Char) : Option (Draft × List Char) :=
  match cs with
  | [] => some (.plain none, [])
  | c :: _ =>
      if c == '\n' || c == '\r' || c == '#' || c == ',' then some (.plain none, skipRest cs)
      else value maxDepth cs

/-- Read a header behind its opening brackets. -/
def header (inSequence : Bool) (close cs : List Char) : Option (Statement × List Char) :=
  let (key, cs) := key cs
  match cs with
  | ']' :: _ => (Text.after? close cs).map fun cs => (.header inSequence key, cs)
  | _ => if endsMissing key then some (.header inSequence key, skipRest cs) else none

/-- Read a statement, without the end of its line. -/
def statement : List Char → Option (Statement × List Char)
  | '[' :: '[' :: cs => header true [']', ']'] cs
  | '[' :: cs => header false [']'] cs
  | cs => do
      let (key, cs) := key cs
      let (v, cs) ← statementValue (skipBlanks (← Text.after? ['='] cs))
      return (.assign key v, cs)

/-- Read statements up to the end of the text.  The number bounds how many there
are. -/
def statements : Nat → List Char → Option (List Statement)
  | 0, _ => none
  | n + 1, cs =>
      match skipGap cs with
      | none => none
      | some [] => some []
      | some cs =>
          match statement cs with
          | none => none
          | some (s, cs) =>
              match statementEnd cs with
              | none => none
              | some cs => (statements n cs).map (s :: ·)

/-- Drop a byte order mark. -/
def skipMark : List Char → List Char
  | '\ufeff' :: cs => cs
  | cs => cs

/-- Read a whole text as one document. -/
def read (cs : List Char) : Except Problem Entries := do
  let cs := skipMark cs
  let t ← ofStatements (← orMalformed (statements (cs.length + 1) cs))
  if Entries.isReadable t then return t else .error .malformed

end Shipment.Toml
