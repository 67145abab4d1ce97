import Shipment.Json.Value

/-!
# Reading JSON

`Json.read?` reads a whole text as one document.  Blanks between tokens are
spaces, tabs, line feeds and carriage returns.  Each reader takes a text and
gives what it read with the text behind it.

A string is read in two steps.  The first gives its units: characters, and the
numbers of its `\u` escapes.  The second joins the units to a text, two
surrogate halves to one character.  Half a pair alone leaves the string without
a text, which is no fault of the document.

Arrays and objects nest, so `value` counts the levels it may still enter.  The
length of the text is always enough.
-/

namespace Shipment.Json

/-- Drop the blanks between tokens. -/
def skipBlanks (cs : List Char) : List Char :=
  cs.dropWhile fun c => c == ' ' || c == '\t' || c == '\n' || c == '\r'

/-- The value of a hexadecimal digit. -/
def hexValue (c : Char) : Option Nat :=
  if '0' ≤ c && c ≤ '9' then some (c.toNat - '0'.toNat)
  else if 'a' ≤ c && c ≤ 'f' then some (c.toNat - 'a'.toNat + 10)
  else if 'A' ≤ c && c ≤ 'F' then some (c.toNat - 'A'.toNat + 10)
  else none

/-! ## Strings -/

/-- A unit of a written string. -/
inductive StringUnit where
  /-- A character, plain or behind a backslash. -/
  | plain (c : Char)
  /-- The number of a `\u` escape. -/
  | code (n : Nat)

/-- The character behind a backslash, `u` apart. -/
def simpleEscape (c : Char) : Option Char :=
  if c = '"' ∨ c = '\\' ∨ c = '/' then some c
  else if c = 'b' then some (Char.ofNat 8)
  else if c = 'f' then some (Char.ofNat 12)
  else if c = 'n' then some '\n'
  else if c = 'r' then some '\r'
  else if c = 't' then some '\t'
  else none

/-- The number of four hexadecimal digits. -/
def fourHex (a b c d : Char) : Option Nat := do
  return (((← hexValue a) * 16 + (← hexValue b)) * 16 + (← hexValue c)) * 16 + (← hexValue d)

/-- Read the units of a string up to its closing quote. -/
def stringUnits : List Char → Option (List StringUnit × List Char)
  | [] => none
  | '"' :: cs => some ([], cs)
  | '\\' :: cs =>
      match cs with
      | 'u' :: a :: b :: c :: d :: rest => do
          let n ← fourHex a b c d
          let (units, behind) ← stringUnits rest
          return (.code n :: units, behind)
      | e :: rest => do
          let c ← simpleEscape e
          let (units, behind) ← stringUnits rest
          return (.plain c :: units, behind)
      | [] => none
  | c :: cs =>
      if c.toNat < 0x20 then none
      else do
        let (units, behind) ← stringUnits cs
        return (.plain c :: units, behind)

/-- Whether a number is the first half of a surrogate pair. -/
def isHighHalf (n : Nat) : Bool := 0xD800 ≤ n && n < 0xDC00

/-- Whether a number is the second half of a surrogate pair. -/
def isLowHalf (n : Nat) : Bool := 0xDC00 ≤ n && n < 0xE000

/-- The text of a sequence of units. -/
def unitsText : List StringUnit → Option (List Char)
  | [] => some []
  | .plain c :: units => (unitsText units).map (c :: ·)
  | .code n :: units =>
      if isHighHalf n then
        match units with
        | .code m :: units' =>
            if isLowHalf m then
              (unitsText units').map
                (Char.ofNat (0x10000 + (n - 0xD800) * 0x400 + (m - 0xDC00)) :: ·)
            else none
        | _ => none
      else if isLowHalf n then none
      else (unitsText units).map (Char.ofNat n :: ·)

/-- Read a string behind its opening quote. -/
def stringBody (cs : List Char) : Option (Option String × List Char) := do
  let (units, behind) ← stringUnits cs
  return ((unitsText units).map String.ofList, behind)

/-! ## Numbers -/

/-- Read one digit or more. -/
def digits1 (cs : List Char) : Option (List Char × List Char) :=
  let ds := cs.takeWhile Text.isAsciiDigit
  if ds.isEmpty then none else some (ds, cs.dropWhile Text.isAsciiDigit)

/-- Read the whole part of a number: a zero alone, or digits that do not start
with one. -/
def wholePart : List Char → Option (List Char × List Char)
  | '0' :: cs =>
      match cs with
      | d :: _ => if Text.isAsciiDigit d then none else some (['0'], cs)
      | [] => some (['0'], [])
  | cs => digits1 cs

/-- Read the fraction of a number, if it has one. -/
def fractionPart : List Char → Option (List Char × List Char)
  | '.' :: cs => do
      let (ds, behind) ← digits1 cs
      return ('.' :: ds, behind)
  | cs => some ([], cs)

/-- Read the exponent of a number, if it has one. -/
def exponentPart : List Char → Option (List Char × List Char)
  | c :: cs =>
      if c = 'e' ∨ c = 'E' then
        match cs with
        | s :: cs' =>
            if s = '+' ∨ s = '-' then do
              let (ds, behind) ← digits1 cs'
              return (c :: s :: ds, behind)
            else do
              let (ds, behind) ← digits1 (s :: cs')
              return (c :: ds, behind)
        | [] => none
      else some ([], c :: cs)
  | [] => some ([], [])

/-- The number that digits stand for. -/
def ofDigits (ds : List Char) : Nat := ds.foldl (fun n d => n * 10 + Text.digitValue d) 0

/-- Read a number. -/
def numberToken (cs : List Char) : Option (Json × List Char) := do
  let (sign, cs) := match cs with
    | '-' :: cs => (['-'], cs)
    | cs => ([], cs)
  let (whole, cs) ← wholePart cs
  let (fraction, cs) ← fractionPart cs
  let (exponent, cs) ← exponentPart cs
  if sign.isEmpty && fraction.isEmpty && exponent.isEmpty then
    return (.natural (ofDigits whole), cs)
  else
    return (.number (String.ofList (sign ++ whole ++ fraction ++ exponent)), cs)

/-! ## Documents -/

/-- Read a fixed word. -/
def word (w : String) (j : Json) (cs : List Char) : Option (Json × List Char) :=
  if w.toList.isPrefixOf cs then some (j, cs.drop w.length) else none

/-- Read the items of an array from its first one to its closing bracket.  The
number bounds how many there are. -/
def itemsWith (item : List Char → Option (Json × List Char)) :
    Nat → List Char → Option (List Json × List Char)
  | 0, _ => none
  | n + 1, cs => do
      let (j, cs) ← item cs
      match skipBlanks cs with
      | ',' :: cs => do
          let (js, behind) ← itemsWith item n cs
          return (j :: js, behind)
      | ']' :: cs => return ([j], cs)
      | _ => none

/-- Read the fields of an object from its first one to its closing brace.  The
number bounds how many there are. -/
def fieldsWith (item : List Char → Option (Json × List Char)) :
    Nat → List Char → Option (List (Option String × Json) × List Char)
  | 0, _ => none
  | n + 1, cs =>
      match skipBlanks cs with
      | '"' :: cs => do
          let (key, cs) ← stringBody cs
          match skipBlanks cs with
          | ':' :: cs => do
              let (j, cs) ← item cs
              match skipBlanks cs with
              | ',' :: cs => do
                  let (fs, behind) ← fieldsWith item n cs
                  return ((key, j) :: fs, behind)
              | '\x7d' :: cs => return ([(key, j)], cs)
              | _ => none
          | _ => none
      | _ => none

/-- Read a document that nests less than the given number of levels. -/
def value : Nat → List Char → Option (Json × List Char)
  | 0, _ => none
  | depth + 1, cs =>
      match skipBlanks cs with
      | '"' :: cs => do
          let (s, behind) ← stringBody cs
          return (.string s, behind)
      | '[' :: cs =>
          match skipBlanks cs with
          | ']' :: cs => some (.array [], cs)
          | cs => do
              let (js, behind) ← itemsWith (value depth) cs.length cs
              return (.array js, behind)
      | '\x7b' :: cs =>
          match skipBlanks cs with
          | '\x7d' :: cs => some (.object [], cs)
          | cs => do
              let (fs, behind) ← fieldsWith (value depth) cs.length cs
              return (.object fs, behind)
      | 'n' :: cs => word "ull" .null cs
      | 't' :: cs => word "rue" (.bool true) cs
      | 'f' :: cs => word "alse" (.bool false) cs
      | cs => numberToken cs

/-- Read a whole text as one document. -/
def read? (cs : List Char) : Option Json := do
  let (j, behind) ← value (cs.length + 1) cs
  if (skipBlanks behind).isEmpty then return j else none

/-- The value of a key of an object, the first if there are several. -/
def get? (key : String) : Json → Option Json
  | object fields => (fields.find? fun f => f.1 == some key).map (·.2)
  | _ => none

end Shipment.Json
