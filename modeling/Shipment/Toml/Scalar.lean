import Shipment.Toml.Draft
import Shipment.Toml.Moment
import Shipment.Toml.Quotation

/-!
# Bare words in TOML

A value without quotes and brackets is a bare word: a truth value, a number, or a
date with or without a time.  A word goes on behind blanks, because a time can
stand behind its date, unless a dot or a quote follows the blanks.

A whole number is decimal, hexadecimal, octal or binary.  A decimal one has no
leading zeros, and the others have no sign.  Any other number has a fraction or an
exponent or both.  Underscores stand alone between digits or between the sign and
a digit.

Some well-formed numbers have no value that is read.  These are whole numbers
below `-2 ^ 127` or from `2 ^ 128` on, numbers that round to infinity in 64 bits,
and whole numbers with something else than digits behind an underscore or with no
digits behind the mark of their base.
-/

namespace Shipment.Toml

/-! ## Digits -/

/-- Whether a character is a digit of a base of at most sixteen. -/
def isDigitOf (base : Nat) (c : Char) : Bool :=
  match hexDigit? c with
  | some d => d < base
  | none => false

/-- The number of digits to a base of at most sixteen. -/
def ofDigits (base : Nat) (ds : List Char) : Nat :=
  ds.foldl (fun n d => n * base + (hexDigit? d).getD 0) 0

/-- Whether each underscore stands in front of a digit and behind one.  An
underscore at the start needs leave. -/
def isSpaced (digit : Char → Bool) (leave : Bool) : List Char → Bool
  | [] => true
  | '_' :: cs => leave && (cs.head?.map digit).getD false && isSpaced digit false cs
  | c :: cs => isSpaced digit (digit c) cs

/-- A text without its underscores. -/
def unspaced (cs : List Char) : List Char := cs.filter (· != '_')

/-- Whether a text has a leading zero. -/
def hasLeadingZero : List Char → Bool
  | '0' :: _ :: _ => true
  | _ => false

/-- A sign, if there is one, and what follows it.  The sign is whether it is a
minus. -/
def splitSign : List Char → Option Bool × List Char
  | '-' :: cs => (some true, cs)
  | '+' :: cs => (some false, cs)
  | cs => (none, cs)

/-! ## Whole numbers -/

/-- Whether a whole number is in range. -/
def inRange (n : Int) : Bool := -Int.pow 2 127 ≤ n && n < Int.pow 2 128

/-- The whole number with a sign and digits, as it is written.  Digits that are
none of the base have no value. -/
def whole (literal : List Char) (base : Nat) (minus : Bool) (digits : List Char) : Toml :=
  let ds := unspaced digits
  let n := if minus then -Int.ofNat (ofDigits base ds) else Int.ofNat (ofDigits base ds)
  if !ds.isEmpty && ds.all (isDigitOf base) && inRange n then .integer n
  else .unreadable (String.ofList literal)

/-- A whole number to another base than ten, from its digits. -/
def radixed (literal : List Char) (base : Nat) (digits : List Char) : Option Toml :=
  if (unspaced digits).all (isDigitOf base) && isSpaced (isDigitOf base) false digits then
    some (whole literal base false digits)
  else none

/-! ## Other numbers -/

/-- Read digits with underscores among them. -/
def digitRun (cs : List Char) : Option (List Char × List Char) :=
  let ok (c : Char) : Bool := Text.isAsciiDigit c || c == '_'
  let ds := unspaced (cs.takeWhile ok)
  if ds.isEmpty then none else some (ds, cs.dropWhile ok)

/-- Read an exponent behind its mark. -/
def exponent (cs : List Char) : Option (Int × List Char) := do
  let (sign, cs) := splitSign cs
  let (ds, cs) ← digitRun cs
  let e := Int.ofNat (ofDigits 10 ds)
  return (if sign == some true then -e else e, cs)

/-- The digits of a number that is not whole, as a whole number and the power of
ten that goes with it. -/
def scientific? (cs : List Char) : Option (Nat × Int) := do
  let (ds, behind) ← digitRun cs
  if cs.head? == some '0' && 1 < ds.length then none
  else
    let (fs, behind) ←
      match behind with
      | '.' :: cs => digitRun cs
      | cs => some ([], cs)
    let (e, behind) ←
      match behind with
      | 'e' :: cs => exponent cs
      | 'E' :: cs => exponent cs
      | cs => some (0, cs)
    if behind.isEmpty then some (ofDigits 10 (ds ++ fs), e - fs.length) else none

/-- The least number that rounds to infinity. -/
def infinite : Nat := Nat.pow 2 1024 - Nat.pow 2 970

/-- Whether `n * 10 ^ e` rounds to infinity. -/
def overflows (n : Nat) (e : Int) : Bool :=
  let magnitude := e + (Nat.repr n).length
  if n = 0 then false
  else if magnitude < 300 then false
  else if 320 < magnitude then true
  else if 0 ≤ e then infinite ≤ n * Nat.pow 10 e.toNat
  else infinite * Nat.pow 10 (-e).toNat ≤ n

/-! ## Bare words -/

/-- A decimal number or a moment. -/
def decimal (word : List Char) : Option Toml :=
  let (sign, body) := splitSign word
  let spaced (digit : Char → Bool) : Bool := isSpaced digit sign.isSome body
  let wholeNumber : Option Toml :=
    if spaced (isDigitOf 16) && !body.isEmpty && !hasLeadingZero body then
      some (whole word 10 (sign == some true) body)
    else none
  match body.dropWhile Text.isAsciiDigit with
  | [] => wholeNumber
  | c :: cs =>
      if c == '-' || c == ':' then
        if isMoment word then some (.moment (String.ofList word)) else none
      else if (c :: cs).contains ' ' then none
      else if (c :: cs).any fun c => c == '.' || c == 'e' || c == 'E' then
        match scientific? body with
        | some (n, e) =>
            if !spaced Text.isAsciiDigit then none
            else if overflows n e then some (.unreadable (String.ofList word))
            else some (.float (String.ofList word))
        | none => none
      else if c == '_' then wholeNumber
      else none

/-- The numbers that are written in letters. -/
def letterNumbers : List String := ["inf", "+inf", "-inf", "nan", "+nan", "-nan"]

/-- The value of a bare word. -/
def ofWord (word : List Char) : Option Toml :=
  if word == "true".toList then some (.boolean true)
  else if word == "false".toList then some (.boolean false)
  else if letterNumbers.contains (String.ofList word) then some (.float (String.ofList word))
  else
    match word with
    | '0' :: 'x' :: ds => radixed word 16 ds
    | '0' :: 'o' :: ds => radixed word 8 ds
    | '0' :: 'b' :: ds => radixed word 2 ds
    | _ => decimal word

/-! ## Reading -/

/-- Whether a character separates words. -/
def isDelimiter (c : Char) : Bool :=
  c == ' ' || c == '\t' || c == '\n' || c == '\r' || c == '#' || c == '=' || c == ',' ||
  c == '[' || c == ']' || c == '\x7b' || c == '\x7d'

/-- Whether a character ends a part of a word or of a key. -/
def endsPart (c : Char) : Bool := c == '.' || isDelimiter c

/-- Whether a character is a quote. -/
def isQuote (c : Char) : Bool := c == '"' || c == '\''

/-- Read a bare word, behind blanks that belong to it if it goes on.  Where a part
of it starts, a quote ends it. -/
def wordFrom (blanks : List Char) (starts : Bool) : List Char → List Char × List Char
  | [] => ([], [])
  | c :: cs =>
      if c == ' ' || c == '\t' then wordFrom (blanks ++ [c]) true cs
      else if isDelimiter c || (starts && isQuote c) || (!blanks.isEmpty && c == '.') then
        ([], c :: cs)
      else
        let (word, behind) := wordFrom [] (c == '.') cs
        (blanks ++ c :: word, behind)

/-- Read a value without brackets.  There must be something, but it need not have
a value. -/
def scalar : List Char → Option (Draft × List Char)
  | [] => none
  | c :: cs =>
      if isQuote c then
        let (text, behind) := anyQuotation (c :: cs)
        some (.plain (text.map .string), behind)
      else
        let (word, behind) := wordFrom [] true (c :: cs)
        if word.isEmpty then none else some (.plain (ofWord word), behind)

example : ofWord "-1_000".toList = some (.integer (-1000)) := by rfl
example : (ofWord "01".toList).isNone = true := by decide +kernel
example : (ofWord "6.5e-3".toList).isSome = true := by decide +kernel
example : ofWord "1e999".toList = some (.unreadable "1e999") := by rfl
example : wordFrom [] true "1 2 .3".toList = ("1 2".toList, ".3".toList) := by decide +kernel

end Shipment.Toml
