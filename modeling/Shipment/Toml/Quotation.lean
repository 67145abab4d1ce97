import Shipment.Text.Lines

/-!
# Strings in TOML

There are four forms of strings.  Those in double quotes have escapes and those
in single quotes have none.  Either kind can be enclosed in one quote or in
three.  A string in three quotes can have several lines, drops a line end right
behind its opening quotes, and may end in up to two quotes of its own.  In three
double quotes, a backslash at the end of a line takes the blanks and line ends
behind it away.

Control characters other than the tab are not allowed.  An escape must name a
character, so it names no half of a surrogate pair.

A string that cannot be read still ends somewhere: in one quote at its closing
quote or at the end of its line, in three quotes at the closing ones or at the end
of the text.  `anyQuotation` passes over such a string and gives it no text.
-/

namespace Shipment.Toml

/-- The characters allowed in strings and comments, line ends apart. -/
def isAllowed (c : Char) : Bool := c == '\t' || (0x20 ≤ c.toNat && c.toNat != 0x7F)

/-- Read a line end. -/
def lineEnd? : List Char → Option (List Char)
  | '\n' :: cs => some cs
  | '\r' :: '\n' :: cs => some cs
  | _ => none

/-- The value of a hexadecimal digit. -/
def hexDigit? (c : Char) : Option Nat :=
  if '0' ≤ c && c ≤ '9' then some (c.toNat - '0'.toNat)
  else if 'a' ≤ c && c ≤ 'f' then some (c.toNat - 'a'.toNat + 10)
  else if 'A' ≤ c && c ≤ 'F' then some (c.toNat - 'A'.toNat + 10)
  else none

/-- Read a character by the hexadecimal digits of its number. -/
def codePoint : (digits value : Nat) → List Char → Option (Char × List Char)
  | 0, value, cs =>
      if value.isValidChar then some (Char.ofNat value, cs) else none
  | _ + 1, _, [] => none
  | digits + 1, value, c :: cs =>
      match hexDigit? c with
      | some d => codePoint digits (value * 16 + d) cs
      | none => none

/-- Read an escape behind its backslash. -/
def escape : List Char → Option (Char × List Char)
  | '"' :: cs => some ('"', cs)
  | '\\' :: cs => some ('\\', cs)
  | 'b' :: cs => some ('\x08', cs)
  | 't' :: cs => some ('\t', cs)
  | 'n' :: cs => some ('\n', cs)
  | 'f' :: cs => some ('\x0c', cs)
  | 'r' :: cs => some ('\r', cs)
  | 'e' :: cs => some ('\x1b', cs)
  | 'x' :: cs => codePoint 2 0 cs
  | 'u' :: cs => codePoint 4 0 cs
  | 'U' :: cs => codePoint 8 0 cs
  | _ => none

/-- Put a character in front of what was read. -/
def before (c : Char) (read : Option (List Char × List Char)) : Option (List Char × List Char) :=
  read.map fun r => (c :: r.1, r.2)

/-! ## One quote -/

/-- Read a string behind its double quote.  The number bounds how many
characters it has. -/
def basicString : Nat → List Char → Option (List Char × List Char)
  | 0, _ => none
  | _ + 1, [] => none
  | _ + 1, '"' :: cs => some ([], cs)
  | n + 1, '\\' :: cs =>
      match escape cs with
      | some (c, cs) => before c (basicString n cs)
      | none => none
  | n + 1, c :: cs => if isAllowed c then before c (basicString n cs) else none

/-- Read a string behind its single quote. -/
def literalString : List Char → Option (List Char × List Char)
  | [] => none
  | '\'' :: cs => some ([], cs)
  | c :: cs => if isAllowed c then before c (literalString cs) else none

/-! ## Three quotes -/

/-- Drop a line end at the start. -/
def dropLineEnd (cs : List Char) : List Char := (lineEnd? cs).getD cs

/-- Drop blanks and line ends. -/
def dropGap : List Char → List Char
  | ' ' :: cs => dropGap cs
  | '\t' :: cs => dropGap cs
  | '\n' :: cs => dropGap cs
  | '\r' :: '\n' :: cs => dropGap cs
  | cs => cs

/-- What follows the end of a line that has only blanks before it. -/
def lineEndBehindBlanks? (cs : List Char) : Option (List Char) :=
  lineEnd? (cs.dropWhile fun c => c == ' ' || c == '\t')

/-- Read the quotes at the end of a string in three quotes: the three that close
it and up to two of its own before them. -/
def closing (quote : Char) (cs : List Char) : Option (List Char × List Char) :=
  let quotes := cs.takeWhile (· == quote)
  if quotes.length < 3 then none
  else some (List.replicate (min (quotes.length - 3) 2) quote, cs.drop (min quotes.length 5))

/-- Read a string behind three double quotes.  The number bounds how many
characters it has. -/
def longBasicString : Nat → List Char → Option (List Char × List Char)
  | 0, _ => none
  | _ + 1, [] => none
  | n + 1, c :: cs =>
      match closing '"' (c :: cs) with
      | some read => some read
      | none =>
          if c == '\\' then
            match lineEndBehindBlanks? cs with
            | some cs => longBasicString n (dropGap cs)
            | none =>
                match escape cs with
                | some (c, cs) => before c (longBasicString n cs)
                | none => none
          else if isAllowed c || (lineEnd? (c :: cs)).isSome then
            before c (longBasicString n cs)
          else none

/-- Read a string behind three single quotes. -/
def longLiteralString : List Char → Option (List Char × List Char)
  | [] => none
  | c :: cs =>
      match closing '\'' (c :: cs) with
      | some read => some read
      | none =>
          if isAllowed c || (lineEnd? (c :: cs)).isSome then before c (longLiteralString cs)
          else none

/-! ## Any form -/

/-- Read a string in any form. -/
def quotation : List Char → Option (String × List Char)
  | '"' :: '"' :: '"' :: cs =>
      (longBasicString (cs.length + 1) (dropLineEnd cs)).map fun r => (String.ofList r.1, r.2)
  | '\'' :: '\'' :: '\'' :: cs =>
      (longLiteralString (dropLineEnd cs)).map fun r => (String.ofList r.1, r.2)
  | '"' :: cs => (basicString (cs.length + 1) cs).map fun r => (String.ofList r.1, r.2)
  | '\'' :: cs => (literalString cs).map fun r => (String.ofList r.1, r.2)
  | _ => none

/-! ## Passing over -/

/-- Whether a backslash keeps a character from closing a string. -/
def isGuarded (quote c : Char) : Bool := quote == '"' && (c == '"' || c == '\\')

/-- What lies behind a string in one quote, from behind its first quote on. -/
def behindShort (quote : Char) : List Char → List Char
  | [] => []
  | '\n' :: cs => '\n' :: cs
  | '\\' :: c :: cs =>
      if isGuarded quote c then behindShort quote cs else behindShort quote (c :: cs)
  | c :: cs => if c == quote then cs else behindShort quote cs

/-- What lies behind a string in three quotes, from behind its first three quotes
on. -/
def behindLong (quote : Char) : List Char → List Char
  | [] => []
  | '\\' :: c :: cs =>
      if isGuarded quote c then behindLong quote cs else behindLong quote (c :: cs)
  | c :: cs =>
      match closing quote (c :: cs) with
      | some read => read.2
      | none => behindLong quote cs

/-- Whether a text starts with a string in three quotes. -/
def startsLong : List Char → Bool
  | '"' :: '"' :: '"' :: _ => true
  | '\'' :: '\'' :: '\'' :: _ => true
  | _ => false

/-- What lies behind the string at the start of a text. -/
def behindQuotation : List Char → List Char
  | [] => []
  | quote :: cs =>
      if startsLong (quote :: cs) then behindLong quote (cs.drop 2) else behindShort quote cs

/-- Read a string in any form, or pass over one that cannot be read. -/
def anyQuotation (cs : List Char) : Option String × List Char :=
  match quotation cs with
  | some (s, cs) => (some s, cs)
  | none => (none, behindQuotation cs)

end Shipment.Toml
