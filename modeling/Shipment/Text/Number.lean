import Shipment.Text.Blank

/-!
# Numbers in text

Decimal numbers are written without a sign and without leading zeros, or padded
with zeros to a width.  A count is read as a number below `2 ^ 32`, with an
optional plus sign before it.  Reading stops at the first digit that shows the
text is no such number, so a text with two faults has the cause of the first.
-/

namespace Shipment.Text

/-- A number in decimal, padded with zeros to at least `width` digits. -/
def padded (width n : Nat) : String :=
  let digits := Nat.repr n
  "".pushn '0' (width - digits.length) ++ digits

/-- Why a text is not a count. -/
inductive CountProblem where
  /-- There is nothing to read. -/
  | empty
  /-- A character is not a digit. -/
  | invalidDigit
  /-- The number does not fit. -/
  | tooLarge
deriving DecidableEq, Repr

namespace CountProblem

/-- The problem in words. -/
def text : CountProblem → String
  | empty => "cannot parse integer from empty string"
  | invalidDigit => "invalid digit found in string"
  | tooLarge => "number too large to fit in target type"

end CountProblem

/-- The value of a digit. -/
def digitValue (c : Char) : Nat := c.toNat - '0'.toNat

/-- Read digits behind a number already read. -/
def readDigits (value : Nat) : List Char → Except CountProblem Nat
  | [] => .ok value
  | c :: cs =>
      if isAsciiDigit c then
        let next := value * 10 + digitValue c
        if next < 2 ^ 32 then readDigits next cs else .error .tooLarge
      else .error .invalidDigit

/-- Read a count. -/
def readCount : List Char → Except CountProblem Nat
  | [] => .error .empty
  | ['+'] => .error .invalidDigit
  | '+' :: cs => readDigits 0 cs
  | cs => readDigits 0 cs

example : readCount "4294967295".toList = .ok 4294967295 := by rfl
example : readCount "4294967296".toList = .error .tooLarge := by rfl
example : readCount "42949672961x".toList = .error .tooLarge := by rfl
example : readCount "-1".toList = .error .invalidDigit := by rfl

end Shipment.Text
