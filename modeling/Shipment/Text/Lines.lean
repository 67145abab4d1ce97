import Shipment.Text.Blank

/-!
# Lines and separators

A line ends at a line feed, and one carriage return right before the line feed
belongs to the end.  A final line feed opens no empty line.  `splitOnce` cuts a
text at the first occurrence of a separator.
-/

namespace Shipment.Text

/-- The lines of a text, without their ends. -/
def lines : List Char → List (List Char)
  | [] => []
  | '\n' :: cs => [] :: lines cs
  | '\r' :: '\n' :: cs => [] :: lines cs
  | c :: cs =>
      match lines cs with
      | [] => [[c]]
      | l :: ls => (c :: l) :: ls

/-- The first line of a text, empty when there is none. -/
def firstLine (cs : List Char) : List Char := (lines cs).headD []

/-- The text before and after the first occurrence of `sep`. -/
def splitOnce (sep : List Char) : List Char → Option (List Char × List Char)
  | [] => if sep.isEmpty then some ([], []) else none
  | c :: cs =>
      if sep.isPrefixOf (c :: cs) then some ([], (c :: cs).drop sep.length)
      else (splitOnce sep cs).map fun parts => (c :: parts.1, parts.2)

/-- What follows `start` in a text that starts with it. -/
def after? : (start : List Char) → List Char → Option (List Char)
  | [], cs => some cs
  | _ :: _, [] => none
  | s :: start, c :: cs => if s = c then after? start cs else none

/-- Whether `part` occurs in a text. -/
def occurs (part : List Char) (cs : List Char) : Bool := (splitOnce part cs).isSome

/-- Join texts with a separator between neighbours. -/
def joinWith (sep : String) (parts : List String) : String := sep.intercalate parts

theorem after?_append (start cs : List Char) : after? start (start ++ cs) = some cs := by
  induction start with
  | nil => rfl
  | cons s start ih => simp [after?, ih]

theorem after?_eq_none {start cs : List Char} : after? start cs = none ↔ ¬start <+: cs := by
  induction start generalizing cs with
  | nil => simp [after?]
  | cons s start ih =>
      cases cs with
      | nil => simp [after?]
      | cons c cs =>
          by_cases h : s = c
          · simp [after?, h, ih]
          · simp [after?, h, List.cons_prefix_cons]

example : lines "a\r\nb\n".toList = ["a".toList, "b".toList] := by decide
example : lines "\n\r".toList = [[], ['\r']] := by decide
example : splitOnce "=".toList "a=b=c".toList = some (['a'], "b=c".toList) := by decide

end Shipment.Text
