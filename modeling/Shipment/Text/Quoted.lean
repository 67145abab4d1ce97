import Shipment.Text.Printable

/-!
# Quoted text

A text is quoted by enclosing it in double quotes.  A quote and a backslash get
a backslash before them.  Line feed, carriage return, tab and the null character
have letters of their own.  Any other character that is not shown as itself is
written as its code point in hexadecimal, `\u{200b}`.
-/

namespace Shipment.Text

/-- A number in lower-case hexadecimal, without leading zeros. -/
def hex (n : Nat) : List Char := Nat.toDigits 16 n

/-- The written form of one character inside quotes. -/
def quoteChar (c : Char) : List Char :=
  if c = '"' then ['\\', '"']
  else if c = '\\' then ['\\', '\\']
  else if c = '\n' then ['\\', 'n']
  else if c = '\r' then ['\\', 'r']
  else if c = '\t' then ['\\', 't']
  else if c = '\x00' then ['\\', '0']
  else if isShown c then [c]
  else ['\\', 'u', '\x7b'] ++ hex c.toNat ++ ['\x7d']

/-- A text between quotes. -/
def quote (cs : List Char) : List Char := '"' :: cs.flatMap quoteChar ++ ['"']

/-- `quote` for a string. -/
def quoted (s : String) : String := String.ofList (quote s.toList)

example : quote "a\"b\\".toList = "\"a\\\"b\\\\\"".toList := by decide
example : quote [Char.ofNat 0x200B] = "\"\\u\x7b200b\x7d\"".toList := by decide +kernel

end Shipment.Text
