import Shipment.Text.Number

/-!
# JSON documents

A JSON document as a tree.  Objects keep the order of their fields and may
repeat a key.  A document has two written forms.  The compact one has no spaces.
The pretty one puts each item on a line of its own, two spaces deeper than what
holds it, and leaves an empty array or object on one line.

A string read from a document can name one half of a surrogate pair without the
other.  Such a string has no text, so the text of a string and of a key is
optional.  Documents that are built here always have texts.
-/

namespace Shipment

/-- A JSON document. -/
inductive Json where
  /-- `null`. -/
  | null
  /-- `true` and `false`. -/
  | bool (b : Bool)
  /-- A number written in digits alone. -/
  | natural (n : Nat)
  /-- Any other number, as it is written. -/
  | number (literal : String)
  /-- A string, with its text if it has one. -/
  | string (text : Option String)
  /-- An array. -/
  | array (items : List Json)
  /-- An object. -/
  | object (fields : List (Option String × Json))
deriving Inhabited

namespace Json

/-- A string with a text. -/
def text (s : String) : Json := string (some s)

/-- An object whose keys have texts. -/
def fields (fs : List (String × Json)) : Json := object (fs.map fun f => (some f.1, f.2))

/-- A text, or `null` when there is none. -/
def optional : Option String → Json
  | some s => text s
  | none => null

/-! ## Strings -/

/-- A number below 256 in two hexadecimal digits. -/
def hexByte (n : Nat) : List Char := [Nat.digitChar (n / 16), Nat.digitChar (n % 16)]

/-- The written form of one character inside a string. -/
def escape (c : Char) : List Char :=
  if c = '"' then ['\\', '"']
  else if c = '\\' then ['\\', '\\']
  else if c = '\n' then ['\\', 'n']
  else if c = '\r' then ['\\', 'r']
  else if c = '\t' then ['\\', 't']
  else if c.toNat = 8 then ['\\', 'b']
  else if c.toNat = 12 then ['\\', 'f']
  else if c.toNat < 0x20 then ['\\', 'u', '0', '0'] ++ hexByte c.toNat
  else [c]

/-- The written form of a string. -/
def writeString (text : Option String) : List Char :=
  '"' :: (text.getD "").toList.flatMap escape ++ ['"']

/-! ## The compact form -/

mutual

/-- The compact form of a document. -/
def compact : Json → List Char
  | null => "null".toList
  | bool true => "true".toList
  | bool false => "false".toList
  | natural n => (Nat.repr n).toList
  | number literal => literal.toList
  | string s => writeString s
  | array items => '[' :: compactItems items ++ [']']
  | object fields => '\x7b' :: compactFields fields ++ ['\x7d']

/-- The items of an array, with commas between them. -/
def compactItems : List Json → List Char
  | [] => []
  | [item] => compact item
  | item :: items => compact item ++ ',' :: compactItems items

/-- The fields of an object, with commas between them. -/
def compactFields : List (Option String × Json) → List Char
  | [] => []
  | [(key, value)] => writeString key ++ ':' :: compact value
  | (key, value) :: fields =>
      writeString key ++ ':' :: (compact value ++ ',' :: compactFields fields)

end

/-! ## The pretty form -/

/-- A new line, `depth` levels deep. -/
def newLine (depth : Nat) : List Char := '\n' :: List.replicate (2 * depth) ' '

mutual

/-- The pretty form of a document that starts `depth` levels deep. -/
def prettyAt (depth : Nat) : Json → List Char
  | null => "null".toList
  | bool true => "true".toList
  | bool false => "false".toList
  | natural n => (Nat.repr n).toList
  | number literal => literal.toList
  | string s => writeString s
  | array [] => ['[', ']']
  | array (item :: items) =>
      '[' :: prettyItems (depth + 1) (item :: items) ++ newLine depth ++ [']']
  | object [] => ['\x7b', '\x7d']
  | object (field :: fields) =>
      '\x7b' :: prettyFields (depth + 1) (field :: fields) ++ newLine depth ++ ['\x7d']

/-- The items of an array, each on a line of its own. -/
def prettyItems (depth : Nat) : List Json → List Char
  | [] => []
  | [item] => newLine depth ++ prettyAt depth item
  | item :: items => newLine depth ++ prettyAt depth item ++ ',' :: prettyItems depth items

/-- The fields of an object, each on a line of its own. -/
def prettyFields (depth : Nat) : List (Option String × Json) → List Char
  | [] => []
  | [(key, value)] => newLine depth ++ writeString key ++ ':' :: ' ' :: prettyAt depth value
  | (key, value) :: fields =>
      newLine depth ++ writeString key ++
        ':' :: ' ' :: (prettyAt depth value ++ ',' :: prettyFields depth fields)

end

/-- The pretty form of a document. -/
def pretty (j : Json) : List Char := prettyAt 0 j

end Json

end Shipment
