import Shipment.Intent

/-!
# Slugs

A slug is the part of a branch name that tells what the branch is about.  It is
made from the first line of a description.  A header is dropped, letters and
digits of ASCII are lower-cased, and each stretch of other characters between
two of them becomes one hyphen.  At most forty characters are kept, without
hyphens at the ends.  A slug with nothing left is `change`.

The header is taken more loosely than the grammar of `Intent` takes it.  Any
ASCII letters count as a type, and a scope may be empty or blank.
-/

namespace Shipment.Slug

/-- The characters a slug keeps. -/
def isWordChar (c : Char) : Bool := Text.isAsciiLetter c || Text.isAsciiDigit c

/-- What follows a scope of any content, if there is one. -/
def afterAnyScope? : List Char → Option (List Char)
  | '(' :: cs =>
      match cs.dropWhile fun c => c != '(' && c != ')' with
      | ')' :: rest => some rest
      | _ => none
  | cs => some cs

/-- What follows a header of any type and the blanks behind it. -/
def afterAnyHeader? (cs : List Char) : Option (List Char) :=
  if (cs.takeWhile Text.isAsciiLetter).isEmpty then none
  else do
    let cs ← afterAnyScope? (cs.dropWhile Text.isAsciiLetter)
    let cs ← Intent.afterColon? (Intent.afterMark cs)
    return Text.trimStart cs

/-- A text without its header. -/
def dropHeader (cs : List Char) : List Char := (afterAnyHeader? cs).getD cs

/-- The lower case of an ASCII letter, and any other character as it is. -/
def lower (c : Char) : Char := if 'A' ≤ c && c ≤ 'Z' then Char.ofNat (c.toNat + 32) else c

/-- The words of a text with hyphens between them.  `begun` says that a word
came before, and `gap` that other characters came since. -/
def hyphenate (begun gap : Bool) : List Char → List Char
  | [] => []
  | c :: cs =>
      if isWordChar c then
        if begun && gap then '-' :: lower c :: hyphenate true false cs
        else lower c :: hyphenate true false cs
      else hyphenate begun true cs

/-- Drop the hyphens at both ends. -/
def trimHyphens (cs : List Char) : List Char :=
  ((cs.dropWhile (· == '-')).reverse.dropWhile (· == '-')).reverse

/-- The greatest length of a slug. -/
def maxLength : Nat := 40

/-- The slug of a description with nothing to keep. -/
def fallback : List Char := "change".toList

/-- A slug from the text behind the header. -/
def ofSubject (cs : List Char) : List Char :=
  let slug := trimHyphens ((hyphenate false false cs).take maxLength)
  if slug.isEmpty then fallback else slug

/-- The slug of a description. -/
def ofDescription (description : String) : String :=
  String.ofList (ofSubject (dropHeader (Text.firstLine description.toList)))

example : ofDescription "feat(ui): Add  the Widget!" = "add-the-widget" := by decide +kernel
example : ofDescription "--" = "change" := by decide +kernel

end Shipment.Slug
