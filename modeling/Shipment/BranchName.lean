import Shipment.CivilTime
import Shipment.Slug

/-!
# Branch names

A generated name is a slug, the time in digits and four random characters, with
hyphens between them.  A `Namer` holds the time and the random words to draw
from.  A draw takes words until one falls into the zone that gives every
character the same chance.  When the words run out, every draw is the first
character.

A name chosen by the user is checked for characters no ref name may have.
-/

namespace Shipment

namespace BranchName

/-- Characters no ref name may have, blanks and controls apart. -/
def forbiddenMarks : List Char := ['~', '^', ':', '?', '*', '[', '\\']

/-- Whether a name is empty or has a character no ref name may have. -/
def hasForbiddenChars (name : String) : Bool :=
  name.isEmpty ||
    name.toList.any fun c => Text.isBlank c || Text.isControl c || forbiddenMarks.contains c

/-- The characters a name ends in. -/
def suffixAlphabet : List Char := "abcdefghijklmnopqrstuvwxyz0123456789".toList

/-- How many of them there are at the end of a name. -/
def suffixLength : Nat := 4

/-- Draw an index below 36.  A word is scaled to the range and its low half says
whether it is in the zone. -/
def drawIndex : List UInt64 → Nat × List UInt64
  | [] => (0, [])
  | w :: ws =>
      let scaled := w.toNat * 36
      if scaled % 2 ^ 64 ≤ 36 * 2 ^ 58 - 1 then (scaled / 2 ^ 64, ws) else drawIndex ws

/-- Draw a number of characters. -/
def drawSuffix : Nat → List UInt64 → List Char × List UInt64
  | 0, ws => ([], ws)
  | n + 1, ws =>
      let first := drawIndex ws
      let rest := drawSuffix n first.2
      (suffixAlphabet.getD first.1 'a' :: rest.1, rest.2)

end BranchName

/-- What generated names are made from. -/
structure Namer where
  /-- The time. -/
  now : Instant
  /-- Random words that were not drawn yet. -/
  words : List UInt64
deriving DecidableEq, Repr

namespace Namer

/-- A new name for a description, and the namer after it. -/
def generate (description : String) (n : Namer) : String × Namer :=
  let suffix := BranchName.drawSuffix BranchName.suffixLength n.words
  (Slug.ofDescription description ++ "-" ++ (CivilTime.ofInstant n.now).digits ++ "-" ++
      String.ofList suffix.1,
    { n with words := suffix.2 })

end Namer

end Shipment
