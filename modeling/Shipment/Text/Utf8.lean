/-!
# Reading UTF-8

Bytes that are not UTF-8 are read leniently or not at all.  The lenient reading
puts one replacement character in place of each ill-formed piece, where a piece
is the longest start of a character that the bytes hold, or a single byte.  A
byte that breaks off a character is then read as the start of the next one.

Where a text is handed on with a NUL at its end, it must have none inside.
-/

namespace Shipment.Text

/-- The character put in place of ill-formed bytes. -/
def replacement : Char := Char.ofNat 0xFFFD

/-- A character of which some bytes have been read. -/
structure Partial where
  /-- The bits read so far. -/
  bits : Nat
  /-- How many bytes are missing. -/
  missing : Nat
  /-- The least value of the next byte. -/
  low : Nat
  /-- The greatest value of the next byte. -/
  high : Nat

/-- A byte read between two characters: a whole character, the start of a longer
one, or a byte no character starts with. -/
def startOf (b : Nat) : Char ⊕ Option Partial :=
  if b < 0x80 then .inl (Char.ofNat b)
  else if 0xC2 ≤ b ∧ b ≤ 0xDF then .inr (some ⟨b - 0xC0, 1, 0x80, 0xBF⟩)
  else if b = 0xE0 then .inr (some ⟨0, 2, 0xA0, 0xBF⟩)
  else if b = 0xED then .inr (some ⟨0xD, 2, 0x80, 0x9F⟩)
  else if 0xE1 ≤ b ∧ b ≤ 0xEF then .inr (some ⟨b - 0xE0, 2, 0x80, 0xBF⟩)
  else if b = 0xF0 then .inr (some ⟨0, 3, 0x90, 0xBF⟩)
  else if 0xF1 ≤ b ∧ b ≤ 0xF3 then .inr (some ⟨b - 0xF0, 3, 0x80, 0xBF⟩)
  else if b = 0xF4 then .inr (some ⟨4, 3, 0x80, 0x8F⟩)
  else .inr none

/-- Read bytes leniently, with the character begun before them. -/
def decodeFrom : Option Partial → List UInt8 → List Char
  | none, [] => []
  | some _, [] => [replacement]
  | begun, b :: bs =>
      let n := b.toNat
      let restart (lead : List Char) : List Char :=
        match startOf n with
        | .inl c => lead ++ c :: decodeFrom none bs
        | .inr (some p) => lead ++ decodeFrom (some p) bs
        | .inr none => lead ++ replacement :: decodeFrom none bs
      match begun with
      | none => restart []
      | some p =>
          if p.low ≤ n ∧ n ≤ p.high then
            let bits := p.bits * 64 + (n - 0x80)
            if p.missing ≤ 1 then Char.ofNat bits :: decodeFrom none bs
            else decodeFrom (some ⟨bits, p.missing - 1, 0x80, 0xBF⟩) bs
          else restart [replacement]

/-- The lenient reading of bytes. -/
def decodeLossy (bytes : ByteArray) : String :=
  String.ofList (decodeFrom none bytes.toList)

/-- The reading of bytes that are UTF-8. -/
def decode? (bytes : ByteArray) : Option String := String.fromUTF8? bytes

/-- The bytes of a string. -/
def encode (s : String) : ByteArray := s.toUTF8

/-- Whether a text has the character NUL. -/
def hasNul (s : String) : Bool := s.toList.contains '\x00'

example : decodeFrom none [0xC3, 0xA9] = ['é'] := by decide +kernel
example : decodeFrom none [0x61, 0xFF, 0x62] = ['a', replacement, 'b'] := by decide +kernel
example : decodeFrom none [0xE2, 0x82, 0x41] = [replacement, 'A'] := by decide +kernel

end Shipment.Text
