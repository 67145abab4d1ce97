import Shipment.Text.Utf8

/-!
# Encoded text is read back

The lenient reading and the strict one both give back the text that was encoded.  For the
lenient one, `decodeFrom_encodeChar` reads the bytes of one character.  The character is one of
four kinds, by how many bytes it takes, and for each kind the first byte says what the next ones
may be.
-/

namespace Shipment.Text

variable {c : Char} {b : UInt8} {bs : List UInt8} {p : Partial}

/-! ## Bytes as a list -/

theorem toList_loop (bytes : ByteArray) (i : Nat) (acc : List UInt8) :
    ByteArray.toList.loop bytes i acc = acc.reverse ++ bytes.data.toList.drop i := by
  fun_induction ByteArray.toList.loop bytes i acc with
  | case1 i acc h ih =>
      have hi : i < bytes.data.toList.length := by simpa using h
      rw [ih, List.drop_eq_getElem_cons hi]
      simp [ByteArray.get!, h]
  | case2 i acc h =>
      rw [List.drop_eq_nil_of_le (by simpa using Nat.le_of_not_lt h), List.append_nil]

/-- The bytes of a string are those of its characters. -/
theorem toList_encode (s : String) :
    (encode s).toList = s.toList.flatMap String.utf8EncodeChar := by
  have hbytes : encode s = (s.toList.flatMap String.utf8EncodeChar).toByteArray := by
    rw [← String.ofList_toList (s := s), String.toList_ofList]
    rfl
  rw [hbytes, ByteArray.toList, toList_loop, List.data_toByteArray]
  simp

/-! ## One byte -/

theorem toNat_ofNat {n : Nat} (h : n < 256) : (UInt8.ofNat n).toNat = n := by
  simpa using h

theorem decodeFrom_whole (h : startOf b.toNat = .inl c) :
    decodeFrom none (b :: bs) = c :: decodeFrom none bs := by
  simp [decodeFrom, h]

theorem decodeFrom_begin (h : startOf b.toNat = .inr (some p)) :
    decodeFrom none (b :: bs) = decodeFrom (some p) bs := by
  simp [decodeFrom, h]

variable {bits missing low high : Nat}

/-- A byte in the middle of a character gives six bits. -/
theorem decodeFrom_middle (n : Nat) (hlow : low ≤ n % 64 + 128) (hhigh : n % 64 + 128 ≤ high) :
    decodeFrom (some ⟨bits, missing + 2, low, high⟩) (UInt8.ofNat (n % 64 + 128) :: bs) =
      decodeFrom (some ⟨bits * 64 + n % 64, missing + 1, 0x80, 0xBF⟩) bs := by
  rw [decodeFrom, toNat_ofNat (show n % 64 + 128 < 256 by omega)]
  simp [hlow, hhigh]

/-- The last byte of a character gives six bits too. -/
theorem decodeFrom_last (n : Nat) (hlow : low ≤ n % 64 + 128) (hhigh : n % 64 + 128 ≤ high) :
    decodeFrom (some ⟨bits, 1, low, high⟩) (UInt8.ofNat (n % 64 + 128) :: bs) =
      Char.ofNat (bits * 64 + n % 64) :: decodeFrom none bs := by
  rw [decodeFrom, toNat_ofNat (show n % 64 + 128 < 256 by omega)]
  simp [hlow, hhigh]

/-! ## One character -/

/-- The first of two bytes. -/
theorem startOf_two {n : Nat} (hn : 0x80 ≤ n) (hn' : n < 0x800) :
    startOf (n / 64 % 32 + 192) = .inr (some ⟨n / 64, 1, 0x80, 0xBF⟩) := by
  rw [show n / 64 % 32 = n / 64 by omega, startOf, if_neg (by omega), if_pos (by omega)]
  simp

/-- The first of three bytes.  At the ends of its range it limits the second byte. -/
theorem startOf_three {n : Nat} (hn : 0x800 ≤ n) (hn' : n < 0x10000)
    (hvalid : n < 0xD800 ∨ 0xDFFF < n) : ∃ low high,
      startOf (n / 4096 % 16 + 224) = .inr (some ⟨n / 4096, 2, low, high⟩) ∧
        low ≤ n / 64 % 64 + 128 ∧ n / 64 % 64 + 128 ≤ high := by
  rw [show n / 4096 % 16 = n / 4096 by omega]
  by_cases h₀ : n / 4096 = 0
  · exact ⟨0xA0, 0xBF, by rw [h₀]; rfl, by omega, by omega⟩
  by_cases h₁₃ : n / 4096 = 13
  · exact ⟨0x80, 0x9F, by rw [h₁₃]; rfl, by omega, by omega⟩
  refine ⟨0x80, 0xBF, ?_, by omega, by omega⟩
  rw [startOf, if_neg (by omega), if_neg (by omega), if_neg (by omega), if_neg (by omega),
    if_pos (by omega)]
  simp

/-- The first of four bytes. -/
theorem startOf_four {n : Nat} (hn : 0x10000 ≤ n) (hn' : n < 0x110000) : ∃ low high,
    startOf (n / 262144 % 8 + 240) = .inr (some ⟨n / 262144, 3, low, high⟩) ∧
      low ≤ n / 4096 % 64 + 128 ∧ n / 4096 % 64 + 128 ≤ high := by
  rw [show n / 262144 % 8 = n / 262144 by omega]
  by_cases h₀ : n / 262144 = 0
  · exact ⟨0x90, 0xBF, by rw [h₀]; rfl, by omega, by omega⟩
  by_cases h₄ : n / 262144 = 4
  · exact ⟨0x80, 0x8F, by rw [h₄]; rfl, by omega, by omega⟩
  refine ⟨0x80, 0xBF, ?_, by omega, by omega⟩
  rw [startOf, if_neg (by omega), if_neg (by omega), if_neg (by omega), if_neg (by omega),
    if_neg (by omega), if_neg (by omega), if_pos (by omega)]
  simp

/-- A character is decoded from its own bytes, whatever bytes are behind them. -/
theorem decodeFrom_encodeChar (c : Char) (bs : List UInt8) :
    decodeFrom none (String.utf8EncodeChar c ++ bs) = c :: decodeFrom none bs := by
  have hc : Char.ofNat c.val.toNat = c := Char.ofNat_toNat c
  have hvalid : c.val.toNat < 0xD800 ∨ 0xDFFF < c.val.toNat ∧ c.val.toNat < 0x110000 := c.valid
  rw [String.utf8EncodeChar]
  generalize c.val.toNat = n at hc hvalid
  -- The four kinds of characters, by how many bytes they take.
  split
  · refine decodeFrom_whole ?_
    rw [toNat_ofNat (by omega), startOf, if_pos (by omega), hc]
  split
  · have hbits : n / 64 * 64 + n % 64 = n := by omega
    refine (decodeFrom_begin (p := ⟨n / 64, 1, 0x80, 0xBF⟩) ?_).trans
      ((decodeFrom_last n (by omega) (by omega)).trans ?_)
    · rw [toNat_ofNat (by omega)]
      exact startOf_two (by omega) (by omega)
    · rw [hbits, hc]
      rfl
  split
  · have hbits : (n / 4096 * 64 + n / 64 % 64) * 64 + n % 64 = n := by omega
    obtain ⟨low, high, hstart, hlow, hhigh⟩ := startOf_three (n := n) (by omega) (by omega)
      (hvalid.imp_right And.left)
    refine (decodeFrom_begin (p := ⟨n / 4096, 2, low, high⟩) ?_).trans
      ((decodeFrom_middle (n / 64) hlow hhigh).trans
      ((decodeFrom_last n (by omega) (by omega)).trans ?_))
    · rw [toNat_ofNat (by omega)]
      exact hstart
    · rw [hbits, hc]
      rfl
  · have hbits : ((n / 262144 * 64 + n / 4096 % 64) * 64 + n / 64 % 64) * 64 + n % 64 = n := by
      omega
    obtain ⟨low, high, hstart, hlow, hhigh⟩ := startOf_four (n := n) (by omega) (by omega)
    refine (decodeFrom_begin (p := ⟨n / 262144, 3, low, high⟩) ?_).trans
      ((decodeFrom_middle (n / 4096) hlow hhigh).trans
      ((decodeFrom_middle (n / 64) (by omega) (by omega)).trans
      ((decodeFrom_last n (by omega) (by omega)).trans ?_)))
    · rw [toNat_ofNat (by omega)]
      exact hstart
    · rw [hbits, hc]
      rfl

/-! ## Texts -/

/-- The lenient reading gives back what was encoded. -/
@[simp] theorem decodeLossy_encode (s : String) : decodeLossy (encode s) = s := by
  have hchars (cs : List Char) : decodeFrom none (cs.flatMap String.utf8EncodeChar) = cs := by
    induction cs with
    | nil => rfl
    | cons c cs ih => rw [List.flatMap_cons, decodeFrom_encodeChar, ih]
  rw [decodeLossy, toList_encode, hchars, String.ofList_toList]

/-- The strict reading gives back what was encoded. -/
@[simp] theorem decode?_encode (s : String) : decode? (encode s) = some s := by
  have hvalid : (encode s).IsValidUTF8 := s.isValidUTF8
  rw [decode?, String.fromUTF8?, dif_pos hvalid]
  rfl

end Shipment.Text
