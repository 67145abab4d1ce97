import Shipment.BranchName
import Shipment.Revision
import Shipment.Text.Lines

/-!
# The characters of generated names

A generated name is made of lower-case letters, digits and hyphens.  Only the sign of
a year outside the years 0 to 9999 adds another character, the plus sign.
-/

namespace Shipment

namespace Slug

/-- The characters of the words of a slug. -/
def isSlugChar (c : Char) : Bool := ('a' ≤ c && c ≤ 'z') || Text.isAsciiDigit c

/-- A character that a slug keeps is in lower case then. -/
theorem isSlugChar_lower {c : Char} (h : isWordChar c = true) : isSlugChar (lower c) = true := by
  have hupper : ∀ n < 91, 65 ≤ n → isSlugChar (Char.ofNat (n + 32)) = true := by decide
  unfold lower
  by_cases hc : ('A' ≤ c && c ≤ 'Z') = true
  · rw [if_pos hc]
    rw [Bool.and_eq_true, decide_eq_true_eq, decide_eq_true_eq] at hc
    exact hupper c.toNat (Nat.lt_succ_of_le hc.2) hc.1
  · rw [if_neg hc]
    simp only [isWordChar, Text.isAsciiLetter, Bool.or_eq_true] at h
    simp only [isSlugChar, Bool.or_eq_true]
    rcases h with (h | h) | h
    · exact .inl h
    · exact absurd h hc
    · exact .inr h

theorem mem_hyphenate {cs : List Char} {begun gap : Bool} {c : Char}
    (h : c ∈ hyphenate begun gap cs) : c = '-' ∨ isSlugChar c = true := by
  induction cs generalizing begun gap with
  | nil => cases h
  | cons d cs ih =>
      unfold hyphenate at h
      split at h
      · rename_i hd
        split at h
        · rcases List.mem_cons.mp h with rfl | h
          · exact .inl rfl
          · rcases List.mem_cons.mp h with rfl | h
            · exact .inr (isSlugChar_lower hd)
            · exact ih h
        · rcases List.mem_cons.mp h with rfl | h
          · exact .inr (isSlugChar_lower hd)
          · exact ih h
      · exact ih h

theorem mem_trimHyphens {cs : List Char} {c : Char} (h : c ∈ trimHyphens cs) : c ∈ cs := by
  unfold trimHyphens at h
  have h₁ := (List.dropWhile_sublist _).subset (List.mem_reverse.mp h)
  exact (List.dropWhile_sublist _).subset (List.mem_reverse.mp h₁)

theorem mem_ofSubject {cs : List Char} {c : Char} (h : c ∈ ofSubject cs) :
    c = '-' ∨ isSlugChar c = true := by
  have hfallback : fallback.all isSlugChar = true := by decide
  unfold ofSubject at h
  simp only at h
  split at h
  · exact .inr (List.all_eq_true.mp hfallback c h)
  · exact mem_hyphenate (List.mem_of_mem_take (mem_trimHyphens h))

end Slug

namespace Text

theorem isAsciiDigit_of_isDigit {c : Char} (h : c.isDigit = true) : isAsciiDigit c = true := by
  rw [Char.isDigit_iff_toNat] at h
  rw [isAsciiDigit, Bool.and_eq_true, decide_eq_true_eq, decide_eq_true_eq]
  exact h

theorem mem_repr {n : Nat} {c : Char} (h : c ∈ n.repr.toList) : isAsciiDigit c = true := by
  rw [Nat.toList_repr] at h
  exact isAsciiDigit_of_isDigit (Nat.isDigit_of_mem_toDigits (by decide) (by decide) h)

theorem toList_pushn (s : String) (c : Char) (n : Nat) :
    (s.pushn c n).toList = s.toList ++ List.replicate n c := by
  rw [String.pushn_eq_repeat_push]
  induction n with
  | zero => exact (List.append_nil _).symm
  | succ n ih =>
      rw [Nat.repeat, String.toList_push, ih, List.append_assoc, List.replicate_succ']

theorem mem_padded {width n : Nat} {c : Char} (h : c ∈ (padded width n).toList) :
    isAsciiDigit c = true := by
  unfold padded at h
  rw [String.toList_append, toList_pushn] at h
  rcases List.mem_append.mp h with h | h
  · rcases List.mem_append.mp h with h | h
    · cases h
    · rw [List.eq_of_mem_replicate h]
      decide
  · exact mem_repr h

end Text

namespace BranchName

theorem mem_drawSuffix {count : Nat} {words : List UInt64} {c : Char}
    (h : c ∈ (drawSuffix count words).1) : Slug.isSlugChar c = true := by
  have halphabet : suffixAlphabet.all Slug.isSlugChar = true := by decide +kernel
  induction count generalizing words with
  | zero => cases h
  | succ count ih =>
      rcases List.mem_cons.mp h with rfl | h
      · rw [List.getD_eq_getElem?_getD]
        cases hi : suffixAlphabet[(drawIndex words).1]? with
        | none => rfl
        | some d => exact List.all_eq_true.mp halphabet d (List.mem_of_getElem? hi)
      · exact ih h

end BranchName

namespace Namer

/-- The characters of a generated name. -/
def isNameChar (c : Char) : Bool := Slug.isSlugChar c || c == '-' || c == '+'

theorem isNameChar_of_isSlugChar {c : Char} (h : Slug.isSlugChar c = true) :
    isNameChar c = true := by
  rw [isNameChar, h]
  rfl

theorem isNameChar_of_isAsciiDigit {c : Char} (h : Text.isAsciiDigit c = true) :
    isNameChar c = true := by
  refine isNameChar_of_isSlugChar ?_
  rw [Slug.isSlugChar, h, Bool.or_true]

theorem mem_yearText {year : Int} {c : Char} (h : c ∈ (CivilTime.yearText year).toList) :
    isNameChar c = true := by
  unfold CivilTime.yearText at h
  split at h
  · exact isNameChar_of_isAsciiDigit (Text.mem_padded h)
  · rw [String.toList_append] at h
    rcases List.mem_append.mp h with h | h
    · split at h
      · cases List.mem_singleton.mp h
        rfl
      · cases List.mem_singleton.mp h
        rfl
    · exact isNameChar_of_isAsciiDigit (Text.mem_padded h)

theorem mem_digits {t : CivilTime} {c : Char} (h : c ∈ t.digits.toList) :
    isNameChar c = true := by
  simp only [CivilTime.digits, String.toList_append, List.mem_append] at h
  rcases h with ((((h | h) | h) | h) | h) | h
  · exact mem_yearText h
  all_goals exact isNameChar_of_isAsciiDigit (Text.mem_padded h)

/-- A generated name has only the characters of its slug, of its digits and of its suffix. -/
theorem mem_generate {description : String} {n : Namer} {c : Char}
    (h : c ∈ (n.generate description).1.toList) : isNameChar c = true := by
  simp only [generate, String.toList_append, List.mem_append, String.toList_ofList] at h
  have hyphen {c : Char} (h : c ∈ "-".toList) : isNameChar c = true := by
    cases List.mem_singleton.mp h
    rfl
  rcases h with (((h | h) | h) | h) | h
  · rw [Slug.ofDescription, String.toList_ofList] at h
    rcases Slug.mem_ofSubject h with rfl | h
    · rfl
    · exact isNameChar_of_isSlugChar h
  · exact hyphen h
  · exact mem_digits h
  · exact hyphen h
  · exact isNameChar_of_isSlugChar (BranchName.mem_drawSuffix h)

/-- A generated name has a hyphen. -/
theorem hyphen_mem_generate (description : String) (n : Namer) :
    '-' ∈ (n.generate description).1.toList := by
  simp [generate, String.toList_append]

end Namer

end Shipment
