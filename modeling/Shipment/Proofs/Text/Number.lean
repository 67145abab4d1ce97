import Mathlib.Algebra.Ring.Nat
import Shipment.Proofs.BranchName

/-!
# Rows of digits

`ofDecimal` is the number that a row of digits stands for.  It gives a number back from its
written form, padded or not.  So two numbers with the same padded form are equal, and a number
below ten to the width takes exactly the width.
-/

namespace Shipment.Text

variable {width m n : Nat} {cs : List Char}

/-- The number that a row of digits stands for. -/
def ofDecimal (cs : List Char) : Nat := Nat.ofDigitChars 10 cs 0

theorem ofDecimal_repr (n : Nat) : ofDecimal n.repr.toList = n := by
  rw [ofDecimal, Nat.toList_repr, Nat.ofDigitChars_ten_toDigits]

/-- A number above zero starts with no zero. -/
theorem repr_eq_cons (hn : 0 < n) : ∃ c cs, n.repr.toList = c :: cs ∧ c ≠ '0' := by
  rw [Nat.toList_repr]
  induction n using Nat.strongRecOn with
  | _ n ih =>
      rcases Nat.lt_or_ge n 10 with hlt | hge
      · refine ⟨_, [], Nat.toDigits_of_lt_base hlt, ?_⟩
        rw [ne_eq, Nat.digitChar_eq_zero]
        omega
      · obtain ⟨c, cs, hcs, hc⟩ := ih (n / 10) (by omega) (by omega)
        exact ⟨c, cs ++ [Nat.digitChar (n % 10)],
          by rw [Nat.toDigits_of_base_le (by decide) hge, hcs]; rfl, hc⟩

theorem toList_padded (width n : Nat) : (padded width n).toList =
    List.replicate (width - n.repr.length) '0' ++ n.repr.toList := by
  rw [padded, String.toList_append, toList_pushn]
  rfl

theorem ofDecimal_padded (width n : Nat) : ofDecimal (padded width n).toList = n := by
  rw [toList_padded, ofDecimal, Nat.ofDigitChars_append, Nat.ofDigitChars_replicate_zero,
    Nat.mul_zero]
  exact ofDecimal_repr n

/-- A padded form belongs to one number. -/
theorem padded_inj (h : (padded width m).toList = (padded width n).toList) : m = n := by
  rw [← ofDecimal_padded width m, h, ofDecimal_padded]

theorem length_toList_padded (hwidth : 0 < width) (hn : n < 10 ^ width) :
    (padded width n).toList.length = width := by
  have hle : n.repr.length ≤ width := by
    rw [← String.length_toList, Nat.toList_repr]
    exact (Nat.length_toDigits_le_iff (by decide) hwidth).mpr hn
  rw [toList_padded, List.length_append, List.length_replicate, String.length_toList]
  omega

end Shipment.Text
