import Shipment.Proofs.Json.Grammar

/-!
# The compact form

The compact form of a document is a text of it.  So it is read back, as long as every string in
it has a text and every number is a natural one.
-/

namespace Shipment.Json

variable {j : Json} {js : List Json} {fs : List (String × Json)}

/-- An escaped text stands between quotes as it is. -/
theorem quoted_escape (cs : List Char) : Quoted (cs.flatMap escape) cs := by
  have hcontrol : ∀ n < 0x20, fourHex '0' '0' (Nat.digitChar (n / 16)) (Nat.digitChar (n % 16)) =
      some n ∧ isHighHalf n = false ∧ isLowHalf n = false := by decide
  induction cs with
  | nil => exact .nil
  | cons c cs ih =>
      rw [List.flatMap_cons, escape]
      split
      · subst c
        exact .escaped rfl ih
      split
      · subst c
        exact .escaped rfl ih
      split
      · subst c
        exact .escaped rfl ih
      split
      · subst c
        exact .escaped rfl ih
      split
      · subst c
        exact .escaped rfl ih
      split
      · rename_i hc
        exact .escaped (by rw [← Char.ofNat_toNat c, hc]; rfl) ih
      split
      · rename_i hc
        exact .escaped (by rw [← Char.ofNat_toNat c, hc]; rfl) ih
      split
      · rename_i hc
        obtain ⟨hhex, hhigh, hlow⟩ := hcontrol c.toNat hc
        have h := Quoted.code hhex hhigh hlow ih
        rw [Char.ofNat_toNat] at h
        exact h
      · rename_i hquote hslash _ _ _ _ _ hplain
        exact .plain hquote hslash (Nat.not_lt.mp hplain) ih

theorem spells_text (s : String) : Spells (.value (.text s)) (compact (.text s)) := by
  show Spells _ ('"' :: (s.toList.flatMap escape ++ ['"']))
  exact .text (quoted_escape _)

/-- The items of an array are spelled with commas between them. -/
theorem spells_compactItems (hne : js ≠ [])
    (h : ∀ j ∈ js, Spells (.value j) (compact j)) :
    Spells (.items js) (compactItems js ++ [']']) := by
  induction js with
  | nil => exact absurd rfl hne
  | cons j js ih =>
      obtain ⟨hj, hjs⟩ := List.forall_mem_cons.mp h
      cases js with
      | nil => exact .lastItem hj blanks_nil
      | cons j' js =>
          have hitem := Spells.item hj blanks_nil blanks_nil (ih (by simp) hjs)
          simpa [compactItems] using hitem

theorem spells_array (h : ∀ j ∈ js, Spells (.value j) (compact j)) :
    Spells (.value (.array js)) (compact (.array js)) := by
  cases js with
  | nil => exact .emptyArray blanks_nil
  | cons j js =>
      have hitems := spells_compactItems (by simp) h
      simpa [compact] using Spells.array blanks_nil hitems

theorem spells_compactFields (hne : fs ≠ [])
    (h : ∀ f ∈ fs, Spells (.value f.2) (compact f.2)) :
    Spells (.fields fs) (compactFields (keyed fs) ++ ['\x7d']) := by
  induction fs with
  | nil => exact absurd rfl hne
  | cons f fs ih =>
      obtain ⟨key, j⟩ := f
      obtain ⟨hj, hfs⟩ := List.forall_mem_cons.mp h
      have hfield := Spells.field (quoted_escape key.toList) blanks_nil blanks_nil hj
      cases fs with
      | nil => simpa [compactFields, keyed, writeString] using Spells.lastField hfield blanks_nil
      | cons f' fs =>
          have hnext := Spells.nextField hfield blanks_nil blanks_nil (ih (by simp) hfs)
          simpa [compactFields, keyed, writeString] using hnext

theorem spells_fields (h : ∀ f ∈ fs, Spells (.value f.2) (compact f.2)) :
    Spells (.value (.fields fs)) (compact (.fields fs)) := by
  cases fs with
  | nil => exact .emptyObject blanks_nil
  | cons f fs =>
      have hfields := spells_compactFields (by simp) h
      simpa [compact, fields, keyed] using Spells.object blanks_nil hfields

end Shipment.Json
