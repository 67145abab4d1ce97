import Mathlib.Data.List.Basic
import Shipment.Proofs.Json.Compact

/-!
# Both written forms

A document is well formed when all its strings have texts, all its numbers are natural ones, and
no object has a key twice.  Both written forms of a well-formed document are texts of it.  So both
are read as the same document.
-/

namespace Shipment.Json

variable {j : Json} {js : List Json} {fs : List (String × Json)} {b : List Char} {depth : Nat}

/-- A document without halves of characters, without signs, fractions and exponents, and without
a key that an object has twice. -/
inductive WellFormed : Json → Prop where
  | null : WellFormed .null
  | bool (b : Bool) : WellFormed (.bool b)
  | natural (n : Nat) : WellFormed (.natural n)
  | text (s : String) : WellFormed (.text s)
  | array {js : List Json} : (∀ j ∈ js, WellFormed j) → WellFormed (.array js)
  | fields {fs : List (String × Json)} : (fs.map Prod.fst).Nodup →
      (∀ f ∈ fs, WellFormed f.2) → WellFormed (.fields fs)

theorem WellFormed.optional (s : Option String) : WellFormed (.optional s) := by
  cases s with
  | none => exact .null
  | some s => exact .text s

/-! ## The pretty form -/

theorem blanks_newLine (depth : Nat) : Blanks (newLine depth) := by
  intro c hc
  rcases List.mem_cons.mp hc with rfl | hc
  · exact .inr (.inr (.inl rfl))
  · exact .inl (List.eq_of_mem_replicate hc)

theorem blanks_space : Blanks [' '] := by
  intro c hc
  exact .inl (List.mem_singleton.mp hc)

/-- Each item has its new line in front of it. -/
theorem spells_prettyItems (hb : Blanks b) (hne : js ≠ [])
    (h : ∀ j ∈ js, Spells (.value j) (prettyAt depth j)) :
    ∃ cs, prettyItems depth js ++ (b ++ [']']) = newLine depth ++ cs ∧ Spells (.items js) cs := by
  induction js with
  | nil => exact absurd rfl hne
  | cons j js ih =>
      obtain ⟨hj, hjs⟩ := List.forall_mem_cons.mp h
      cases js with
      | nil => exact ⟨_, by simp [prettyItems], .lastItem hj hb⟩
      | cons j' js =>
          -- The new line of the next item is the blanks behind the comma.
          obtain ⟨cs, hcs, hitems⟩ := ih (List.cons_ne_nil j' js) hjs
          have hnext := Spells.item hj blanks_nil (blanks_newLine depth) hitems
          exact ⟨_, by simp [prettyItems, ← hcs], hnext⟩

theorem spells_prettyArray (h : ∀ j ∈ js, ∀ depth, Spells (.value j) (prettyAt depth j))
    (depth : Nat) : Spells (.value (.array js)) (prettyAt depth (.array js)) := by
  cases js with
  | nil => exact .emptyArray blanks_nil
  | cons j js =>
      obtain ⟨cs, hcs, hitems⟩ := spells_prettyItems (blanks_newLine depth)
        (List.cons_ne_nil j js) fun j hj => h j hj (depth + 1)
      have harray := Spells.array (blanks_newLine (depth + 1)) hitems
      rw [← hcs] at harray
      simpa [prettyAt] using harray

/-- Each field has its new line in front of it, and a space behind the colon. -/
theorem spells_prettyFields (hb : Blanks b) (hne : fs ≠ [])
    (h : ∀ f ∈ fs, Spells (.value f.2) (prettyAt depth f.2)) :
    ∃ cs, prettyFields depth (keyed fs) ++ (b ++ ['\x7d']) = newLine depth ++ cs ∧
      Spells (.fields fs) cs := by
  induction fs with
  | nil => exact absurd rfl hne
  | cons f fs ih =>
      obtain ⟨key, j⟩ := f
      obtain ⟨hj, hfs⟩ := List.forall_mem_cons.mp h
      have hfield := Spells.field (quoted_escape key.toList) blanks_nil blanks_space hj
      cases fs with
      | nil => exact ⟨_, by simp [prettyFields, keyed, writeString], .lastField hfield hb⟩
      | cons f' fs =>
          obtain ⟨cs, hcs, hfields⟩ := ih (List.cons_ne_nil f' fs) hfs
          have hnext := Spells.nextField hfield blanks_nil (blanks_newLine depth) hfields
          refine ⟨_, ?_, hnext⟩
          simp only [keyed] at hcs
          simp [prettyFields, keyed, writeString, ← hcs]

theorem spells_prettyObject (h : ∀ f ∈ fs, ∀ depth, Spells (.value f.2) (prettyAt depth f.2))
    (depth : Nat) : Spells (.value (.fields fs)) (prettyAt depth (.fields fs)) := by
  cases fs with
  | nil => exact .emptyObject blanks_nil
  | cons f fs =>
      obtain ⟨cs, hcs, hfields⟩ := spells_prettyFields (blanks_newLine depth)
        (List.cons_ne_nil f fs) fun f hf => h f hf (depth + 1)
      have hobject := Spells.object (blanks_newLine (depth + 1)) hfields
      rw [← hcs] at hobject
      simpa [prettyAt, fields, keyed] using hobject

/-! ## Reading back -/

namespace WellFormed

/-- A well-formed document is spelled by its lines at any depth. -/
theorem spells_pretty (h : WellFormed j) (depth : Nat) : Spells (.value j) (prettyAt depth j) := by
  induction h generalizing depth with
  | null => exact .null
  | bool b =>
      cases b with
      | true => exact .true
      | false => exact .false
  | natural n => exact .natural n
  | text s => exact spells_text s
  | array _ ih => exact spells_prettyArray ih depth
  | fields _ _ ih => exact spells_prettyObject ih depth

theorem spells_compact (h : WellFormed j) : Spells (.value j) (compact j) := by
  induction h with
  | null => exact .null
  | bool b =>
      cases b with
      | true => exact .true
      | false => exact .false
  | natural n => exact .natural n
  | text s => exact spells_text s
  | array _ ih => exact spells_array ih
  | fields _ _ ih => exact spells_fields ih

/-- The pretty form is read back, with blanks behind it. -/
theorem read_pretty (h : WellFormed j) (hb : Blanks b) : read? (j.pretty ++ b) = some j :=
  read_of_spells (h.spells_pretty 0) blanks_nil hb

/-- So is the compact form. -/
theorem read_compact (h : WellFormed j) (hb : Blanks b) : read? (j.compact ++ b) = some j :=
  read_of_spells h.spells_compact blanks_nil hb

end WellFormed

/-! ## Equal documents -/

theorem text_inj {s s' : String} : text s = text s' ↔ s = s' := by simp [text]

theorem optional_inj {s s' : Option String} : optional s = optional s' ↔ s = s' := by
  cases s <;> cases s' <;> simp [optional, text]

theorem fields_inj {fs fs' : List (String × Json)} : fields fs = fields fs' ↔ fs = fs' := by
  have hpair : Function.Injective fun f : String × Json => (some f.1, f.2) := by
    rintro ⟨key, j⟩ ⟨key', j'⟩ h
    simpa using h
  rw [fields, fields, object.injEq, (List.map_injective_iff.mpr hpair).eq_iff]

end Shipment.Json
