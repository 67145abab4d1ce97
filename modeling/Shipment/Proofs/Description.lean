import Mathlib.Data.List.DropRight
import Shipment.Intent
import Shipment.Review

/-!
# What an accepted description is

An accepted description is a trimmed text.  So the body of a request made from it is the
description, and the title is its trimmed first line, for no line before that is blank.
-/

namespace Shipment

namespace Text

variable {cs : List Char} {c : Char}

theorem trimEnd_prefix (cs : List Char) : trimEnd cs <+: cs := List.rdropWhile_prefix isBlank cs

/-- A trimmed text does not start with a blank. -/
theorem isBlank_head_trim (h : (trim cs).head? = some c) : isBlank c = false := by
  obtain ⟨rest, hrest⟩ := trimEnd_prefix (trimStart cs)
  have hs := List.head?_dropWhile_not isBlank cs
  rw [show cs.dropWhile isBlank = trim cs ++ rest from hrest.symm, List.head?_append, h] at hs
  exact hs

theorem trimStart_cons (hc : isBlank c = false) : trimStart (c :: cs) = c :: cs := by
  simp [trimStart, hc]

theorem trimStart_trim : trimStart (trim cs) = trim cs := by
  cases h : trim cs with
  | nil => rfl
  | cons c l => exact trimStart_cons (isBlank_head_trim (by rw [h]; rfl))

theorem trim_trim : trim (trim cs) = trim cs := by
  show trimEnd (trimStart (trim cs)) = trim cs
  rw [trimStart_trim]
  exact List.rdropWhile_idempotent isBlank (trimStart cs)

@[simp] theorem trimmed_trimmed (s : String) : trimmed (trimmed s) = trimmed s := by
  simp only [trimmed, String.toList_ofList, trim_trim]

/-- A line that starts with no blank is not empty when it is trimmed. -/
theorem isEmpty_trim_cons (hc : isBlank c = false) : (trim (c :: cs)).isEmpty = false := by
  show (trimEnd (trimStart (c :: cs))).isEmpty = false
  rw [trimStart_cons hc, List.isEmpty_eq_false_iff]
  intro h
  have hall := List.rdropWhile_eq_nil_iff.mp h c List.mem_cons_self
  rw [hc] at hall
  cases hall

/-- A text that starts with no blank starts its first line with the same character. -/
theorem lines_cons (hc : isBlank c = false) (cs : List Char) :
    ∃ l ls, lines (c :: cs) = (c :: l) :: ls := by
  have hn : c ≠ '\n' := by
    rintro rfl
    revert hc
    decide
  have hr : c ≠ '\r' := by
    rintro rfl
    revert hc
    decide
  rw [lines.eq_4 c cs hn fun _ h => absurd h hr]
  cases lines cs with
  | nil => exact ⟨[], [], rfl⟩
  | cons l ls => exact ⟨l, ls, rfl⟩

/-- The first line of a trimmed text is not blank, unless the text is empty. -/
theorem find?_lines_trim :
    (((lines (trim cs)).map trim).find? fun l => !l.isEmpty).getD [] =
      trim (firstLine (trim cs)) := by
  cases h : trim cs with
  | nil => rfl
  | cons c l =>
      have hc : isBlank c = false := isBlank_head_trim (by rw [h]; rfl)
      obtain ⟨first, rest, hl⟩ := lines_cons hc l
      simp [hl, firstLine, isEmpty_trim_cons hc]

end Text

namespace Description

open Text

variable {raw : String} {force : Bool}

theorem accept_eq_error {e : Failure} :
    accept raw force = .error e ↔ validate (trimmed raw) force = .error e := by
  show (validate (trimmed raw) force >>= fun verdict => pure _) = _ ↔ _
  cases validate (trimmed raw) force with
  | ok verdict => exact ⟨nofun, nofun⟩
  | error e' => exact ⟨fun h => by cases h; rfl, fun h => by cases h; rfl⟩

/-- An accepted description is trimmed. -/
theorem text_of_accept {d : Description} {verdict : Verdict}
    (h : accept raw force = .ok (d, verdict)) : d.text = trimmed raw := by
  change (validate (trimmed raw) force >>= fun verdict => pure _) = _ at h
  cases hv : validate (trimmed raw) force with
  | ok verdict =>
      rw [hv] at h
      cases h
      rfl
  | error e =>
      rw [hv] at h
      cases h

end Description

namespace RequestDraft

open Text

/-- The title made from a trimmed text is its first line, trimmed. -/
theorem titleOf_trimmed (s : String) :
    titleOf (trimmed s) = trimmed (String.ofList (firstLine (trimmed s).toList)) := by
  simp only [titleOf, trimmed, String.toList_ofList, find?_lines_trim]

theorem bodyOf_trimmed (s : String) : bodyOf (trimmed s) = trimmed s := trimmed_trimmed s

end RequestDraft

end Shipment
