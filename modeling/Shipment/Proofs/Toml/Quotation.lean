import Shipment.Text.Quoted
import Shipment.Toml.Scalar

/-!
# Quoted text in TOML

Quoted text and strings in double quotes share most of their escapes.  A character is *plain*
when it is shown as itself or written with an escape of both.  The null character and the code
points in hexadecimal are not: TOML has no `\0`, and no brace behind `\u`.  So a text is read
back from between its quotes when each character of it is plain, and no string is read
otherwise.
-/

namespace Shipment

open Text

namespace Text

/-- Whether a character is quoted in a way that strings in double quotes have too. -/
def isPlain (c : Char) : Bool := isShown c || c == '\n' || c == '\r' || c == '\t'

end Text

namespace Toml

variable {c : Char} {cs tail : List Char} {n : Nat}

/-! ## One character -/

/-- A character that is shown is allowed in a string. -/
theorem isAllowed_of_isShown (h : isShown c = true) : isAllowed c = true := by
  simp only [isShown, Bool.or_eq_true, Bool.not_eq_true', List.any_eq_false, Bool.and_eq_true,
    decide_eq_true_eq, not_and, Nat.not_le] at h
  have hbounds : 0x20 ≤ c.toNat ∧ c.toNat ≠ 0x7F := by
    rcases h with h | h
    · omega
    · have hlow := h (0x0, 0x1F) (by decide)
      have hdel := h (0x7F, 0xA0) (by decide)
      omega
  simp [isAllowed, hbounds]

/-- A plain character is quoted by an escape that names it, or as itself. -/
theorem quoteChar_of_isPlain (h : isPlain c = true) :
    (∃ d, quoteChar c = ['\\', d] ∧ ∀ cs, escape (d :: cs) = some (c, cs)) ∨
      quoteChar c = [c] ∧ c ≠ '"' ∧ c ≠ '\\' ∧ isAllowed c = true := by
  by_cases hquote : c = '"'
  · exact .inl ⟨'"', by simp [quoteChar, hquote], fun _ => by subst hquote; rfl⟩
  by_cases hslash : c = '\\'
  · exact .inl ⟨'\\', by simp [quoteChar, hslash], fun _ => by subst hslash; rfl⟩
  by_cases hfeed : c = '\n'
  · exact .inl ⟨'n', by simp [quoteChar, hfeed], fun _ => by subst hfeed; rfl⟩
  by_cases hreturn : c = '\r'
  · exact .inl ⟨'r', by simp [quoteChar, hreturn], fun _ => by subst hreturn; rfl⟩
  by_cases htab : c = '\t'
  · exact .inl ⟨'t', by simp [quoteChar, htab], fun _ => by subst htab; rfl⟩
  have hshown : isShown c = true := by simpa [isPlain, hfeed, hreturn, htab] using h
  have hnull : c ≠ '\x00' := by
    rintro rfl
    revert hshown
    decide
  refine .inr ⟨?_, hquote, hslash, isAllowed_of_isShown hshown⟩
  simp [quoteChar, hquote, hslash, hfeed, hreturn, htab, hnull, hshown]

/-- Any other character is quoted by a backslash with no escape behind it. -/
theorem quoteChar_of_not_isPlain (h : isPlain c = false) :
    ∃ ds, quoteChar c = '\\' :: ds ∧ ∀ cs, escape (ds ++ cs) = none := by
  have hne {d : Char} (hd : isPlain d = true) : c ≠ d := fun e => by simp [e, hd] at h
  by_cases hnull : c = '\x00'
  · exact ⟨['0'], by simp [quoteChar, hnull], fun _ => rfl⟩
  have hshown : isShown c = false := by
    simp only [isPlain, Bool.or_eq_false_iff] at h
    exact h.1.1.1
  refine ⟨'u' :: '\x7b' :: (hex c.toNat ++ ['\x7d']), ?_, fun _ => rfl⟩
  simp [quoteChar, hne (d := '"') (by decide), hne (d := '\\') (by decide),
    hne (d := '\n') (by decide), hne (d := '\r') (by decide), hne (d := '\t') (by decide), hnull,
    hshown]

theorem basicString_quoteChar (h : isPlain c = true) (n : Nat) (cs : List Char) :
    basicString (n + 1) (quoteChar c ++ cs) = before c (basicString n cs) := by
  obtain ⟨d, hd, hescape⟩ | ⟨hself, hquote, hslash, hallowed⟩ := quoteChar_of_isPlain h
  · simp [hd, basicString, hescape]
  · simp [hself, basicString, hallowed]

theorem basicString_quoteChar_eq_none (h : isPlain c = false) (n : Nat) (cs : List Char) :
    basicString n (quoteChar c ++ cs) = none := by
  obtain ⟨ds, hds, hescape⟩ := quoteChar_of_not_isPlain h
  cases n with
  | zero => rfl
  | succ n => simp [hds, basicString, hescape]

/-! ## A whole text -/

/-- A plain text is read up to the quote behind it. -/
theorem basicString_quoted (h : cs.all isPlain = true) (hn : cs.length < n) :
    basicString n (cs.flatMap quoteChar ++ '"' :: tail) = some (cs, tail) := by
  induction cs generalizing n with
  | nil =>
      obtain ⟨n, rfl⟩ := Nat.exists_eq_add_of_lt hn
      simp [basicString]
  | cons c cs ih =>
      obtain ⟨hc, hcs⟩ := by simpa only [List.all_cons, Bool.and_eq_true] using h
      obtain ⟨n, rfl⟩ := Nat.exists_eq_add_of_lt hn
      rw [List.flatMap_cons, List.append_assoc, basicString_quoteChar hc, ih hcs (by simp; omega)]
      rfl

/-- A text that is not plain is not read, whatever stands behind it. -/
theorem basicString_quoted_eq_none (h : cs.all isPlain = false) :
    basicString n (cs.flatMap quoteChar ++ tail) = none := by
  induction cs generalizing n with
  | nil => cases h
  | cons c cs ih =>
      rw [List.flatMap_cons, List.append_assoc]
      by_cases hc : isPlain c = true
      · cases n with
        | zero => rfl
        | succ n =>
            rw [basicString_quoteChar hc, ih (by simpa [hc] using h)]
            rfl
      · exact basicString_quoteChar_eq_none (by simpa using hc) n _

/-- The quoted form of a character is not empty, and starts with no quote. -/
theorem quoteChar_eq_cons (c : Char) : ∃ d ds, quoteChar c = d :: ds ∧ d ≠ '"' := by
  cases h : isPlain c with
  | true =>
      obtain ⟨d, hd, -⟩ | ⟨hc, hquote, -⟩ := quoteChar_of_isPlain h
      · exact ⟨'\\', [d], hd, by decide⟩
      · exact ⟨c, [], hc, hquote⟩
  | false =>
      obtain ⟨ds, hds, -⟩ := quoteChar_of_not_isPlain h
      exact ⟨'\\', ds, hds, by decide⟩

theorem length_le_flatMap_quoteChar (cs : List Char) :
    cs.length ≤ (cs.flatMap quoteChar).length := by
  induction cs with
  | nil => exact Nat.le_refl _
  | cons c cs ih =>
      obtain ⟨d, ds, hd, -⟩ := quoteChar_eq_cons c
      simp only [List.flatMap_cons, List.length_append, List.length_cons, hd]
      omega

theorem quote_append (cs tail : List Char) :
    quote cs ++ tail = '"' :: (cs.flatMap quoteChar ++ '"' :: tail) := by
  simp [quote]

/-- A plain text is read back from between its quotes, and any other is not read.  No quote may
follow, because an empty text with a quote behind it starts a string in three quotes. -/
theorem quotation_quote (cs : List Char) (htail : tail.head? ≠ some '"') :
    quotation (quote cs ++ tail) =
      if cs.all isPlain then some (String.ofList cs, tail) else none := by
  rw [quote_append, quotation.eq_3]
  · split
    · rename_i h
      rw [basicString_quoted h]
      · rfl
      · have hlength := length_le_flatMap_quoteChar cs
        simp only [List.length_append, List.length_cons]
        omega
    · rename_i h
      rw [basicString_quoted_eq_none (by simpa using h)]
      rfl
  · intro rest hrest
    cases cs with
    | nil =>
        refine htail ?_
        rw [(List.cons.inj hrest).2]
        rfl
    | cons c cs =>
        obtain ⟨d, ds, hd, hne⟩ := quoteChar_eq_cons c
        rw [List.flatMap_cons, hd] at hrest
        exact hne (List.cons.inj hrest).1

/-! ## As a value -/

theorem scalar_basic (cs : List Char) :
    scalar ('"' :: cs) =
      some (.plain ((anyQuotation ('"' :: cs)).1.map .string), (anyQuotation ('"' :: cs)).2) :=
  rfl

/-- A plain text in quotes is a value. -/
theorem scalar_quote (h : cs.all isPlain = true) (htail : tail.head? ≠ some '"') :
    scalar (quote cs ++ tail) = some (.plain (some (.string (String.ofList cs))), tail) := by
  have hread := quotation_quote cs htail
  rw [if_pos h, quote_append] at hread
  rw [quote_append, scalar_basic, anyQuotation, hread]
  rfl

/-- Any other text in quotes stands where a value does, but has none. -/
theorem scalar_quote_of_not_isPlain (h : cs.all isPlain = false) (htail : tail.head? ≠ some '"') :
    ∃ behind, scalar (quote cs ++ tail) = some (.plain none, behind) := by
  have hread := quotation_quote cs htail
  rw [if_neg (by simp [h]), quote_append] at hread
  rw [quote_append, scalar_basic, anyQuotation, hread]
  exact ⟨_, rfl⟩

end Toml

end Shipment
