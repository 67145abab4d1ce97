import Mathlib.Tactic.SplitIfs
import Shipment.Proofs.Text.Lines
import Shipment.Text.Quoted

/-!
# Quoted texts are told apart

A character is quoted by a letter behind a backslash, as itself, or by its code point between
braces (`Quoting`).  Each of these is read back whatever stands behind it (`readChar_quoteChar`),
so no two texts are quoted alike (`quote_inj`).  Everything in a quoted text is shown as itself
(`isShown_of_mem_quote`).  So a quoted text stays on its line and starts no escape sequence.
-/

namespace Shipment.Text

variable {a b cs : List Char} {c d : Char} {m n : Nat}

/-! ## Hexadecimal numbers -/

/-- The number a digit stands for. -/
def ofHexDigit (d : Char) : Nat := if d.isDigit then d.toNat - 48 else d.toNat - 87

/-- The number a row of digits stands for. -/
def ofHex (ds : List Char) : Nat := ds.foldl (fun n d => 16 * n + ofHexDigit d) 0

theorem digitChar_spec : ∀ k < 16, ofHexDigit (Nat.digitChar k) = k ∧
    isShown (Nat.digitChar k) = true ∧ Nat.digitChar k ≠ '\x7d' := by
  decide

theorem ofHex_hex (n : Nat) : ofHex (hex n) = n := by
  induction n using Nat.base_induction 16 (by decide) with
  | single k hk => simp [hex, ofHex, Nat.toDigits_of_lt_base hk, (digitChar_spec k hk).1]
  | digit n k hk hn ih =>
      have hhex : hex (16 * n + k) = hex n ++ [Nat.digitChar k] := by
        rw [hex, ← Nat.toDigits_append_toDigits (by decide) hn hk, Nat.toDigits_of_lt_base hk, hex]
      rw [hhex, ofHex, List.foldl_append, ← ofHex, ih]
      simp [(digitChar_spec k hk).1]

theorem exists_of_mem_hex (h : d ∈ hex n) : ∃ k < 16, d = Nat.digitChar k := by
  induction n using Nat.base_induction 16 (by decide) with
  | single k hk =>
      rw [hex, Nat.toDigits_of_lt_base hk, List.mem_singleton] at h
      exact ⟨k, hk, h⟩
  | digit n k hk hn ih =>
      rw [hex, ← Nat.toDigits_append_toDigits (by decide) hn hk, Nat.toDigits_of_lt_base hk,
        List.mem_append, List.mem_singleton] at h
      rcases h with h | h
      · exact ih h
      · exact ⟨k, hk, h⟩

theorem not_mem_hex : '\x7d' ∉ hex n := by
  intro h
  obtain ⟨k, hk, e⟩ := exists_of_mem_hex h
  exact (digitChar_spec k hk).2.2 e.symm

/-! ## One character -/

/-- The characters that have letters of their own, and their letters. -/
def letters : List (Char × Char) :=
  [('"', '"'), ('\\', '\\'), ('\n', 'n'), ('\r', 'r'), ('\t', 't'), ('\x00', '0')]

/-- The ways to quote a character. -/
inductive Quoting : Char → List Char → Prop where
  | letter {c l : Char} : (c, l) ∈ letters → Quoting c ['\\', l]
  | itself {c : Char} : c ≠ '\\' → isShown c = true → Quoting c [c]
  | code {c : Char} : Quoting c ('\\' :: 'u' :: '\x7b' :: (hex c.toNat ++ ['\x7d']))

/-- A character is quoted in one of the three ways. -/
theorem quoting_quoteChar (c : Char) : Quoting c (quoteChar c) := by
  unfold quoteChar
  split_ifs with hquote hslash hfeed hreturn htab hnull hshown
  · exact .letter (by simp [letters, hquote])
  · exact .letter (by simp [letters, hslash])
  · exact .letter (by simp [letters, hfeed])
  · exact .letter (by simp [letters, hreturn])
  · exact .letter (by simp [letters, htab])
  · exact .letter (by simp [letters, hnull])
  · exact .itself hslash hshown
  · exact .code

/-- Read one quoted character. -/
def readChar : List Char → Option (Char × List Char)
  | '\\' :: 'u' :: '\x7b' :: cs =>
      (splitOnce ['\x7d'] cs).map fun parts => (Char.ofNat (ofHex parts.1), parts.2)
  | '\\' :: l :: cs => (letters.find? fun p => p.2 == l).map fun p => (p.1, cs)
  | c :: cs => some (c, cs)
  | [] => none

/-- A quoted character is read back, whatever stands behind it. -/
theorem readChar_quoteChar (c : Char) (cs : List Char) :
    readChar (quoteChar c ++ cs) = some (c, cs) := by
  have h := quoting_quoteChar c
  generalize quoteChar c = form at h
  cases h with
  | letter h =>
      simp only [letters, List.mem_cons, Prod.mk.injEq, List.not_mem_nil, or_false] at h
      rcases h with ⟨rfl, rfl⟩ | ⟨rfl, rfl⟩ | ⟨rfl, rfl⟩ | ⟨rfl, rfl⟩ | ⟨rfl, rfl⟩ | ⟨rfl, rfl⟩ <;> rfl
  | itself h _ => simp [readChar, h]
  | code => simp [readChar, splitOnce_append not_mem_hex, ofHex_hex]

/-- A character is quoted by characters that are shown, whether it is itself or not. -/
theorem isShown_of_mem_quoteChar (h : d ∈ quoteChar c) : isShown d = true := by
  have hq := quoting_quoteChar c
  generalize quoteChar c = form at h hq
  cases hq with
  | letter hl =>
      have hall : ∀ p ∈ letters, isShown p.2 = true := by decide
      rcases List.mem_cons.mp h with rfl | h
      · decide
      · exact List.mem_singleton.mp h ▸ hall _ hl
  | itself _ hshown => exact List.mem_singleton.mp h ▸ hshown
  | code =>
      simp only [List.mem_cons, List.mem_append, List.not_mem_nil, or_false] at h
      rcases h with rfl | rfl | rfl | h | rfl
      · decide
      · decide
      · decide
      · obtain ⟨k, hk, rfl⟩ := exists_of_mem_hex h
        exact (digitChar_spec k hk).2.1
      · decide

/-! ## Whole texts -/

/-- Texts are told apart by the quotes of their characters, read back one by one. -/
theorem flatMap_quoteChar_inj (h : a.flatMap quoteChar = b.flatMap quoteChar) : a = b := by
  induction a generalizing b with
  | nil =>
      cases b with
      | nil => rfl
      | cons d b =>
          have hread := readChar_quoteChar d (b.flatMap quoteChar)
          rw [← List.flatMap_cons, ← h] at hread
          cases hread
  | cons c a ih =>
      have hread := readChar_quoteChar c (a.flatMap quoteChar)
      rw [← List.flatMap_cons, h] at hread
      cases b with
      | nil => cases hread
      | cons d b =>
          rw [List.flatMap_cons, readChar_quoteChar] at hread
          obtain ⟨rfl, hrest⟩ : d = c ∧ b.flatMap quoteChar = a.flatMap quoteChar := by
            simpa using hread
          rw [ih hrest.symm]

/-- No two texts are quoted alike. -/
theorem quote_inj (h : quote a = quote b) : a = b := by
  rw [quote, quote, List.cons_append, List.cons_append] at h
  exact flatMap_quoteChar_inj (List.append_cancel_right (List.cons.inj h).2)

theorem toList_quoted (s : String) : (quoted s).toList = quote s.toList := String.toList_ofList

theorem quoted_inj {s t : String} (h : quoted s = quoted t) : s = t := by
  have hlists := congrArg String.toList h
  rw [toList_quoted, toList_quoted] at hlists
  exact String.toList_inj.mp (quote_inj hlists)

/-- Everything in a quoted text is shown as itself. -/
theorem isShown_of_mem_quote (h : d ∈ quote cs) : isShown d = true := by
  simp only [quote, List.mem_cons, List.mem_append, List.mem_flatMap, List.cons_append,
    List.not_mem_nil, or_false] at h
  rcases h with rfl | ⟨c, -, h⟩ | rfl
  · decide
  · exact isShown_of_mem_quoteChar h
  · decide

/-! ## Lines of shown characters -/

/-- A line of characters that are shown has none that belongs to its end. -/
theorem lines_shown (h : ∀ c ∈ a, isShown c = true) : lines (a ++ '\n' :: b) = a :: lines b := by
  have hfeed : '\n' ∉ a := fun hmem => absurd (h _ hmem) (by decide)
  have hlast : a.getLast? ≠ some '\r' := fun hmem =>
    absurd (h _ (List.mem_of_getLast? hmem)) (by decide)
  rw [lines_line hfeed, chomp, if_neg hlast]

/-- A line feed behind a text opens no line, unless the text ends in a part of a line end. -/
theorem lines_append_feed {c : Char} (h : cs.getLast? = some c) (hc : isShown c = true) :
    lines (cs ++ ['\n']) = lines cs := by
  induction cs using lineInduction with
  | whole line hline =>
      have hlast : line.getLast? ≠ some '\r' := fun hr =>
        absurd (Option.some.inj (h.symm.trans hr) ▸ hc) (by decide)
      have hne : line ≠ [] := fun e => by simp [e] at h
      rw [lines_line hline, chomp, if_neg hlast, lines_of_noFeed hline hne]
      rfl
  | feed line rest hline ih =>
      rw [List.append_assoc, List.cons_append, lines_line hline, lines_line hline]
      cases rest with
      | nil =>
          rw [List.getLast?_concat] at h
          exact absurd (Option.some.inj h ▸ hc) (by decide)
      | cons d rest =>
          rw [List.getLast?_append, List.getLast?_cons_cons, List.getLast?_cons,
            Option.some_or] at h
          rw [ih (by rw [List.getLast?_cons, h])]

end Shipment.Text
