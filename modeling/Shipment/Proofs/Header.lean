import Shipment.Proofs.LooseHeader
import Shipment.Proofs.Slug

/-!
# Headers and slugs

The slug of a description leaves out a header, and takes it more loosely than the grammar does.
A header of the grammar is one all the same, and the loose reading of it ends at the same colon
(`dropHeader_append`).  It also drops the blanks behind the colon, which no word has.  So the
slug of a message is the slug of what follows the colon on the first line.
-/

namespace Shipment

namespace Text

variable {a b : List Char} {c : Char}

/-- A character that ends no line parts the first line as it parts the text. -/
theorem firstLine_append_cons (ha : '\n' ∉ a) (hn : c ≠ '\n') (hr : c ≠ '\r') (b : List Char) :
    firstLine (a ++ c :: b) = a ++ c :: firstLine b := by
  by_cases hb : '\n' ∈ b
  · obtain ⟨line, rest, rfl, hline⟩ := List.eq_append_cons_of_mem hb
    have hwhole : '\n' ∉ a ++ c :: line := by simp [ha, hline, Ne.symm hn]
    have hlines := lines_line (b := rest) hwhole
    rw [← List.cons_append, ← List.append_assoc, firstLine, hlines, firstLine, lines_line hline]
    exact chomp_append_cons hr
  · rw [firstLine, lines_of_noFeed (by simp [ha, hb, Ne.symm hn]) (by simp)]
    cases b with
    | nil => rfl
    | cons d b => rw [firstLine, lines_of_noFeed hb (by simp)]; rfl

end Text

namespace Intent

open Text

variable {header header' after after' : List Char} {text : String}

/-- A header is on one line. -/
theorem Header.noFeed (h : Header header) : '\n' ∉ header := by
  obtain ⟨htype, hscope, hmark⟩ := h
  have htypes : ∀ type ∈ types, '\n' ∉ type.toList := by decide
  simp only [List.mem_append, not_or]
  refine ⟨htypes _ htype, ?_, ?_⟩
  · cases hscope with
    | missing => simp
    | within hchars _ =>
        simp only [List.mem_cons, List.mem_append, not_or]
        exact ⟨by decide, fun h => (hchars _ h).2.2 rfl, by decide, by simp⟩
  · cases hmark <;> decide

/-- The first line of a text is a header, a colon and what follows it. -/
structure Heads (header after : List Char) (text : String) : Prop where
  isHeader : Header header
  firstLine_eq : firstLine text.toList = header ++ ':' :: after

/-- The reader finds what follows the header. -/
theorem heads_iff : (∃ header, Heads header after text) ↔
    headerEnd? (firstLine text.toList) = some after := by
  rw [headerEnd?_eq_some]
  exact ⟨fun ⟨header, h⟩ => ⟨header, h.isHeader, h.firstLine_eq⟩,
    fun ⟨header, hheader, hline⟩ => ⟨header, hheader, hline⟩⟩

/-- A text has one header at most. -/
theorem Heads.unique (h : Heads header after text) (h' : Heads header' after' text) :
    header' = header ∧ after' = after := by
  obtain rfl : after' = after :=
    Option.some.inj ((heads_iff.mp ⟨_, h'⟩).symm.trans (heads_iff.mp ⟨_, h⟩))
  exact ⟨List.append_cancel_right (h'.firstLine_eq.symm.trans h.firstLine_eq), rfl⟩

/-- A message has a header on its first line. -/
theorem exists_heads (h : matchesGrammar text = true) :
    ∃ header after, Heads header after text := by
  rw [matchesGrammar_iff] at h
  generalize htext : text.toList = cs at h
  cases h with
  | intro hheader _ _ =>
      have hline := firstLine_append_cons hheader.noFeed (c := ':') (by decide) (by decide)
      exact ⟨_, _, hheader, htext ▸ hline _⟩

end Intent

namespace Slug

open Intent Text

variable {header after : List Char}

/-! ## The loose reading of a header -/

/-- A header of the grammar is dropped, with the colon and the blanks behind it. -/
theorem dropHeader_append (h : Header header) (rest : List Char) :
    dropHeader (header ++ ':' :: rest) = trimStart rest := by
  have hstripped := (LooseHeader.of_header h).stripped rest
  rw [List.append_assoc, List.singleton_append] at hstripped
  exact dropHeader_of_stripped hstripped

/-! ## Blanks -/

theorem isWordChar_of_isBlank {c : Char} (h : isBlank c = true) : isWordChar c = false := by
  rw [Bool.eq_false_iff]
  intro hword
  have hcode := toNat_of_isWordChar hword
  simp only [isBlank, Bool.or_eq_true, Bool.and_eq_true, decide_eq_true_eq, beq_iff_eq] at h
  omega

theorem hyphenate_append_of_not {behind : List Char} (h : ∀ c ∈ behind, isWordChar c = false)
    (begun gap : Bool) (cs : List Char) :
    hyphenate begun gap (cs ++ behind) = hyphenate begun gap cs := by
  induction cs generalizing begun gap with
  | nil =>
      induction behind generalizing gap with
      | nil => rfl
      | cons c behind ih =>
          obtain ⟨hc, h⟩ := List.forall_mem_cons.mp h
          simpa [hyphenate, hc] using ih h true
  | cons c cs ih => simp only [List.cons_append, hyphenate, ih]

theorem normal_append_of_not {behind : List Char} (h : ∀ c ∈ behind, isWordChar c = false)
    (cs : List Char) : normal (cs ++ behind) = normal cs := by
  rw [← ofSubject_eq, ← ofSubject_eq, ofSubject, ofSubject, hyphenate_append_of_not h]

theorem normal_of_not_append {front : List Char} (h : ∀ c ∈ front, isWordChar c = false)
    (cs : List Char) : normal (front ++ cs) = normal cs := by
  induction front with
  | nil => rfl
  | cons c front ih =>
      obtain ⟨hc, h⟩ := List.forall_mem_cons.mp h
      rw [← ih h, normal, normal, List.cons_append, words_cons_of_not hc]

/-- Blanks before a text have no part in its slug. -/
theorem normal_trimStart (cs : List Char) : normal (trimStart cs) = normal cs := by
  have hblank : ∀ c ∈ cs.takeWhile isBlank, isWordChar c = false := fun c hc =>
    isWordChar_of_isBlank (List.mem_takeWhile_imp hc)
  conv => rhs; rw [← List.takeWhile_append_dropWhile (p := isBlank) (l := cs)]
  exact (normal_of_not_append hblank _).symm

/-- Blanks around a text have no part in its slug. -/
theorem normal_trim (cs : List Char) : normal (trim cs) = normal cs := by
  obtain ⟨behind, hblank, hsplit⟩ := exists_blank_end (trimStart cs)
  rw [← normal_trimStart cs, ← hsplit,
    normal_append_of_not fun c hc => isWordChar_of_isBlank (hblank c hc)]
  rfl

/-! ## Messages -/

/-- The slug of a text with a header is that of what follows the colon. -/
theorem ofDescription_of_heads {text : String} (h : Heads header after text) :
    ofDescription text = String.ofList (normal after) := by
  rw [ofDescription, h.firstLine_eq, dropHeader_append h.isHeader, ofSubject_eq, normal_trimStart]

/-- The slug of a message is that of what follows its header, and messages with the same subject
have the same slug, whatever their types, scopes, marks and bodies. -/
theorem ofDescription_message (text : String) (h : matchesGrammar text = true) :
    ∃ header after, Heads header after text ∧
      (∀ header' after', Heads header' after' text → header' = header ∧ after' = after) ∧
      ofDescription text = String.ofList (normal after) ∧
      ∀ other header' after', matchesGrammar other = true → Heads header' after' other →
        trim after' = trim after → ofDescription other = ofDescription text := by
  obtain ⟨header, after, hheads⟩ := exists_heads h
  refine ⟨header, after, hheads, fun _ _ => hheads.unique, ofDescription_of_heads hheads, ?_⟩
  intro other header' after' _ hother hsubject
  rw [ofDescription_of_heads hother, ofDescription_of_heads hheads, ← normal_trim after', hsubject,
    normal_trim]

/-- A scope with a colon, a mark and a tab in it, and a subject that looks like a header. -/
theorem ofDescription_message_nested :
    let text := "feat(a: b!\tc)!:\tfix(Ü): Übung 2\r\n\nBody"
    let other := "docs:   fix(Ü): Übung 2 "
    matchesGrammar text = true ∧ ofDescription text = "fix-bung-2" ∧
      ofDescription other = ofDescription text := by
  intro text other
  obtain ⟨_, htext⟩ : ∃ header, Heads header "\tfix(Ü): Übung 2".toList text :=
    heads_iff.mpr (by decide +kernel)
  obtain ⟨_, hother⟩ : ∃ header, Heads header "   fix(Ü): Übung 2 ".toList other :=
    heads_iff.mpr (by decide +kernel)
  obtain ⟨_, _, _, hunique, hslug, hsame⟩ := ofDescription_message text (by decide +kernel)
  obtain ⟨rfl, rfl⟩ := hunique _ _ htext
  refine ⟨by decide +kernel, ?_, hsame other _ _ (by decide +kernel) hother (by decide +kernel)⟩
  rw [hslug]
  decide +kernel

end Slug

end Shipment
