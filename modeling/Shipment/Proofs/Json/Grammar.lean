import Shipment.Json.Reader
import Shipment.Proofs.Text.Number

/-!
# Reading what was written

`Spells` relates a document to the texts that are it: with any blanks between tokens, and any
escapes in a string.  Numbers are natural ones, without leading zeros.  A document has many such
texts, and `Json.read?` gives it back from each of them (`read_of_spells`).

The readers go on with the text behind what they have read, and count down the levels of nesting
and the items of a level.  So `Part.Reads` is about a text with anything behind it, and about any
bounds that are not below the length of the text.  Behind a number nothing may stand that would
go on with it, which is what `Ends` says.
-/

namespace Shipment.Json

variable {cs b rest : List Char} {c : Char}

/-! ## The grammar -/

/-- Blanks between tokens. -/
def Blanks (cs : List Char) : Prop := ∀ c ∈ cs, c = ' ' ∨ c = '\t' ∨ c = '\n' ∨ c = '\r'

/-- What stands between quotes, and the text it is. -/
inductive Quoted : List Char → List Char → Prop where
  | nil : Quoted [] []
  | plain {c : Char} {cs text : List Char} : c ≠ '"' → c ≠ '\\' → 0x20 ≤ c.toNat →
      Quoted cs text → Quoted (c :: cs) (c :: text)
  | escaped {e c : Char} {cs text : List Char} : simpleEscape e = some c → Quoted cs text →
      Quoted ('\\' :: e :: cs) (c :: text)
  | code {a b c d : Char} {n : Nat} {cs text : List Char} : fourHex a b c d = some n →
      isHighHalf n = false → isLowHalf n = false → Quoted cs text →
      Quoted ('\\' :: 'u' :: a :: b :: c :: d :: cs) (Char.ofNat n :: text)
  | pair {a b c d a' b' c' d' : Char} {high low : Nat} {cs text : List Char} :
      fourHex a b c d = some high → isHighHalf high = true →
      fourHex a' b' c' d' = some low → isLowHalf low = true → Quoted cs text →
      Quoted ('\\' :: 'u' :: a :: b :: c :: d :: '\\' :: 'u' :: a' :: b' :: c' :: d' :: cs)
        (Char.ofNat (0x10000 + (high - 0xD800) * 0x400 + (low - 0xDC00)) :: text)

/-- What a text can spell. -/
inductive Part where
  /-- A document. -/
  | value (j : Json)
  /-- The items of an array, one or more, and the bracket behind them. -/
  | items (js : List Json)
  /-- A field of an object. -/
  | field (f : String × Json)
  /-- The fields of an object, one or more, and the brace behind them. -/
  | fields (fs : List (String × Json))

/-- The texts of documents. -/
inductive Spells : Part → List Char → Prop where
  | null : Spells (.value .null) "null".toList
  | true : Spells (.value (.bool true)) "true".toList
  | false : Spells (.value (.bool false)) "false".toList
  | natural (n : Nat) : Spells (.value (.natural n)) n.repr.toList
  | text {s : String} {cs : List Char} : Quoted cs s.toList →
      Spells (.value (.text s)) ('"' :: (cs ++ ['"']))
  | emptyArray {b : List Char} : Blanks b → Spells (.value (.array [])) ('[' :: (b ++ [']']))
  | array {js : List Json} {b cs : List Char} : Blanks b → Spells (.items js) cs →
      Spells (.value (.array js)) ('[' :: (b ++ cs))
  | lastItem {j : Json} {cs b : List Char} : Spells (.value j) cs → Blanks b →
      Spells (.items [j]) (cs ++ (b ++ [']']))
  | item {j : Json} {js : List Json} {cs b b' rest : List Char} : Spells (.value j) cs →
      Blanks b → Blanks b' → Spells (.items js) rest →
      Spells (.items (j :: js)) (cs ++ (b ++ ',' :: (b' ++ rest)))
  | emptyObject {b : List Char} : Blanks b →
      Spells (.value (.fields [])) ('\x7b' :: (b ++ ['\x7d']))
  | object {fs : List (String × Json)} {b cs : List Char} : Blanks b → Spells (.fields fs) cs →
      Spells (.value (.fields fs)) ('\x7b' :: (b ++ cs))
  | field {key : String} {j : Json} {k b b' cs : List Char} : Quoted k key.toList → Blanks b →
      Blanks b' → Spells (.value j) cs →
      Spells (.field (key, j)) ('"' :: (k ++ '"' :: (b ++ ':' :: (b' ++ cs))))
  | lastField {f : String × Json} {cs b : List Char} : Spells (.field f) cs → Blanks b →
      Spells (.fields [f]) (cs ++ (b ++ ['\x7d']))
  | nextField {f : String × Json} {fs : List (String × Json)} {cs b b' rest : List Char} :
      Spells (.field f) cs → Blanks b → Blanks b' → Spells (.fields fs) rest →
      Spells (.fields (f :: fs)) (cs ++ (b ++ ',' :: (b' ++ rest)))

/-! ## Blanks -/

/-- Whether a character stands between tokens. -/
def isGap (c : Char) : Bool := c == ' ' || c == '\t' || c == '\n' || c == '\r'

theorem isGap_of_blanks (h : Blanks b) : ∀ c ∈ b, isGap c = true := by
  intro c hc
  rcases h c hc with rfl | rfl | rfl | rfl <;> rfl

theorem blanks_nil : Blanks [] := nofun

theorem skipBlanks_append (h : Blanks b) (cs : List Char) :
    skipBlanks (b ++ cs) = skipBlanks cs :=
  List.dropWhile_append_of_pos (isGap_of_blanks h)

theorem skipBlanks_cons (h : isGap c = false) (cs : List Char) :
    skipBlanks (c :: cs) = c :: cs :=
  List.dropWhile_cons_of_neg (by rw [← Bool.not_eq_true] at h; exact h)

theorem value_blanks (h : Blanks b) (depth : Nat) (cs : List Char) :
    value depth (b ++ cs) = value depth cs := by
  cases depth with
  | zero => rfl
  | succ depth => rw [value, value, skipBlanks_append h]

theorem itemsWith_blanks (h : Blanks b) (depth n : Nat) (cs : List Char) :
    itemsWith (value depth) n (b ++ cs) = itemsWith (value depth) n cs := by
  cases n with
  | zero => rfl
  | succ n => rw [itemsWith, itemsWith, value_blanks h]

theorem fieldsWith_blanks (h : Blanks b) (depth n : Nat) (cs : List Char) :
    fieldsWith (value depth) n (b ++ cs) = fieldsWith (value depth) n cs := by
  cases n with
  | zero => rfl
  | succ n => rw [fieldsWith, fieldsWith, skipBlanks_append h]

/-! ## Strings -/

/-- A number that is no half of a pair is a character of its own. -/
theorem unitsText_code {n : Nat} {units : List StringUnit} (hhigh : isHighHalf n = false)
    (hlow : isLowHalf n = false) :
    unitsText (.code n :: units) = (unitsText units).map (Char.ofNat n :: ·) := by
  rw [unitsText.eq_def]
  simp only [hhigh, hlow, Bool.false_eq_true, if_false]

/-- The units of what stands between quotes have its text. -/
theorem Quoted.units {text : List Char} (h : Quoted cs text) (rest : List Char) :
    ∃ units, stringUnits (cs ++ '"' :: rest) = some (units, rest) ∧
      unitsText units = some text := by
  induction h with
  | nil => exact ⟨[], rfl, rfl⟩
  | @plain c cs text hquote hslash hplain _ ih =>
      obtain ⟨units, hunits, htext⟩ := ih
      refine ⟨.plain c :: units, ?_, by rw [unitsText, htext]; rfl⟩
      rw [List.cons_append, stringUnits]
      · rw [if_neg (Nat.not_lt.mpr hplain), hunits]
        rfl
      · exact hquote
      · exact hslash
  | @escaped e c cs text hescape _ ih =>
      obtain ⟨units, hunits, htext⟩ := ih
      refine ⟨.plain c :: units, ?_, by rw [unitsText, htext]; rfl⟩
      have hu : e ≠ 'u' := by
        rintro rfl
        cases hescape
      rw [List.cons_append, List.cons_append, stringUnits, hescape, hunits]
      · rfl
      · exact fun _ _ _ _ _ he _ => hu he
  | @code a b c d n cs text hcode hhigh hlow _ ih =>
      obtain ⟨units, hunits, htext⟩ := ih
      refine ⟨.code n :: units, ?_, by rw [unitsText_code hhigh hlow, htext]; rfl⟩
      simp only [List.cons_append]
      rw [stringUnits, hcode, hunits]
      rfl
  | @pair a b c d a' b' c' d' high low cs text hcode hhigh hcode' hlow _ ih =>
      obtain ⟨units, hunits, htext⟩ := ih
      refine ⟨.code high :: .code low :: units, ?_, ?_⟩
      · simp only [List.cons_append]
        rw [stringUnits, hcode, stringUnits, hcode', hunits]
        rfl
      · rw [unitsText, if_pos hhigh, if_pos hlow, htext]
        rfl

theorem stringBody_append {s : String} (h : Quoted cs s.toList) (rest : List Char) :
    stringBody (cs ++ '"' :: rest) = some (some s, rest) := by
  obtain ⟨units, hunits, htext⟩ := h.units rest
  simp [stringBody, hunits, htext]

/-! ## Numbers -/

/-- A text that does not go on with a number. -/
def Ends (cs : List Char) : Prop :=
  ∀ c ∈ cs.head?, Text.isAsciiDigit c = false ∧ c ≠ '.' ∧ c ≠ 'e' ∧ c ≠ 'E'

theorem ends_nil : Ends [] := nofun

theorem ends_blanks (hb : Blanks b) (h : Ends rest) : Ends (b ++ rest) := by
  cases b with
  | nil => exact h
  | cons c b =>
      intro d hd
      cases hd
      rcases hb c List.mem_cons_self with rfl | rfl | rfl | rfl <;> decide

/-- A comma, a bracket or a brace does not go on with a number. -/
theorem ends_cons (h : c = ',' ∨ c = ']' ∨ c = '\x7d') (rest : List Char) : Ends (c :: rest) := by
  intro d hd
  cases hd
  rcases h with rfl | rfl | rfl <;> decide

theorem digits1_append {ds : List Char} (hne : ds ≠ [])
    (hds : ∀ c ∈ ds, Text.isAsciiDigit c = true) (h : Ends rest) :
    digits1 (ds ++ rest) = some (ds, rest) := by
  have htake : rest.takeWhile Text.isAsciiDigit = [] ∧
      rest.dropWhile Text.isAsciiDigit = rest := by
    cases rest with
    | nil => exact ⟨rfl, rfl⟩
    | cons c rest => simp [(h c rfl).1]
  rw [digits1, List.takeWhile_append_of_pos hds, List.dropWhile_append_of_pos hds, htake.1,
    htake.2, List.append_nil, if_neg (by simpa using hne)]

theorem wholePart_repr (n : Nat) (h : Ends rest) :
    wholePart (n.repr.toList ++ rest) = some (n.repr.toList, rest) := by
  rcases Nat.eq_zero_or_pos n with rfl | hn
  · show wholePart ('0' :: rest) = some (['0'], rest)
    cases rest with
    | nil => rfl
    | cons c rest =>
        rw [wholePart, if_neg (by simp [(h c rfl).1])]
  · obtain ⟨c, cs, hcs, hc⟩ := Text.repr_eq_cons hn
    have hne : n.repr.toList ≠ [] := by simp [hcs]
    have hdigits := digits1_append hne (fun c hc => Text.mem_repr hc) h
    rw [hcs, List.cons_append] at hdigits ⊢
    rw [wholePart]
    · exact hdigits
    · rintro _ ⟨⟩
      exact hc rfl

theorem fractionPart_of_ends (h : Ends rest) : fractionPart rest = some ([], rest) := by
  rw [fractionPart]
  rintro cs rfl
  exact (h '.' rfl).2.1 rfl

theorem exponentPart_of_ends (h : Ends rest) : exponentPart rest = some ([], rest) := by
  cases rest with
  | nil => rfl
  | cons c rest =>
      obtain ⟨-, -, he, hE⟩ := h c rfl
      rw [exponentPart.eq_def]
      exact if_neg (by simp [he, hE])

theorem ofDigits_eq (ds : List Char) : ofDigits ds = Text.ofDecimal ds := by
  rw [ofDigits, Text.ofDecimal, Nat.ofDigitChars_eq_foldl]
  simp only [Nat.mul_comm]
  rfl

/-- A number starts with a digit. -/
theorem repr_starts (n : Nat) : ∃ c cs, n.repr.toList = c :: cs ∧ Text.isAsciiDigit c = true := by
  cases hn : n.repr.toList with
  | nil => exact absurd (Nat.toList_repr.symm.trans hn) Nat.toDigits_ne_nil
  | cons c cs => exact ⟨c, cs, rfl, Text.mem_repr (hn ▸ List.mem_cons_self)⟩

/-- A number without a sign, a fraction and an exponent is read as natural. -/
theorem numberToken_repr (n : Nat) (h : Ends rest) :
    numberToken (n.repr.toList ++ rest) = some (.natural n, rest) := by
  obtain ⟨c, cs, hcs, hc⟩ := repr_starts n
  have hminus : c ≠ '-' := by
    rintro rfl
    exact absurd hc (by decide)
  have hwhole := wholePart_repr n h
  unfold numberToken
  split
  rename_i sign cs' hsigned
  rw [hcs, List.cons_append] at hsigned
  split at hsigned
  · rename_i heq
    exact absurd (List.cons.inj heq).1 hminus
  · cases hsigned
    rw [← List.cons_append, ← hcs, hwhole]
    simp only [Option.bind_eq_bind, Option.bind_some, fractionPart_of_ends h,
      exponentPart_of_ends h, ofDigits_eq, Text.ofDecimal_repr]
    rfl

/-! ## Documents -/

/-- What a part starts with: a character that stands neither between tokens nor at the end of an
array or an object. -/
def Starts (c : Char) : Prop := isGap c = false ∧ c ≠ ']' ∧ c ≠ '\x7d'

instance (c : Char) : Decidable (Starts c) := inferInstanceAs (Decidable (_ ∧ _ ∧ _))

theorem starts_of_isAsciiDigit (h : Text.isAsciiDigit c = true) : Starts c := by
  refine ⟨?_, ?_, ?_⟩
  · rw [Bool.eq_false_iff]
    intro hgap
    simp only [isGap, Bool.or_eq_true, beq_iff_eq] at hgap
    rcases hgap with ((rfl | rfl) | rfl) | rfl <;> exact absurd h (by decide)
  · rintro rfl
    exact absurd h (by decide)
  · rintro rfl
    exact absurd h (by decide)

/-- Every part starts with a character that opens it. -/
theorem exists_start {p : Part} (h : Spells p cs) : ∃ c rest, cs = c :: rest ∧ Starts c := by
  have first {c : Char} (rest : List Char) (h : Starts c) :
      ∃ d rest', c :: rest = d :: rest' ∧ Starts d := ⟨c, rest, rfl, h⟩
  induction h with
  | natural n =>
      obtain ⟨c, rest, hcs, hc⟩ := repr_starts n
      exact ⟨c, rest, hcs, starts_of_isAsciiDigit hc⟩
  | lastItem _ _ ih | item _ _ _ _ ih _ | lastField _ _ ih | nextField _ _ _ _ ih _ =>
      obtain ⟨c, rest, rfl, hc⟩ := ih
      exact first _ hc
  | _ => exact first _ (by decide)

theorem skipBlanks_of_spells {p : Part} (h : Spells p cs) (rest : List Char) :
    skipBlanks (cs ++ rest) = cs ++ rest := by
  obtain ⟨c, cs, rfl, hc⟩ := exists_start h
  exact skipBlanks_cons hc.1 _

theorem value_repr (depth n : Nat) (h : Ends rest) :
    value (depth + 1) (n.repr.toList ++ rest) = some (.natural n, rest) := by
  have hnumber := numberToken_repr n h
  obtain ⟨c, cs, hcs, hc⟩ := repr_starts n
  rw [hcs, List.cons_append] at hnumber ⊢
  rw [value, skipBlanks_cons (starts_of_isAsciiDigit hc).1]
  split
  all_goals first
    | exact hnumber
    | (rename_i heq; cases heq; exact absurd hc (by decide))

theorem value_text {s : String} (h : Quoted cs s.toList) (depth : Nat) (rest : List Char) :
    value (depth + 1) ('"' :: (cs ++ '"' :: rest)) = some (.text s, rest) := by
  have hbody := stringBody_append h rest
  rw [value, skipBlanks_cons rfl]
  simp only [hbody]
  rfl

theorem value_emptyArray (hb : Blanks b) (depth : Nat) (rest : List Char) :
    value (depth + 1) ('[' :: (b ++ ']' :: rest)) = some (.array [], rest) := by
  rw [value, skipBlanks_cons rfl]
  simp only [skipBlanks_append hb, skipBlanks_cons (c := ']') rfl]

theorem value_array {js : List Json} {depth : Nat} (hb : Blanks b) (h : Spells (.items js) cs)
    (hread : itemsWith (value depth) (cs ++ rest).length (cs ++ rest) = some (js, rest)) :
    value (depth + 1) ('[' :: (b ++ (cs ++ rest))) = some (.array js, rest) := by
  have hskip := skipBlanks_of_spells h rest
  rw [value, skipBlanks_cons rfl]
  simp only [skipBlanks_append hb, hskip]
  split
  · rename_i heq
    obtain ⟨c, _, rfl, hc⟩ := exists_start h
    exact absurd (List.cons.inj heq).1 hc.2.1
  · rw [hread]
    rfl

theorem value_emptyObject (hb : Blanks b) (depth : Nat) (rest : List Char) :
    value (depth + 1) ('\x7b' :: (b ++ '\x7d' :: rest)) = some (.fields [], rest) := by
  rw [value, skipBlanks_cons rfl]
  simp only [skipBlanks_append hb, skipBlanks_cons (c := '\x7d') rfl]
  rfl

/-- The fields as a document has them. -/
def keyed (fs : List (String × Json)) : List (Option String × Json) :=
  fs.map fun f => (some f.1, f.2)

theorem value_object {fs : List (String × Json)} {depth : Nat} (hb : Blanks b)
    (h : Spells (.fields fs) cs)
    (hread : fieldsWith (value depth) (cs ++ rest).length (cs ++ rest) = some (keyed fs, rest)) :
    value (depth + 1) ('\x7b' :: (b ++ (cs ++ rest))) = some (.fields fs, rest) := by
  have hskip := skipBlanks_of_spells h rest
  rw [value, skipBlanks_cons rfl]
  simp only [skipBlanks_append hb, hskip]
  split
  · rename_i heq
    obtain ⟨c, _, rfl, hc⟩ := exists_start h
    exact absurd (List.cons.inj heq).1 hc.2.2
  · rw [hread]
    rfl

section Members

variable {j : Json} {js : List Json} {depth n : Nat} {b' : List Char}

theorem itemsWith_last (hb : Blanks b)
    (hread : value depth (cs ++ (b ++ ']' :: rest)) = some (j, b ++ ']' :: rest)) :
    itemsWith (value depth) (n + 1) (cs ++ (b ++ ']' :: rest)) = some ([j], rest) := by
  rw [itemsWith, hread]
  simp only [Option.bind_eq_bind, Option.bind_some, skipBlanks_append hb,
    skipBlanks_cons (c := ']') rfl]
  rfl

theorem itemsWith_next {behind : List Char} (hb : Blanks b) (hb' : Blanks b')
    (hread : value depth (cs ++ (b ++ ',' :: (b' ++ rest))) = some (j, b ++ ',' :: (b' ++ rest)))
    (hreads : itemsWith (value depth) n rest = some (js, behind)) :
    itemsWith (value depth) (n + 1) (cs ++ (b ++ ',' :: (b' ++ rest))) =
      some (j :: js, behind) := by
  rw [itemsWith, hread]
  simp only [Option.bind_eq_bind, Option.bind_some, skipBlanks_append hb,
    skipBlanks_cons (c := ',') rfl, itemsWith_blanks hb', hreads]
  rfl

/-- What is read of the fields of an object once a field is, from what stands behind it. -/
def fieldsFrom (f : String × Json) (depth n : Nat) (behind : List Char) :
    Option (List (Option String × Json) × List Char) :=
  match skipBlanks behind with
  | ',' :: cs => do
      let (fs, behind) ← fieldsWith (value depth) n cs
      return ((some f.1, f.2) :: fs, behind)
  | '\x7d' :: cs => some ([(some f.1, f.2)], cs)
  | _ => none

theorem fieldsWith_field {key : String} {k : List Char} (hkey : Quoted k key.toList)
    (hb : Blanks b) (hb' : Blanks b') (hread : value depth (cs ++ rest) = some (j, rest)) :
    fieldsWith (value depth) (n + 1) ('"' :: (k ++ '"' :: (b ++ ':' :: (b' ++ (cs ++ rest))))) =
      fieldsFrom (key, j) depth n rest := by
  have hbody := stringBody_append hkey (b ++ ':' :: (b' ++ (cs ++ rest)))
  rw [fieldsWith, skipBlanks_cons rfl]
  simp only [hbody, Option.bind_eq_bind, Option.bind_some, skipBlanks_append hb,
    skipBlanks_cons (c := ':') rfl, value_blanks hb', hread]
  rfl

theorem fieldsFrom_brace (hb : Blanks b) (f : String × Json) :
    fieldsFrom f depth n (b ++ '\x7d' :: rest) = some (keyed [f], rest) := by
  simp only [fieldsFrom, skipBlanks_append hb, skipBlanks_cons (c := '\x7d') rfl]
  rfl

theorem fieldsFrom_comma {fs : List (String × Json)} {behind : List Char} (hb : Blanks b)
    (hb' : Blanks b') (f : String × Json)
    (hreads : fieldsWith (value depth) n rest = some (keyed fs, behind)) :
    fieldsFrom f depth n (b ++ ',' :: (b' ++ rest)) = some (keyed (f :: fs), behind) := by
  simp only [fieldsFrom, skipBlanks_append hb, skipBlanks_cons (c := ',') rfl,
    fieldsWith_blanks hb', hreads]
  rfl

end Members

/-- A text is read as a part, whatever stands behind it. -/
def Reads (cs : List Char) : Part → Prop
  | .value j => ∀ depth rest, cs.length ≤ depth → Ends rest →
      value depth (cs ++ rest) = some (j, rest)
  | .items js => ∀ depth n rest, cs.length ≤ depth → cs.length ≤ n →
      itemsWith (value depth) n (cs ++ rest) = some (js, rest)
  | .field f => ∀ depth n rest, cs.length ≤ depth → Ends rest →
      fieldsWith (value depth) (n + 1) (cs ++ rest) = fieldsFrom f depth n rest
  | .fields fs => ∀ depth n rest, cs.length ≤ depth → cs.length ≤ n →
      fieldsWith (value depth) n (cs ++ rest) = some (keyed fs, rest)

/-- Every part is read back from each text that spells it.  The induction is on the spelling, and a
part is read whatever stands behind it. -/
theorem reads_of_spells {p : Part} (h : Spells p cs) : Reads cs p := by
  -- The depth is no less than the length of the text, so there is one left for what is inside.
  induction h with
  | null | true | false =>
      rintro (_ | depth) rest hdepth -
      · cases hdepth
      · rfl
  | natural n =>
      rintro (_ | depth) rest hdepth hrest
      · obtain ⟨c, cs, hcs, -⟩ := repr_starts n
        rw [hcs] at hdepth
        cases hdepth
      · exact value_repr depth n hrest
  | @text s cs hquoted =>
      rintro (_ | depth) rest hdepth -
      · cases hdepth
      · simpa using value_text hquoted depth rest
  | @emptyArray b hb =>
      rintro (_ | depth) rest hdepth -
      · cases hdepth
      · simpa using value_emptyArray hb depth rest
  | @array js b cs hb hitems ih =>
      rintro (_ | depth) rest hdepth -
      · cases hdepth
      · simp only [List.length_cons, List.length_append] at hdepth
        simpa using value_array hb hitems (ih depth _ rest (by omega) (by simp))
  | @lastItem j cs b hj hb ih =>
      rintro depth (_ | n) rest hdepth hn
      · simp at hn
      · simp only [List.length_append] at hdepth
        have hends : Ends (b ++ ']' :: rest) := ends_blanks hb (ends_cons (by decide) _)
        simpa using itemsWith_last hb (ih depth _ (by omega) hends)
  | @item j js cs b b' rest hj hb hb' hjs ih ihs =>
      rintro depth (_ | n) behind hdepth hn
      · simp at hn
      · simp only [List.length_append, List.length_cons] at hdepth hn
        have hends : Ends (b ++ ',' :: (b' ++ (rest ++ behind))) :=
          ends_blanks hb (ends_cons (by decide) _)
        simpa using itemsWith_next hb hb' (ih depth _ (by omega) hends)
          (ihs depth n behind (by omega) (by omega))
  | @emptyObject b hb =>
      rintro (_ | depth) rest hdepth -
      · cases hdepth
      · simpa using value_emptyObject hb depth rest
  | @object fs b cs hb hfields ih =>
      rintro (_ | depth) rest hdepth -
      · cases hdepth
      · simp only [List.length_cons, List.length_append] at hdepth
        simpa using value_object hb hfields (ih depth _ rest (by omega) (by simp))
  | @field key j k b b' cs hkey hb hb' hj ih =>
      intro depth n rest hdepth hrest
      simp only [List.length_cons, List.length_append] at hdepth
      simpa using fieldsWith_field hkey hb hb' (ih depth rest (by omega) hrest)
  | @lastField f cs b hf hb ih =>
      rintro depth (_ | n) rest hdepth hn
      · simp at hn
      · simp only [List.length_append] at hdepth
        have hends : Ends (b ++ '\x7d' :: rest) := ends_blanks hb (ends_cons (by decide) _)
        have hfield := (ih depth n _ (by omega) hends).trans (fieldsFrom_brace hb f)
        simpa using hfield
  | @nextField f fs cs b b' rest hf hb hb' hfs ih ihs =>
      rintro depth (_ | n) behind hdepth hn
      · simp at hn
      · simp only [List.length_append, List.length_cons] at hdepth hn
        have hends : Ends (b ++ ',' :: (b' ++ (rest ++ behind))) :=
          ends_blanks hb (ends_cons (by decide) _)
        have hfield := (ih depth n _ (by omega) hends).trans
          (fieldsFrom_comma hb hb' f (ihs depth n behind (by omega) (by omega)))
        simpa using hfield

/-- A document is read from each of its texts, with blanks around it. -/
theorem read_of_spells {j : Json} {front behind : List Char} (h : Spells (.value j) cs)
    (hfront : Blanks front) (hbehind : Blanks behind) :
    read? (front ++ (cs ++ behind)) = some j := by
  have hends : Ends behind := by simpa using ends_blanks hbehind ends_nil
  have hread := reads_of_spells h ((front ++ (cs ++ behind)).length + 1) behind
    (by simp only [List.length_append]; omega) hends
  have hskip : skipBlanks behind = [] := by
    rw [← List.append_nil behind, skipBlanks_append hbehind]
    rfl
  rw [read?, value_blanks hfront, hread]
  simp only [Option.bind_eq_bind, Option.bind_some, hskip]
  rfl

end Shipment.Json
