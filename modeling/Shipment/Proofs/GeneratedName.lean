import Shipment.Proofs.CivilTime
import Shipment.Proofs.Slug

/-!
# Generated names

A generated name is a slug, fourteen digits and a suffix of four characters, with hyphens between
them.  The slug may have hyphens and digits of its own, but the other two parts have fixed
lengths, so that all three can be read off the end of a name.  Two names of plain instants are
equal only if their parts are (`Parts.unique`), and then the instants are in the same second.

Whatever the instant, a name starts with a character of a slug and has neither a dot nor a slash,
so that it has nothing that is forbidden in the name of a branch.
-/

namespace Shipment

namespace BranchName

/-- A name that has nothing git refuses in the name of a branch. -/
structure Sound (name : String) : Prop where
  chars : hasForbiddenChars name = false
  start : name.toList.head? ≠ some '-'
  slash : ¬"/".toList <:+ name.toList
  lock : ¬".lock".toList <:+ name.toList
  dots : ¬"..".toList <:+: name.toList

theorem length_drawSuffix (count : Nat) (words : List UInt64) :
    (drawSuffix count words).1.length = count := by
  induction count generalizing words with
  | zero => rfl
  | succ count ih => exact congrArg (· + 1) (ih _)

end BranchName

namespace Namer

open BranchName Text

variable {name slug digits suffix slug' digits' suffix' : List Char} {c : Char} {n : Namer}

/-- The characters that a namer draws next. -/
def drawn (n : Namer) : List Char := (drawSuffix suffixLength n.words).1

/-! ## Characters -/

/-- The code points of the characters of generated names. -/
theorem toNat_of_isNameChar (h : isNameChar c = true) : (97 ≤ c.toNat ∧ c.toNat ≤ 122) ∨
    (65 ≤ c.toNat ∧ c.toNat ≤ 90) ∨ (48 ≤ c.toNat ∧ c.toNat ≤ 57) ∨ c.toNat = 45 ∨
    c.toNat = 43 := by
  simp only [isNameChar, Bool.or_eq_true, beq_iff_eq] at h
  rcases h with (h | rfl) | rfl
  · have := Slug.toNat_of_isWordChar (Slug.isWordChar_of_isSlugChar h)
    omega
  · exact .inr (.inr (.inr (.inl rfl)))
  · exact .inr (.inr (.inr (.inr rfl)))

/-- The characters of a generated name are neither blanks nor controls nor forbidden marks. -/
theorem allowed_of_isNameChar (h : isNameChar c = true) :
    (isBlank c || isControl c || forbiddenMarks.contains c) = false := by
  have hcode := toNat_of_isNameChar h
  have hblank : isBlank c = false := by
    rw [Bool.eq_false_iff]
    intro hb
    simp only [isBlank, Bool.or_eq_true, Bool.and_eq_true, decide_eq_true_eq, beq_iff_eq] at hb
    omega
  have hcontrol : isControl c = false := by
    rw [Bool.eq_false_iff]
    intro hc
    simp only [isControl, Bool.or_eq_true, Bool.and_eq_true, decide_eq_true_eq] at hc
    omega
  have hmark : forbiddenMarks.contains c = false := by
    have hmarks : forbiddenMarks.all (fun mark => !isNameChar mark) = true := by decide
    rw [← Bool.not_eq_true, List.contains_iff_mem]
    intro hmem
    have hnot := List.all_eq_true.mp hmarks c hmem
    rw [h] at hnot
    cases hnot
  rw [hblank, hcontrol, hmark]
  rfl

/-! ## Names -/

theorem toList_generate (description : String) (n : Namer) :
    (n.generate description).1.toList = (Slug.ofDescription description).toList ++
      '-' :: ((CivilTime.ofInstant n.now).digits.toList ++ '-' :: n.drawn) := by
  simp [generate, drawn]

/-- Any text has a slug. -/
theorem isSlug_ofDescription (description : String) :
    Slug.IsSlug (Slug.ofDescription description).toList := by
  rw [Slug.ofDescription, String.toList_ofList, Slug.ofSubject_eq]
  exact Slug.isSlug_normal _

/-- A generated name is one of a branch, whatever the instant and the words that are drawn. -/
theorem sound_generate (description : String) (n : Namer) :
    Sound (n.generate description).1 := by
  have hchars : ∀ c ∈ (n.generate description).1.toList, isNameChar c = true :=
    fun c hc => mem_generate hc
  have hmem {part : List Char} {c : Char} (hpart : part <:+: (n.generate description).1.toList)
      (hc : c ∈ part) : isNameChar c = true := hchars c (hpart.subset hc)
  refine ⟨?_, ?_, fun h => ?_, fun h => ?_, fun h => ?_⟩
  · have hne : (n.generate description).1.isEmpty = false := by
      have := hyphen_mem_generate description n
      rw [← Bool.not_eq_true, String.isEmpty_iff]
      intro hempty
      simp [hempty] at this
    rw [hasForbiddenChars, hne, Bool.false_or, List.any_eq_false]
    exact fun c hc => Bool.eq_false_iff.mp (allowed_of_isNameChar (hchars c hc))
  · obtain ⟨c, rest, hslug, hc⟩ := (isSlug_ofDescription description).joined.head
    rw [toList_generate, hslug]
    rintro ⟨⟩
    revert hc
    decide
  · exact absurd (@hmem _ '/' h.isInfix (by decide)) (by decide)
  · exact absurd (@hmem _ '.' h.isInfix (by decide)) (by decide)
  · exact absurd (@hmem _ '.' h (by decide)) (by decide)

/-- The parts of the name of a plain instant. -/
structure Parts (name slug digits suffix : List Char) : Prop where
  name_eq : name = slug ++ '-' :: (digits ++ '-' :: suffix)
  isSlug : Slug.IsSlug slug
  length_digits : digits.length = 14
  isDigit : ∀ c ∈ digits, isAsciiDigit c = true
  length_suffix : suffix.length = 4
  isSlugChar : ∀ c ∈ suffix, Slug.isSlugChar c = true

theorem parts_generate (description : String) (h : n.now.Plain) :
    Parts (n.generate description).1.toList (Slug.ofDescription description).toList
      (CivilTime.ofInstant n.now).digits.toList n.drawn where
  name_eq := toList_generate description n
  isSlug := isSlug_ofDescription description
  length_digits := CivilTime.length_digits (CivilTime.ofInstant_spec h.nanos_lt).1 h.year_nonneg
    h.year_le
  isDigit _ hc := CivilTime.mem_digits h.year_nonneg h.year_le hc
  length_suffix := length_drawSuffix _ _
  isSlugChar _ hc := mem_drawSuffix hc

/-- A name has one slug, one row of digits and one suffix. -/
theorem Parts.unique (h : Parts name slug digits suffix) (h' : Parts name slug' digits' suffix') :
    slug = slug' ∧ digits = digits' ∧ suffix = suffix' := by
  have hrest : digits ++ '-' :: suffix = digits' ++ '-' :: suffix' ∧ slug = slug' := by
    have hlength : ('-' :: (digits ++ '-' :: suffix)).length =
        ('-' :: (digits' ++ '-' :: suffix')).length := by
      simp [h.length_digits, h'.length_digits, h.length_suffix, h'.length_suffix]
    obtain ⟨hslug, hrest⟩ := List.append_inj' (h.name_eq.symm.trans h'.name_eq) hlength
    exact ⟨List.tail_eq_of_cons_eq hrest, hslug⟩
  obtain ⟨hdigits, hsuffix⟩ := List.append_inj hrest.1
    (h.length_digits.trans h'.length_digits.symm)
  exact ⟨hrest.2, hdigits, List.tail_eq_of_cons_eq hsuffix⟩

/-- Every name is sound.  Those of plain instants have parts, and are equal only if their slugs,
their seconds and their suffixes are. -/
theorem generate_spec (description : String) (n : Namer) :
    Sound (n.generate description).1 ∧
    (n.now.Plain →
      Parts (n.generate description).1.toList (Slug.ofDescription description).toList
        (CivilTime.ofInstant n.now).digits.toList n.drawn ∧
      ∀ (description' : String) (n' : Namer), n'.now.Plain →
        (n'.generate description').1 = (n.generate description).1 →
        Slug.ofDescription description' = Slug.ofDescription description ∧
          n'.now.seconds = n.now.seconds ∧ n'.drawn = n.drawn) := by
  refine ⟨sound_generate description n, fun hplain => ⟨parts_generate description hplain, ?_⟩⟩
  intro description' n' hplain' hname
  have hparts := parts_generate description' hplain'
  rw [hname] at hparts
  obtain ⟨hslug, hdigits, hsuffix⟩ := hparts.unique (parts_generate description hplain)
  exact ⟨String.toList_inj.mp hslug,
    hplain'.seconds_inj hplain (String.toList_inj.mp hdigits), hsuffix⟩

/-- Descriptions, nanoseconds and words that make no difference to a name, and a slug that looks
like the rest of one. -/
theorem generate_spec_leapDay :
    let n : Namer := ⟨⟨951782400, 5⟩, [0, 0x8000000000000000, 0, 0]⟩
    let n' : Namer := ⟨⟨951782400, 999999999⟩,
      [0xFFFFFFFFFFFFFFFF, 1, 0x8000000000000000, 0, 0]⟩
    Sound (n.generate "fix: A-20000229000000-aaaa!").1 ∧ n.now.Plain ∧ n'.now.Plain ∧
      (n.generate "fix: A-20000229000000-aaaa!").1 =
        "a-20000229000000-aaaa-20000229000000-asaa" ∧
      n'.now.seconds = n.now.seconds ∧ n'.drawn = n.drawn := by
  intro n n'
  have h := generate_spec "fix: A-20000229000000-aaaa!" n
  have hn : n.now.Plain := ⟨by decide, by decide +kernel, by decide +kernel⟩
  have hn' : n'.now.Plain := ⟨by decide, by decide +kernel, by decide +kernel⟩
  obtain ⟨-, hinj⟩ := h.2 hn
  have hname : (n'.generate "docs(x)!: a 20000229000000 aaaa").1 =
      (n.generate "fix: A-20000229000000-aaaa!").1 := by decide +kernel
  obtain ⟨-, hseconds, hdrawn⟩ := hinj _ n' hn' hname
  exact ⟨h.1, hn, hn', by decide +kernel, hseconds, hdrawn⟩

end Namer

end Shipment
