import Shipment.Proofs.GeneratedName
import Shipment.Proofs.LooseHeader

/-!
# The slug of any text

`SlugOf` says what the slug of a text is, step by step: the first line, less its header, gives
words, and these give the slug when they are joined, cut and trimmed.  Every text has exactly one
slug by these rules, and it is the one that is made (`ofDescription_eq_iff`).

A slug has no colon, so it is not taken for a header, and it is joined from its own words.  So the
slug of a slug is that slug.
-/

namespace Shipment.Slug

open Text

variable {cs rest core : List Char} {text slug : String}

/-! ## The steps -/

/-- What is kept of a text without a header: its words in lower case with hyphens between them, no
more than forty characters of that, and no hyphens at the ends. -/
def Kept (rest core : List Char) : Prop :=
  Bare (· == '-') ((joined (words rest)).take 40) core

/-- A text and its slug. -/
inductive SlugOf (text : List Char) : List Char → Prop where
  /-- Something is kept. -/
  | words {line rest core : List Char} : FirstLine text line → Stripped line rest →
      Kept rest core → core ≠ [] → SlugOf text core
  /-- Nothing is. -/
  | nothing {line rest : List Char} : FirstLine text line → Stripped line rest → Kept rest [] →
      SlugOf text "change".toList

theorem kept_iff :
    Kept rest core ↔ trimHyphens ((joined (words rest)).take maxLength) = core :=
  bare_iff

theorem normal_of_kept (h : Kept rest core) (hne : core ≠ []) : normal rest = core := by
  simp [normal, kept_iff.mp h, hne]

theorem normal_of_nothing (h : Kept rest []) : normal rest = fallback := by
  simp [normal, kept_iff.mp h]

theorem slugOf_normal (text : List Char) : SlugOf text (normal (dropHeader (firstLine text))) := by
  have hline : FirstLine text (firstLine text) := firstLine_eq_iff.mp rfl
  have hstripped := stripped_iff.mpr (rfl : dropHeader (firstLine text) = _)
  obtain ⟨core, hkept⟩ : ∃ core, Kept (dropHeader (firstLine text)) core :=
    ⟨_, bare_dropWhile _ _⟩
  by_cases hne : core = []
  · subst hne
    rw [normal_of_nothing hkept]
    exact .nothing hline hstripped hkept
  · rw [normal_of_kept hkept hne]
    exact .words hline hstripped hkept hne

theorem SlugOf.eq_normal {text : List Char} (h : SlugOf text cs) :
    cs = normal (dropHeader (firstLine text)) := by
  cases h with
  | words hline hstripped hkept hne =>
      rw [firstLine_eq_iff.mpr hline, stripped_iff.mp hstripped, normal_of_kept hkept hne]
  | nothing hline hstripped hkept =>
      rw [firstLine_eq_iff.mpr hline, stripped_iff.mp hstripped, normal_of_nothing hkept]
      rfl

/-- A text has the slug that is made of it, and no other. -/
theorem ofDescription_eq_iff : ofDescription text = slug ↔ SlugOf text.toList slug.toList := by
  have hmade : (ofDescription text).toList = normal (dropHeader (firstLine text.toList)) := by
    rw [ofDescription, ofSubject_eq, String.toList_ofList]
  constructor
  · rintro rfl
    rw [hmade]
    exact slugOf_normal _
  · intro h
    rw [← String.toList_inj, hmade, h.eq_normal]

/-! ## Slugs of slugs -/

theorem lower_of_isSlugChar {c : Char} (h : isSlugChar c = true) : lower c = c := by
  rw [lower, if_neg]
  intro hupper
  simp only [isSlugChar, isAsciiDigit, Bool.or_eq_true, Bool.and_eq_true,
    decide_eq_true_eq] at h hupper
  rcases h with ⟨hl, -⟩ | ⟨-, hu⟩
  · exact absurd (Char.le_trans hl hupper.2) (by decide)
  · exact absurd (Char.le_trans hupper.1 hu) (by decide)

namespace Joined

theorem mem (h : Joined cs) {c : Char} (hc : c ∈ cs) : c = '-' ∨ isSlugChar c = true := by
  induction h with
  | last hd =>
      rw [List.mem_singleton.mp hc]
      exact .inr hd
  | next hd _ ih =>
      rcases List.mem_cons.mp hc with rfl | hc
      · exact .inr hd
      · exact ih hc
  | hyphen hd _ ih =>
      rcases List.mem_cons.mp hc with rfl | hc
      · exact .inr hd
      rcases List.mem_cons.mp hc with rfl | hc
      · exact .inl rfl
      · exact ih hc

/-- What is joined is made of its own words. -/
theorem hyphenate_eq (h : Joined cs) (begun : Bool) : hyphenate begun false cs = cs := by
  induction h generalizing begun with
  | last hc => simp [hyphenate, isWordChar_of_isSlugChar hc, lower_of_isSlugChar hc]
  | next hc _ ih => simp [hyphenate, isWordChar_of_isSlugChar hc, lower_of_isSlugChar hc, ih]
  | @hyphen c cs hc h ih =>
      -- The gap is closed by the hyphen in front of the character that follows.
      obtain ⟨d, rest, rfl, hd⟩ := h.head
      have hrest := ih true
      have hgap : isWordChar '-' = false := by decide
      simp only [hyphenate, isWordChar_of_isSlugChar hd, lower_of_isSlugChar hd, if_true,
        Bool.and_false, Bool.false_eq_true, if_false, List.cons.injEq, true_and] at hrest
      simp [hyphenate, isWordChar_of_isSlugChar hc, lower_of_isSlugChar hc, hgap,
        isWordChar_of_isSlugChar hd, lower_of_isSlugChar hd, hrest]

end Joined

/-- A slug is its own slug. -/
theorem IsSlug.ofDescription_eq (h : IsSlug slug.toList) : ofDescription slug = slug := by
  have hfeed : '\n' ∉ slug.toList := fun hmem => absurd (h.joined.mem hmem) (by decide)
  have hcolon : ':' ∉ slug.toList := fun hmem => absurd (h.joined.mem hmem) (by decide)
  have hplain : Stripped slug.toList slug.toList :=
    .plain fun header hheader hstart => hcolon (hstart.subset hheader.colon_mem)
  have htrim : trimHyphens slug.toList = slug.toList := by
    have hnone : ∀ c ∈ ([] : List Char), c = '-' := nofun
    simpa using trimHyphens_append h.joined hnone
  rw [ofDescription, firstLine_of_noFeed hfeed, dropHeader_of_stripped hplain, ofSubject,
    h.joined.hyphenate_eq, List.take_of_length_le h.length_le, htrim]
  have hne : slug.toList.isEmpty = false := by
    rw [List.isEmpty_eq_false_iff]
    exact List.ne_nil_of_length_pos h.length_pos
  simp [hne]

/-- The slug of a text is made by the steps.  It is a slug by its shape and its length, and the
slug of a slug is that slug. -/
theorem ofDescription_by_steps (text : String) :
    (∀ slug, ofDescription text = slug ↔ SlugOf text.toList slug.toList) ∧
      IsSlug (ofDescription text).toList ∧
      ofDescription (ofDescription text) = ofDescription text := by
  have hslug := Namer.isSlug_ofDescription text
  exact ⟨fun _ => ofDescription_eq_iff, hslug, hslug.ofDescription_eq⟩

/-- The cut falls behind a hyphen. -/
example : ofDescription "Fix(a:b): aaaaaaaaaa bbbbbbbbbb cccccccccc dddddd ee\r\nfix: b" =
    "aaaaaaaaaa-bbbbbbbbbb-cccccccccc-dddddd" := by decide +kernel

end Shipment.Slug
