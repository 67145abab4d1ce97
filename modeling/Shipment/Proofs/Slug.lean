import Shipment.Proofs.BranchName
import Shipment.Proofs.Text.Lines

/-!
# The words of a slug

`Slug.words` are the longest runs of ASCII letters and digits in a text.  A slug is these words in
lower case with hyphens between them, cut to forty characters (`ofSubject_eq`).  What was cut may
end in a hyphen, which is dropped, but nothing else is lost.  So a slug is made of words too, and
`IsSlug` says so.
-/

namespace Shipment.Slug

variable {cs core : List Char} {c : Char} {ws : List (List Char)}

/-! ## Characters -/

/-- The code points of letters and digits. -/
theorem toNat_of_isWordChar (h : isWordChar c = true) :
    (97 ≤ c.toNat ∧ c.toNat ≤ 122) ∨ (65 ≤ c.toNat ∧ c.toNat ≤ 90) ∨
      (48 ≤ c.toNat ∧ c.toNat ≤ 57) := by
  simp only [isWordChar, Text.isAsciiLetter, Text.isAsciiDigit, Bool.or_eq_true, Bool.and_eq_true,
    decide_eq_true_eq] at h
  rcases h with (⟨hl, hu⟩ | ⟨hl, hu⟩) | ⟨hl, hu⟩
  · exact .inl ⟨hl, hu⟩
  · exact .inr (.inl ⟨hl, hu⟩)
  · exact .inr (.inr ⟨hl, hu⟩)

theorem isWordChar_of_isSlugChar (h : isSlugChar c = true) : isWordChar c = true := by
  simp only [isSlugChar, isWordChar, Text.isAsciiLetter, Bool.or_eq_true] at h ⊢
  exact h.imp_left .inl

/-! ## Words -/

/-- The words of a text: its longest runs of ASCII letters and digits. -/
def words (cs : List Char) : List (List Char) :=
  (cs.splitOnP fun c => !isWordChar c).filter fun run => !run.isEmpty

/-- Words in lower case, with hyphens between them. -/
def joined (ws : List (List Char)) : List Char := ['-'].intercalate (ws.map (·.map lower))

/-- The slug of a text that has no header. -/
def normal (cs : List Char) : List Char :=
  let slug := trimHyphens ((joined (words cs)).take maxLength)
  if slug.isEmpty then fallback else slug

/-! ## Joining words -/

/-- Words in lower case, with a hyphen before each. -/
def appended (ws : List (List Char)) : List Char := ws.flatMap fun w => '-' :: w.map lower

theorem joined_cons (w : List Char) (ws : List (List Char)) :
    joined (w :: ws) = w.map lower ++ appended ws := by
  induction ws generalizing w with
  | nil => simp [joined, appended]
  | cons v ws ih =>
      have hv := ih v
      simp only [joined, appended, List.map_cons, List.intercalate_cons_cons,
        List.flatMap_cons] at hv ⊢
      rw [hv]
      simp

/-- A character that is no part of a word stands between words. -/
theorem words_cons_of_not (hc : isWordChar c = false) (cs : List Char) :
    words (c :: cs) = words cs := by
  simp [words, List.splitOnP_cons_eq_if_modifyHead, hc]

/-- What `hyphenate` gives from within a word: the rest of that word, and the words behind it. -/
theorem hyphenate_eq_of_splitOnP {run : List Char} {runs : List (List Char)}
    (h : cs.splitOnP (fun c => !isWordChar c) = run :: runs) :
    hyphenate true false cs = run.map lower ++ appended (runs.filter fun run => !run.isEmpty) ∧
      hyphenate true true cs =
        appended ((run :: runs).filter fun run => !run.isEmpty) := by
  induction cs generalizing run runs with
  | nil =>
      cases h
      exact ⟨rfl, rfl⟩
  | cons c cs ih =>
      rw [List.splitOnP_cons_eq_if_modifyHead] at h
      obtain ⟨run', runs', hs⟩ := List.exists_cons_of_ne_nil
        (List.splitOnP_ne_nil (fun c => !isWordChar c) cs)
      obtain ⟨hin, hout⟩ := ih hs
      cases hc : isWordChar c with
      | true =>
          rw [hs, hc] at h
          cases h
          simp [hyphenate, hc, hin, appended]
      | false =>
          rw [hs, hc] at h
          cases h
          simp [hyphenate, hc, hout]

/-- A slug is made by joining the words. -/
theorem hyphenate_eq_joined (gap : Bool) (cs : List Char) :
    hyphenate false gap cs = joined (words cs) := by
  induction cs generalizing gap with
  | nil => rfl
  | cons c cs ih =>
      cases hc : isWordChar c with
      | true =>
          obtain ⟨run, runs, hs⟩ := List.exists_cons_of_ne_nil
            (List.splitOnP_ne_nil (fun c => !isWordChar c) cs)
          have hwords : words (c :: cs) = (c :: run) :: runs.filter fun run => !run.isEmpty := by
            simp [words, List.splitOnP_cons_eq_if_modifyHead, hc, hs]
          rw [hwords, joined_cons, List.map_cons, List.cons_append,
            ← (hyphenate_eq_of_splitOnP hs).1]
          simp [hyphenate, hc]
      | false =>
          rw [words_cons_of_not hc, ← ih true]
          simp [hyphenate, hc]

theorem ofSubject_eq (cs : List Char) : ofSubject cs = normal cs := by
  simp only [ofSubject, normal, hyphenate_eq_joined]

/-! ## The shape of a slug -/

/-- Runs of slug characters with hyphens between them. -/
inductive Joined : List Char → Prop where
  | last {c : Char} : isSlugChar c = true → Joined [c]
  | next {c : Char} {cs : List Char} : isSlugChar c = true → Joined cs → Joined (c :: cs)
  | hyphen {c : Char} {cs : List Char} : isSlugChar c = true → Joined cs → Joined (c :: '-' :: cs)

namespace Joined

theorem length_pos (h : Joined cs) : 0 < cs.length := by cases h <;> simp

/-- A run in front of a hyphen. -/
theorem run_append {run : List Char} (hne : run ≠ []) (hrun : ∀ c ∈ run, isSlugChar c = true)
    (h : Joined cs) : Joined (run ++ '-' :: cs) := by
  induction run with
  | nil => exact absurd rfl hne
  | cons c run ih =>
      obtain ⟨hc, hrun⟩ := List.forall_mem_cons.mp hrun
      cases run with
      | nil => exact .hyphen hc h
      | cons d run => exact .next hc (ih (by simp) hrun)

theorem of_run {run : List Char} (hne : run ≠ []) (hrun : ∀ c ∈ run, isSlugChar c = true) :
    Joined run := by
  induction run with
  | nil => exact absurd rfl hne
  | cons c run ih =>
      obtain ⟨hc, hrun⟩ := List.forall_mem_cons.mp hrun
      cases run with
      | nil => exact .last hc
      | cons d run => exact .next hc (ih (by simp) hrun)

/-- Joined runs can be told apart again. -/
theorem exists_runs (h : Joined cs) : ∃ runs : List (List Char), runs ≠ [] ∧
    (∀ run ∈ runs, run ≠ [] ∧ ∀ c ∈ run, isSlugChar c = true) ∧ cs = ['-'].intercalate runs := by
  induction h with
  | @last c hc => exact ⟨[[c]], by simp, by simpa using hc, by simp⟩
  | @next c cs hc _ ih =>
      obtain ⟨runs, hne, hruns, rfl⟩ := ih
      obtain ⟨run, runs, rfl⟩ := List.exists_cons_of_ne_nil hne
      obtain ⟨⟨-, hrun⟩, hruns⟩ := List.forall_mem_cons.mp hruns
      refine ⟨(c :: run) :: runs, by simp, List.forall_mem_cons.mpr ⟨⟨by simp, ?_⟩, hruns⟩, ?_⟩
      · exact List.forall_mem_cons.mpr ⟨hc, hrun⟩
      · cases runs <;> simp [List.intercalate_cons_cons]
  | @hyphen c cs hc _ ih =>
      obtain ⟨runs, hne, hruns, rfl⟩ := ih
      obtain ⟨run, runs, rfl⟩ := List.exists_cons_of_ne_nil hne
      refine ⟨[c] :: run :: runs, by simp, List.forall_mem_cons.mpr ⟨⟨by simp, ?_⟩, hruns⟩, ?_⟩
      · exact List.forall_mem_singleton.mpr hc
      · simp [List.intercalate_cons_cons]

theorem of_runs {runs : List (List Char)} (hne : runs ≠ [])
    (hruns : ∀ run ∈ runs, run ≠ [] ∧ ∀ c ∈ run, isSlugChar c = true) :
    Joined (['-'].intercalate runs) := by
  induction runs with
  | nil => exact absurd rfl hne
  | cons run runs ih =>
      obtain ⟨⟨hrun, hchars⟩, hruns⟩ := List.forall_mem_cons.mp hruns
      cases runs with
      | nil => simpa using of_run hrun hchars
      | cons next runs => simpa using run_append hrun hchars (ih (by simp) hruns)

end Joined

/-- What is joined is runs with hyphens between them. -/
theorem joined_iff : Joined cs ↔ ∃ runs : List (List Char), runs ≠ [] ∧
    (∀ run ∈ runs, run ≠ [] ∧ ∀ c ∈ run, isSlugChar c = true) ∧ cs = ['-'].intercalate runs := by
  refine ⟨Joined.exists_runs, ?_⟩
  rintro ⟨runs, hne, hruns, rfl⟩
  exact .of_runs hne hruns

namespace Joined

/-- A cut is made between two runs, inside one, or behind a hyphen. -/
theorem take (h : Joined cs) (n : Nat) :
    cs.take n = [] ∨ Joined (cs.take n) ∨ ∃ front, Joined front ∧ cs.take n = front ++ ['-'] := by
  induction h generalizing n with
  | last hc =>
      cases n with
      | zero => exact .inl rfl
      | succ n => exact .inr (.inl (by simpa using .last hc))
  | @next c cs hc h ih =>
      cases n with
      | zero => exact .inl rfl
      | succ n =>
          refine .inr ?_
          rw [List.take_succ_cons]
          rcases ih n with hnil | hj | ⟨front, hf, htake⟩
          · exact .inl (hnil ▸ .last hc)
          · exact .inl (.next hc hj)
          · exact .inr ⟨c :: front, .next hc hf, by rw [htake]; rfl⟩
  | @hyphen c cs hc h ih =>
      match n with
      | 0 => exact .inl rfl
      | 1 => exact .inr (.inl (.last hc))
      | n + 2 =>
          refine .inr ?_
          rw [List.take_succ_cons, List.take_succ_cons]
          rcases ih n with hnil | hj | ⟨front, hf, htake⟩
          · exact .inr ⟨[c], .last hc, by rw [hnil]; rfl⟩
          · exact .inl (.hyphen hc hj)
          · exact .inr ⟨c :: '-' :: front, .hyphen hc hf, by rw [htake]; rfl⟩

/-- What is joined starts with no hyphen. -/
theorem head (h : Joined cs) : ∃ c rest, cs = c :: rest ∧ isSlugChar c = true := by
  cases h with
  | last hc => exact ⟨_, _, rfl, hc⟩
  | next hc => exact ⟨_, _, rfl, hc⟩
  | hyphen hc => exact ⟨_, _, rfl, hc⟩

/-- What is joined ends with no hyphen. -/
theorem last_mem (h : Joined cs) : ∃ front c, cs = front ++ [c] ∧ isSlugChar c = true := by
  induction h with
  | @last c hc => exact ⟨[], c, rfl, hc⟩
  | @next c cs hc _ ih =>
      obtain ⟨front, d, rfl, hd⟩ := ih
      exact ⟨c :: front, d, rfl, hd⟩
  | @hyphen c cs hc _ ih =>
      obtain ⟨front, d, rfl, hd⟩ := ih
      exact ⟨c :: '-' :: front, d, rfl, hd⟩

end Joined

theorem ne_hyphen_of_isSlugChar (h : isSlugChar c = true) : (c == '-') = false := by
  rw [beq_eq_false_iff_ne]
  rintro rfl
  revert h
  decide

/-- Hyphens at the end are all that is trimmed from what was joined. -/
theorem trimHyphens_append {behind : List Char} (h : Joined cs) (hb : ∀ c ∈ behind, c = '-') :
    trimHyphens (cs ++ behind) = cs := by
  obtain ⟨c, rest, hhead, hc⟩ := h.head
  obtain ⟨front, d, hlast, hd⟩ := h.last_mem
  have hbare : Text.Bare (· == '-') ([] ++ (cs ++ behind)) cs := by
    refine .intro nofun (by simpa using hb) ?_ ?_
    · rw [hhead, List.head?_cons]
      simpa using ne_hyphen_of_isSlugChar hc
    · rw [hlast, List.getLast?_concat]
      simpa using ne_hyphen_of_isSlugChar hd
  exact hbare.dropWhile_eq

/-- What a slug is: runs of slug characters with hyphens between them, and not too many. -/
structure IsSlug (cs : List Char) : Prop where
  joined : Joined cs
  length_pos : 0 < cs.length
  length_le : cs.length ≤ maxLength

theorem mem_splitOnP {p : Char → Bool} {run : List Char} (h : run ∈ cs.splitOnP p) :
    ∀ c ∈ run, p c = false := by
  induction cs generalizing run with
  | nil => simp_all
  | cons c cs ih =>
      rw [List.splitOnP_cons_eq_if_modifyHead] at h
      obtain ⟨first, runs, hs⟩ := List.exists_cons_of_ne_nil (List.splitOnP_ne_nil p cs)
      rw [hs] at h ih
      split at h
      · rcases List.mem_cons.mp h with rfl | h
        · simp
        · exact ih h
      · rename_i hc
        rcases List.mem_cons.mp h with rfl | h
        · exact List.forall_mem_cons.mpr ⟨by simpa using hc, ih List.mem_cons_self⟩
        · exact ih (List.mem_cons_of_mem _ h)

theorem mem_words {run : List Char} (h : run ∈ words cs) :
    run ≠ [] ∧ ∀ c ∈ run, isWordChar c = true := by
  obtain ⟨hrun, hne⟩ := List.mem_filter.mp h
  exact ⟨by simpa using hne, fun c hc => by simpa using mem_splitOnP hrun c hc⟩

/-- Words are joined, if there are any. -/
theorem joined_joined (hne : ws ≠ []) (hws : ∀ w ∈ ws, w ≠ [] ∧ ∀ c ∈ w, isWordChar c = true) :
    Joined (joined ws) := by
  refine joined_iff.mpr ⟨ws.map (·.map lower), by simpa using hne, ?_, rfl⟩
  rw [List.forall_mem_map]
  intro w hw
  refine ⟨by simpa using (hws w hw).1, ?_⟩
  rw [List.forall_mem_map]
  exact fun c hc => isSlugChar_lower ((hws w hw).2 c hc)

/-- What is cut from joined words and trimmed is a slug, unless nothing is left. -/
theorem isSlug_trimHyphens (h : Joined cs)
    (hne : trimHyphens (cs.take maxLength) ≠ []) : IsSlug (trimHyphens (cs.take maxLength)) := by
  have hcut (front behind : List Char) (hj : Joined front) (hb : ∀ c ∈ behind, c = '-')
      (htake : cs.take maxLength = front ++ behind) :
      IsSlug (trimHyphens (cs.take maxLength)) := by
    have hlength := List.length_take_le maxLength cs
    rw [htake, List.length_append] at hlength
    rw [htake, trimHyphens_append hj hb]
    exact ⟨hj, hj.length_pos, by omega⟩
  rcases h.take maxLength with hnil | hj | ⟨front, hf, htake⟩
  · exact absurd (by rw [hnil]; rfl) hne
  · exact hcut _ [] hj (by simp) (List.append_nil _).symm
  · exact hcut front ['-'] hf (by simp) htake

theorem isSlug_fallback : IsSlug fallback :=
  ⟨.of_run (by decide) (List.all_eq_true.mp (by decide)), by decide, by decide⟩

/-- Any text has a slug. -/
theorem isSlug_normal (cs : List Char) : IsSlug (normal cs) := by
  unfold normal
  by_cases hne : trimHyphens ((joined (words cs)).take maxLength) = []
  · simpa [hne] using isSlug_fallback
  · have hwords : words cs ≠ [] := by
      intro hnil
      exact hne (by rw [hnil]; rfl)
    have hslug := isSlug_trimHyphens (joined_joined hwords fun w => mem_words) hne
    simpa [hne] using hslug

end Shipment.Slug
