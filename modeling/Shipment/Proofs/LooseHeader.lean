import Shipment.Proofs.Grammar
import Shipment.Slug

/-!
# The header a slug leaves out

A slug takes a header more loosely than the grammar does.  `LooseHeader` is that language: any
letters of ASCII, a scope of any content without parentheses, a mark, a colon and the blanks behind
it.  A text starts with one in at most one way once the blanks are all taken, so the reader of
`Slug` need not try another one (`stripped_iff`).  A header of the grammar, with its colon and what
blanks there are, is one of them.
-/

namespace Shipment.Slug

open Intent (Mark Scope Header)
open Text

/-- The scope of a loose header: nothing, or any text in parentheses that has none itself. -/
inductive AnyScope : List Char → Prop where
  | missing : AnyScope []
  | within {cs : List Char} : (∀ c ∈ cs, c ≠ '(' ∧ c ≠ ')') → AnyScope ('(' :: (cs ++ [')']))

/-- A header as a slug takes it, with its colon and the blanks behind it. -/
inductive LooseHeader : List Char → Prop where
  | intro {letters scope mark blanks : List Char} : letters ≠ [] →
      (∀ c ∈ letters, isAsciiLetter c = true) → AnyScope scope → Mark mark →
      (∀ c ∈ blanks, isBlank c = true) →
      LooseHeader (letters ++ (scope ++ (mark ++ ':' :: blanks)))

/-- A line, and what is left of it without its header.  A header takes all the blanks behind it. -/
inductive Stripped : List Char → List Char → Prop where
  | header {header rest : List Char} : LooseHeader header →
      (∀ c, rest.head? = some c → isBlank c = false) → Stripped (header ++ rest) rest
  | plain {line : List Char} : (∀ header, LooseHeader header → ¬header <+: line) →
      Stripped line line

variable {cs rest line scope mark header : List Char}

theorem LooseHeader.colon_mem (h : LooseHeader header) : ':' ∈ header := by
  cases h
  simp

/-- More blanks belong to a header too. -/
theorem LooseHeader.append (h : LooseHeader header) {behind : List Char}
    (hbehind : ∀ c ∈ behind, isBlank c = true) : LooseHeader (header ++ behind) := by
  cases h with
  | @intro letters scope mark blanks hne hletters hs hm hblanks =>
      have hall : ∀ c ∈ blanks ++ behind, isBlank c = true :=
        List.forall_mem_append.mpr ⟨hblanks, hbehind⟩
      simpa using LooseHeader.intro hne hletters hs hm hall

/-- Behind a header the blanks are stripped too. -/
theorem LooseHeader.stripped (h : LooseHeader header) (rest : List Char) :
    Stripped (header ++ rest) (trimStart rest) := by
  have hall : ∀ c ∈ rest.takeWhile isBlank, isBlank c = true := fun c hc =>
    List.mem_takeWhile_imp hc
  have hrest : ∀ c, (trimStart rest).head? = some c → isBlank c = false := by
    intro c hc
    have hhead := List.head?_dropWhile_not isBlank rest
    rw [show rest.dropWhile isBlank = trimStart rest from rfl, hc] at hhead
    exact hhead
  have hstripped := Stripped.header (h.append hall) hrest
  rwa [List.append_assoc, trimStart, List.takeWhile_append_dropWhile] at hstripped

/-! ## The reader -/

theorem exists_anyScope (h : afterAnyScope? cs = some rest) :
    ∃ scope, AnyScope scope ∧ cs = scope ++ rest := by
  unfold afterAnyScope? at h
  split at h
  · rename_i cs
    split at h
    · rename_i hdrop
      cases h
      have hchars : ∀ c ∈ cs.takeWhile fun c => c != '(' && c != ')', c ≠ '(' ∧ c ≠ ')' := by
        intro c hc
        simpa using List.mem_takeWhile_imp hc
      refine ⟨_, .within hchars, ?_⟩
      rw [List.cons_append, List.append_assoc, List.singleton_append, ← hdrop,
        List.takeWhile_append_dropWhile]
    · cases h
  · cases h
    exact ⟨[], .missing, rfl⟩

/-- A scope is read if no parenthesis follows it. -/
theorem afterAnyScope?_append (h : AnyScope scope) (hrest : rest.head? ≠ some '(') :
    afterAnyScope? (scope ++ rest) = some rest := by
  cases h with
  | missing =>
      unfold afterAnyScope?
      split
      · rename_i heq
        exact absurd (congrArg List.head? heq) hrest
      · rfl
  | @within cs hchars =>
      have hdrop : (cs ++ ')' :: rest).dropWhile (fun c => c != '(' && c != ')') = ')' :: rest :=
        List.dropWhile_append_of_pos fun c hc => by simp [hchars c hc]
      rw [List.cons_append, List.append_assoc, List.singleton_append]
      simp only [afterAnyScope?, hdrop]

/-- What is taken for a loose header is one, and takes all the blanks behind it. -/
theorem exists_looseHeader (h : afterAnyHeader? cs = some rest) :
    ∃ header, LooseHeader header ∧ (∀ c, rest.head? = some c → isBlank c = false) ∧
      cs = header ++ rest := by
  unfold afterAnyHeader? at h
  split at h
  · cases h
  rename_i hletters
  simp only [Option.bind_eq_bind, Option.bind_eq_some_iff, Intent.afterColon?_eq_some] at h
  obtain ⟨behind, hscope, after, hcolon, hrest⟩ := h
  cases hrest
  obtain ⟨scope, hs, hsplit⟩ := exists_anyScope hscope
  obtain ⟨mark, hm, hmark⟩ := Intent.exists_mark behind
  have hblanks : ∀ c ∈ after.takeWhile isBlank, isBlank c = true := fun c hc =>
    List.mem_takeWhile_imp hc
  have hafter : after.takeWhile isBlank ++ trimStart after = after :=
    List.takeWhile_append_dropWhile
  refine ⟨_, .intro (by simpa using hletters) (fun c hc => List.mem_takeWhile_imp hc) hs hm
    hblanks, fun c hc => ?_, ?_⟩
  · have hhead := List.head?_dropWhile_not isBlank after
    rw [show after.dropWhile isBlank = trimStart after from rfl, hc] at hhead
    exact hhead
  · simp only [List.append_assoc, List.cons_append, hafter, ← hcolon, ← hmark, ← hsplit]
    exact List.takeWhile_append_dropWhile.symm

/-- A header is read with all the blanks behind it. -/
theorem afterAnyHeader?_append (h : LooseHeader header)
    (hrest : ∀ c, rest.head? = some c → isBlank c = false) :
    afterAnyHeader? (header ++ rest) = some rest := by
  obtain ⟨hne, hletters, hs, hm, hblanks⟩ := h
  rename_i letters scope mark blanks
  have hopen : (mark ++ ':' :: (blanks ++ rest)).head? ≠ some '(' := by cases hm <;> simp
  -- The letters end where the scope, the mark or the colon starts.
  have hdrop : (scope ++ (mark ++ ':' :: (blanks ++ rest))).dropWhile isAsciiLetter =
      scope ++ (mark ++ ':' :: (blanks ++ rest)) := by
    cases hs with
    | missing => cases hm <;> rfl
    | within => rfl
  have hletter : ((letters ++ (scope ++ (mark ++ ':' :: (blanks ++ rest)))).takeWhile
      isAsciiLetter).isEmpty = false := by
    rw [List.takeWhile_append_of_pos hletters]
    simp [hne]
  have hcolon : Intent.afterMark (mark ++ ':' :: (blanks ++ rest)) = ':' :: (blanks ++ rest) :=
    Intent.afterMark_append hm (by simp)
  have htrim : trimStart (blanks ++ rest) = rest := by
    rw [trimStart, List.dropWhile_append_of_pos hblanks]
    cases rest with
    | nil => rfl
    | cons c rest => exact trimStart_cons (hrest c rfl)
  simp only [List.append_assoc, List.cons_append, afterAnyHeader?, hletter,
    List.dropWhile_append_of_pos hletters, hdrop, afterAnyScope?_append hs hopen, hcolon,
    Intent.afterColon?, Option.bind_eq_bind, Option.bind_some, htrim, Bool.false_eq_true, if_false]
  rfl

theorem dropHeader_of_stripped (h : Stripped line rest) : dropHeader line = rest := by
  cases h with
  | header hheader hrest =>
      rw [dropHeader, afterAnyHeader?_append hheader hrest, Option.getD_some]
  | plain hplain =>
      rw [dropHeader]
      cases hread : afterAnyHeader? rest with
      | none => rfl
      | some behind =>
          obtain ⟨header, hheader, -, rfl⟩ := exists_looseHeader hread
          exact absurd (List.prefix_append header behind) (hplain header hheader)

theorem exists_stripped (line : List Char) : ∃ rest, Stripped line rest := by
  by_cases hplain : ∀ header, LooseHeader header → ¬header <+: line
  · exact ⟨line, .plain hplain⟩
  · push Not at hplain
    obtain ⟨header, hheader, rest, rfl⟩ := hplain
    exact ⟨_, hheader.stripped rest⟩

/-- A line is stripped in one way, and that is what the reader does. -/
theorem stripped_iff : Stripped line rest ↔ dropHeader line = rest := by
  refine ⟨dropHeader_of_stripped, ?_⟩
  rintro rfl
  obtain ⟨rest, hrest⟩ := exists_stripped line
  rwa [dropHeader_of_stripped hrest]

/-! ## Headers of the grammar -/

theorem AnyScope.of_scope (h : Scope scope) : AnyScope scope := by
  cases h with
  | missing => exact .missing
  | within hchars _ => exact .within fun c hc => ⟨(hchars c hc).1, (hchars c hc).2.1⟩

/-- A header of the grammar is a loose one with its colon. -/
theorem LooseHeader.of_header (h : Header header) : LooseHeader (header ++ [':']) := by
  obtain ⟨htype, hscope, hmark⟩ := h
  have htypes : ∀ type ∈ Intent.types,
      type.toList ≠ [] ∧ type.toList.all isAsciiLetter = true := by decide
  obtain ⟨hne, hall⟩ := htypes _ htype
  have hletters := List.all_eq_true.mp hall
  have hblanks : ∀ c ∈ ([] : List Char), isBlank c = true := nofun
  simpa using LooseHeader.intro hne hletters (.of_scope hscope) hmark hblanks

end Shipment.Slug
