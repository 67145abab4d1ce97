import Shipment.Proofs.Text.Lines
import Shipment.Intent

/-!
# The language of descriptions

`Intent.Message` is the language of conventional commit messages, as a grammar.  A header is a
type, a scope and a mark, of which the last two can be missing.  A colon, a gap and a subject
follow, and the subject goes on with anything.

The reader of `Intent` never goes back.  It need not, since no type starts another one, and what
a scope or a mark starts with starts nothing that can follow it.  So it reads this language
(`matchesGrammar_iff`), and `Description.Judged` says how every text is taken.
-/

namespace Shipment

open Text

namespace Intent

/-! ## The grammar -/

/-- The scope of a header: nothing, or a text in parentheses that is on one line, is not blank
and has no parentheses. -/
inductive Scope : List Char → Prop where
  | missing : Scope []
  | within {cs : List Char} : (∀ c ∈ cs, c ≠ '(' ∧ c ≠ ')' ∧ c ≠ '\n') →
      (∃ c ∈ cs, isBlank c = false) → Scope ('(' :: (cs ++ [')']))

/-- The mark of a header: nothing, or an exclamation mark. -/
inductive Mark : List Char → Prop where
  | missing : Mark []
  | present : Mark ['!']

/-- A header, up to its colon. -/
inductive Header : List Char → Prop where
  | intro {type : String} {scope mark : List Char} : type ∈ types → Scope scope → Mark mark →
      Header (type.toList ++ (scope ++ mark))

/-- What stands between a colon and a subject: spaces and tabs. -/
structure Gap (cs : List Char) : Prop where
  ne_nil : cs ≠ []
  char : ∀ c ∈ cs, c = ' ' ∨ c = '\t'

/-- A conventional commit message. -/
inductive Message : List Char → Prop where
  | intro {header gap rest : List Char} {c : Char} : Header header → Gap gap →
      isBlank c = false → Message (header ++ ':' :: (gap ++ c :: rest))

variable {cs rest scope mark header gap : List Char} {c : Char}

/-- The empty text is no message. -/
theorem Message.ne_nil (h : Message cs) : cs ≠ [] := by
  cases h with
  | intro => simp

/-! ## The header -/

/-- No type starts another one. -/
theorem types_prefix_free : ∀ a ∈ types, ∀ b ∈ types, a.toList <+: b.toList → a = b := by
  decide

theorem exists_type (h : afterType? cs = some rest) : ∃ type ∈ types, cs = type.toList ++ rest := by
  obtain ⟨type, htype, hafter⟩ := List.exists_of_findSome?_eq_some h
  exact ⟨type, htype, after?_eq_some.mp hafter⟩

/-- A type is taken whole, because no type starts another one. -/
theorem afterType?_append {type : String} (h : type ∈ types) (rest : List Char) :
    afterType? (type.toList ++ rest) = some rest := by
  have hsome : (afterType? (type.toList ++ rest)).isSome := by
    rw [afterType?, List.findSome?_isSome_iff]
    exact ⟨type, h, by rw [after?_append]; rfl⟩
  obtain ⟨found, hfound⟩ := Option.isSome_iff_exists.mp hsome
  obtain ⟨other, hother, hsplit⟩ := exists_type hfound
  -- Two types that start the same text are one.
  have hsame : other = type := by
    rcases List.prefix_or_prefix_of_prefix ⟨found, hsplit.symm⟩ ⟨rest, rfl⟩ with hp | hp
    · exact types_prefix_free other hother type h hp
    · exact (types_prefix_free type h other hother hp).symm
  subst hsame
  rw [hfound, List.append_cancel_left hsplit]

theorem isScopeChar_iff : isScopeChar c = true ↔ c ≠ '(' ∧ c ≠ ')' ∧ c ≠ '\n' := by
  simp [isScopeChar, and_assoc]

/-- What is taken for a scope is one. -/
theorem exists_scope (h : afterScope? cs = some rest) :
    ∃ scope, Scope scope ∧ cs = scope ++ rest := by
  unfold afterScope? at h
  split at h
  · rename_i cs
    split at h
    · rename_i hdrop
      split at h
      · rename_i hany
        cases h
        obtain ⟨c, hc, hb⟩ := List.any_eq_true.mp hany
        refine ⟨_, .within (fun c hc => isScopeChar_iff.mp (List.mem_takeWhile_imp hc))
          ⟨c, hc, by simpa using hb⟩, ?_⟩
        rw [List.cons_append, List.append_assoc, List.singleton_append, ← hdrop,
          List.takeWhile_append_dropWhile]
      · cases h
    · cases h
  · cases h
    exact ⟨[], .missing, rfl⟩

/-- A scope is read if no parenthesis follows it. -/
theorem afterScope?_append (h : Scope scope) (hrest : rest.head? ≠ some '(') :
    afterScope? (scope ++ rest) = some rest := by
  cases h with
  | missing =>
      unfold afterScope?
      split
      · rename_i heq
        exact absurd (congrArg List.head? heq) hrest
      · rfl
  | @within cs hchars hblank =>
      have hall : ∀ c ∈ cs, isScopeChar c = true := fun c hc => isScopeChar_iff.mpr (hchars c hc)
      have hdrop : (cs ++ ')' :: rest).dropWhile isScopeChar = ')' :: rest :=
        List.dropWhile_append_of_pos hall
      have htake : (cs ++ ')' :: rest).takeWhile isScopeChar = cs :=
        (List.takeWhile_append_of_pos hall).trans (List.append_nil cs)
      have hany : cs.any (fun c => !isBlank c) = true := by simpa using hblank
      rw [List.cons_append, List.append_assoc, List.singleton_append]
      simp only [afterScope?, hdrop, htake, hany, if_true]

theorem exists_mark (cs : List Char) : ∃ mark, Mark mark ∧ cs = mark ++ afterMark cs := by
  unfold afterMark
  split
  · exact ⟨['!'], .present, rfl⟩
  · exact ⟨[], .missing, rfl⟩

/-- A mark is read if no exclamation mark follows it. -/
theorem afterMark_append (h : Mark mark) (hrest : rest.head? ≠ some '!') :
    afterMark (mark ++ rest) = rest := by
  cases h with
  | missing =>
      unfold afterMark
      split
      · rename_i heq
        exact absurd (congrArg List.head? heq) hrest
      · rfl
  | present => rfl

theorem afterColon?_eq_some : afterColon? cs = some rest ↔ cs = ':' :: rest := by
  unfold afterColon?
  split
  · simp
  · rename_i hn
    exact ⟨nofun, fun h => absurd h (hn rest)⟩

/-- What stands before a colon is a header if the reader comes behind the colon. -/
theorem headerEnd?_eq_some :
    headerEnd? cs = some rest ↔ ∃ header, Header header ∧ cs = header ++ ':' :: rest := by
  simp only [headerEnd?, Option.bind_eq_bind, Option.bind_eq_some_iff, afterColon?_eq_some]
  constructor
  · rintro ⟨_, htype, behind, hscope, hcolon⟩
    obtain ⟨type, ht, rfl⟩ := exists_type htype
    obtain ⟨scope, hs, rfl⟩ := exists_scope hscope
    obtain ⟨mark, hm, hmark⟩ := exists_mark behind
    exact ⟨_, .intro ht hs hm, by rw [hmark, hcolon]; simp⟩
  · rintro ⟨_, ⟨ht, hs, hm⟩, rfl⟩
    rename_i type scope mark
    have hnext : (mark ++ ':' :: rest).head? ≠ some '(' := by cases hm <;> simp
    refine ⟨scope ++ (mark ++ ':' :: rest), ?_, mark ++ ':' :: rest, afterScope?_append hs hnext,
      afterMark_append hm (by simp)⟩
    rw [List.append_assoc, List.append_assoc]
    exact afterType?_append ht _

/-! ## The subject -/

theorem isGap_iff : isGap c = true ↔ c = ' ' ∨ c = '\t' := by simp [isGap]

theorem isBlank_of_isGap (h : isGap c = true) : isBlank c = true := by
  rcases isGap_iff.mp h with rfl | rfl <;> decide

/-- A subject starts with the first character behind a gap. -/
theorem startsSubject_iff : startsSubject cs = true ↔
    ∃ gap c rest, Gap gap ∧ isBlank c = false ∧ cs = gap ++ c :: rest := by
  constructor
  · intro h
    cases cs with
    | nil => cases h
    | cons g cs =>
        obtain ⟨hg, hsubject⟩ := Bool.and_eq_true_iff.mp h
        cases hdrop : cs.dropWhile isGap with
        | nil => simp [hdrop] at hsubject
        | cons c rest =>
            rw [hdrop] at hsubject
            refine ⟨g :: cs.takeWhile isGap, c, rest, ⟨List.cons_ne_nil _ _, ?_⟩,
              by simpa using hsubject, ?_⟩
            · exact List.forall_mem_cons.mpr ⟨isGap_iff.mp hg, fun d hd =>
                isGap_iff.mp (List.mem_takeWhile_imp hd)⟩
            · rw [List.cons_append, ← hdrop, List.takeWhile_append_dropWhile]
  · rintro ⟨gap, c, rest, ⟨hne, hgap⟩, hc, rfl⟩
    obtain ⟨g, gap, rfl⟩ := List.exists_cons_of_ne_nil hne
    obtain ⟨hg, hgap⟩ := List.forall_mem_cons.mp hgap
    have hcgap : isGap c = false := by
      by_contra hn
      rw [isBlank_of_isGap (by simpa using hn)] at hc
      cases hc
    have hdrop : (gap ++ c :: rest).dropWhile isGap = c :: rest := by
      rw [List.dropWhile_append_of_pos fun d hd => isGap_iff.mpr (hgap d hd),
        List.dropWhile_cons_of_neg (by simp [hcgap])]
    simp [startsSubject, hdrop, isGap_iff.mpr hg, hc]

/-- The reader accepts the language. -/
theorem matchesGrammar_iff {text : String} :
    matchesGrammar text = true ↔ Message text.toList := by
  unfold matchesGrammar
  constructor
  · intro h
    cases hend : headerEnd? text.toList with
    | none => simp [hend] at h
    | some rest =>
        obtain ⟨header, hheader, htext⟩ := headerEnd?_eq_some.mp hend
        obtain ⟨gap, c, rest, hgap, hc, rfl⟩ := startsSubject_iff.mp (by simpa [hend] using h)
        exact htext ▸ .intro hheader hgap hc
  · intro h
    generalize text.toList = cs at h
    cases h with
    | intro hheader hgap hc =>
        rw [headerEnd?_eq_some.mpr ⟨_, hheader, rfl⟩]
        exact startsSubject_iff.mpr ⟨_, _, _, hgap, hc, rfl⟩

end Intent

/-! ## Verdicts -/

namespace Description

variable {text raw : String} {force : Bool} {out out' : Except Failure (Description × Verdict)}

/-- How a trimmed text is taken. -/
inductive Judged (text : String) (force : Bool) :
    Except Failure (Description × Verdict) → Prop where
  /-- It is in the language. -/
  | accepted : Intent.Message text.toList → Judged text force (.ok (⟨text⟩, .accepted))
  /-- It is not, and force lets it through. -/
  | warned : ¬Intent.Message text.toList → text ≠ "" → force = true →
      Judged text force (.ok (⟨text⟩, .acceptedWithWarning))
  /-- It is not, and there is no force, or nothing to let through. -/
  | refused : ¬Intent.Message text.toList → ¬(text ≠ "" ∧ force = true) →
      Judged text force (.error (.invalidIntent text))

/-- A text is taken in one way only. -/
theorem Judged.unique (h : Judged text force out) (h' : Judged text force out') : out = out' := by
  cases h with
  | accepted hm =>
      cases h' with
      | accepted => rfl
      | warned hn => exact absurd hm hn
      | refused hn => exact absurd hm hn
  | warned hn hne hforce =>
      cases h' with
      | accepted hm => exact absurd hm hn
      | warned => rfl
      | refused _ hrefused => exact absurd ⟨hne, hforce⟩ hrefused
  | refused hn hrefused =>
      cases h' with
      | accepted hm => exact absurd hm hn
      | warned _ hne hforce => exact absurd ⟨hne, hforce⟩ hrefused
      | refused => rfl

/-- A description is taken as its trimmed text is judged. -/
theorem judged_accept (raw : String) (force : Bool) :
    Judged (trimmed raw) force (accept raw force) := by
  show Judged _ _ (validate (trimmed raw) force >>= fun verdict => pure _)
  unfold validate
  rw [trimmed_trimmed]
  split
  · rename_i hempty
    have hnil : trimmed raw = "" := by simpa using hempty
    exact .refused (fun hm => hm.ne_nil (by simp [hnil])) fun h => h.1 hnil
  rename_i hempty
  split
  · rename_i hm
    exact .accepted (Intent.matchesGrammar_iff.mp hm)
  rename_i hm
  rw [Intent.matchesGrammar_iff] at hm
  split
  · rename_i hforce
    exact .warned hm (by simpa using hempty) hforce
  · rename_i hforce
    exact .refused hm fun h => hforce h.2

theorem accept_eq_iff : accept raw force = out ↔ Judged (trimmed raw) force out :=
  ⟨fun h => h ▸ judged_accept raw force, (judged_accept raw force).unique⟩

/-- A text is accepted, accepted with a warning or refused by the language that it is in once it
is trimmed.  So blanks around it make no difference, and what was accepted is accepted again. -/
theorem accept_by_language (raw : String) (force : Bool) :
    (∀ out, accept raw force = out ↔ Judged (trimmed raw) force out) ∧
    (∀ before behind : List Char, (∀ c ∈ before, isBlank c = true) →
      (∀ c ∈ behind, isBlank c = true) →
      accept (String.ofList (before ++ raw.toList ++ behind)) force = accept raw force) ∧
    ∀ d verdict, accept raw force = .ok (d, verdict) → accept d.text force = .ok (d, verdict) := by
  refine ⟨fun out => accept_eq_iff, fun before behind hbefore hbehind => ?_, ?_⟩
  · have htrim : trimmed (String.ofList (before ++ raw.toList ++ behind)) = trimmed raw := by
      simp only [trimmed, String.toList_ofList, trim_append_blank hbehind,
        trim_blank_append hbefore]
    rw [accept_eq_iff, htrim]
    exact judged_accept raw force
  · intro d verdict h
    rw [accept_eq_iff, text_of_accept h, trimmed_trimmed]
    exact h ▸ judged_accept raw force

/-- A message is accepted with blanks around it, and again without.  A line feed in the scope
puts it outside the language, so that it takes force. -/
theorem accept_by_language_scoped :
    let message := "fix(a: b)!:\tc\n\nd"
    let padded := String.ofList (['\u3000', ' '] ++ message.toList ++ ['\r', '\n'])
    let broken := "fix(a\nb): c"
    accept padded false = .ok (⟨message⟩, .accepted) ∧
      accept message false = .ok (⟨message⟩, .accepted) ∧
      accept broken true = .ok (⟨broken⟩, .acceptedWithWarning) ∧
      accept broken false = .error (.invalidIntent broken) := by
  intro message padded broken
  have hm := accept_by_language message false
  have hb := fun force => (accept_by_language broken force).1
  rw [show trimmed message = message by decide +kernel] at hm
  rw [show trimmed broken = broken by decide +kernel] at hb
  have hmessage : accept message false = .ok (⟨message⟩, .accepted) :=
    (hm.1 _).mpr (.accepted (Intent.matchesGrammar_iff.mp (by decide +kernel)))
  have hbroken : ¬Intent.Message broken.toList := by
    rw [← Intent.matchesGrammar_iff]
    decide +kernel
  have hpadded := hm.2.1 ['\u3000', ' '] ['\r', '\n'] (List.all_eq_true.mp (by decide))
    (List.all_eq_true.mp (by decide))
  refine ⟨hpadded.trans hmessage, ?_,
    (hb true _).mpr (.warned hbroken (by decide) rfl),
    (hb false _).mpr (.refused hbroken (by simp))⟩
  exact hm.2.2 ⟨message⟩ .accepted hmessage

end Description

end Shipment
