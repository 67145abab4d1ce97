import Shipment.Toml.Reader

/-!
# Assignments and remarks in TOML

A *remark* is a line that means nothing: an empty one or a comment.  `statements_assign` reads
an assignment of a bare key behind any number of remarks, and `statements_remarks` reads the end
of a document.
-/

namespace Shipment.Toml

variable {remarks : List String} {k cs tail : List Char} {c : Char} {d : Draft} {n m : Nat}

/-! ## Remarks -/

/-- Whether a line is empty or a comment. -/
def isRemark (line : String) : Bool :=
  match line.toList with
  | [] => true
  | '#' :: cs => cs.all isAllowed
  | _ => false

/-- Lines, each with its end. -/
def ended (lines : List String) : List Char := lines.flatMap fun line => (line ++ "\n").toList

theorem ended_cons (line : String) (lines : List String) :
    ended (line :: lines) = line.toList ++ '\n' :: ended lines := by
  simp [ended]

theorem ended_cons_append (line : String) (lines : List String) (cs : List Char) :
    ended (line :: lines) ++ cs = line.toList ++ '\n' :: (ended lines ++ cs) := by
  rw [ended_cons, List.append_assoc, List.cons_append]

theorem ended_concat (lines : List String) (line : String) :
    ended (lines ++ [line]) = ended lines ++ (line.toList ++ ['\n']) := by
  simp [ended]

theorem length_le_ended (lines : List String) : lines.length ≤ (ended lines).length := by
  induction lines with
  | nil => exact Nat.le_refl _
  | cons line lines ih =>
      rw [ended_cons]
      simp only [List.length_append, List.length_cons]
      omega

theorem skipComment_append (h : cs.all isAllowed = true) (rest : List Char) :
    skipComment (cs ++ '\n' :: rest) = some ('\n' :: rest) := by
  induction cs with
  | nil => rfl
  | cons c cs ih =>
      obtain ⟨hc, hcs⟩ := by simpa only [List.all_cons, Bool.and_eq_true] using h
      have hfeed : c ≠ '\n' := by rintro rfl; exact absurd hc (by decide)
      have hreturn : c ≠ '\r' := by rintro rfl; exact absurd hc (by decide)
      rw [List.cons_append, skipComment.eq_4 c _ hfeed fun _ e _ => hreturn e, if_pos hc, ih hcs]

theorem skipTrailing_remark {line : String} (h : isRemark line = true) (rest : List Char) :
    skipTrailing (line.toList ++ '\n' :: rest) = some ('\n' :: rest) := by
  unfold isRemark at h
  generalize line.toList = cs at h
  split at h
  · rfl
  · exact skipComment_append h rest
  · cases h

theorem skipLines_remarks (h : remarks.all isRemark = true) :
    skipLines (remarks.length + m) (ended remarks ++ cs) = skipLines m cs := by
  induction remarks with
  | nil => simp [ended]
  | cons r remarks ih =>
      obtain ⟨hr, hremarks⟩ := by simpa only [List.all_cons, Bool.and_eq_true] using h
      rw [ended_cons_append, List.length_cons, Nat.add_right_comm, skipLines,
        skipTrailing_remark hr]
      exact ih hremarks

/-- Remarks are dropped up to what is not one. -/
theorem skipGap_remarks (h : remarks.all isRemark = true)
    (hcs : ∀ m, skipLines (m + 1) cs = some cs) : skipGap (ended remarks ++ cs) = some cs := by
  have hlength := length_le_ended remarks
  obtain ⟨m, hm⟩ : ∃ m, (ended remarks ++ cs).length + 1 = remarks.length + (m + 1) := by
    refine ⟨(ended remarks ++ cs).length - remarks.length, ?_⟩
    simp only [List.length_append]
    omega
  rw [skipGap, hm, skipLines_remarks h, hcs]

theorem statements_remarks (h : remarks.all isRemark = true) (n : Nat) :
    statements (n + 1) (ended remarks) = some [] := by
  have hgap : skipGap (ended remarks ++ []) = some [] := skipGap_remarks h fun _ => rfl
  rw [List.append_nil] at hgap
  rw [statements, hgap]

/-! ## Keys -/

theorem endsPart_of_isKeyChar (h : isKeyChar c = true) : endsPart c = false := by
  refine Bool.eq_false_iff.mpr fun he => ?_
  simp only [endsPart, isDelimiter, Bool.or_eq_true, beq_iff_eq, or_assoc] at he
  rcases he with rfl | rfl | rfl | rfl | rfl | rfl | rfl | rfl | rfl | rfl | rfl | rfl <;>
    exact absurd h (by decide)

theorem isQuote_of_isKeyChar (h : isKeyChar c = true) : isQuote c = false := by
  refine Bool.eq_false_iff.mpr fun hq => ?_
  simp only [isQuote, Bool.or_eq_true, beq_iff_eq] at hq
  rcases hq with rfl | rfl <;> exact absurd h (by decide)

theorem ne_of_endsPart {e : Char} (h : endsPart c = false) (he : endsPart e = true) : c ≠ e := by
  rintro rfl
  rw [he] at h
  cases h

/-- What ends no part of a word is no blank. -/
theorem skipBlanks_cons (h : endsPart c = false) (cs : List Char) :
    skipBlanks (c :: cs) = c :: cs := by
  have hspace : c ≠ ' ' := ne_of_endsPart h (by decide)
  have htab : c ≠ '\t' := ne_of_endsPart h (by decide)
  exact List.dropWhile_cons_of_neg (by simp [hspace, htab])

/-- What ends no part of a word starts no remark. -/
theorem skipLines_cons (h : endsPart c = false) (cs : List Char) (m : Nat) :
    skipLines (m + 1) (c :: cs) = some (c :: cs) := by
  have hcomment : c ≠ '#' := ne_of_endsPart h (by decide)
  have hfeed : c ≠ '\n' := ne_of_endsPart h (by decide)
  have hreturn : c ≠ '\r' := ne_of_endsPart h (by decide)
  have htrailing : skipTrailing (c :: cs) = some (c :: cs) := by
    simp [skipTrailing, skipBlanks_cons h, hcomment]
  simp [skipLines, htrailing, lineEnd?, hfeed, hreturn]

theorem keyPart_bare (hc : isKeyChar c = true) (hk : k.all isKeyChar = true) (rest : List Char) :
    keyPart (c :: k ++ ' ' :: rest) = (.text (String.ofList (c :: k)), ' ' :: rest) := by
  have hall : (c :: k).all isKeyChar = true := by simp only [List.all_cons, hc, hk, Bool.and_self]
  have hword : ∀ d ∈ c :: k, (!endsPart d) = true := fun d hd => by
    rw [endsPart_of_isKeyChar (List.all_eq_true.mp hall d hd)]
    rfl
  have hblank : (!endsPart ' ') = false := by decide
  have htake : (c :: k ++ ' ' :: rest).takeWhile (fun c => !endsPart c) = c :: k := by
    rw [List.takeWhile_append_of_pos hword, List.takeWhile_cons_of_neg (by simp [hblank]),
      List.append_nil]
  have hdrop : (c :: k ++ ' ' :: rest).dropWhile (fun c => !endsPart c) = ' ' :: rest := by
    rw [List.dropWhile_append_of_pos hword, List.dropWhile_cons_of_neg (by simp [hblank])]
  rw [List.cons_append] at htake hdrop ⊢
  simp only [keyPart, isQuote_of_isKeyChar hc, htake, hdrop, hall]
  rfl

/-- A bare key is read up to the sign behind it. -/
theorem key_bare (hc : isKeyChar c = true) (hk : k.all isKeyChar = true) (rest : List Char) :
    key (c :: k ++ ' ' :: '=' :: rest) = ([.text (String.ofList (c :: k))], '=' :: rest) := by
  have hpart := keyPart_bare hc hk ('=' :: rest)
  rw [List.cons_append] at hpart ⊢
  rw [key, keyParts, skipBlanks_cons (endsPart_of_isKeyChar hc), hpart]
  rfl

/-! ## Assignments -/

/-- A key and a value with a sign between them. -/
def assignment (key : String) (v : List Char) : List Char := (key ++ " = ").toList ++ v

/-- Whether a key needs no quotes. -/
def isBare (key : String) : Bool := !key.toList.isEmpty && key.toList.all isKeyChar

theorem assignment_eq {key : String} (h : isBare key = true) (v : List Char) :
    ∃ c k, isKeyChar c = true ∧ k.all isKeyChar = true ∧ key = String.ofList (c :: k) ∧
      assignment key v = c :: k ++ ' ' :: '=' :: ' ' :: v := by
  cases hk : key.toList with
  | nil => simp [isBare, hk] at h
  | cons c k =>
      obtain ⟨hc, hall⟩ : isKeyChar c = true ∧ k.all isKeyChar = true := by
        simpa [isBare, hk] using h
      refine ⟨c, k, hc, hall, ?_, ?_⟩
      · rw [← hk, String.ofList_toList]
      · simp [assignment, hk]

theorem value_cons (h : endsPart c = false) (depth : Nat) (cs : List Char) :
    value depth (c :: cs) = scalar (c :: cs) := by
  have hbracket : c ≠ '[' := ne_of_endsPart h (by decide)
  have hbrace : c ≠ '\x7b' := ne_of_endsPart h (by decide)
  cases depth with
  | zero => rfl
  | succ depth =>
      exact value.eq_4 _ _ (fun _ e => hbracket (List.cons.inj e).1)
        fun _ e => hbrace (List.cons.inj e).1

/-- A value without brackets. -/
theorem statementValue_cons (h : endsPart c = false) (cs : List Char) :
    statementValue (c :: cs) = scalar (c :: cs) := by
  have hfeed : c ≠ '\n' := ne_of_endsPart h (by decide)
  have hreturn : c ≠ '\r' := ne_of_endsPart h (by decide)
  have hcomment : c ≠ '#' := ne_of_endsPart h (by decide)
  have hcomma : c ≠ ',' := ne_of_endsPart h (by decide)
  simp [statementValue, hfeed, hreturn, hcomment, hcomma, value_cons h]

/-- An assignment is a statement of its key, with the value that stands behind the sign. -/
theorem statement_assignment {key : String} (hbare : isBare key = true) (hc : endsPart c = false)
    (hv : scalar (c :: cs) = some (d, tail)) :
    statement (assignment key (c :: cs)) = some (.assign [.text key] d, tail) := by
  obtain ⟨a, k, ha, hk, rfl, hassign⟩ := assignment_eq hbare (c :: cs)
  have hbracket : a ≠ '[' := ne_of_endsPart (endsPart_of_isKeyChar ha) (by decide)
  have hkey := key_bare ha hk (' ' :: c :: cs)
  have hblanks : skipBlanks (' ' :: c :: cs) = c :: cs := skipBlanks_cons hc cs
  rw [List.cons_append] at hassign hkey
  rw [hassign, statement.eq_3 _ (fun _ e => hbracket (List.cons.inj e).1)
    fun _ e => hbracket (List.cons.inj e).1, hkey]
  simp only [Text.after?, if_true, Option.bind_eq_bind, Option.bind_some, hblanks,
    statementValue_cons hc, hv]
  rfl

/-- A document that goes on with remarks and an assignment. -/
theorem statements_assignment {key : String} (hr : remarks.all isRemark = true)
    (hk : isBare key = true) (hc : endsPart c = false) (hv : scalar (c :: cs) = some (d, tail))
    (n : Nat) :
    statements (n + 1) (ended remarks ++ assignment key (c :: cs)) =
      ((statementEnd tail).bind (statements n)).map (.assign [.text key] d :: ·) := by
  have hstatement := statement_assignment hk hc hv
  obtain ⟨a, k, ha, -, -, hassign⟩ := assignment_eq hk (c :: cs)
  rw [hassign, List.cons_append] at hstatement ⊢
  rw [statements, skipGap_remarks hr (skipLines_cons (endsPart_of_isKeyChar ha) _)]
  simp only [hstatement]
  cases statementEnd tail <;> rfl

end Shipment.Toml
