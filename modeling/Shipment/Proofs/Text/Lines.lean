import Shipment.Proofs.Description
import Shipment.Text.Lines

/-!
# Trimming and lines

What trimming takes away is blank, and blanks at the end of a text make no difference to it.
`lines_line` cuts the first line off a text.  The carriage return that belongs to its end is
dropped by `chomp`, and trimming would have dropped it anyway.
-/

namespace Shipment.Text

variable {a b cs : List Char} {c : Char}

/-! ## Trimming -/

/-- What stands behind a character that is not blank is trimmed alone. -/
theorem trimEnd_append (h : ∃ c ∈ b, isBlank c = false) : trimEnd (a ++ b) = a ++ trimEnd b := by
  obtain ⟨c, hc, hcb⟩ := h
  have hne : (b.reverse.dropWhile isBlank).isEmpty = false := by
    rw [List.isEmpty_eq_false_iff, ne_eq, List.dropWhile_eq_nil_iff]
    intro hall
    rw [hall c (List.mem_reverse.mpr hc)] at hcb
    cases hcb
  simp [trimEnd, List.dropWhile_append, hne]

theorem trimEnd_append_blank (h : ∀ c ∈ b, isBlank c = true) : trimEnd (a ++ b) = trimEnd a := by
  have hb : b.reverse.dropWhile isBlank = [] := by simpa using h
  simp [trimEnd, List.dropWhile_append, hb]

/-- Blanks at the end make no difference. -/
theorem trim_append_blank (h : ∀ c ∈ b, isBlank c = true) : trim (a ++ b) = trim a := by
  have hb : b.dropWhile isBlank = [] := by simpa using h
  unfold trim trimStart
  rw [List.dropWhile_append]
  split
  · rename_i hempty
    rw [List.isEmpty_iff.mp hempty, hb]
  · exact trimEnd_append_blank h

/-- What trimming the end takes away is blank. -/
theorem exists_blank_end (cs : List Char) :
    ∃ b, (∀ c ∈ b, isBlank c = true) ∧ trimEnd cs ++ b = cs := by
  refine ⟨(cs.reverse.takeWhile isBlank).reverse, fun c hc => ?_, ?_⟩
  · exact List.mem_takeWhile_imp (List.mem_reverse.mp hc)
  · rw [trimEnd, ← List.reverse_append, List.takeWhile_append_dropWhile, List.reverse_reverse]

theorem trim_trimEnd (cs : List Char) : trim (trimEnd cs) = trim cs := by
  obtain ⟨b, hb, hcs⟩ := exists_blank_end cs
  conv => rhs; rw [← hcs, trim_append_blank hb]

theorem unblank_of_any (h : cs.any isBlank = false) : ∀ c ∈ cs, isBlank c = false := by
  simpa using h

theorem trimEnd_of_unblank (h : ∀ c ∈ cs, isBlank c = false) : trimEnd cs = cs := by
  refine List.rdropWhile_eq_self_iff.mpr fun hne => ?_
  rw [h _ (List.getLast_mem hne)]
  exact Bool.false_ne_true

/-- A text without blanks is trimmed. -/
theorem trim_of_unblank (h : ∀ c ∈ cs, isBlank c = false) : trim cs = cs := by
  have hstart : trimStart cs = cs := by
    cases cs with
    | nil => rfl
    | cons c cs => exact trimStart_cons (h c List.mem_cons_self)
  rw [trim, hstart, trimEnd_of_unblank h]

/-- Blanks at the start make no difference. -/
theorem trim_blank_append (h : ∀ c ∈ b, isBlank c = true) : trim (b ++ a) = trim a := by
  rw [trim, trimStart, List.dropWhile_append_of_pos h]
  rfl

theorem trim_eq_nil : trim cs = [] ↔ ∀ c ∈ cs, isBlank c = true := by
  refine ⟨fun h => ?_, fun h => ?_⟩
  · cases hs : trimStart cs with
    | nil => exact List.dropWhile_eq_nil_iff.mp hs
    | cons c l =>
        have hhead := List.head?_dropWhile_not isBlank cs
        rw [show cs.dropWhile isBlank = c :: l from hs] at hhead
        have hempty : (trim (c :: l)).isEmpty = false := isEmpty_trim_cons (by simpa using hhead)
        rw [trim, trimStart_cons (by simpa using hhead), ← hs,
          show trimEnd (trimStart cs) = [] from h] at hempty
        cases hempty
  · have hnil := trim_append_blank (a := []) h
    rwa [List.nil_append] at hnil

/-! ## What stands between the ends -/

/-- A text, and what is left of it without the characters of a kind at its ends. -/
inductive Bare (p : Char → Bool) : List Char → List Char → Prop where
  | intro {front core behind : List Char} : (∀ c ∈ front, p c = true) →
      (∀ c ∈ behind, p c = true) → (∀ c, core.head? = some c → p c = false) →
      (∀ c, core.getLast? = some c → p c = false) → Bare p (front ++ (core ++ behind)) core

theorem bare_dropWhile (p : Char → Bool) (cs : List Char) :
    Bare p cs ((cs.dropWhile p).rdropWhile p) := by
  have hfront : ∀ c ∈ cs.takeWhile p, p c = true := fun c hc => List.mem_takeWhile_imp hc
  have hbehind : ∀ c ∈ (cs.dropWhile p).rtakeWhile p, p c = true := fun c hc =>
    List.mem_rtakeWhile_imp hc
  have hsplit : (cs.dropWhile p).rdropWhile p ++ (cs.dropWhile p).rtakeWhile p = cs.dropWhile p :=
    List.rdropWhile_append_rtakeWhile
  have hhead : ∀ c, ((cs.dropWhile p).rdropWhile p).head? = some c → p c = false := by
    intro c hc
    have hstop := List.head?_dropWhile_not p cs
    rw [← hsplit, List.head?_append, hc] at hstop
    exact hstop
  have hlast : ∀ c, ((cs.dropWhile p).rdropWhile p).getLast? = some c → p c = false := by
    intro c hc
    obtain ⟨hne, rfl⟩ := List.mem_getLast?_eq_getLast hc
    exact Bool.eq_false_iff.mpr (List.rdropWhile_last_not p _ hne)
  have hbare := Bare.intro hfront hbehind hhead hlast
  rwa [hsplit, List.takeWhile_append_dropWhile] at hbare

/-- A bare text is what is left when a kind of characters is dropped at both ends. -/
theorem Bare.dropWhile_eq {p : Char → Bool} {core : List Char} (h : Bare p cs core) :
    (cs.dropWhile p).rdropWhile p = core := by
  cases h with
  | @intro front _ behind hfront hbehind hhead hlast =>
      rw [List.dropWhile_append_of_pos hfront]
      cases core with
      | nil =>
          rw [List.nil_append, List.dropWhile_eq_nil_iff.mpr hbehind]
          rfl
      | cons c core =>
          have hcore : (c :: core).rdropWhile p = c :: core := by
            rw [List.rdropWhile_eq_self_iff]
            intro hne
            rw [hlast _ (List.getLast?_eq_getLast_of_ne_nil hne)]
            exact Bool.false_ne_true
          rw [List.cons_append, List.dropWhile_cons_of_neg (by simp [hhead c rfl]),
            ← List.cons_append, List.rdropWhile, List.reverse_append,
            List.dropWhile_append_of_pos (by simpa using hbehind)]
          exact hcore

/-- What is left of a text is what dropping from both ends leaves. -/
theorem bare_iff {p : Char → Bool} {core : List Char} :
    Bare p cs core ↔ (cs.dropWhile p).rdropWhile p = core :=
  ⟨Bare.dropWhile_eq, fun h => h ▸ bare_dropWhile p cs⟩

/-- What trimming leaves stands between blanks. -/
theorem bare_isBlank_iff {core : List Char} : Bare isBlank cs core ↔ trim cs = core := bare_iff

/-! ## Lines -/

/-- A line without the carriage return at its end. -/
def chomp (line : List Char) : List Char :=
  if line.getLast? = some '\r' then line.dropLast else line

/-- What is dropped from a line is blank. -/
theorem exists_chomp (line : List Char) :
    ∃ b, (∀ c ∈ b, isBlank c = true) ∧ line = chomp line ++ b := by
  unfold chomp
  split
  · rename_i h
    exact ⟨['\r'], List.forall_mem_singleton.mpr rfl, (List.dropLast_append_getLast? '\r' h).symm⟩
  · exact ⟨[], nofun, (List.append_nil line).symm⟩

theorem trim_chomp (line : List Char) : trim (chomp line) = trim line := by
  obtain ⟨b, hb, hline⟩ := exists_chomp line
  conv => rhs; rw [hline, trim_append_blank hb]

theorem chomp_cons (h : a ≠ []) : chomp (c :: a) = c :: chomp a := by
  unfold chomp
  rw [List.getLast?_cons_of_ne_nil h, List.dropLast_cons_of_ne_nil h]
  split <;> rfl

theorem chomp_append_cons (hc : c ≠ '\r') : chomp (a ++ c :: b) = a ++ c :: chomp b := by
  induction a with
  | nil =>
      cases b with
      | nil => simp [chomp, hc]
      | cons d b => exact chomp_cons (List.cons_ne_nil d b)
  | cons d a ih => rw [List.cons_append, chomp_cons (by simp), ih, List.cons_append]

/-- A character that ends no line belongs to the line behind it. -/
theorem lines_cons_of (hn : c ≠ '\n') (hr : c = '\r' → cs.head? ≠ some '\n') :
    lines (c :: cs) = match lines cs with
      | [] => [[c]]
      | l :: ls => (c :: l) :: ls :=
  lines.eq_4 c cs hn fun rest hc hcs => hr hc (by rw [hcs]; rfl)

/-- The first line of a text, and those behind it. -/
theorem lines_line (h : '\n' ∉ a) : lines (a ++ '\n' :: b) = chomp a :: lines b := by
  induction a with
  | nil => rfl
  | cons c a ih =>
      obtain ⟨hc, ha⟩ := not_or.mp (List.mem_cons.not.mp h)
      cases a with
      | nil =>
          by_cases hr : c = '\r'
          · subst hr
            rfl
          · have hchomp : chomp [c] = [c] := by simp [chomp, hr]
            rw [hchomp, List.singleton_append, lines_cons_of (Ne.symm hc) (absurd · hr)]
            rfl
      | cons d a =>
          have hd : d ≠ '\n' := fun e => ha (e ▸ List.mem_cons_self)
          rw [List.cons_append, lines_cons_of (Ne.symm hc) (fun _ => by simpa using hd), ih ha,
            chomp_cons (List.cons_ne_nil d a)]

/-- A text on one line. -/
theorem lines_of_noFeed (h : '\n' ∉ cs) (hne : cs ≠ []) : lines cs = [cs] := by
  induction cs with
  | nil => exact absurd rfl hne
  | cons c cs ih =>
      obtain ⟨hc, hcs⟩ := not_or.mp (List.mem_cons.not.mp h)
      have hhead : cs.head? ≠ some '\n' := fun e => hcs (List.mem_of_mem_head? e)
      rw [lines_cons_of (Ne.symm hc) fun _ => hhead]
      cases cs with
      | nil => rfl
      | cons d cs => rw [ih hcs (List.cons_ne_nil d cs)]

/-- The first line of a text.  What ends it is a line feed, and the carriage return right before
that if there is one. -/
inductive FirstLine : List Char → List Char → Prop where
  | whole {line : List Char} : '\n' ∉ line → FirstLine line line
  | feed {line rest : List Char} : '\n' ∉ line → line.getLast? ≠ some '\r' →
      FirstLine (line ++ '\n' :: rest) line
  | carriage {line rest : List Char} : '\n' ∉ line → FirstLine (line ++ '\r' :: '\n' :: rest) line

theorem firstLine_of_noFeed (h : '\n' ∉ cs) : firstLine cs = cs := by
  cases cs with
  | nil => rfl
  | cons c cs => rw [firstLine, lines_of_noFeed h (List.cons_ne_nil c cs)]; rfl

/-- The first line is what stands before the first end of a line, or all of the text. -/
theorem firstLine_eq_iff {line : List Char} : firstLine cs = line ↔ FirstLine cs line := by
  constructor
  · rintro rfl
    by_cases hfeed : '\n' ∈ cs
    · obtain ⟨a, b, rfl, ha⟩ := List.eq_append_cons_of_mem hfeed
      rw [firstLine, lines_line ha, List.headD_cons, chomp]
      split
      · rename_i hlast
        have hsplit := List.dropLast_append_getLast? '\r' hlast
        have hfront : '\n' ∉ a.dropLast := fun h => ha ((List.dropLast_sublist a).subset h)
        conv => arg 1; rw [← hsplit, List.append_assoc, List.singleton_append]
        exact .carriage hfront
      · rename_i hlast
        exact .feed ha hlast
    · rw [firstLine_of_noFeed hfeed]
      exact .whole hfeed
  · intro h
    cases h with
    | whole hfeed => exact firstLine_of_noFeed hfeed
    | feed hfeed hlast => rw [firstLine, lines_line hfeed, chomp, if_neg hlast]; rfl
    | @carriage line rest hfeed =>
        have hfeed' : '\n' ∉ line ++ ['\r'] := by simp [hfeed]
        rw [← List.singleton_append, ← List.append_assoc, firstLine, lines_line hfeed', chomp]
        simp

/-! ## Reading lines -/

/-- Induction over the lines of a text. -/
@[elab_as_elim]
theorem lineInduction {P : List Char → Prop} (whole : ∀ line, '\n' ∉ line → P line)
    (feed : ∀ line rest, '\n' ∉ line → P rest → P (line ++ '\n' :: rest)) (cs : List Char) :
    P cs := by
  by_cases hfeed : '\n' ∈ cs
  · obtain ⟨line, rest, hcs, hline⟩ := List.eq_append_cons_of_mem hfeed
    have hlt : rest.length < cs.length := by
      rw [hcs, List.length_append, List.length_cons]
      omega
    rw [hcs]
    exact feed line rest hline (lineInduction whole feed rest)
  · exact whole cs hfeed
termination_by cs.length

/-- Blanks at the end of a line make no difference to a reader, and an empty line tells it
nothing. -/
structure Heedless {β : Type} (f : List Char → Option β) : Prop where
  append : ∀ line b, (∀ c ∈ b, isBlank c = true) → f (line ++ b) = f line
  nil : f [] = none

namespace Heedless

variable {β : Type} {f : List Char → Option β}

theorem eq_none (h : Heedless f) (hb : ∀ c ∈ b, isBlank c = true) : f b = none := by
  rw [← h.nil, ← h.append [] b hb, List.nil_append]

theorem chomp (h : Heedless f) (line : List Char) : f (chomp line) = f line := by
  obtain ⟨b, hb, hline⟩ := exists_chomp line
  conv => rhs; rw [hline, h.append _ _ hb]

/-- A text on one line is read as that line. -/
theorem findSome?_of_noFeed (h : Heedless f) (hline : '\n' ∉ a) : (lines a).findSome? f = f a := by
  cases a with
  | nil => exact h.nil.symm
  | cons c a =>
      rw [lines_of_noFeed hline (List.cons_ne_nil c a), List.findSome?_singleton]

theorem findSome?_line (h : Heedless f) (hline : '\n' ∉ a) (b : List Char) :
    (lines (a ++ '\n' :: b)).findSome? f = (f a).or ((lines b).findSome? f) := by
  rw [lines_line hline, List.findSome?_cons, h.chomp]
  cases f a <;> rfl

theorem findSome?_blank (h : Heedless f) (hb : ∀ c ∈ b, isBlank c = true) :
    (lines b).findSome? f = none := by
  induction b using lineInduction with
  | whole line hline => rw [h.findSome?_of_noFeed hline, h.eq_none hb]
  | feed line rest hline ih =>
      obtain ⟨hblank, hrest⟩ := List.forall_mem_append.mp hb
      rw [h.findSome?_line hline, h.eq_none hblank, ih (List.forall_mem_cons.mp hrest).2]
      rfl

/-- Blanks at the end of a text make no difference to what is read first. -/
theorem findSome?_append (h : Heedless f) (hb : ∀ c ∈ b, isBlank c = true) (a : List Char) :
    (lines (a ++ b)).findSome? f = (lines a).findSome? f := by
  induction a using lineInduction with
  | whole line hline =>
      rw [h.findSome?_of_noFeed hline]
      by_cases hfeed : '\n' ∈ b
      · -- The last line ends where the blanks have their first line feed.
        obtain ⟨front, rest, rfl, hfront⟩ := List.eq_append_cons_of_mem hfeed
        obtain ⟨hblank, hrest⟩ := List.forall_mem_append.mp hb
        have hwhole : '\n' ∉ line ++ front := by simp [hline, hfront]
        rw [← List.append_assoc, h.findSome?_line hwhole, h.append line front hblank,
          h.findSome?_blank (List.forall_mem_cons.mp hrest).2, Option.or_none]
      · have hwhole : '\n' ∉ line ++ b := by simp [hline, hfeed]
        rw [h.findSome?_of_noFeed hwhole, h.append line b hb]
  | feed line rest hline ih =>
      rw [List.append_assoc, List.cons_append, h.findSome?_line hline, h.findSome?_line hline, ih]

/-- So trimming does. -/
theorem findSome?_trim (h : Heedless f) (cs : List Char) :
    (lines (trim cs)).findSome? f = (lines (trimStart cs)).findSome? f := by
  obtain ⟨b, hb, hcs⟩ := exists_blank_end (trimStart cs)
  conv => rhs; rw [← hcs, h.findSome?_append hb]
  rfl

end Heedless

/-! ## Starts and separators -/

theorem after?_eq_some {start rest : List Char} :
    after? start cs = some rest ↔ cs = start ++ rest := by
  constructor
  · intro h
    have hprefix : start <+: cs := by
      by_contra hn
      rw [after?_eq_none.mpr hn] at h
      cases h
    obtain ⟨rest', rfl⟩ := hprefix
    rw [after?_append] at h
    cases h
    rfl
  · rintro rfl
    exact after?_append start rest

/-- A text that was cut is its parts with the separator between them. -/
theorem eq_of_splitOnce {sep : List Char} (h : splitOnce sep cs = some (a, b)) :
    cs = a ++ (sep ++ b) := by
  induction cs generalizing a with
  | nil =>
      rw [splitOnce] at h
      split at h
      · rename_i hsep
        cases h
        rw [List.isEmpty_iff.mp hsep]
        rfl
      · cases h
  | cons d cs ih =>
      rw [splitOnce] at h
      split at h
      · rename_i hprefix
        obtain ⟨rest, hrest⟩ := List.isPrefixOf_iff_prefix.mp hprefix
        cases h
        rw [← hrest, List.drop_left, List.nil_append]
      · obtain ⟨⟨front, rest⟩, hsplit, hparts⟩ := Option.map_eq_some_iff.mp h
        cases hparts
        rw [ih hsplit, List.cons_append]

theorem splitOnce_append (h : c ∉ a) : splitOnce [c] (a ++ c :: b) = some (a, b) := by
  induction a with
  | nil => simp [splitOnce]
  | cons d a ih =>
      obtain ⟨hd, ha⟩ := not_or.mp (List.mem_cons.not.mp h)
      simp [splitOnce, hd, ih ha]

theorem splitOnce_eq_none (h : c ∉ cs) : splitOnce [c] cs = none := by
  induction cs with
  | nil => rfl
  | cons d cs ih =>
      obtain ⟨hd, hcs⟩ := not_or.mp (List.mem_cons.not.mp h)
      simp [splitOnce, hd, ih hcs]

end Shipment.Text
