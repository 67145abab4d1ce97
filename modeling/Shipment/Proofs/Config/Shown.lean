import Shipment.Command.Configure
import Shipment.Proofs.Config.Document
import Shipment.Proofs.Panel
import Shipment.Proofs.Text.Quoted

/-!
# What is shown of a configuration

A configuration is shown line by line, each key in a colour.  `Terminal.unstyled` takes the colours
off again.  What is left has a line for each key with a value (`unstyled_shownConfig`), because
nothing in a line is a line feed or starts an escape sequence.  The main statement is that a shown
configuration is `ShownIn` its text and that no other one is (`shownIn_shownConfig`).
-/

namespace Shipment

variable {a b cs : List Char}

/-! ## Taking the colours off -/

namespace Terminal

/-- A text without its escape sequences, from inside or outside of one.  A sequence goes on up to
the letter `m`. -/
def unstyledFrom : (inside : Bool) → List Char → List Char
  | _, [] => []
  | true, c :: cs => unstyledFrom (c != 'm') cs
  | false, c :: cs => if c = '\x1b' then unstyledFrom true cs else c :: unstyledFrom false cs

/-- A text without its colours. -/
def unstyled (text : String) : List Char := unstyledFrom false text.toList

theorem unstyledFrom_append (h : '\x1b' ∉ a) :
    unstyledFrom false (a ++ b) = a ++ unstyledFrom false b := by
  induction a with
  | nil => rfl
  | cons c a ih =>
      obtain ⟨hc, ha⟩ := not_or.mp (List.mem_cons.not.mp h)
      simp [unstyledFrom, Ne.symm hc, ih ha]

theorem unstyledFrom_code (h : 'm' ∉ a) :
    unstyledFrom true (a ++ 'm' :: b) = unstyledFrom false b := by
  induction a with
  | nil => rfl
  | cons c a ih =>
      obtain ⟨hc, ha⟩ := not_or.mp (List.mem_cons.not.mp h)
      have hgoes : (c != 'm') = true := by simpa using Ne.symm hc
      rw [List.cons_append, unstyledFrom, hgoes, ih ha]

theorem unstyledFrom_rendition {code : String} (h : 'm' ∉ code.toList) (cs : List Char) :
    unstyledFrom false ((rendition code).toList ++ cs) = unstyledFrom false cs := by
  rw [toList_rendition]
  simpa [unstyledFrom] using unstyledFrom_code (b := cs) h

theorem unstyledFrom_cyan (cs : List Char) :
    unstyledFrom false (cyan.toList ++ cs) = unstyledFrom false cs :=
  unstyledFrom_rendition (by decide) cs

theorem unstyledFrom_reset (cs : List Char) :
    unstyledFrom false (reset.toList ++ cs) = unstyledFrom false cs :=
  unstyledFrom_rendition (by decide) cs

end Terminal

namespace Command

open Terminal Text

/-- A line is shown as it is, with a key or without. -/
theorem unstyledFrom_shownLine (h : '\x1b' ∉ a) :
    unstyledFrom false ((shownLine a).toList ++ b) = a ++ '\n' :: unstyledFrom false b := by
  unfold shownLine
  cases hsplit : splitOnce " = ".toList a with
  | none => simp [line, unstyledFrom_append h, unstyledFrom]
  | some parts =>
      obtain ⟨key, value⟩ := parts
      have hline : a = key ++ (" = ".toList ++ value) := eq_of_splitOnce hsplit
      have hshown : (line (styled cyan (String.ofList key) ++ " = " ++
          String.ofList value)).toList ++ b =
          cyan.toList ++ (key ++ (reset.toList ++ ((" = ".toList ++ value) ++ '\n' :: b))) := by
        simp [line, styled]
      rw [hline, List.mem_append, not_or] at h
      rw [hshown, hline, unstyledFrom_cyan, unstyledFrom_append h.1, unstyledFrom_reset,
        unstyledFrom_append h.2, ← List.append_assoc]
      rfl

end Command

namespace Config

open Terminal Text Toml

variable {c c' : Config} {text : String}

/-- The assignments of a configuration, one for each key that has a value. -/
def assignments (c : Config) : List String :=
  ["draft = " ++ truthText c.draft, "sync = " ++ truthText c.sync] ++
    (c.base.map fun base => "base = " ++ quoted base).toList

/-- A text shows a configuration. -/
structure ShownIn (text : String) (c : Config) : Prop where
  /-- Without its colours the text has a line for each key that has a value. -/
  lines : lines (unstyled text) = c.assignments.map String.toList
  /-- Without its colours it is a document of the configuration, if the base is plain. -/
  reads : c.isPlain = true → read (String.ofList (unstyled text)) = .ok c

/-! ## The assignments -/

/-- Nothing in an assignment is a line feed or starts an escape sequence. -/
theorem isShown_of_mem_assignments {line : String} (h : line ∈ c.assignments) :
    ∀ ch ∈ line.toList, isShown ch = true := by
  have htruth (b : Bool) : ∀ ch ∈ (truthText b).toList, isShown ch = true := by
    cases b <;> simp [truthText, isShown]
  simp only [assignments, List.mem_append, List.mem_cons, List.not_mem_nil, or_false,
    Option.mem_toList, Option.map_eq_some_iff] at h
  rcases h with (rfl | rfl) | ⟨base, -, rfl⟩ <;> rw [String.toList_append, List.forall_mem_append]
  · exact ⟨by simp [isShown], htruth c.draft⟩
  · exact ⟨by simp [isShown], htruth c.sync⟩
  · rw [toList_quoted]
    exact ⟨by simp [isShown], fun ch hch => isShown_of_mem_quote hch⟩

/-- The short text ends the last assignment with nothing, and every other with a line feed. -/
theorem toList_shortText_feed (c : Config) :
    c.shortText.toList ++ ['\n'] = ended c.assignments := by
  cases hb : c.base <;> simp [shortText, assignments, ended, hb, baseText]

/-- Lines of characters that are shown are read off a text of them. -/
theorem lines_ended {ls : List String} (h : ∀ line ∈ ls, ∀ ch ∈ line.toList, isShown ch = true) :
    Text.lines (ended ls) = ls.map String.toList := by
  induction ls with
  | nil => rfl
  | cons line ls ih =>
      obtain ⟨hline, hls⟩ := List.forall_mem_cons.mp h
      rw [ended_cons, lines_shown hline, ih hls, List.map_cons]

theorem truthText_inj : ∀ {a b : Bool}, truthText a = truthText b → a = b := by decide

/-- The assignments tell the three values of a configuration apart. -/
theorem assignments_inj (h : c.assignments = c'.assignments) : c = c' := by
  obtain ⟨draft, sync, base⟩ := c
  obtain ⟨draft', sync', base'⟩ := c'
  simp only [assignments, List.cons_append, List.nil_append, List.cons.injEq,
    String.append_right_inj] at h
  obtain ⟨hdraft, hsync, hbase⟩ := h
  rw [truthText_inj hdraft, truthText_inj hsync]
  cases base with
  | none => cases base' with
    | none => rfl
    | some base' => cases hbase
  | some base => cases base' with
    | none => cases hbase
    | some base' =>
        simp only [Option.map_some, Option.toList_some, List.cons.injEq, and_true,
          String.append_right_inj] at hbase
        rw [quoted_inj hbase]

/-! ## The shown text -/

/-- The short text has the assignments for its lines. -/
theorem lines_shortText (c : Config) :
    Text.lines c.shortText.toList = c.assignments.map String.toList := by
  obtain ⟨ch, hlast, hch⟩ : ∃ ch, c.shortText.toList.getLast? = some ch ∧ isShown ch = true := by
    obtain ⟨draft, sync, base⟩ := c
    cases base with
    | none => cases draft <;> cases sync <;> exact ⟨'e', by decide, by decide⟩
    | some base =>
        refine ⟨'"', ?_, by decide⟩
        simp only [shortText, baseText, String.toList_append, toList_quoted, quote,
          List.getLast?_append, List.getLast?_singleton, Option.some_or]
  rw [← lines_append_feed hlast hch, toList_shortText_feed]
  exact lines_ended fun _ => isShown_of_mem_assignments

/-- Lines that start no escape sequence are shown as they are. -/
theorem unstyled_shownLines {ls : List String} (h : ∀ line ∈ ls, '\x1b' ∉ line.toList) :
    unstyled (String.join ((ls.map String.toList).map Command.shownLine)) = ended ls := by
  induction ls with
  | nil => rfl
  | cons line ls ih =>
      obtain ⟨hline, hls⟩ := List.forall_mem_cons.mp h
      rw [ended_cons, ← ih hls, unstyled, List.map_cons, List.map_cons, String.join_cons,
        String.toList_append, Command.unstyledFrom_shownLine hline]
      rfl

/-- A configuration is shown with its assignments, once the colours are off. -/
theorem unstyled_shownConfig (c : Config) :
    unstyled (Command.shownConfig c) = ended c.assignments := by
  rw [Command.shownConfig, lines_shortText]
  refine unstyled_shownLines fun line hline hmem => ?_
  exact absurd (isShown_of_mem_assignments hline _ hmem) (by decide)

/-- The assignments are a document of the configuration, unless its base is not plain. -/
theorem read_ended (c : Config) : read (String.ofList (ended c.assignments)) =
    if c.isPlain then .ok c else .error .malformed := by
  have hremarks : ([] : List String).all isRemark = true := rfl
  have htext : (String.ofList (ended c.assignments)).toList =
      switchesText [] [] c ('\n' :: c.base.elim []
        fun base => assignment "base" (quote base.toList ++ ['\n'])) := by
    cases hb : c.base <;>
      simp [assignments, switchesText, ended, assignment, hb, toList_quoted]
  refine read_switchesText hremarks hremarks htext (by simp) rfl ?_
  cases hbase : c.base with
  | none => exact .absent hremarks hbase
  | some base => exact .present hremarks hbase (.inr rfl)

/-- A text shows one configuration at most, whatever the bases. -/
theorem ShownIn.unique (h : ShownIn text c) (h' : ShownIn text c') : c = c' := by
  have hlines := h.lines.symm.trans h'.lines
  exact assignments_inj (List.map_injective_iff.mpr (fun _ _ => String.toList_inj.mp) hlines)

/-- The text a configuration is shown as shows it and no other. -/
theorem shownIn_shownConfig : ShownIn (Command.shownConfig c) c' ↔ c' = c := by
  have hshown : ShownIn (Command.shownConfig c) c := by
    refine ⟨?lines, fun hplain => ?reads⟩
    case lines =>
      rw [unstyled_shownConfig]
      exact lines_ended fun _ => isShown_of_mem_assignments
    case reads => rw [unstyled_shownConfig, read_ended, if_pos hplain]
  constructor
  · exact fun h => h.unique hshown
  · rintro rfl
    exact hshown

/-- The base is quoted, so no part of it is taken for a colour. -/
example : String.ofList (unstyled (Command.shownConfig { base := some "a\x1b[0m" })) =
    "draft = false\nsync = false\nbase = \"a\\u\x7b1b\x7d[0m\"\n" := by decide +kernel

end Config

end Shipment
