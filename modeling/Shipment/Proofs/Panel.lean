import Mathlib.Data.List.DropRight
import Mathlib.Data.List.Forall2
import Shipment.Proofs.BranchName
import Shipment.Terminal.Panel

/-!
# What a panel shows

A panel is read back here.  `uncoloured` takes the colours off a line, which stand around its first
and its last character only.  `sections` finds the rows of each section between the rules, and
`readRow` takes the border, the indent and the padding off a row.

Every line of a panel has 64 columns without its colours (`length_uncoloured`).  What is read back
of a section is its text, line by line: a short line in one piece, and a long one in pieces that
join to it.  No piece is empty, which is why cutting a line ends.  A piece loses the spaces at its
end and nothing else, since they look like padding.
-/

namespace Shipment.Terminal

variable {cs line : List Char} {kind message label text : String} {remedy : Option String}

/-! ## Reading a panel -/

/-- A text without a code that it starts with. -/
def dropCode (code : String) (cs : List Char) : List Char := (Text.after? code.toList cs).getD cs

/-- A text without a code that it ends with. -/
def dropLastCode (code : String) (cs : List Char) : List Char :=
  ((Text.after? code.toList.reverse cs.reverse).getD cs.reverse).reverse

/-- A line without the codes around its first character. -/
def uncolouredStart (cs : List Char) : List Char :=
  match dropCode bold (dropCode red cs) with
  | [] => []
  | border :: rest => border :: dropCode reset rest

/-- A line without the codes around its last character. -/
def uncolouredEnd (cs : List Char) : List Char :=
  match (dropLastCode reset cs).getLast? with
  | none => []
  | some border => dropLastCode red (dropLastCode reset cs).dropLast ++ [border]

/-- A line of a panel without its colours. -/
def uncoloured (line : String) : List Char := uncolouredEnd (uncolouredStart line.toList)

/-- A text without the padding behind it. -/
def unpadded (cs : List Char) : List Char := cs.rdropWhile (· == ' ')

/-- The text of a row: what stands behind the border, the space beside it and the indent, without
the padding and what follows it. -/
def readRow (line : String) : List Char := unpadded (((uncoloured line).drop 4).rdrop 2)

/-- Whether a line is the rule that opens a section. -/
def isRule (line : String) : Bool := (uncoloured line).head? == some '╟'

/-- Whether a line is a row with text. -/
def isRow (line : String) : Bool := (uncoloured line).head? == some '║'

/-- The rows of a section, without its label. -/
def sectionRows (part : List String) : List String := (part.filter isRow).tail

/-- The rows of the sections of a panel. -/
def sections (lines : List String) : List (List String) :=
  (lines.splitOnP isRule).tail.map sectionRows

/-! ## What is shown -/

/-- A line of a text and the pieces it is shown in. -/
structure Cut (line : List Char) (pieces : List (List Char)) : Prop where
  /-- No character is dropped. -/
  joined : pieces.flatten = line
  /-- A line that fits is not cut. -/
  whole : line.length ≤ 58 → pieces = [line]
  /-- Any other line is cut into short pieces. -/
  short : 58 < line.length → ∀ piece ∈ pieces, piece ≠ [] ∧ piece.length ≤ 56

/-- A text and the texts of the rows it is shown in. -/
def Shows (content : String) (texts : List (List Char)) : Prop :=
  ∃ pieces : List (List (List Char)), List.Forall₂ Cut (Text.lines content.toList) pieces ∧
    texts = pieces.flatten.map unpadded

/-! ## Cutting lines -/

theorem cutAt_le (cs : List Char) : cutAt cs ≤ pieceWidth := by
  simp only [cutAt]
  split
  · exact Nat.le_refl _
  · have hdrop := List.length_dropWhile_le (fun c => !endsPiece c) (cs.take pieceWidth).reverse
    have htake := List.length_take_le pieceWidth cs
    simp only [List.length_reverse] at hdrop
    omega

theorem flatten_pieces (cs : List Char) : (pieces cs).flatten = cs := by
  fun_induction pieces cs with
  | case1 cs h => simpa using h.symm
  | case2 cs _ h => simp
  | case3 cs _ _ ih => rw [List.flatten_cons, ih, List.take_append_drop]

/-- A piece of a line is neither empty nor wider than a row. -/
theorem mem_pieces {piece : List Char} (h : piece ∈ pieces cs) :
    piece ≠ [] ∧ piece.length ≤ pieceWidth := by
  fun_induction pieces cs with
  | case1 => cases h
  | case2 cs hne hle =>
      rw [List.mem_singleton.mp h]
      exact ⟨by simpa using hne, hle⟩
  | case3 cs hne _ ih =>
      rcases List.mem_cons.mp h with rfl | h
      · have hpos := cutAt_pos cs
        have hle := cutAt_le cs
        refine ⟨?_, (List.length_take_le _ _).trans hle⟩
        rw [ne_eq, List.take_eq_nil_iff, not_or]
        exact ⟨by omega, by simpa using hne⟩
      · exact ih h

theorem cut_rows (cs : List Char) : Cut cs (rows cs) := by
  unfold rows
  split
  · rename_i h
    exact ⟨List.flatten_singleton, fun _ => rfl, fun hlong => absurd h (Nat.not_le.mpr hlong)⟩
  · rename_i h
    exact ⟨flatten_pieces cs, fun hshort => absurd hshort h, fun _ _ => mem_pieces⟩

theorem length_of_mem_rows {row : List Char} (h : row ∈ rows cs) : row.length ≤ contentWidth := by
  unfold rows at h
  split at h
  · rename_i hle
    rwa [List.mem_singleton.mp h]
  · exact (mem_pieces h).2.trans (by decide)

/-! ## Colours -/

theorem toList_rendition (code : String) :
    (rendition code).toList = '\x1b' :: '[' :: (code.toList ++ ['m']) := by
  simp [rendition, String.toList_append]

theorem dropCode_append (code : String) (cs : List Char) :
    dropCode code (code.toList ++ cs) = cs := by
  rw [dropCode, Text.after?_append, Option.getD_some]

theorem dropCode_of_ne (code : String) (h : cs.head? ≠ some '\x1b') :
    dropCode (rendition code) cs = cs := by
  have hnone : Text.after? (rendition code).toList cs = none := by
    rw [Text.after?_eq_none, toList_rendition]
    rintro ⟨rest, rfl⟩
    exact h rfl
  rw [dropCode, hnone, Option.getD_none]

theorem dropLastCode_append (code : String) (cs : List Char) :
    dropLastCode code (cs ++ code.toList) = cs := by
  rw [dropLastCode, List.reverse_append, Text.after?_append, Option.getD_some, List.reverse_reverse]

theorem dropLastCode_of_ne (code : String) (h : cs.getLast? ≠ some 'm') :
    dropLastCode (rendition code) cs = cs := by
  have hnone : Text.after? (rendition code).toList.reverse cs.reverse = none := by
    rw [Text.after?_eq_none, toList_rendition]
    rintro ⟨rest, hrest⟩
    have hlast := congrArg List.head? hrest
    rw [List.head?_reverse] at hlast
    exact h (by simpa using hlast.symm)
  rw [dropLastCode, hnone, Option.getD_none, List.reverse_reverse]

theorem uncolouredEnd_append (front : List Char) (border : Char) :
    uncolouredEnd (front ++ border :: reset.toList) = dropLastCode red front ++ [border] := by
  have hreset : dropLastCode reset (front ++ border :: reset.toList) = front ++ [border] := by
    rw [← dropLastCode_append reset (front ++ [border]), List.append_assoc, List.singleton_append]
  rw [uncolouredEnd, hreset, List.getLast?_concat, List.dropLast_concat]

/-- A line without colours, which no code of a colour could be mistaken in. -/
inductive Plain : List Char → Prop where
  | intro {left right : Char} {inner : List Char} : left ≠ '\x1b' → inner ≠ [] →
      inner.head? ≠ some '\x1b' → inner.getLast? ≠ some 'm' → Plain (left :: (inner ++ [right]))

/-- A line that is coloured all along. -/
theorem uncoloured_styled {style : String} (hstyle : style = red ++ bold ∨ style = red)
    (h : Plain text.toList) : uncoloured (styled style text) = text.toList := by
  generalize hline : text.toList = line at h
  obtain ⟨hleft, hne, hhead, hlast⟩ := h
  rename_i left right inner
  have hopen : dropCode bold (dropCode red (styled style text).toList) =
      left :: (inner ++ right :: reset.toList) := by
    have htext : (styled style text).toList =
        style.toList ++ left :: (inner ++ right :: reset.toList) := by
      simp [styled, hline]
    rcases hstyle with rfl | rfl
    · rw [htext, String.toList_append, List.append_assoc, dropCode_append, dropCode_append]
    · rw [htext, dropCode_append]
      exact dropCode_of_ne "1" (by simpa using hleft)
  have hbehind : (inner ++ right :: reset.toList).head? ≠ some '\x1b' := by
    rwa [List.head?_append_of_ne_nil _ hne]
  have hstart : uncolouredStart (styled style text).toList =
      (left :: inner) ++ right :: reset.toList := by
    rw [uncolouredStart, hopen]
    exact congrArg (left :: ·) (dropCode_of_ne "0" hbehind)
  have hend : dropLastCode red (left :: inner) = left :: inner :=
    dropLastCode_of_ne "31" (by rwa [List.getLast?_cons_of_ne_nil hne])
  rw [uncoloured, hstart, uncolouredEnd_append, hend, List.cons_append]

/-- A row between coloured borders. -/
theorem uncoloured_row (text : String) :
    uncoloured (styled red "║" ++ text ++ styled red "║") = '║' :: (text.toList ++ ['║']) := by
  have hrow : (styled red "║" ++ text ++ styled red "║").toList =
      red.toList ++ '║' :: (reset.toList ++ (text.toList ++ (red.toList ++ '║' :: reset.toList))) := by
    simp [styled]
  have hopen : dropCode bold (dropCode red (styled red "║" ++ text ++ styled red "║").toList) =
      '║' :: (reset.toList ++ (text.toList ++ (red.toList ++ '║' :: reset.toList))) := by
    rw [hrow, dropCode_append]
    exact dropCode_of_ne "1" (by simp)
  have hstart : uncolouredStart (styled red "║" ++ text ++ styled red "║").toList =
      ('║' :: text.toList ++ red.toList) ++ '║' :: reset.toList := by
    rw [uncolouredStart, hopen]
    simp only [dropCode_append, List.cons_append, List.append_assoc]
  rw [uncoloured, hstart, uncolouredEnd_append, dropLastCode_append, List.cons_append]

/-! ## Lines -/

theorem toList_spaces (n : Nat) : (spaces n).toList = List.replicate n ' ' := by
  rw [spaces, Text.toList_pushn]
  rfl

theorem toList_repeated {c : Char} (h : text.toList = [c]) (n : Nat) :
    (repeated n text).toList = List.replicate n c := by
  rw [repeated, String.toList_join]
  induction n with
  | zero => rfl
  | succ n ih =>
      rw [List.replicate_succ, List.flatMap_cons, ih, h, List.singleton_append,
        List.replicate_succ]

/-- A line drawn across the panel. -/
theorem uncoloured_across {style left fill right : String} {l f r : Char}
    (hstyle : style = red ++ bold ∨ style = red) (hleft : left.toList = [l])
    (hfill : fill.toList = [f]) (hright : right.toList = [r]) (hl : l ≠ '\x1b') (hf : f ≠ '\x1b')
    (hm : f ≠ 'm') : uncoloured (styled style (left ++ repeated (panelWidth - 2) fill ++ right)) =
      l :: (List.replicate (panelWidth - 2) f ++ [r]) := by
  have htext : (left ++ repeated (panelWidth - 2) fill ++ right).toList =
      l :: (List.replicate (panelWidth - 2) f ++ [r]) := by
    simp [hleft, hright, toList_repeated hfill]
  have hplain : Plain (l :: (List.replicate (panelWidth - 2) f ++ [r])) :=
    .intro hl (by simp [panelWidth]) (by simpa [panelWidth, List.replicate_succ] using hf)
      (by simpa [panelWidth, List.getLast?_replicate] using hm)
  rw [← htext]
  exact uncoloured_styled hstyle (htext ▸ hplain)

/-- The text of the header. -/
def headerText (kind : String) : String := " ERROR: " ++ kind ++ " "

/-- The padding of the header, on both sides together. -/
def headerPadding (kind : String) : Nat := panelWidth - ((headerText kind).length + 2)

/-- The header between its borders. -/
def headerInner (kind : String) : List Char :=
  List.replicate (headerPadding kind / 2) ' ' ++ ((headerText kind).toList ++
    List.replicate (headerPadding kind - headerPadding kind / 2) ' ')

theorem head?_headerInner (kind : String) : (headerInner kind).head? = some ' ' := by
  have htext : (headerText kind).toList = ' ' :: ("ERROR: ".toList ++ (kind.toList ++ [' '])) := by
    simp [headerText]
  rw [headerInner, htext]
  cases headerPadding kind / 2 <;> rfl

theorem getLast?_headerInner (kind : String) : (headerInner kind).getLast? = some ' ' := by
  have htext : (headerText kind).toList = " ERROR: ".toList ++ kind.toList ++ [' '] := by
    simp [headerText]
  rw [headerInner, htext]
  cases headerPadding kind - headerPadding kind / 2 with
  | zero => rw [List.replicate_zero, List.append_nil, ← List.append_assoc, List.getLast?_concat]
  | succ n =>
      rw [List.replicate_succ', ← List.append_assoc, ← List.append_assoc, List.getLast?_concat]

theorem uncoloured_panelHeader (kind : String) :
    uncoloured (panelHeader kind) = '║' :: (headerInner kind ++ ['║']) := by
  have htext : ("║" ++ spaces (headerPadding kind / 2) ++ headerText kind ++
      spaces (headerPadding kind - headerPadding kind / 2) ++ "║").toList =
      '║' :: (headerInner kind ++ ['║']) := by
    simp [toList_spaces, headerInner]
  have hplain : Plain ('║' :: (headerInner kind ++ ['║'])) := by
    refine .intro (by decide) ?_ ?_ ?_
    · intro hnil
      simpa [hnil] using head?_headerInner kind
    · simp [head?_headerInner]
    · simp [getLast?_headerInner]
  rw [← htext]
  exact uncoloured_styled (.inl rfl) (htext ▸ hplain)

theorem uncoloured_panelRow (h : text.length ≤ rowWidth) : uncoloured (panelRow text) =
    '║' :: ' ' :: (text.toList ++ List.replicate (rowWidth - text.length) ' ' ++ [' ', '║']) := by
  have hshown : text.toList.take rowWidth = text.toList :=
    List.take_of_length_le (by rwa [String.length_toList])
  have hrow : panelRow text = styled red "║" ++
      (" " ++ text ++ spaces (rowWidth - text.length) ++ " ") ++ styled red "║" := by
    simp only [panelRow, hshown, String.ofList_toList, String.length_toList, String.append_assoc]
  rw [hrow, uncoloured_row]
  simp [toList_spaces]

theorem unpadded_append (cs : List Char) (n : Nat) :
    unpadded (cs ++ List.replicate n ' ') = unpadded cs := by
  have hspaces : ∀ c ∈ List.replicate n ' ', (c == ' ') = true := fun c hc => by
    rw [List.eq_of_mem_replicate hc]
    rfl
  rw [unpadded, List.rdropWhile, List.reverse_append, List.reverse_replicate,
    List.dropWhile_append_of_pos hspaces]
  rfl

theorem toList_indented (row : List Char) :
    ("  " ++ String.ofList row).toList = ' ' :: ' ' :: row := by
  simp

theorem length_indented {row : List Char} (h : row.length ≤ contentWidth) :
    ("  " ++ String.ofList row).length ≤ rowWidth := by
  rw [← String.length_toList, toList_indented]
  exact Nat.add_le_add_right h 2

/-- A row of a section holds its text. -/
theorem readRow_panelRow {row : List Char} (h : row.length ≤ contentWidth) :
    readRow (panelRow ("  " ++ String.ofList row)) = unpadded row := by
  rw [readRow, uncoloured_panelRow (length_indented h), toList_indented]
  generalize rowWidth - ("  " ++ String.ofList row).length = n
  have hborder : (row ++ List.replicate n ' ' ++ [' ', '║']).rdrop 2 =
      row ++ List.replicate n ' ' := List.rdrop_append_length
  exact (congrArg unpadded hborder).trans (unpadded_append row n)

/-! ## The whole panel -/

/-- The rows of a text in a section. -/
def contentRows (content : String) : List String :=
  (Text.lines content.toList).flatMap fun l =>
    (rows l).map fun row => panelRow ("  " ++ String.ofList row)

/-- Every row of a text in a section is one that holds its text. -/
theorem exists_of_mem_contentRows {content row : String} (h : row ∈ contentRows content) :
    ∃ text, text.length ≤ rowWidth ∧ row = panelRow text := by
  obtain ⟨l, -, hrow⟩ := List.mem_flatMap.mp h
  obtain ⟨piece, hpiece, rfl⟩ := List.mem_map.mp hrow
  exact ⟨_, length_indented (length_of_mem_rows hpiece), rfl⟩

theorem shows_contentRows (content : String) :
    Shows content ((contentRows content).map readRow) := by
  refine ⟨(Text.lines content.toList).map rows, ?_, ?_⟩
  · rw [List.forall₂_map_right_iff]
    exact List.forall₂_same.mpr fun l _ => cut_rows l
  · rw [contentRows, List.map_flatMap, List.map_flatten, List.map_map, List.flatMap_def]
    congr 1
    refine List.map_congr_left fun l _ => ?_
    rw [Function.comp_apply, List.map_map]
    refine List.map_congr_left fun row hrow => ?_
    rw [Function.comp_apply, readRow_panelRow (length_of_mem_rows hrow)]

/-- The first line of a panel. -/
def topLine : String := styled (red ++ bold) ("╔" ++ repeated (panelWidth - 2) "═" ++ "╗")

/-- The last line of a panel. -/
def bottomLine : String := styled (red ++ bold) ("╚" ++ repeated (panelWidth - 2) "═" ++ "╝")

theorem uncoloured_topLine :
    uncoloured topLine = '╔' :: (List.replicate (panelWidth - 2) '═' ++ ['╗']) :=
  uncoloured_across (.inl rfl) rfl rfl rfl (by decide) (by decide) (by decide)

theorem uncoloured_bottomLine :
    uncoloured bottomLine = '╚' :: (List.replicate (panelWidth - 2) '═' ++ ['╝']) :=
  uncoloured_across (.inl rfl) rfl rfl rfl (by decide) (by decide) (by decide)

theorem uncoloured_panelRule :
    uncoloured panelRule = '╟' :: (List.replicate (panelWidth - 2) '─' ++ ['╢']) :=
  uncoloured_across (.inr rfl) rfl rfl rfl (by decide) (by decide) (by decide)

/-- The sections of a panel, each behind a rule, with the last line of the panel behind them. -/
theorem panelLines_eq : panelLines kind message remedy =
    [topLine, panelHeader kind] ++ panelRule :: match remedy with
      | none => panelSection "Problem" message ++ [bottomLine]
      | some fix => panelSection "Problem" message ++
          panelRule :: (panelSection "To fix" fix ++ [bottomLine]) := by
  cases remedy <;> simp [panelLines, topLine, bottomLine]

/-- The labels of the sections. -/
theorem length_label : ∀ label ∈ ["Problem", "To fix"], (label ++ ":").length ≤ rowWidth := by
  decide

theorem exists_of_mem_panelSection {content row : String} (hlabel : label ∈ ["Problem", "To fix"])
    (h : row ∈ panelSection label content) :
    ∃ text, text.length ≤ rowWidth ∧ row = panelRow text := by
  rcases List.mem_cons.mp h with rfl | h
  · exact ⟨_, length_label label hlabel, rfl⟩
  · exact exists_of_mem_contentRows h

/-! ### Widths -/

theorem length_uncoloured_panelRow (h : text.length ≤ rowWidth) :
    (uncoloured (panelRow text)).length = panelWidth := by
  simp only [uncoloured_panelRow h, List.length_cons, List.length_append, List.length_replicate,
    List.length_nil, String.length_toList]
  simp only [rowWidth, panelWidth] at h ⊢
  omega

theorem length_uncoloured_panelHeader (h : kind.length ≤ 53) :
    (uncoloured (panelHeader kind)).length = panelWidth := by
  have htext : (headerText kind).length = kind.length + 9 := by
    rw [headerText, String.length_append, String.length_append, Nat.add_right_comm, Nat.add_comm]
    rfl
  simp only [uncoloured_panelHeader, headerInner, headerPadding, htext, List.length_cons,
    List.length_append, List.length_replicate, List.length_nil, String.length_toList, panelWidth]
  omega

/-- Every line of a panel is of one width, if the kind of the error fits in the header. -/
theorem length_uncoloured (hkind : kind.length ≤ 53) {row : String}
    (h : row ∈ panelLines kind message remedy) : (uncoloured row).length = panelWidth := by
  have hsection {label content row : String} (hlabel : label ∈ ["Problem", "To fix"])
      (h : row ∈ panelSection label content) : (uncoloured row).length = panelWidth := by
    obtain ⟨text, htext, rfl⟩ := exists_of_mem_panelSection hlabel h
    exact length_uncoloured_panelRow htext
  have htop : (uncoloured topLine).length = panelWidth := by rw [uncoloured_topLine]; decide
  have hbottom : (uncoloured bottomLine).length = panelWidth := by
    rw [uncoloured_bottomLine]
    decide
  have hrule : (uncoloured panelRule).length = panelWidth := by rw [uncoloured_panelRule]; decide
  have hheader := length_uncoloured_panelHeader hkind
  rw [panelLines_eq] at h
  cases remedy with
  | none =>
      simp only [List.mem_append, List.mem_cons, List.not_mem_nil, or_false] at h
      rcases h with (rfl | rfl) | rfl | h | rfl
      · exact htop
      · exact hheader
      · exact hrule
      · exact hsection (by decide) h
      · exact hbottom
  | some fix =>
      simp only [List.mem_append, List.mem_cons, List.not_mem_nil, or_false] at h
      rcases h with (rfl | rfl) | rfl | h | rfl | h | rfl
      · exact htop
      · exact hheader
      · exact hrule
      · exact hsection (by decide) h
      · exact hrule
      · exact hsection (by decide) h
      · exact hbottom

/-! ### Sections -/

theorem isRule_panelRule : isRule panelRule = true := by
  rw [isRule, uncoloured_panelRule]
  rfl

theorem isRule_topLine : isRule topLine = false := by
  rw [isRule, uncoloured_topLine]
  rfl

theorem isRule_panelHeader (kind : String) : isRule (panelHeader kind) = false := by
  rw [isRule, uncoloured_panelHeader]
  rfl

theorem isRule_bottomLine : isRule bottomLine = false := by
  rw [isRule, uncoloured_bottomLine]
  rfl

theorem isRow_bottomLine : isRow bottomLine = false := by
  rw [isRow, uncoloured_bottomLine]
  rfl

section Sections

variable {content row : String}

theorem head?_panelSection (hlabel : label ∈ ["Problem", "To fix"])
    (h : row ∈ panelSection label content) : (uncoloured row).head? = some '║' := by
  obtain ⟨text, htext, rfl⟩ := exists_of_mem_panelSection hlabel h
  rw [uncoloured_panelRow htext]
  rfl

theorem isRule_panelSection (hlabel : label ∈ ["Problem", "To fix"])
    (h : row ∈ panelSection label content) : isRule row = false := by
  rw [isRule, head?_panelSection hlabel h]
  rfl

theorem sectionRows_panelSection (hlabel : label ∈ ["Problem", "To fix"]) :
    sectionRows (panelSection label content) = contentRows content := by
  have hkeep : (panelSection label content).filter isRow = panelSection label content := by
    refine List.filter_eq_self.mpr fun row hrow => ?_
    rw [isRow, head?_panelSection hlabel hrow]
    rfl
  rw [sectionRows, hkeep]
  rfl

theorem sectionRows_append (part : List String) :
    sectionRows (part ++ [bottomLine]) = sectionRows part := by
  rw [sectionRows, List.filter_append, List.filter_cons_of_neg (by simp [isRow_bottomLine]),
    List.filter_nil, List.append_nil, sectionRows]

end Sections

/-- What stands in front of the first rule is no section. -/
theorem splitOnP_front (kind : String) (behind : List String) :
    (([topLine, panelHeader kind] ++ panelRule :: behind).splitOnP isRule).tail =
      behind.splitOnP isRule := by
  have hfront : [topLine, panelHeader kind].splitOnP isRule = [[topLine, panelHeader kind]] := by
    refine List.splitOnP_eq_singleton fun row hrow => ?_
    simp only [List.mem_cons, List.not_mem_nil, or_false] at hrow
    rcases hrow with rfl | rfl
    · exact isRule_topLine
    · exact isRule_panelHeader kind
  rw [List.splitOnP_append_cons _ _ isRule_panelRule, hfront]
  rfl

/-- A panel has a section for its message, and one for its remedy if there is one. -/
theorem sections_panelLines (kind message : String) (remedy : Option String) :
    sections (panelLines kind message remedy) =
      (message :: remedy.toList).map contentRows := by
  have hproblem : (panelSection "Problem" message).splitOnP isRule =
      [panelSection "Problem" message] :=
    List.splitOnP_eq_singleton fun _ => isRule_panelSection (by decide)
  have hlast {label content : String} (hlabel : label ∈ ["Problem", "To fix"]) :
      (panelSection label content ++ [bottomLine]).splitOnP isRule =
        [panelSection label content ++ [bottomLine]] := by
    refine List.splitOnP_eq_singleton fun row hrow => ?_
    rcases List.mem_append.mp hrow with h | h
    · exact isRule_panelSection hlabel h
    · rw [List.mem_singleton.mp h, isRule_bottomLine]
  rw [sections, panelLines_eq, splitOnP_front]
  cases remedy with
  | none =>
      rw [hlast (by decide), List.map_singleton, sectionRows_append,
        sectionRows_panelSection (by decide)]
      rfl
  | some fix =>
      rw [List.splitOnP_append_cons _ _ isRule_panelRule, hproblem, hlast (by decide),
        List.map_append, List.map_singleton, List.map_singleton, sectionRows_append,
        sectionRows_panelSection (by decide), sectionRows_panelSection (by decide)]
      rfl

/-! ## The panel -/

/-- A panel has 64 columns, and its sections show the message and the remedy. -/
theorem panel_shows_all (kind message : String) (remedy : Option String)
    (hkind : kind.length ≤ 53) :
    (∀ line ∈ panelLines kind message remedy, (uncoloured line).length = 64) ∧
      List.Forall₂ Shows (message :: remedy.toList)
        ((sections (panelLines kind message remedy)).map fun rows => rows.map readRow) := by
  refine ⟨fun line => length_uncoloured hkind, ?_⟩
  rw [sections_panelLines, List.map_map, List.forall₂_map_right_iff]
  exact List.forall₂_same.mpr fun content _ => shows_contentRows content

/-- The widest kind, a line with no place to cut it at, and one with spaces at its cut. -/
theorem panel_shows_all_widest :
    let kind := repeated 53 "K"
    let message := repeated 60 "ü" ++ "\n" ++ repeated 57 " " ++ "é/b"
    kind.length ≤ 53 ∧
      (∀ line ∈ panelLines kind message (some "a: b"), (uncoloured line).length = 64) ∧
      List.Forall₂ Shows [message, "a: b"]
        ((sections (panelLines kind message (some "a: b"))).map fun rows => rows.map readRow) := by
  intro kind message
  have hkind : kind.length ≤ 53 := by decide
  obtain ⟨hwidth, hshows⟩ := panel_shows_all kind message (some "a: b") hkind
  exact ⟨hkind, hwidth, hshows⟩

end Shipment.Terminal
