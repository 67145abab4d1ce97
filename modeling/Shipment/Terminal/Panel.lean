import Shipment.Failure
import Shipment.Terminal.Style

/-!
# Error panels

A failure is shown in a box of 64 columns.  The box has a header with the kind
of the failure, a section with the message, and a section with the remedy if
there is one.

A line of a section that fits takes one row.  A longer line is cut into pieces.
Each cut comes behind the last blank, slash or colon that leaves the piece short
enough, and where there is none the piece has the full length.  No character is
dropped.
-/

namespace Shipment.Terminal

/-- The columns of a panel. -/
def panelWidth : Nat := 64

/-- The columns inside the border and the space beside it. -/
def rowWidth : Nat := panelWidth - 4

/-- The greatest length of a line that takes one row. -/
def contentWidth : Nat := panelWidth - 6

/-- The greatest length of a piece of a longer line. -/
def pieceWidth : Nat := contentWidth - 2

/-! ## Cutting lines -/

/-- A character a piece may end in. -/
def endsPiece (c : Char) : Bool := Text.isBlank c || c == '/' || c == ':'

/-- The length of the first piece of a line longer than a piece. -/
def cutAt (cs : List Char) : Nat :=
  let behind := (cs.take pieceWidth).reverse.dropWhile fun c => !endsPiece c
  if behind.isEmpty then pieceWidth else behind.length

theorem cutAt_pos (cs : List Char) : 0 < cutAt cs := by
  simp only [cutAt]
  split
  · decide
  · rename_i h
    simp only [List.isEmpty_iff] at h
    exact List.length_pos_iff.mpr h

/-- The pieces of a line. -/
def pieces (cs : List Char) : List (List Char) :=
  if cs.isEmpty then []
  else if cs.length ≤ pieceWidth then [cs]
  else cs.take (cutAt cs) :: pieces (cs.drop (cutAt cs))
termination_by cs.length
decreasing_by
  have := cutAt_pos cs
  simp only [List.length_drop]
  simp only [pieceWidth, contentWidth, panelWidth] at *
  omega

/-- The rows of a line: the line itself if it fits, or its pieces. -/
def rows (cs : List Char) : List (List Char) :=
  if cs.length ≤ contentWidth then [cs] else pieces cs

/-! ## Drawing -/

/-- Spaces. -/
def spaces (n : Nat) : String := "".pushn ' ' n

/-- A row between the borders. -/
def panelRow (text : String) : String :=
  let shown := text.toList.take rowWidth
  styled red "║" ++ " " ++ String.ofList shown ++ spaces (rowWidth - shown.length) ++ " " ++
    styled red "║"

/-- A section: its label and the rows of its lines, indented. -/
def panelSection (label content : String) : List String :=
  panelRow (label ++ ":") ::
    (Text.lines content.toList).flatMap fun l =>
      (rows l).map fun row => panelRow ("  " ++ String.ofList row)

/-- The header of a panel. -/
def panelHeader (kind : String) : String :=
  let header := " ERROR: " ++ kind ++ " "
  let padding := panelWidth - (header.length + 2)
  styled (red ++ bold)
    ("║" ++ spaces (padding / 2) ++ header ++ spaces (padding - padding / 2) ++ "║")

/-- The line between two sections. -/
def panelRule : String := styled red ("╟" ++ repeated (panelWidth - 2) "─" ++ "╢")

/-- The lines of a panel. -/
def panelLines (kind message : String) (remedy : Option String) : List String :=
  [styled (red ++ bold) ("╔" ++ repeated (panelWidth - 2) "═" ++ "╗"), panelHeader kind,
    panelRule] ++
  panelSection "Problem" message ++
  (match remedy with
    | some fix => panelRule :: panelSection "To fix" fix
    | none => []) ++
  [styled (red ++ bold) ("╚" ++ repeated (panelWidth - 2) "═" ++ "╝")]

/-- A panel. -/
def panel (kind message : String) (remedy : Option String) : String :=
  String.join ((panelLines kind message remedy).map line)

/-- The panel of a failure. -/
def failurePanel (e : Failure) : String := panel e.kind e.text e.remedy

end Shipment.Terminal
