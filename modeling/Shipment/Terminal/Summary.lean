import Shipment.Outcome
import Shipment.Terminal.Style

/-!
# Summaries

The summary of a run that did not fail.  A run with nothing to do gives its
reason.  A run that shipped gives one line with the branch, the base and how it
got there, and a box with what became of the request.
-/

namespace Shipment.Terminal

/-- The columns inside the border of a box. -/
def boxWidth : Nat := 56

/-- A title in a box. -/
def boxedTitle (title : String) : List String :=
  ["╔" ++ repeated boxWidth "═" ++ "╗",
    "║  " ++ title ++ repeated (boxWidth - (title.length + 2)) " " ++ "║",
    "╚" ++ repeated boxWidth "═" ++ "╝"]

/-- A boxed title and an address below it. -/
def announcement (color title url : String) : String :=
  line "" ++ String.join ((boxedTitle title).map fun l => line (styled (color ++ bold) l)) ++
    line "" ++ line (styled (color ++ bold) ("  " ++ url)) ++ line ""

/-- What became of the request. -/
def requestSummary : RequestResult → String
  | .created url => announcement green "✓ Pull Request Created" url
  | .updated url => announcement green "✓ Pull Request Updated" url
  | .alreadyExists url => announcement cyan "ℹ Pull Request Already Exists" url

/-- The summary of an outcome. -/
def summary (o : Outcome) : String :=
  match o.result with
  | .noOp reason => line (styled gray ("Nothing to do: " ++ reason.text))
  | .shipped committed pushed request =>
      line
        (styled cyan o.branch ++ " " ++ styled gray "→" ++ " " ++ styled cyan o.base ++
          (if committed then " " ++ styled gray "(new commit)" else "") ++
          (match pushed with
            | some mode => " " ++ styled gray ("[" ++ mode.text ++ "]")
            | none => "")) ++
        requestSummary request

end Shipment.Terminal
