import Shipment.Backend
import Shipment.Terminal.Banner

/-!
# Progress

What each event of a run shows on a terminal.  A flow shows its banner and an
action shows a mark when it ends.  A notice is a warning, except that a rollback
is information.  Steps are shown only on request, and terminal steps never.
-/

namespace Shipment.Terminal

/-- What an event shows, in a terminal of a width. -/
def progress (verbose : Bool) (width : Nat) : Event → String
  | .flow f => flowBanner width f
  | .step s =>
      if verbose && !s.isTerminal then line (styled gray ("› " ++ s.text)) else ""
  | .action _ .started => ""
  | .action a .succeeded => line (styled green "✔" ++ " " ++ a.text)
  | .action a (.failed _) => line (styled red "✘" ++ " " ++ a.text)
  | .notice n =>
      match n with
      | .rolledBack .. => info n.text
      | _ => warning n.text

end Shipment.Terminal
