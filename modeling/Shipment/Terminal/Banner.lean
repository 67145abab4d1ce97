import Shipment.Flow
import Shipment.Terminal.Style

/-!
# Banners

A banner announces the flow.  It is the label with a rule on both sides, as wide
as the terminal, but no narrower than twenty columns and no wider than eighty.
When the rule does not divide evenly its right side is longer.
-/

namespace Shipment.Terminal

/-- The colour of a banner. -/
inductive BannerColor where
  /-- For new requests. -/
  | cyan
  /-- For updates. -/
  | blue
deriving DecidableEq, Repr

/-- The escape sequence of the colour. -/
def BannerColor.code : BannerColor → String
  | .cyan => Terminal.cyan
  | .blue => Terminal.blue

/-- The width taken for a terminal of unknown width. -/
def defaultWidth : Nat := 80

/-- The columns of a banner in a terminal. -/
def bannerWidth (terminal : Nat) : Nat := max 20 (min terminal 80)

/-- The text of a banner. -/
def bannerText (label : String) (terminal : Nat) : String :=
  let label := " " ++ label ++ " "
  let rule := bannerWidth terminal - label.length
  repeated (rule / 2) "━" ++ label ++ repeated (rule - rule / 2) "━"

/-- A banner. -/
def banner (label : String) (color : BannerColor) (terminal : Nat) : String :=
  line (styled (color.code ++ bold) (bannerText label terminal))

/-- The banner of a flow. -/
def flowBanner (terminal : Nat) : Flow → String
  | .newRequest => banner "NEW REQUEST" .cyan terminal
  | .updateExisting => banner "UPDATE EXISTING" .blue terminal

end Shipment.Terminal
