import Shipment.Failure
import Shipment.Flow

/-!
# Configuration

A configuration holds defaults for the options of a run.  The options given with
an invocation win over it.  A base given there takes the place of the configured
one, and a configured switch can be turned on there but not off.

A key is set from text.  Switches take a few words for each truth value, in any
case.  The base takes any text, and `none` or no text at all removes it.
-/

namespace Shipment

/-- Defaults for every run. -/
structure Config where
  /-- Open new requests as drafts. -/
  draft : Bool := false
  /-- Rebase onto the base before pushing updates. -/
  sync : Bool := false
  /-- The base to use instead of the default branch. -/
  base : Option String := none
deriving DecidableEq, Repr

namespace Config

/-- The options of a run under a configuration. -/
def applyTo (c : Config) (o : Options) : Options :=
  { o with sync := o.sync || c.sync, draft := o.draft || c.draft, base := o.base <|> c.base }

/-! ## Setting a key -/

/-- The keys that can be set. -/
def keys : List String := ["draft", "sync", "base"]

/-- The truth value of a word in lower case. -/
def truth? (word : String) : Option Bool :=
  if word ∈ ["true", "yes", "on", "1"] then some true
  else if word ∈ ["false", "no", "off", "0"] then some false
  else none

/-- The value of a switch from text. -/
def readSwitch (key value : String) : Except Failure Bool :=
  let word := String.ofList ((Text.trim value.toList).map Char.toLower)
  match truth? word with
  | some b => .ok b
  | none => .error <| .config <|
      "Invalid value '" ++ word ++ "' for '" ++ key ++ "': expected true or false"

/-- The base from text, if it names one. -/
def readBase (value : String) : Option String :=
  let name := Text.trimmed value
  if name = "" ∨ name = "none" then none else some name

/-- Set a key from text. -/
def set (key value : String) (c : Config) : Except Failure Config :=
  if key = "draft" then (readSwitch key value).map fun b => { c with draft := b }
  else if key = "sync" then (readSwitch key value).map fun b => { c with sync := b }
  else if key = "base" then .ok { c with base := readBase value }
  else .error <| .config <|
    "Unknown config key '" ++ key ++ "'. Valid keys: " ++ Text.joinWith ", " keys

end Config

end Shipment
