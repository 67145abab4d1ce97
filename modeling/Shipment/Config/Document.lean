import Shipment.Config
import Shipment.Text.Quoted
import Shipment.Toml.Reader

/-!
# Configurations as documents

A configuration is a TOML document with the keys `draft`, `sync` and `base`.  A
missing key has its default, and other keys mean nothing.  `Config.fileText` is
the text of a configuration file, with a comment on each key.
`Config.shortText` is the text shown to the user.
-/

namespace Shipment.Config

/-- The word of a truth value. -/
def truthText (b : Bool) : String := if b then "true" else "false"

/-- The assignment of the base. -/
def baseText (base : String) : String := "base = " ++ Text.quoted base

/-- The text of a configuration without comments. -/
def shortText (c : Config) : String :=
  "draft = " ++ truthText c.draft ++ "\nsync = " ++ truthText c.sync ++
  match c.base with
  | some base => "\n" ++ baseText base
  | none => ""

/-- The text of a configuration file. -/
def fileText (c : Config) : String :=
  "# shipr configuration\n" ++
  "# Command-line flags always take precedence over these values.\n" ++
  "\n" ++
  "# Open new pull requests as drafts (same as passing --draft)\n" ++
  "draft = " ++ truthText c.draft ++ "\n" ++
  "\n" ++
  "# Rebase onto the base branch before pushing updates (same as passing --sync)\n" ++
  "# Requires a clean working tree.\n" ++
  "sync = " ++ truthText c.sync ++ "\n" ++
  "\n" ++
  "# Target branch for pull requests (same as passing --base)\n" ++
  "# Leave unset to use the repository's default branch.\n" ++
  (match c.base with
    | some base => baseText base
    | none => "# base = \"develop\"") ++
  "\n"

/-- A switch of a document. -/
def switchOf? (key : String) (t : Toml.Entries) : Option Bool :=
  match t.get? key with
  | none => some false
  | some (.boolean b) => some b
  | some _ => none

/-- The base of a document, or that it has none. -/
def baseOf? (t : Toml.Entries) : Option (Option String) :=
  match t.get? "base" with
  | none => some none
  | some (.string s) => some (some s)
  | some _ => none

/-- The configuration of a document. -/
def ofTable? (t : Toml.Entries) : Option Config := do
  return { draft := ← switchOf? "draft" t, sync := ← switchOf? "sync" t, base := ← baseOf? t }

/-- Read a configuration from the text of a file. -/
def read (text : String) : Except Toml.Problem Config := do
  Toml.orMalformed (ofTable? (← Toml.read text.toList))

example : (read (shortText { base := some "a\"\\b" })).toOption =
    some { base := some "a\"\\b" } := by
  decide +kernel

end Shipment.Config
