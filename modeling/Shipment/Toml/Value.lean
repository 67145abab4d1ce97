import Shipment.Table

/-!
# TOML documents

A TOML document is a table: keys and what is filed under them.  Tables nest, and
a table remembers how it came to be, because that decides who may still add to
it.

* A table with a header of its own can be entered by a longer header.
* A table a longer header goes through can still get a header of its own, until a
  dotted key goes through it.
* A table a dotted key goes through can get more dotted keys and can be entered
  by a longer header, but gets no header of its own.
* A table written in braces is closed.

A header in double brackets starts one more table of a sequence.  What follows
belongs to the latest one.

The last part of a dotted key is filed in the table of the parts before it.  On
the way there, the key goes through tables that have no header.  It also goes
through the latest table of a sequence, but only to a table below it: a dotted key
adds no value to the table itself.

A number can be well formed and still have no value that is read.  It is filed all
the same, and `Entries.isReadable` finds it.
-/

namespace Shipment.Toml

/-- How a table came to be. -/
inductive Origin where
  /-- It has a header of its own. -/
  | header
  /-- Only longer headers go through it. -/
  | implied
  /-- A dotted key goes through it. -/
  | dotted
  /-- It is written in braces. -/
  | braces
deriving DecidableEq, Repr

end Toml

/-- What is filed under a key. -/
inductive Toml where
  /-- A string. -/
  | string (s : String)
  /-- `true` and `false`. -/
  | boolean (b : Bool)
  /-- A whole number. -/
  | integer (n : Int)
  /-- Any other number, as it is written. -/
  | float (literal : String)
  /-- A date, a time or both, as it is written. -/
  | moment (literal : String)
  /-- A number without a value, as it is written. -/
  | unreadable (literal : String)
  /-- An array. -/
  | array (items : List Toml)
  /-- A table. -/
  | table (origin : Toml.Origin) (entries : List (String × Toml))
  /-- A sequence of tables, with the latest one apart. -/
  | tables (latest : List (String × Toml)) (earlier : List (List (String × Toml)))
deriving Inhabited

namespace Toml

/-- The entries of a table. -/
abbrev Entries := Table String Toml

namespace Entries

/-- File a value under a dotted key, if there is nothing yet. -/
def assign (v : Toml) : List String → Entries → Option Entries
  | [], _ => none
  | [key], t =>
      match Table.get? key t with
      | none => some (Table.set key v t)
      | some _ => none
  | key :: next :: path, t =>
      match Table.get? key t, path with
      | none, _ =>
          (assign v (next :: path) []).map fun inner => Table.set key (.table .dotted inner) t
      | some (.table .dotted inner), _ =>
          (assign v (next :: path) inner).map fun inner => Table.set key (.table .dotted inner) t
      | some (.table .implied inner), _ =>
          (assign v (next :: path) inner).map fun inner => Table.set key (.table .dotted inner) t
      | some (.tables latest earlier), _ :: _ =>
          (assign v (next :: path) latest).map fun latest =>
            Table.set key (.tables latest earlier) t
      | some _, _ => none

end Entries

/-! ## Numbers without a value -/

mutual

/-- Whether each number in a value has a value. -/
def isReadable : Toml → Bool
  | .unreadable _ => false
  | .array items => itemsReadable items
  | .table _ entries => Entries.isReadable entries
  | .tables latest earlier => Entries.isReadable latest && sequenceReadable earlier
  | _ => true

/-- Whether each number in an array has a value. -/
def itemsReadable : List Toml → Bool
  | [] => true
  | v :: vs => v.isReadable && itemsReadable vs

/-- Whether each number in a table has a value. -/
def Entries.isReadable : List (String × Toml) → Bool
  | [] => true
  | (_, v) :: rest => v.isReadable && Entries.isReadable rest

/-- Whether each number in a sequence of tables has a value. -/
def sequenceReadable : List (List (String × Toml)) → Bool
  | [] => true
  | t :: ts => Entries.isReadable t && sequenceReadable ts

end

/-! ## Problems -/

/-- Why a text is not read as a document. -/
inductive Problem where
  /-- Something in it is not well formed or not allowed where it stands. -/
  | malformed
  /-- A key has too many parts. -/
  | longKey
deriving DecidableEq, Repr

/-- The problem in words. -/
def Problem.text : Problem → String
  | malformed => "TOML parse error"
  | longKey => "recursion limit\n"

/-- The value, if there is one. -/
def orMalformed {α : Type} : Option α → Except Problem α
  | some a => .ok a
  | none => .error .malformed

end Shipment.Toml
