import Shipment.Toml.Value

/-!
# Drafts of TOML documents

A draft is a document as it is written.  Its brackets, braces and lines are in
order, but a word or a string in it may have no value, a key may be too long, and
two parts may not go together.  `Draft.settle` goes through a draft in the order
it is written in, and stops at the first of these problems.

In braces, a key may stand without a value.  Such a key must be well formed, and
nothing is filed under it.

A document starts with assignments of its own.  Sections follow, each a header
with the assignments behind it.

* The header of a table is checked before its assignments.
* The table of a sequence is filed behind its assignments.  So a header in double
  brackets is checked only then.
-/

namespace Shipment.Toml

/-- A part of a key as it is written. -/
inductive KeyPart where
  /-- A text. -/
  | text (s : String)
  /-- Characters that are no text of a key. -/
  | malformed
  /-- Nothing. -/
  | missing

/-- The text of a part. -/
def KeyPart.text? : KeyPart → Option String
  | .text s => some s
  | _ => none

/-- A key as it is written. -/
abbrev KeyDraft := List KeyPart

/-- A value as it is written. -/
inductive Draft where
  /-- A string or a bare word, and its value if it has one. -/
  | plain (value : Option Toml)
  /-- Values in brackets. -/
  | array (items : List Draft)
  /-- Assignments in braces. -/
  | table (items : List (List KeyPart × Draft))
  /-- Nothing, behind a key in braces. -/
  | absent
deriving Inhabited

/-- Whether there is no value. -/
def Draft.isAbsent : Draft → Bool
  | .absent => true
  | _ => false

/-- Keys with values as they are written. -/
abbrev Assignments := List (KeyDraft × Draft)

/-! ## Keys and values -/

/-- How many parts a key may have. -/
def maxParts : Nat := 80

/-- The parts of a key that has a text for each and is not too long. -/
def settleKey (key : KeyDraft) : Except Problem (List String) :=
  match key.mapM KeyPart.text? with
  | none => .error .malformed
  | some path => if path.length ≤ maxParts then .ok path else .error .longKey

mutual

/-- The value of a draft. -/
def Draft.settle : Draft → Except Problem Toml
  | .plain value => orMalformed value
  | .array items => (settleItems items).map .array
  | .table items => (settleInto [] items).map (.table .braces)
  | .absent => .error .malformed

/-- The values of drafts. -/
def settleItems : List Draft → Except Problem (List Toml)
  | [] => .ok []
  | d :: ds => d.settle.bind fun v => (settleItems ds).map (v :: ·)

/-- File assignments in a table.  Keys without a value add nothing. -/
def settleInto (t : Entries) : List (List KeyPart × Draft) → Except Problem Entries
  | [] => .ok t
  | (key, d) :: rest =>
      (settleKey key).bind fun path =>
        if d.isAbsent then settleInto t rest
        else
          d.settle.bind fun v =>
            match t.assign v path with
            | some t => settleInto t rest
            | none => .error .malformed

end

/-! ## Sections -/

/-- A header with the assignments behind it. -/
structure Section where
  /-- Whether it starts one more table of a sequence. -/
  inSequence : Bool
  /-- The key in the header. -/
  key : KeyDraft
  /-- The assignments. -/
  assignments : Assignments

/-- Change the table that a header goes to. -/
def within (change : Entries → Except Problem Entries) :
    List String → Entries → Except Problem Entries
  | [], t => change t
  | key :: path, t =>
      match Table.get? key t with
      | none => (within change path []).map fun inner => Table.set key (.table .implied inner) t
      | some (.table .braces _) => .error .malformed
      | some (.table origin inner) =>
          (within change path inner).map fun inner => Table.set key (.table origin inner) t
      | some (.tables latest earlier) =>
          (within change path latest).map fun latest => Table.set key (.tables latest earlier) t
      | some _ => .error .malformed

/-- Give a table its header and file assignments in it. -/
def fileTable (key : String) (assignments : Assignments) (t : Entries) : Except Problem Entries :=
  match Table.get? key t with
  | none => (settleInto [] assignments).map fun inner => Table.set key (.table .header inner) t
  | some (.table .implied inner) =>
      (settleInto inner assignments).map fun inner => Table.set key (.table .header inner) t
  | some _ => .error .malformed

/-- Add a table to a sequence. -/
def addTable (key : String) (entries : Entries) (t : Entries) : Except Problem Entries :=
  match Table.get? key t with
  | none => .ok (Table.set key (.tables entries []) t)
  | some (.tables latest earlier) => .ok (Table.set key (.tables entries (latest :: earlier)) t)
  | some _ => .error .malformed

/-- File a section in the table of a document. -/
def Section.settleInto (t : Entries) (s : Section) : Except Problem Entries := do
  let path ← settleKey s.key
  let key ← orMalformed path.getLast?
  if s.inSequence then
    let entries ← Toml.settleInto [] s.assignments
    within (addTable key entries) path.dropLast t
  else within (fileTable key s.assignments) path.dropLast t

/-! ## Documents -/

/-- A part of a document. -/
inductive Statement where
  /-- A header, in double brackets or not. -/
  | header (inSequence : Bool) (key : KeyDraft)
  /-- An assignment. -/
  | assign (key : KeyDraft) (value : Draft)

/-- The assignments in front of the first header, and the sections. -/
def divide : List Statement → Assignments × List Section
  | [] => ([], [])
  | .assign key value :: rest =>
      let (assignments, sections) := divide rest
      ((key, value) :: assignments, sections)
  | .header inSequence key :: rest =>
      let (assignments, sections) := divide rest
      ([], ⟨inSequence, key, assignments⟩ :: sections)

/-- The table of a document. -/
def ofStatements (statements : List Statement) : Except Problem Entries := do
  let (top, sections) := divide statements
  sections.foldlM Section.settleInto (← settleInto [] top)

end Shipment.Toml
