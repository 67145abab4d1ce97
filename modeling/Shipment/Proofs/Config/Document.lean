import Shipment.Config.Document
import Shipment.Proofs.Toml.Assignment
import Shipment.Proofs.Toml.Quotation

/-!
# Configurations are read back from their documents

Both texts of a configuration are the same document: remarks, two switches, and a base behind
more remarks if there is one (`toList_fileText`, `toList_shortText`).  Reading goes through it
statement by statement, and ends in the configuration if the base is plain.  A base that is not
is quoted with an escape that a document does not have, so the whole document is not well formed.
-/

namespace Shipment.Config

open Text Toml

variable {cs tail : List Char} {n : Nat}

/-- Whether the base is quoted in a way that is read back. -/
def isPlain (c : Config) : Bool := c.base.all fun base => base.toList.all Text.isPlain

/-! ## The two texts -/

/-- The remarks in front of the switch for drafts. -/
def draftRemarks : List String :=
  ["# shipr configuration",
    "# Command-line flags always take precedence over these values.",
    "",
    "# Open new pull requests as drafts (same as passing --draft)"]

/-- The remarks in front of the switch for rebasing. -/
def syncRemarks : List String :=
  ["",
    "# Rebase onto the base branch before pushing updates (same as passing --sync)",
    "# Requires a clean working tree."]

/-- The remarks in front of the base. -/
def baseRemarks : List String :=
  ["",
    "# Target branch for pull requests (same as passing --base)",
    "# Leave unset to use the repository's default branch."]

/-- The remark in place of the base. -/
def noBaseRemark : String := "# base = \"develop\""

/-- The switches of a document, with what stands behind the last one. -/
def switchesText (before between : List String) (c : Config) (tail : List Char) : List Char :=
  ended before ++ assignment "draft"
    ((truthText c.draft).toList ++ '\n' ::
      (ended between ++ assignment "sync" ((truthText c.sync).toList ++ tail)))

theorem toList_feed : "\n".toList = ['\n'] := rfl

theorem toList_fileText (c : Config) :
    c.fileText.toList = switchesText draftRemarks syncRemarks c ('\n' ::
      match c.base with
      | some base =>
          ended baseRemarks ++ assignment "base" (quote base.toList ++ ['\n'])
      | none => ended baseRemarks ++ (noBaseRemark.toList ++ ['\n'])) := by
  -- The lines of a remark are put together before those of the text are taken apart.
  simp only [switchesText, ended, assignment, draftRemarks, syncRemarks, baseRemarks,
    List.flatMap_cons, List.flatMap_nil, String.reduceAppend, ← toList_feed, -String.reduceToList]
  unfold fileText
  cases hb : c.base <;>
  simp only [baseText, noBaseRemark, Text.quoted, String.toList_append, String.toList_ofList,
    List.append_assoc, List.append_nil, List.cons_append, List.nil_append, toList_feed,
    -String.reduceAppend, -String.reduceToList]

theorem toList_shortText (c : Config) :
    c.shortText.toList = switchesText [] [] c
      (match c.base with
      | some base => '\n' :: assignment "base" (quote base.toList)
      | none => []) := by
  cases hb : c.base <;>
  simp [shortText, switchesText, ended, assignment, hb, baseText, Text.quoted]

/-! ## Reading the switches -/

theorem draftRemarks_isRemark : draftRemarks.all isRemark = true := by decide +kernel

theorem syncRemarks_isRemark : syncRemarks.all isRemark = true := by decide +kernel

theorem baseRemarks_isRemark : (baseRemarks ++ [noBaseRemark]).all isRemark = true := by
  decide +kernel

/-- The word of a truth value stands alone up to the end of its line. -/
theorem scalar_truthText (b : Bool) (htail : ∀ ch ∈ tail.head?, ch = '\n') :
    scalar ((truthText b).toList ++ tail) = some (.plain (some (.boolean b)), tail) := by
  cases tail with
  | nil => cases b <;> rfl
  | cons ch tail =>
      have hch : ch = '\n' := htail ch rfl
      subst hch
      cases b <;> rfl

theorem truthText_eq_cons (b : Bool) :
    ∃ ch cs, (truthText b).toList = ch :: cs ∧ endsPart ch = false := by
  cases b
  · exact ⟨'f', "alse".toList, rfl, by decide⟩
  · exact ⟨'t', "rue".toList, rfl, by decide⟩

/-- An assignment of a truth value behind remarks. -/
theorem statements_switch {remarks : List String} {key : String} (hr : remarks.all isRemark = true)
    (hk : isBare key = true) (b : Bool) (htail : ∀ ch ∈ tail.head?, ch = '\n') (n : Nat) :
    statements (n + 1) (ended remarks ++ assignment key ((truthText b).toList ++ tail)) =
      ((statementEnd tail).bind (statements n)).map
        (.assign [.text key] (.plain (some (.boolean b))) :: ·) := by
  have hscalar := scalar_truthText b htail
  obtain ⟨ch, cs, htext, hch⟩ := truthText_eq_cons b
  rw [htext, List.cons_append] at hscalar ⊢
  exact statements_assignment hr hk hch hscalar n

/-- The statements of the switches. -/
def switches (c : Config) : List Statement :=
  [.assign [.text "draft"] (.plain (some (.boolean c.draft))),
    .assign [.text "sync"] (.plain (some (.boolean c.sync)))]

theorem statements_switchesText {before between : List String} (hb : before.all isRemark = true)
    (hs : between.all isRemark = true) (c : Config) (htail : ∀ ch ∈ tail.head?, ch = '\n')
    (n : Nat) :
    statements (n + 2) (switchesText before between c tail) =
      ((statementEnd tail).bind (statements n)).map (switches c ++ ·) := by
  rw [switchesText, statements_switch hb (by decide +kernel) c.draft (by simp)]
  show (statements (n + 1) _).map _ = _
  rw [statements_switch hs (by decide +kernel) c.sync htail, Option.map_map]
  rfl

/-- No remark starts with a byte order mark, so nothing of a document is passed over. -/
theorem skipMark_switchesText {before : List String} (hb : before.all isRemark = true)
    (between : List String) (c : Config) (tail : List Char) :
    skipMark (switchesText before between c tail) = switchesText before between c tail := by
  cases before with
  | nil => rfl
  | cons remark remarks =>
      obtain ⟨hremark, -⟩ := by simpa only [List.all_cons, Bool.and_eq_true] using hb
      rw [switchesText, ended_cons, List.append_assoc]
      unfold isRemark at hremark
      generalize remark.toList = cs at hremark
      split at hremark
      · rfl
      · rfl
      · cases hremark

/-! ## Reading the base -/

/-- The statement of a base, with its value if it is read back. -/
def baseStatement (value : Option Toml) : Statement := .assign [.text "base"] (.plain value)

/-- The text of a document behind its switches. -/
inductive BaseText (c : Config) : List Char → Prop where
  | absent {remarks} (hr : remarks.all isRemark = true) (hbase : c.base = none) :
      BaseText c (ended remarks)
  | present {remarks base tail} (hr : remarks.all isRemark = true) (hbase : c.base = some base)
      (htail : tail = [] ∨ tail = ['\n']) :
      BaseText c (ended remarks ++ assignment "base" (quote base.toList ++ tail))

/-- An assignment of a text behind remarks. -/
theorem statements_quote {remarks : List String} {key : String} {d : Draft} {behind : List Char}
    (hr : remarks.all isRemark = true) (hk : isBare key = true)
    (h : scalar (quote cs ++ tail) = some (d, behind)) (n : Nat) :
    statements (n + 1) (ended remarks ++ assignment key (quote cs ++ tail)) =
      ((statementEnd behind).bind (statements n)).map (.assign [.text key] d :: ·) := by
  rw [quote_append] at h ⊢
  exact statements_assignment hr hk (by decide) h n

/-! ## Settling -/

variable {text base : String} {before between : List String} {rest : List Char} {c : Config}

theorem read_of_switches (hmark : skipMark text.toList = text.toList) (hbase : c.base = none)
    (h : statements (text.toList.length + 1) text.toList = some (switches c)) :
    read text = .ok c := by
  obtain ⟨draft, sync, _⟩ := c
  cases hbase
  rw [read, Toml.read, hmark, h]
  rfl

theorem read_of_base (hmark : skipMark text.toList = text.toList) (hbase : c.base = some base)
    (h : statements (text.toList.length + 1) text.toList =
      some (switches c ++ [baseStatement (some (.string base))])) :
    read text = .ok c := by
  obtain ⟨draft, sync, _⟩ := c
  cases hbase
  rw [read, Toml.read, hmark, h]
  rfl

/-- A base without a value is found before anything behind it. -/
theorem read_of_no_value {behind : Option (List Statement)}
    (hmark : skipMark text.toList = text.toList)
    (h : statements (text.toList.length + 1) text.toList =
      behind.map (switches c ++ baseStatement none :: ·)) :
    read text = .error .malformed := by
  rw [read, Toml.read, hmark, h]
  cases behind with
  | none => rfl
  | some ss => rfl

/-- A document with the switches of a configuration and its base is read back if the base is
plain, and is not well formed otherwise. -/
theorem read_switchesText (hb : before.all isRemark = true) (hs : between.all isRemark = true)
    (htext : text.toList = switchesText before between c tail)
    (htail : ∀ ch ∈ tail.head?, ch = '\n') (hend : statementEnd tail = some rest)
    (hrest : BaseText c rest) : read text = if c.isPlain then .ok c else .error .malformed := by
  have hmark : skipMark text.toList = text.toList := by
    rw [htext, skipMark_switchesText hb]
  have hlong : 3 ≤ text.toList.length := by
    have hkey : ("draft" ++ " = ").toList.length = 8 := rfl
    rw [htext]
    simp only [switchesText, assignment, List.length_append, hkey]
    omega
  obtain ⟨n, hn⟩ : ∃ n, text.toList.length + 1 = n + 2 + 2 := ⟨text.toList.length - 3, by omega⟩
  have hstatements : statements (text.toList.length + 1) text.toList =
      (statements (n + 2) rest).map (switches c ++ ·) := by
    rw [hn, htext, statements_switchesText hb hs c htail, hend, Option.bind_some]
  cases hrest with
  | absent hr hbase =>
      rw [statements_remarks hr] at hstatements
      rw [read_of_switches hmark hbase hstatements, isPlain, hbase]
      rfl
  | @present remarks base ending hr hbase hending =>
      have hquote : ending.head? ≠ some '"' := by
        rcases hending with rfl | rfl <;> decide
      have hlast : (statementEnd ending).bind (statements (n + 1)) = some [] := by
        rcases hending with rfl | rfl <;> rfl
      cases hplain : base.toList.all Text.isPlain with
      | true =>
          rw [statements_quote hr (by decide +kernel) (scalar_quote hplain hquote), hlast,
            String.ofList_toList] at hstatements
          rw [read_of_base hmark hbase hstatements, isPlain, hbase]
          simp [hplain]
      | false =>
          obtain ⟨behind, hscalar⟩ := scalar_quote_of_not_isPlain hplain hquote
          rw [statements_quote hr (by decide +kernel) hscalar, Option.map_map] at hstatements
          rw [read_of_no_value hmark hstatements, isPlain, hbase]
          simp [hplain]

/-! ## Both texts -/

/-- The text of a new file is a document of the configuration, unless its base is not plain. -/
theorem read_fileText (c : Config) :
    read c.fileText = if c.isPlain then .ok c else .error .malformed := by
  refine read_switchesText draftRemarks_isRemark syncRemarks_isRemark (toList_fileText c) (by simp)
    rfl ?_
  cases hbase : c.base with
  | none =>
      show BaseText c (ended baseRemarks ++ (noBaseRemark.toList ++ ['\n']))
      rw [← ended_concat]
      exact .absent baseRemarks_isRemark hbase
  | some base => exact .present (by decide +kernel) hbase (.inr rfl)

/-- The short text is a document of the configuration, unless its base is not plain. -/
theorem read_shortText (c : Config) :
    read c.shortText = if c.isPlain then .ok c else .error .malformed := by
  have htext := toList_shortText c
  have hremarks : ([] : List String).all isRemark = true := rfl
  cases hbase : c.base with
  | none =>
      rw [hbase] at htext
      exact read_switchesText rfl rfl htext (by simp) rfl (.absent hremarks hbase)
  | some base =>
      rw [hbase] at htext
      have hrest := BaseText.present hremarks hbase (.inl rfl)
      rw [List.append_nil] at hrest
      exact read_switchesText rfl rfl htext (by simp) rfl hrest

end Shipment.Config
