import Mathlib.Data.List.Forall2
import Shipment.Proofs.Json.Compact
import Shipment.Proofs.System
import Shipment.Proofs.Text.Lines
import Shipment.Proofs.Text.Utf8
import Shipment.Review.Client

/-!
# Printed listings

The host prints requests as a JSON array of objects.  `Lists` relates a list of requests to
everything the host may print for it, whatever the order of the fields, the blanks and the escapes
are.  All of it is read as the same list (`readListing_of_lists`), so that the request of a branch
is found that the list has for it (`ends_findRequest`).
-/

namespace Shipment

namespace PullRequest

open Json Text

variable {pr : PullRequest} {prs : List PullRequest} {j : Json} {js : List Json} {text : String}

/-! ## Objects -/

/-- The fields of a listed request. -/
def fieldsOf (pr : PullRequest) : List (String × Json) :=
  [("number", .natural pr.number), ("title", .text pr.title), ("headRefName", .text pr.head),
    ("url", .text pr.url), ("state", .text pr.state.name)]

/-- A document is a request: an object that has its fields, in any order. -/
def Listed (j : Json) (pr : PullRequest) : Prop :=
  ∃ fs : List (String × Json), fs.Perm pr.fieldsOf ∧ j = .fields fs

/-- The values of a key are those of the request, whatever the order of the fields is. -/
theorem valuesOf_perm {fs gs : List (String × Json)} (h : fs.Perm gs) (key : String) :
    (valuesOf key (keyed fs)).Perm (valuesOf key (keyed gs)) :=
  ((h.map _).filter _).map _

theorem valuesOf_of_perm {fs : List (String × Json)} (h : fs.Perm pr.fieldsOf) (key : String)
    {v : Json} (hv : valuesOf key (keyed pr.fieldsOf) = [v]) : valuesOf key (keyed fs) = [v] :=
  List.perm_singleton.mp (hv ▸ valuesOf_perm h key)

/-- A listed request is read whatever the order of its fields. -/
theorem ofJson?_of_listed (h : Listed j pr) (hn : pr.number < 2 ^ 64) :
    ofJson? j = some pr := by
  obtain ⟨fs, hfs, rfl⟩ := h
  have hkeys : (keyed fs).all (fun f => f.1.isSome) = true := by simp [keyed]
  have hnumber : number? (.natural pr.number) = some pr.number := if_pos hn
  have hstate : ReviewState.ofJson? (.text pr.state.name) = some pr.state :=
    ReviewState.ofName?_name pr.state
  show ofJson? (.object (keyed fs)) = some pr
  simp only [ofJson?, hkeys, if_true, required?, title?, valuesOf_of_perm hfs "number" rfl,
    valuesOf_of_perm hfs "title" rfl, valuesOf_of_perm hfs "headRefName" rfl,
    valuesOf_of_perm hfs "url" rfl, valuesOf_of_perm hfs "state" rfl, Option.bind_eq_bind,
    Option.bind_some, hnumber, hstate]
  rfl

theorem listOfJson?_of_listed (h : List.Forall₂ Listed js prs)
    (hn : ∀ pr ∈ prs, pr.number < 2 ^ 64) : listOfJson? (.array js) = some prs := by
  show js.mapM ofJson? = some prs
  induction h with
  | nil => rfl
  | cons hj _ ih =>
      obtain ⟨hpr, hprs⟩ := List.forall_mem_cons.mp hn
      rw [List.mapM_cons, ofJson?_of_listed hj hpr, ih hprs]
      rfl

/-! ## Listings -/

/-- A text is a JSON array of requests, with blanks around it. -/
inductive Lists (prs : List PullRequest) (text : String) : Prop where
  | intro {js : List Json} {front cs behind : List Char} : List.Forall₂ Listed js prs →
      Spells (.value (.array js)) cs → Blanks front → Blanks behind →
      text.toList = front ++ (cs ++ behind) → Lists prs text

theorem isBlank_of_blanks {b : List Char} (h : Blanks b) : ∀ c ∈ b, isBlank c = true := by
  intro c hc
  rcases h c hc with rfl | rfl | rfl | rfl <;> decide

/-- The items of an array end with its bracket. -/
theorem exists_bracket {p : Part} {cs : List Char} (h : Spells p cs) :
    ∀ js, p = .items js → ∃ mid, cs = mid ++ [']'] := by
  induction h with
  | @lastItem j cs b _ _ _ =>
      rintro js -
      exact ⟨cs ++ b, (List.append_assoc ..).symm⟩
  | @item j js cs b b' rest _ _ _ _ _ ih =>
      rintro _ -
      obtain ⟨mid, rfl⟩ := ih js rfl
      exact ⟨cs ++ (b ++ ',' :: (b' ++ mid)), by simp⟩
  | _ => rintro js ⟨⟩

theorem exists_brackets {cs : List Char} (h : Spells (.value (.array js)) cs) :
    ∃ mid, cs = '[' :: (mid ++ [']']) := by
  cases h with
  | @emptyArray b _ => exact ⟨b, rfl⟩
  | @array _ b cs _ hitems =>
      obtain ⟨mid, rfl⟩ := exists_bracket hitems js rfl
      exact ⟨b ++ mid, by simp⟩

/-- Trimming a listing leaves the array. -/
theorem trim_spelled {front cs behind : List Char} (h : Spells (.value (.array js)) cs)
    (hfront : Blanks front) (hbehind : Blanks behind) : trim (front ++ (cs ++ behind)) = cs := by
  obtain ⟨mid, rfl⟩ := exists_brackets h
  rw [trim_blank_append (isBlank_of_blanks hfront), trim_append_blank (isBlank_of_blanks hbehind),
    trim, trimStart_cons (by decide), ← List.cons_append,
    trimEnd_append ⟨']', List.mem_singleton.mpr rfl, by decide⟩]
  rfl

/-- Whatever is printed for a list is read as the list. -/
theorem readListing_of_lists (h : Lists prs text) (hn : ∀ pr ∈ prs, pr.number < 2 ^ 64) :
    readListing (trimmed text) = .ok prs := by
  obtain ⟨hjs, hcs, hfront, hbehind, htext⟩ := h
  rename_i js front cs behind
  have htrim : trim (trimmed text).toList = cs := by
    rw [trimmed, String.toList_ofList, htext, trim_spelled hcs hfront hbehind]
    simpa using trim_spelled hcs blanks_nil blanks_nil
  have hread : Json.read? cs = some (.array js) := by
    simpa using read_of_spells hcs blanks_nil blanks_nil
  have hne : cs.isEmpty = false := by
    obtain ⟨mid, rfl⟩ := exists_brackets hcs
    rfl
  rw [readListing]
  simp only [htrim, hne, hread, Option.bind_some, listOfJson?_of_listed hjs hn,
    Bool.false_eq_true, if_false]

/-- The compact form of a list is a listing of it. -/
theorem lists_compact (prs : List PullRequest) :
    Lists prs (String.ofList (compact (.array (prs.map fun pr => .fields pr.fieldsOf)))) := by
  have hlisted : List.Forall₂ Listed (prs.map fun pr => .fields pr.fieldsOf) prs :=
    List.forall₂_map_left_iff.mpr (List.forall₂_same.mpr fun pr _ => ⟨_, .refl _, rfl⟩)
  refine .intro hlisted (spells_array ?_) blanks_nil blanks_nil (by simp)
  intro j hj
  obtain ⟨pr, -, rfl⟩ := List.mem_map.mp hj
  refine spells_fields ?_
  simp only [fieldsOf, List.forall_mem_cons, List.not_mem_nil, false_imp_iff, implies_true,
    and_true]
  exact ⟨.natural _, spells_text _, spells_text _, spells_text _, spells_text _⟩

end PullRequest

namespace ReviewClient

open Text

variable {σ : Type} {h : Handler system σ} {s : σ} {root : Path} {o : Output}

/-- A command that succeeds gives what it printed. -/
theorem ends_command {args : List String} {aim : String}
    (hreply : (h (.start .gh root args) s).1 = .ok o) (hok : o.code = some 0) :
    Work.ends h (command root args aim) s = (.ok o.outText, (h (.start .gh root args) s).2) := by
  have hstart : Work.ends h (ReviewClient.start root args) s =
      (.ok o, (h (.start .gh root args) s).2) := by
    rw [ReviewClient.start, Work.ends_bind_ok Work.ends_ask, hreply]
    rfl
  rw [command, Work.ends_bind_ok hstart, Output.succeeded, hok]
  rfl

/-- The request of a branch is found in whatever is printed. -/
theorem ends_findRequest {head text : String} {prs : List PullRequest}
    (hreply : (h (.start .gh root ["pr", "list", "--head", head, "--state", "all", "--json",
      "number,title,headRefName,url,state"]) s).1 = .ok o)
    (hok : o.code = some 0) (hout : o.out = encode text) (hlists : PullRequest.Lists prs text)
    (hn : ∀ pr ∈ prs, pr.number < 2 ^ 64) :
    (Work.ends h (findRequest root head) s).1 = .ok (PullRequest.forHead head prs) := by
  have hread : PullRequest.readListing o.outText = .ok prs := by
    rw [Output.outText, hout, decodeLossy_encode]
    exact PullRequest.readListing_of_lists hlists hn
  rw [findRequest, Work.ends_bind_ok (ends_command hreply hok), hread]
  rfl

end ReviewClient

end Shipment
