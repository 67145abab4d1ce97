import Shipment.Failure
import Shipment.Json.Reader
import Shipment.Review

/-!
# Listings of pull requests

The host lists requests as a JSON array.  A request is an object with the fields
`number`, `title`, `headRefName`, `url` and `state`, or an array of the five in
that order.  In an object the title may be missing, other fields are passed
over, and no field of the five may come twice.  A state is written as its name,
or as an object with the name as its only key and `null` as the value.
-/

namespace Shipment

/-- The state a document stands for. -/
def ReviewState.ofJson? : Json → Option ReviewState
  | .string (some s) => ReviewState.ofName? s
  | .object [(some key, .null)] => ReviewState.ofName? key
  | _ => none

namespace PullRequest

/-- The text of a document that is a string. -/
def text? : Json → Option String
  | .string text => text
  | _ => none

/-- The number of a document that is a natural number of 64 bits. -/
def number? : Json → Option Nat
  | .natural n => if n < Nat.pow 2 64 then some n else none
  | _ => none

/-- The values of a key. -/
def valuesOf (key : String) (fields : List (Option String × Json)) : List Json :=
  (fields.filter fun f => f.1 == some key).map (·.2)

/-- The value of a key that comes once. -/
def required? (key : String) (fields : List (Option String × Json)) : Option Json :=
  match valuesOf key fields with
  | [value] => some value
  | _ => none

/-- The title: empty when it is missing. -/
def title? (fields : List (Option String × Json)) : Option String :=
  match valuesOf "title" fields with
  | [] => some ""
  | [value] => text? value
  | _ => none

/-- The request a document stands for. -/
def ofJson? : Json → Option PullRequest
  | .object fields =>
      if fields.all fun f => f.1.isSome then do
        return {
          number := ← number? (← required? "number" fields)
          title := ← title? fields
          head := ← text? (← required? "headRefName" fields)
          url := ← text? (← required? "url" fields)
          state := ← ReviewState.ofJson? (← required? "state" fields) }
      else none
  | .array [number, title, head, url, state] => do
      return {
        number := ← number? number
        title := ← text? title
        head := ← text? head
        url := ← text? url
        state := ← ReviewState.ofJson? state }
  | _ => none

/-- The requests a document stands for. -/
def listOfJson? : Json → Option (List PullRequest)
  | .array items => items.mapM ofJson?
  | _ => none

/-- Read a listing.  A blank one is empty. -/
def readListing (listing : String) : Except Failure (List PullRequest) :=
  let cs := Text.trim listing.toList
  if cs.isEmpty then .ok []
  else
    match (Json.read? cs).bind listOfJson? with
    | some prs => .ok prs
    | none => .error (.json "not a list of pull requests")

end PullRequest

end Shipment
