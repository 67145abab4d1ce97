import Shipment.Text.Lines
import Shipment.Json.Value

/-!
# Pull requests

What the review host knows of pull requests.  Several requests can share a head
branch.  `mostRelevant` picks the one that describes the branch: an open request
before a merged one, a merged one before a closed one, and within a state the
highest number.  Among equals the last one listed wins.
-/

namespace Shipment

/-- The state of a request. -/
inductive ReviewState where
  /-- There is no request. -/
  | absent
  /-- It is open. -/
  | opened
  /-- It was merged. -/
  | merged
  /-- It was closed without a merge. -/
  | closed
deriving DecidableEq, Repr

namespace ReviewState

/-- The state in words. -/
def text : ReviewState → String
  | absent => "none"
  | opened => "open"
  | merged => "merged"
  | closed => "closed"

/-- The name of the state in a document. -/
def name : ReviewState → String
  | absent => "NONE"
  | opened => "OPEN"
  | merged => "MERGED"
  | closed => "CLOSED"

/-- The state of a name. -/
def ofName? (s : String) : Option ReviewState :=
  [absent, opened, merged, closed].find? fun state => state.name == s

/-- How well the state describes a branch. -/
def rank : ReviewState → Nat
  | opened => 3
  | merged => 2
  | closed => 1
  | absent => 0

theorem ofName?_name (state : ReviewState) : ofName? state.name = some state := by
  cases state <;> decide

end ReviewState

/-- A pull request as the host lists it. -/
structure PullRequest where
  /-- The number. -/
  number : Nat
  /-- The title. -/
  title : String
  /-- The branch it would merge. -/
  head : String
  /-- Where to look at it. -/
  url : String
  /-- Its state. -/
  state : ReviewState
deriving DecidableEq, Repr

namespace PullRequest

/-- Whether `b` describes a branch at least as well as `a`. -/
def atMost (a b : PullRequest) : Bool :=
  a.state.rank < b.state.rank || (a.state.rank == b.state.rank && a.number ≤ b.number)

/-- The request that best describes a branch. -/
def mostRelevant : List PullRequest → Option PullRequest
  | [] => none
  | pr :: prs =>
      match mostRelevant prs with
      | none => some pr
      | some best => if pr.atMost best then some best else some pr

/-- The request that best describes the branch `head`. -/
def forHead (head : String) (prs : List PullRequest) : Option PullRequest :=
  mostRelevant (prs.filter fun pr => pr.head == head)

/-- The address of a request if it is open. -/
def openUrl (pr : PullRequest) : Option String :=
  if pr.state = .opened then some pr.url else none

end PullRequest

/-- A pull request that is about to be opened. -/
structure RequestDraft where
  /-- The title. -/
  title : String
  /-- The body. -/
  body : String
  /-- The branch to merge into. -/
  base : String
  /-- The branch to merge. -/
  head : String
  /-- Whether it is opened as a draft. -/
  draft : Bool
deriving DecidableEq, Repr

namespace RequestDraft

/-- The title for a description: its first line that is not blank, trimmed. -/
def titleOf (description : String) : String :=
  let trimmedLines := (Text.lines description.toList).map Text.trim
  String.ofList ((trimmedLines.find? fun l => !l.isEmpty).getD [])

/-- The body for a description: all of it, trimmed. -/
def bodyOf (description : String) : String := Text.trimmed description

end RequestDraft

/-- What became of the request of a shipped branch. -/
inductive RequestResult where
  /-- It was opened. -/
  | created (url : String)
  /-- A fresh branch had an open one already. -/
  | alreadyExists (url : String)
  /-- The branch of an open one was pushed. -/
  | updated (url : String)
deriving DecidableEq, Repr

namespace RequestResult

/-- The address of the request. -/
def url : RequestResult → String
  | created url => url
  | alreadyExists url => url
  | updated url => url

/-- The name of the case in a document. -/
def status : RequestResult → String
  | created _ => "created"
  | alreadyExists _ => "already-exists"
  | updated _ => "updated"

/-- The result as a document. -/
def toJson (r : RequestResult) : Json :=
  .fields [("status", .text r.status), ("url", .text r.url)]

end RequestResult

end Shipment
