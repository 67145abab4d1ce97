import Shipment.Backend
import Shipment.Review.Listing
import Shipment.System

/-!
# Working with the review host

The host is reached through its command line, started at the root of the working
tree.  If that cannot be found, a prerequisite is missing.
-/

namespace Shipment.ReviewClient

/-- Start the command line of the host. -/
def start (root : Path) (args : List String) : Work Output := do
  match ← Work.ask (.start .gh root args) with
  | .ok o => return o
  | .error .notFound => Work.fail (.missingPrerequisite .hostCli)
  | .error problem => Work.fail (.io problem)

/-- A command that must succeed.  `aim` says what it is for. -/
def command (root : Path) (args : List String) (aim : String) : Work String := do
  let o ← start root args
  if o.succeeded then return o.outText
  else Work.fail (.host ("Failed to " ++ aim ++ ": " ++ o.errText))

/-- Whether the user is logged in. -/
def isAuthenticated (root : Path) : Work Bool := do
  return (← start root ["auth", "status"]).succeeded

/-- The request that best describes a branch. -/
def findRequest (root : Path) (head : String) : Work (Option PullRequest) := do
  let listing ←
    command root
      ["pr", "list", "--head", head, "--state", "all", "--json",
        "number,title,headRefName,url,state"]
      "look up pull requests"
  return PullRequest.forHead head (← Work.ofExcept (PullRequest.readListing listing))

/-- The address of the open request of a branch. -/
def openRequestUrl (root : Path) (head : String) : Work (Option String) := do
  return (← findRequest root head).bind PullRequest.openUrl

/-- Whether a line is an address. -/
def isAddress (line : List Char) : Bool :=
  "https://".toList.isPrefixOf line || "http://".toList.isPrefixOf line

/-- The address in what was printed: the last line that is one. -/
def addressOf? (text : String) : Option String :=
  ((((Text.lines text.toList).map Text.trim).reverse).find? isAddress).map String.ofList

/-- Open a request and give its address. -/
def createRequest (root : Path) (draft : RequestDraft) : Work String := do
  let text ←
    command root
      (["pr", "create", "--title", draft.title, "--body", draft.body, "--base", draft.base,
        "--head", draft.head] ++ if draft.draft then ["--draft"] else [])
      "create PR"
  match addressOf? text with
  | some url => return url
  | none => Work.fail (.host "PR created but no URL was returned")

end Shipment.ReviewClient
