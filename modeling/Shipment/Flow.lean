import Shipment.Revision
import Shipment.Json.Value
import Shipment.Text.Quoted

/-!
# Flows, options and guards

A run follows one of two flows.  A *new request* cuts a branch and opens a
request for it.  An *update* pushes more work to the current branch.  The guards
decide whether there is anything to do and how to push.  They are functions of
what was observed and ask nothing themselves.
-/

namespace Shipment

/-- The two flows. -/
inductive Flow where
  /-- Cut a new branch and open a request for it. -/
  | newRequest
  /-- Push more work to the current branch. -/
  | updateExisting
deriving DecidableEq, Repr

namespace Flow

/-- The flow in words. -/
def text : Flow → String
  | newRequest => "new request"
  | updateExisting => "update existing"

/-- The name of the flow in a document. -/
def name : Flow → String
  | newRequest => "new-request"
  | updateExisting => "update-existing"

/-- A new request is for the default branch, or where one is asked for. -/
def select (current default : String) (asked : Bool) : Flow :=
  if current = default || asked then newRequest else updateExisting

end Flow

/-- What the caller asks of a run. -/
structure Options where
  /-- Rebase onto the base before pushing.  Needs a clean tree. -/
  sync : Bool := false
  /-- Open a new request even away from the default branch. -/
  new : Bool := false
  /-- The branch name to use instead of a generated one. -/
  branch : Option String := none
  /-- Let any description through that is not empty. -/
  force : Bool := false
  /-- Open a new request as a draft. -/
  draft : Bool := false
  /-- The base to use instead of the default branch. -/
  base : Option String := none
deriving DecidableEq, Repr

/-- Why a run has nothing to do. -/
inductive NoOpReason where
  /-- The default branch has a clean tree. -/
  | cleanDefaultBranch
  /-- A new request would be empty. -/
  | emptyRequest
  /-- Nothing is staged and nothing is ahead. -/
  | nothingToPush
deriving DecidableEq, Repr

namespace NoOpReason

/-- The reason in words. -/
def text : NoOpReason → String
  | cleanDefaultBranch => "working tree is clean on the default branch; nothing to ship"
  | emptyRequest => "no changes and no commits ahead of base; the request would be empty"
  | nothingToPush => "nothing to commit and no commits ahead of the remote branch"

/-- The name of the reason in a document. -/
def name : NoOpReason → String
  | cleanDefaultBranch => "clean-default-branch"
  | emptyRequest => "empty-request"
  | nothingToPush => "nothing-to-push"

end NoOpReason

/-- Something the user should know that does not stop the run. -/
inductive Notice where
  /-- The description was let through by force. -/
  | intentOverridden (description : String)
  /-- The request of the branch was closed, so a fresh one will be opened. -/
  | closedRequest (branch url : String)
  /-- The base has moved on. -/
  | behindBase (base : String) (commits : Nat)
  /-- A failed run went back to the branch before it. -/
  | rolledBack (branch restored : String)
deriving DecidableEq, Repr

namespace Notice

/-- The notice in words. -/
def text : Notice → String
  | intentOverridden description =>
      Text.quoted description ++
      " is not a conventional commit message; continuing because of --force"
  | closedRequest branch url =>
      "The pull request for '" ++ branch ++ "' was closed (" ++ url ++
      "); a new one will be opened after pushing"
  | behindBase base commits =>
      "Branch is " ++ toString commits ++ " commit(s) behind origin/" ++ base ++
      "; re-run with --sync to rebase"
  | rolledBack branch restored =>
      "Rolled back: deleted local branch '" ++ branch ++ "' and returned to '" ++
      restored ++ "'"

/-- The notice as a document. -/
def toJson : Notice → Json
  | intentOverridden description =>
      .fields [("kind", .text "intent-overridden"), ("description", .text description)]
  | closedRequest branch url =>
      .fields [("kind", .text "closed-request"), ("branch", .text branch), ("url", .text url)]
  | behindBase base commits =>
      .fields [("kind", .text "behind-base"), ("base", .text base), ("commits", .natural commits)]
  | rolledBack branch restored =>
      .fields [("kind", .text "rolled-back"), ("branch", .text branch),
        ("restored", .text restored)]

end Notice

/-! ## Guards -/

/-- Why a new request has nothing to do, if it has not.  `ahead` counts the
commits the base lacks. -/
def newRequestNoOp (onDefault asked dirty : Bool) (ahead : Nat) : Option NoOpReason :=
  if onDefault && !dirty then some .cleanDefaultBranch
  else if asked && !dirty && ahead == 0 then some .emptyRequest
  else none

/-- Whether an update has nothing to do. -/
def updateIsNoOp (staged : Bool) (ahead : Nat) (sync : Bool) : Bool :=
  !staged && ahead == 0 && !sync

/-- How an update pushes, if it does. -/
def updatePushMode (sync : Bool) (ahead : Nat) : Option PushMode :=
  if sync then some .forceWithLease
  else if ahead > 0 then some .tracking
  else none

end Shipment
