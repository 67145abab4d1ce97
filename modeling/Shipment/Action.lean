import Shipment.Review
import Shipment.Revision

/-!
# Actions

An action is one step that can change the repository, `origin` or the review
host.  Every one of them is reported when it starts and when it ends.
-/

namespace Shipment

/-- A step that can change something. -/
inductive Action where
  /-- Fetch a branch from `origin`. -/
  | fetch (branch : String)
  /-- Fast-forward the current branch to a branch on `origin`. -/
  | fastForward (branch : String)
  /-- Create a branch and switch to it. -/
  | createBranch (name : String)
  /-- Stage every change. -/
  | stageAll
  /-- Commit what is staged. -/
  | commit (message : String)
  /-- Rebase the current branch onto a branch on `origin`. -/
  | rebase (onto : String)
  /-- Push a branch. -/
  | push (branch : String) (mode : PushMode)
  /-- Open a pull request. -/
  | openRequest (draft : RequestDraft)
deriving DecidableEq, Repr

namespace Action

/-- Whether the action talks to the network and may take a while. -/
def isNetwork : Action → Bool
  | fetch _ => true
  | push _ _ => true
  | openRequest _ => true
  | _ => false

/-- The action in words. -/
def text : Action → String
  | fetch branch => "fetch " ++ trackingRef branch
  | fastForward branch => "fast-forward to " ++ trackingRef branch
  | createBranch name => "create branch " ++ name
  | stageAll => "stage all changes"
  | commit message =>
      "commit \"" ++ String.ofList (Text.firstLine message.toList) ++ "\""
  | rebase onto => "rebase onto " ++ trackingRef onto
  | push branch mode => mode.text ++ " " ++ branch
  | openRequest d =>
      (if d.draft then "open draft pull request " else "open pull request ") ++
        d.head ++ " -> " ++ d.base

end Action

/-- How an action stands. -/
inductive ActionStatus where
  /-- It is about to be done. -/
  | started
  /-- It is done. -/
  | succeeded
  /-- It failed, with the message. -/
  | failed (message : String)
deriving DecidableEq, Repr

end Shipment
