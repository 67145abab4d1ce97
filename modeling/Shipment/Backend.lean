import Shipment.Action
import Shipment.Failure
import Shipment.Program
import Shipment.Step

/-!
# The calls of a run

A run works through calls to the version control system and to the review host.
`Call` lists them and `Call.Answer` gives the type of their answers.  Any call
may fail instead of answering, so a reply is an answer or a failure.  While it
works a run tells events: the flow it selected, the steps it enters, the actions
it does, and its notices.
-/

namespace Shipment

/-- What a run asks of the version control system and of the review host. -/
inductive Call where
  /-- Is the user logged in to the host? -/
  | isAuthenticated
  /-- Is there a remote named `origin`? -/
  | hasOrigin
  /-- Which operation is underway, if any? -/
  | operationInProgress
  /-- Which branch is `HEAD` on, if any? -/
  | currentBranch
  /-- Which branch is the default one of `origin`? -/
  | defaultBranch
  /-- Is the tree without staged, unstaged and untracked changes? -/
  | isClean
  /-- Which commit is `HEAD`? -/
  | headCommit
  /-- Update the tracking ref of a branch. -/
  | fetch (branch : String)
  /-- Is the branch on `origin`? -/
  | remoteBranchExists (branch : String)
  /-- Is there such a local branch? -/
  | localBranchExists (branch : String)
  /-- How many commits of `target` does `start` lack? -/
  | countCommits (start target : String)
  /-- Which commits of `target` does `start` lack, newest first? -/
  | listCommits (start target : String)
  /-- Does `descendant` contain `ancestor`? -/
  | isAncestor (ancestor descendant : String)
  /-- Is the name one a branch can have? -/
  | isValidBranchName (name : String)
  /-- Create a branch at `HEAD` and switch to it. -/
  | createBranch (name : String)
  /-- Switch to a branch. -/
  | checkout (branch : String)
  /-- Delete a local branch. -/
  | deleteBranch (branch : String)
  /-- Move the current branch and keep the changes staged. -/
  | resetSoft (rev : String)
  /-- Fast-forward the current branch. -/
  | mergeFastForward (rev : String)
  /-- Stage every change. -/
  | stageAll
  /-- Is anything staged? -/
  | hasStagedChanges
  /-- Commit what is staged. -/
  | commit (message : String)
  /-- Rebase the current branch. -/
  | rebase (onto : String)
  /-- Push a branch to `origin`. -/
  | push (branch : String) (mode : PushMode)
  /-- Which request describes the branch best, in any state? -/
  | findRequest (head : String)
  /-- Open a request and give its address. -/
  | createRequest (draft : RequestDraft)
deriving DecidableEq, Repr

namespace Call

/-- What a call is answered with. -/
abbrev Answer : Call → Type
  | isAuthenticated | hasOrigin | isClean | hasStagedChanges => Bool
  | remoteBranchExists _ | localBranchExists _ | isAncestor _ _ | isValidBranchName _ => Bool
  | operationInProgress => Option Operation
  | currentBranch => Option String
  | defaultBranch | headCommit | createRequest _ => String
  | countCommits _ _ => Nat
  | listCommits _ _ => List Commit
  | findRequest _ => Option PullRequest
  | fetch _ | createBranch _ | checkout _ | deleteBranch _ | resetSoft _ => Unit
  | mergeFastForward _ | stageAll | commit _ | rebase _ | push _ _ => Unit

end Call

/-- What a run tells while it works. -/
inductive Event where
  /-- A flow was selected. -/
  | flow (f : Flow)
  /-- A step was entered. -/
  | step (s : Step)
  /-- An action started or ended. -/
  | action (a : Action) (status : ActionStatus)
  /-- A notice was given. -/
  | notice (n : Notice)
deriving DecidableEq, Repr

/-- The interface of a run. -/
abbrev shipping : Interface where
  Call := Call
  Reply c := Except Failure c.Answer
  Event := Event

end Shipment
