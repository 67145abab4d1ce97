/-!
# Revisions, commits and pushes

The words shared with the version control system.  There is one remote,
`origin`.  A revision is written the way the system reads it: `HEAD`, the name
of a local branch, or a remote-tracking ref such as `origin/main`.
-/

namespace Shipment

/-- The name of the one remote. -/
def origin : String := "origin"

/-- The remote-tracking ref of a branch on `origin`. -/
def trackingRef (branch : String) : String := origin ++ "/" ++ branch

theorem toList_trackingRef (branch : String) :
    (trackingRef branch).toList = (trackingRef "").toList ++ branch.toList := by
  simp only [trackingRef, String.toList_append, String.append_empty]

theorem trackingRef_inj {branch branch' : String} :
    trackingRef branch = trackingRef branch' ↔ branch = branch' := by
  refine ⟨fun h => ?_, congrArg trackingRef⟩
  have hl := congrArg String.toList h
  rw [toList_trackingRef branch, toList_trackingRef branch'] at hl
  exact String.toList_inj.mp (List.append_cancel_left hl)

theorem trackingRef_ne_head (branch : String) : trackingRef branch ≠ "HEAD" := by
  intro h
  have hl := congrArg String.toList h
  rw [toList_trackingRef branch] at hl
  cases hl

/-- A commit as a log shows it. -/
structure Commit where
  /-- The abbreviated hash. -/
  hash : String
  /-- The first line of the message. -/
  subject : String
deriving DecidableEq, Repr

/-- An operation of several steps that was left unfinished. -/
inductive Operation where
  /-- A rebase stopped on a conflict. -/
  | rebase
  /-- A merge waits for its commit. -/
  | merge
  /-- A cherry-pick stopped on a conflict. -/
  | cherryPick
deriving DecidableEq, Repr

namespace Operation

/-- The operation in words. -/
def text : Operation → String
  | rebase => "rebase"
  | merge => "merge"
  | cherryPick => "cherry-pick"

/-- How to end the operation. -/
def remedy : Operation → String
  | rebase =>
      "Finish it with `git rebase --continue` or cancel it with `git rebase --abort`."
  | merge => "Finish it with `git commit` or cancel it with `git merge --abort`."
  | cherryPick =>
      "Finish it with `git cherry-pick --continue` or cancel it with `git cherry-pick --abort`."

end Operation

/-- How a branch is pushed. -/
inductive PushMode where
  /-- The remote branch may only grow. -/
  | tracking
  /-- The remote branch is replaced if it is where the tracking ref says. -/
  | forceWithLease
deriving DecidableEq, Repr

namespace PushMode

/-- The mode in words. -/
def text : PushMode → String
  | tracking => "push"
  | forceWithLease => "force-with-lease push"

/-- The name of the mode in a document. -/
def name : PushMode → String
  | tracking => "tracking"
  | forceWithLease => "force-with-lease"

end PushMode

end Shipment
