import Shipment.Backend

/-!
# Kinds of calls

A piece of a run makes calls of a kind.  The kinds are predicates, so that what is
known of a call goes with it.  `AsksOr` is the kind of a piece that asks and does one
thing besides.
-/

namespace Shipment.Call

/-- Whether a call changes nothing. -/
def isQuestion : Call → Bool
  | fetch _ | createBranch _ | checkout _ | deleteBranch _ | resetSoft _ => false
  | mergeFastForward _ | stageAll | commit _ | rebase _ | push _ _ | createRequest _ => false
  | _ => true

/-- Whether a call only asks. -/
def Asks (c : Call) : Prop := c.isQuestion = true

/-- Whether a call only asks or is a certain one. -/
def AsksOr (d c : Call) : Prop := c.Asks ∨ c = d

/-- Whether a call asks or fetches. -/
def Looks (c : Call) : Prop := c.Asks ∨ ∃ branch, c = .fetch branch

/-- Whether a call changes nothing that is here. -/
def Afar (c : Call) : Prop :=
  c.Looks ∨ (∃ branch mode, c = .push branch mode) ∨ ∃ draft, c = .createRequest draft

/-- Whether a call works here: it asks or changes only what is here. -/
def Works (c : Call) : Prop :=
  c.Asks ∨ c = .stageAll ∨ (∃ message, c = .commit message) ∨ ∃ rev, c = .rebase rev

/-- Whether a call does not force a push. -/
def Gentle (c : Call) : Prop := ∀ branch, c ≠ .push branch .forceWithLease

/-- Whether a call comes before a branch is cut. -/
def Prepares (c : Call) : Prop := c.Looks ∨ ∃ rev, c = .mergeFastForward rev

/-- Whether a call commits: it asks, stages, or commits under a message. -/
def Commits (message : String) (c : Call) : Prop := c.Asks ∨ c = .stageAll ∨ c = .commit message

/-- Whether a call ships a branch: commits under a message and pushes in a mode. -/
def Ships (message branch : String) (mode : PushMode) (c : Call) : Prop :=
  c.Asks ∨ c = .stageAll ∨ c = .commit message ∨ c = .push branch mode

/-- Whether a call is one of an update. -/
def Updates (c : Call) : Prop :=
  c.Looks ∨ (∃ rev, c = .rebase rev) ∨ c = .stageAll ∨ (∃ message, c = .commit message) ∨
    (∃ branch mode, c = .push branch mode) ∨ ∃ draft, c = .createRequest draft

/-- Whether a call pushes. -/
def isPush : Call → Bool
  | push _ _ => true
  | _ => false

/-- Whether a call undoes a new branch. -/
def undoes : Call → Bool
  | resetSoft _ | checkout _ | deleteBranch _ => true
  | _ => false

end Shipment.Call
