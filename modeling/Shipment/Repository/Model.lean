import Shipment.Backend
import Shipment.Table

/-!
# A repository in memory

A repository is a set of local branches, the branches on `origin`, and the
tracking refs that remember what `origin` had.  A branch is its history, a list
of commit ids from the oldest to the newest.  New commits get the ids `n1`, `n2`
and so on.  The tree is a pair of flags, for changes that are not staged and for
changes that are.

Every operation fails in the words of the version control system.  An operation
that fails changes nothing, except that a commit made on a detached `HEAD` has
used up its id.
-/

namespace Shipment

/-- The commits of a branch, oldest first. -/
abbrev History := List String

/-- A repository with its remote. -/
structure Repository where
  /-- The default branch of `origin`. -/
  default : String := "main"
  /-- Whether there is a remote named `origin`. -/
  hasOrigin : Bool := true
  /-- The operation underway. -/
  operation : Option Operation := none
  /-- The branch `HEAD` is on. -/
  current : Option String := some "main"
  /-- The local branches. -/
  branches : Table String History := [("main", ["c0"])]
  /-- The tracking refs. -/
  tracking : Table String History := [("main", ["c0"])]
  /-- The branches on `origin`. -/
  remote : Table String History := [("main", ["c0"])]
  /-- The messages of the commits. -/
  messages : Table String String := [("c0", "initial")]
  /-- Whether there are changes that are not staged. -/
  dirty : Bool := false
  /-- Whether there are changes that are staged. -/
  staged : Bool := false
  /-- Whether staging passes over the changes. -/
  ignored : Bool := false
  /-- How many commits were made here. -/
  issued : Nat := 0
deriving DecidableEq, Repr

namespace Repository

/-! ## Reading -/

/-- The history of `HEAD`, if its branch exists. -/
def headHistory? (r : Repository) : Option History := r.current.bind r.branches.get?

/-- The history of `HEAD`, empty if its branch does not exist. -/
def head (r : Repository) : History := r.headHistory?.getD []

/-- The history a revision stands for. -/
def resolve? (rev : String) (r : Repository) : Option History :=
  if rev = "HEAD" then r.headHistory?
  else
    match Text.after? (trackingRef "").toList rev.toList with
    | some branch => r.tracking.get? (String.ofList branch)
    | none => r.branches.get? rev

/-- The failure of a revision that stands for nothing. -/
def unknownRevision (rev : String) : Failure := .vcs ("unknown revision '" ++ rev ++ "'")

/-- The history a revision stands for, or the failure that there is none. -/
def resolve (rev : String) (r : Repository) : Except Failure History :=
  match r.resolve? rev with
  | some h => .ok h
  | none => .error (unknownRevision rev)

/-- The commits of `target` that `start` lacks, in order. -/
def missing (start target : History) : History := target.filter fun id => !start.contains id

/-- The message of a commit, empty if it has none. -/
def message (id : String) (r : Repository) : String := (r.messages.get? id).getD ""

/-- Whether a tree has no changes. -/
def isClean (r : Repository) : Bool := !r.dirty && !r.staged

/-- How many commits of `target` `start` lacks. -/
def countCommits (start target : String) (r : Repository) : Except Failure Nat := do
  let a ← r.resolve start
  let b ← r.resolve target
  return (missing a b).length

/-- The commits of `target` that `start` lacks, newest first. -/
def listCommits (start target : String) (r : Repository) : Except Failure (List Commit) := do
  let a ← r.resolve start
  let b ← r.resolve target
  return (missing a b).reverse.map fun id => ⟨id, r.message id⟩

/-- Whether one history starts with another. -/
def isAncestor (ancestor descendant : String) (r : Repository) : Except Failure Bool := do
  let a ← r.resolve ancestor
  let b ← r.resolve descendant
  return a.isPrefixOf b

/-- Whether a text ends with another. -/
def endsWith (tail cs : List Char) : Bool := tail.reverse.isPrefixOf cs.reverse

/-- Whether a branch can have a name. -/
def isValidName (name : String) : Bool :=
  let cs := name.toList
  !cs.head?.any (· == '-') && !Text.occurs "..".toList cs && !endsWith "/".toList cs &&
    !endsWith ".lock".toList cs

/-! ## Changing -/

/-- Replace the history of `HEAD`. -/
def setHead (h : History) (r : Repository) : Except Failure Repository :=
  match r.current with
  | some branch => .ok { r with branches := r.branches.set branch h }
  | none => .error (.vcs "HEAD is detached")

/-- A new commit that is on no branch yet. -/
def issue (message : String) (r : Repository) : String × Repository :=
  let id := "n" ++ toString (r.issued + 1)
  (id, { r with issued := r.issued + 1, messages := r.messages.set id message })

/-- Update the tracking ref of a branch. -/
def fetch (branch : String) (r : Repository) : Except Failure Repository :=
  match r.remote.get? branch with
  | some h => .ok { r with tracking := r.tracking.set branch h }
  | none => .error (.vcs ("couldn't find remote ref " ++ branch))

/-- Create a branch at `HEAD` and switch to it. -/
def createBranch (name : String) (r : Repository) : Repository :=
  { r with branches := r.branches.set name r.head, current := some name }

/-- Switch to a branch. -/
def checkout (branch : String) (r : Repository) : Except Failure Repository :=
  if r.branches.has branch then .ok { r with current := some branch }
  else .error (.vcs ("no branch " ++ branch))

/-- Delete a local branch. -/
def deleteBranch (branch : String) (r : Repository) : Except Failure Repository :=
  if r.current = some branch then
    .error (.vcs ("cannot delete checked-out branch " ++ branch))
  else .ok { r with branches := r.branches.erase branch }

/-- A history up to a commit. -/
def upTo? (id : String) : History → Option History
  | [] => none
  | c :: h => if c = id then some [c] else (upTo? id h).map (c :: ·)

/-- Move the current branch back to a commit and keep the changes staged. -/
def resetSoft (rev : String) (r : Repository) : Except Failure Repository :=
  match upTo? rev r.head with
  | none => .error (unknownRevision rev)
  | some h => do
      let r ← r.setHead h
      return { r with staged := true, dirty := true }

/-- Move the current branch forward to a revision that extends it. -/
def mergeFastForward (rev : String) (r : Repository) : Except Failure Repository := do
  let target ← r.resolve rev
  if r.head.isPrefixOf target then r.setHead target
  else .error (.vcs "Not possible to fast-forward")

/-- Stage every change. -/
def stageAll (r : Repository) : Repository :=
  if r.dirty && !r.ignored then { r with staged := true } else r

/-- Commit what is staged. -/
def commit (message : String) (r : Repository) : Except Failure Unit × Repository :=
  if r.staged then
    let (id, issued) := r.issue message
    match issued.setHead (r.head ++ [id]) with
    | .ok r => (.ok (), { r with staged := false, dirty := false })
    | .error e => (.error e, issued)
  else (.error (.vcs "nothing to commit"), r)

/-- New commits with the messages of others, behind a history. -/
def replay : History → History → Repository → History × Repository
  | base, [], r => (base, r)
  | base, id :: ids, r =>
      let (fresh, r) := r.issue (r.message id)
      replay (base ++ [fresh]) ids r

/-- Put the commits of the current branch that a revision lacks behind it. -/
def rebase (onto : String) (r : Repository) : Except Failure Repository := do
  let target ← r.resolve onto
  let (h, r) := replay target (missing target r.head) r
  r.setHead h

/-- Whether a push of a history is refused, and in which words. -/
def refusal (branch : String) (mode : PushMode) (h : History) (r : Repository) :
    Option String :=
  match mode, r.remote.get? branch with
  | _, none => none
  | .tracking, some there =>
      if there.isPrefixOf h then none else some "! [rejected] (non-fast-forward)"
  | .forceWithLease, some there =>
      if r.tracking.get? branch = some there then none else some "! [rejected] (stale info)"

/-- Push a branch. -/
def push (branch : String) (mode : PushMode) (r : Repository) : Except Failure Repository := do
  let h ← r.resolve branch
  match r.refusal branch mode h with
  | some words => .error (.vcs words)
  | none =>
      return { r with remote := r.remote.set branch h, tracking := r.tracking.set branch h }

end Repository

end Shipment
