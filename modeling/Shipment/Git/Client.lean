import Shipment.Backend
import Shipment.Git.Listing
import Shipment.System

/-!
# Working with git

Every question about a repository, and every change to it, starts git at the
root of its working tree.

There are three ways to take the end of git.  A command must succeed, and gives
what it printed.  A predicate says yes by the code 0 and no by the code 1.  A
probe says yes when it succeeds and no otherwise.
-/

namespace Shipment.Git

/-- Start git in a directory. -/
def start (dir : Path) (args : List String) : Work Output := do
  Work.ofSystem (← Work.ask (.start .git dir args))

/-- The failure of git with some arguments. -/
def failed (args : List String) (detail : String) : Failure :=
  .vcs ("`git " ++ Text.joinWith " " args ++ "` failed: " ++ detail)

/-- A command. -/
def command (root : Path) (args : List String) : Work String := do
  let o ← start root args
  if o.succeeded then return o.outText
  else Work.fail (failed args (if o.errText.isEmpty then o.outText else o.errText))

/-- A command of which only the success matters. -/
def change (root : Path) (args : List String) : Work Unit := do
  let _ ← command root args

/-- A predicate. -/
def predicate (root : Path) (args : List String) : Work Bool := do
  let o ← start root args
  if o.code = some 0 then return true
  else if o.code = some 1 then return false
  else Work.fail (failed args o.errText)

/-- A probe. -/
def probe (root : Path) (args : List String) : Work Bool := do
  return (← start root args).succeeded

/-! ## The working tree -/

/-- The root of the working tree around a directory. -/
def discover (dir : Path) : Work Path := do
  let o ← start dir ["rev-parse", "--show-toplevel"]
  if o.succeeded then return ⟨o.outText⟩
  else
    Work.fail (.vcs ("'" ++ dir.text ++ "' is not inside a git repository: " ++ o.errText))

/-- The name of a repository, which its project configuration is kept under. -/
def nameOf (root : Path) : Option String := root.fileName?

/-- Whether git keeps a file of some name for the working tree. -/
def keepsFile (root : Path) (name : String) : Work Bool := do
  let path ← command root ["rev-parse", "--git-path", name]
  Work.ask (.isThere (root.join ⟨path⟩))

/-! ## Questions -/

/-- The branch `HEAD` is on. -/
def currentBranch (root : Path) : Work (Option String) := do
  let o ← start root ["symbolic-ref", "--quiet", "--short", "HEAD"]
  return if o.succeeded ∧ !o.outText.isEmpty then some o.outText else none

/-- The default branch of `origin`: the one noted locally, or the one the remote
names. -/
def defaultBranch (root : Path) : Work String := do
  let o ← start root ["symbolic-ref", "--quiet", "--short", "refs/remotes/" ++ origin ++ "/HEAD"]
  match (if o.succeeded then Text.after? (origin ++ "/").toList o.outText.toList else none) with
  | some branch => return String.ofList branch
  | none => do
      let listing ← command root ["ls-remote", "--symref", origin, "HEAD"]
      match headBranch? listing with
      | some branch => return branch
      | none => Work.fail (.vcs "Could not determine the default branch of origin")

/-- Whether there is a remote named `origin`. -/
def hasOrigin (root : Path) : Work Bool := do
  return listsOrigin (← command root ["remote"])

/-- The operation that is underway. -/
def operationInProgress (root : Path) : Work (Option Operation) := do
  if ← keepsFile root "rebase-merge" then return some .rebase
  if ← keepsFile root "rebase-apply" then return some .rebase
  if ← keepsFile root "MERGE_HEAD" then return some .merge
  if ← keepsFile root "CHERRY_PICK_HEAD" then return some .cherryPick
  return none

/-- Whether the tree has no changes. -/
def isClean (root : Path) : Work Bool := do
  return (← command root ["status", "--porcelain"]).isEmpty

/-- The commit `HEAD` stands for. -/
def headCommit (root : Path) : Work String := command root ["rev-parse", "HEAD"]

/-- The full name of a local branch. -/
def branchRef (branch : String) : String := "refs/heads/" ++ branch

/-- Whether a branch is on `origin`.  The code 2 says that it is not. -/
def remoteBranchExists (root : Path) (branch : String) : Work Bool := do
  let o ← start root ["ls-remote", "--exit-code", "--heads", origin, branchRef branch]
  if o.code = some 0 then return true
  else if o.code = some 2 then return false
  else Work.fail (.vcs ("Failed to query origin for '" ++ branch ++ "': " ++ o.errText))

/-- Whether there is a local branch. -/
def localBranchExists (root : Path) (branch : String) : Work Bool :=
  probe root ["show-ref", "--verify", "--quiet", branchRef branch]

/-- The commits of `target` that `start` lacks, as a range. -/
def range (start target : String) : String := start ++ ".." ++ target

/-- How many commits of `target` does `start` lack? -/
def countCommits (root : Path) (start target : String) : Work Nat := do
  Work.ofExcept (countOf (← command root ["rev-list", "--count", range start target]))

/-- Which commits of `target` does `start` lack? -/
def listCommits (root : Path) (start target : String) : Work (List Commit) := do
  return commitsOf (← command root ["log", "--format=%h%x09%s", range start target])

/-- Whether `descendant` contains `ancestor`. -/
def isAncestor (root : Path) (ancestor descendant : String) : Work Bool :=
  predicate root ["merge-base", "--is-ancestor", ancestor, descendant]

/-- Whether a branch can have a name. -/
def isValidBranchName (root : Path) (name : String) : Work Bool :=
  probe root ["check-ref-format", "--branch", name]

/-- Whether anything is staged. -/
def hasStagedChanges (root : Path) : Work Bool := do
  return !(← predicate root ["diff", "--cached", "--quiet"])

/-! ## Changes -/

/-- Update the tracking ref of a branch. -/
def fetch (root : Path) (branch : String) : Work Unit :=
  change root
    ["fetch", origin, "+" ++ branchRef branch ++ ":refs/remotes/" ++ origin ++ "/" ++ branch]

/-- Push a branch. -/
def push (root : Path) (branch : String) (mode : PushMode) : Work Unit :=
  change root <|
    ["push"] ++ (if mode = .forceWithLease then ["--force-with-lease"] else []) ++
    ["--set-upstream", origin, branch]

end Shipment.Git
