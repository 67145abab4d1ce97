import Shipment.Revision
import Shipment.Text.Lines
import Shipment.Text.Quoted

/-!
# Failures

Every way an invocation can fail has a constructor that carries what it is
about.  `kind` is its name in diagnostics, `text` its message, and `remedy` what
gets the user unstuck, if anything is known to.
-/

namespace Shipment

/-- A condition that must hold before anything is changed. -/
inductive Prerequisite where
  /-- The command line of the review host can be started. -/
  | hostCli
  /-- The user is logged in to the review host. -/
  | hostAuthentication
  /-- There is a remote named `origin`. -/
  | originRemote
  /-- The operation is not underway. -/
  | noOperation (op : Operation)
  /-- `HEAD` is on a named branch. -/
  | namedBranch
deriving DecidableEq, Repr

namespace Prerequisite

/-- What is the case when the condition does not hold. -/
def text : Prerequisite → String
  | hostCli => "GitHub CLI (gh) is not installed"
  | hostAuthentication => "not authenticated with GitHub CLI"
  | originRemote => "no remote named 'origin' is configured"
  | noOperation op => "a " ++ op.text ++ " is already in progress"
  | namedBranch => "HEAD is detached (not on a named branch)"

/-- How to make the condition hold. -/
def remedy : Prerequisite → String
  | hostCli => "Install it from https://cli.github.com, then run `gh auth login`."
  | hostAuthentication => "Run `gh auth login` first."
  | originRemote => "Add one with `git remote add origin <url>`."
  | noOperation op => op.remedy
  | namedBranch =>
      "Switch to a branch with `git switch <branch>` (or create one with " ++
      "`git switch -c <branch>`)."

end Prerequisite

/-- Why a branch name cannot be used. -/
inductive NameProblem where
  /-- It breaks the rules for ref names. -/
  | invalidRefName
  /-- A local branch has it. -/
  | existsLocally
  /-- A branch on `origin` has it. -/
  | existsOnRemote
deriving DecidableEq, Repr

namespace NameProblem

/-- The problem in words. -/
def text : NameProblem → String
  | invalidRefName => "not a valid git branch name"
  | existsLocally => "a local branch with this name already exists"
  | existsOnRemote => "a branch with this name already exists on origin"

end NameProblem

/-- Why the file system or the start of a program failed. -/
inductive IoProblem where
  /-- There is nothing of that name. -/
  | notFound
  /-- A file stands where a directory is needed. -/
  | notADirectory
  /-- A directory stands where a file is needed. -/
  | isADirectory
  /-- Something of that name is there already. -/
  | alreadyExists
  /-- The content is not UTF-8. -/
  | notUtf8
  /-- A path or one of its names is too long. -/
  | nameTooLong
  /-- A path has the character NUL. -/
  | nulInPath
  /-- The directory or an argument of a tool has the character NUL. -/
  | nulInStart
  /-- An argument of a tool is too long. -/
  | argumentTooLong
  /-- Any other problem, in words. -/
  | other (words : String)
deriving DecidableEq, Repr

namespace IoProblem

/-- The problem in words. -/
def text : IoProblem → String
  | notFound => "No such file or directory (os error 2)"
  | notADirectory => "Not a directory (os error 20)"
  | isADirectory => "Is a directory (os error 21)"
  | alreadyExists => "File exists (os error 17)"
  | notUtf8 => "stream did not contain valid UTF-8"
  | nameTooLong => "File name too long (os error 36)"
  | nulInPath => "file name contained an unexpected NUL byte"
  | nulInStart => "nul byte found in provided data"
  | argumentTooLong => "Argument list too long (os error 7)"
  | other words => words

end IoProblem

/-- Why an invocation failed. -/
inductive Failure where
  /-- The description is not a conventional commit message. -/
  | invalidIntent (description : String)
  /-- A prerequisite does not hold. -/
  | missingPrerequisite (what : Prerequisite)
  /-- The base branch is not on `origin`. -/
  | unknownBase (branch : String)
  /-- The local default branch is ahead of `origin`. -/
  | unpushedCommits (branch : String) (commits : List Commit)
  /-- The default branch could not be fast-forwarded. -/
  | unexpectedDivergence (branch detail : String)
  /-- Staging left nothing to commit. -/
  | emptyCommit (branch : String)
  /-- The branch name cannot be used. -/
  | unusableName (name : String) (problem : NameProblem)
  /-- The request of the branch is merged. -/
  | mergedRequest (branch : String) (url : Option String)
  /-- The working tree is dirty and a sync was asked for. -/
  | dirtyTreeDuringSync
  /-- The remote branch has commits the local one lacks. -/
  | unseenCommits (branch : String)
  /-- A rebase stopped. -/
  | rebaseConflict (onto detail : String)
  /-- A push was refused. -/
  | pushRejected (branch detail : String)
  /-- The file system or the start of a program failed. -/
  | io (problem : IoProblem)
  /-- A document of the review host could not be read. -/
  | json (detail : String)
  /-- The version control system failed. -/
  | vcs (detail : String)
  /-- The review host failed. -/
  | host (detail : String)
  /-- The configuration cannot be used. -/
  | config (detail : String)
deriving DecidableEq, Repr

/-- One indented line per commit. -/
def Commit.listing (commits : List Commit) : String :=
  Text.joinWith "\n" (commits.map fun c => "  " ++ c.hash ++ " " ++ c.subject)

namespace Failure

/-- The name of the failure in diagnostics. -/
def kind : Failure → String
  | invalidIntent _ => "InvalidIntentFormat"
  | missingPrerequisite _ => "MissingPrerequisite"
  | unknownBase _ => "UnknownBaseBranch"
  | unpushedCommits _ _ => "UnpushedDefaultBranchCommits"
  | unexpectedDivergence _ _ => "UnexpectedDivergence"
  | emptyCommit _ => "EmptyCommit"
  | unusableName _ _ => "InvalidOrCollidingBranchName"
  | mergedRequest _ _ => "CannotUpdateMergedRequest"
  | dirtyTreeDuringSync => "DirtyTreeDuringSync"
  | unseenCommits _ => "RemoteHasUnseenCommits"
  | rebaseConflict _ _ => "RebaseConflict"
  | pushRejected _ _ => "PushRejected"
  | io _ => "Io"
  | json _ => "Json"
  | vcs _ => "GitError"
  | host _ => "GhError"
  | config _ => "Config"

/-- The message of the failure. -/
def text : Failure → String
  | invalidIntent description =>
      "Invalid change description " ++ Text.quoted description ++
      ": expected `type(scope)?!?: description` with type one of " ++
      "feat, fix, docs, chore, refactor, perf, test, ci, build"
  | missingPrerequisite what => "Missing prerequisite: " ++ what.text
  | unknownBase branch => "Base branch '" ++ branch ++ "' does not exist on origin"
  | unpushedCommits branch commits =>
      "Local '" ++ branch ++ "' has " ++ toString commits.length ++
      " unpushed commit(s) that would be carried into the new branch:\n" ++
      Commit.listing commits
  | unexpectedDivergence branch detail =>
      "Local '" ++ branch ++ "' cannot be fast-forwarded to origin/" ++ branch ++ ": " ++ detail
  | emptyCommit branch => "Staging produced no changes to commit on '" ++ branch ++ "'"
  | unusableName name problem => "Branch name '" ++ name ++ "' rejected: " ++ problem.text
  | mergedRequest branch url =>
      "The pull request for '" ++ branch ++
      "' is already merged; further pushes will not reach the base branch" ++
      match url with
      | some url => " (" ++ url ++ ")"
      | none => ""
  | dirtyTreeDuringSync =>
      "Working tree has uncommitted changes; --sync requires a clean tree"
  | unseenCommits branch =>
      "origin/" ++ branch ++ " has commits that are not in your local history; " ++
      "a forced push would discard them"
  | rebaseConflict onto detail =>
      "Rebase onto '" ++ onto ++ "' stopped with conflicts: " ++ detail
  | pushRejected branch detail => "Push of '" ++ branch ++ "' was rejected: " ++ detail
  | io problem => "IO error: " ++ problem.text
  | json detail => "JSON error: " ++ detail
  | vcs detail => "Git error: " ++ detail
  | host detail => "GitHub CLI error: " ++ detail
  | config detail => "Configuration error: " ++ detail

/-- What gets the user unstuck, if anything is known to. -/
def remedy : Failure → Option String
  | invalidIntent _ => some <|
      "Use a conventional commit message, e.g. `shipr \"feat: add widget\"` or\n" ++
      "`shipr \"fix(parser): handle empty input\"`. Pass --force to override."
  | missingPrerequisite what => some what.remedy
  | unknownBase _ => some <|
      "List the remote branches with `git ls-remote --heads origin` and pass one of them " ++
      "to --base."
  | unpushedCommits branch _ => some <|
      "Push them:    git push origin " ++ branch ++ "\n" ++
      "or discard:   git reset --hard origin/" ++ branch ++ "\n" ++
      "then re-run shipr."
  | unexpectedDivergence branch _ => some <|
      "Reconcile the branches manually (`git pull --rebase origin " ++ branch ++
      "`), then re-run shipr."
  | emptyCommit _ => some <|
      "Nothing was staged (are the changes ignored by .gitignore?). " ++
      "You are back on your previous branch."
  | unusableName _ _ => some
      "Choose a different --branch name, or omit --branch to generate one."
  | mergedRequest _ _ => some
      "Start a new pull request from the current state with `shipr --new \"<description>\"`."
  | dirtyTreeDuringSync => some
      "Commit or stash your changes (`git stash`), or re-run without --sync."
  | unseenCommits branch => some <|
      "Integrate the remote commits first: `git pull --rebase origin " ++ branch ++
      "`, then re-run with --sync."
  | rebaseConflict _ _ => some <|
      "Resolve the conflicts and run `git rebase --continue`, or give up with " ++
      "`git rebase --abort`.\nThen re-run shipr."
  | pushRejected branch _ => some <|
      "Inspect the remote with `git fetch origin && git log HEAD..origin/" ++ branch ++
      "`, then re-run shipr."
  | io _ | json _ | vcs _ | host _ | config _ => none

end Failure

end Shipment
