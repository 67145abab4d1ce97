import Shipment.Failure
import Shipment.Text.Number

/-!
# What git prints

The functions here read what git prints for a log, for the remotes, for the
symbolic refs of a remote and for a count.
-/

namespace Shipment.Git

/-- The commit on a line of a log: the hash, a tab and the subject.  A line
without a tab or without a hash has none. -/
def commitOf? (line : List Char) : Option Commit :=
  match Text.splitOnce ['\t'] line with
  | none => none
  | some (hash, subject) =>
      let hash := Text.trim hash
      if hash.isEmpty then none
      else some ⟨String.ofList hash, String.ofList (Text.trim subject)⟩

/-- The commits of a log. -/
def commitsOf (log : String) : List Commit := (Text.lines log.toList).filterMap commitOf?

/-- The branch on a line that says what `HEAD` of the remote stands for. -/
def headBranchOf? (line : List Char) : Option String := do
  let rest ← Text.after? "ref:".toList line
  let (target, name) ← Text.splitOnce ['\t'] (Text.trim rest)
  if Text.trim name == "HEAD".toList then
    (Text.after? "refs/heads/".toList (Text.trim target)).map String.ofList
  else none

/-- The branch that `HEAD` of the remote stands for in a listing. -/
def headBranch? (listing : String) : Option String :=
  (Text.lines listing.toList).findSome? headBranchOf?

/-- Whether a listing of remotes has `origin`. -/
def listsOrigin (listing : String) : Bool :=
  (Text.lines listing.toList).any fun line => Text.trim line == origin.toList

/-- The number of a count. -/
def countOf (count : String) : Except Failure Nat :=
  match Text.readCount count.toList with
  | .ok n => .ok n
  | .error problem =>
      .error (.vcs ("Unexpected rev-list output '" ++ count ++ "': " ++ problem.text))

example : headBranch? "ref: refs/heads/main\tHEAD\nabc\tHEAD" = some "main" := by decide +kernel
example : commitsOf "abc\tfeat: x\nno tab" = [⟨"abc", "feat: x"⟩] := by decide +kernel

end Shipment.Git
