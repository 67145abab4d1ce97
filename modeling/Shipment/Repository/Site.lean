import Shipment.Repository.Model

/-!
# A site in memory

A site is a repository and a review host.  `Site.answer` answers every call of a
run from it, which makes a run a function of the site.
-/

namespace Shipment

/-- A review host. -/
structure ReviewHost where
  /-- Whether the user is logged in. -/
  authenticated : Bool := true
  /-- The number of the next request. -/
  nextNumber : Nat := 100
  /-- The requests, oldest first. -/
  requests : List PullRequest := []
  /-- What the address of a request has before its number. -/
  address : String := "https://github.com/acme/app/pull/"
deriving DecidableEq, Repr

namespace ReviewHost

/-- Open a request.  Gives its address. -/
def create (d : RequestDraft) (h : ReviewHost) : String × ReviewHost :=
  let url := h.address ++ toString h.nextNumber
  let pr : PullRequest :=
    { number := h.nextNumber, title := d.title, head := d.head, url, state := .opened }
  (url, { h with nextNumber := h.nextNumber + 1, requests := h.requests ++ [pr] })

end ReviewHost

/-- A repository and its review host. -/
structure Site where
  /-- The repository. -/
  repo : Repository := {}
  /-- The review host. -/
  host : ReviewHost := {}
deriving DecidableEq, Repr

namespace Site

/-- Take over a changed repository, or keep the site and fail. -/
def change (s : Site) : Except Failure Repository → Except Failure Unit × Site
  | .ok repo => (.ok (), { s with repo })
  | .error e => (.error e, s)

/-- The answers of a site. -/
def answer : Handler shipping Site := fun (c : Call) s =>
  match c with
  | .isAuthenticated => (.ok s.host.authenticated, s)
  | .hasOrigin => (.ok s.repo.hasOrigin, s)
  | .operationInProgress => (.ok s.repo.operation, s)
  | .currentBranch => (.ok s.repo.current, s)
  | .defaultBranch => (.ok s.repo.default, s)
  | .isClean => (.ok s.repo.isClean, s)
  | .headCommit => (.ok (s.repo.head.getLastD ""), s)
  | .fetch branch => s.change (s.repo.fetch branch)
  | .remoteBranchExists branch => (.ok (s.repo.remote.has branch), s)
  | .localBranchExists branch => (.ok (s.repo.branches.has branch), s)
  | .countCommits start target => (s.repo.countCommits start target, s)
  | .listCommits start target => (s.repo.listCommits start target, s)
  | .isAncestor ancestor descendant => (s.repo.isAncestor ancestor descendant, s)
  | .isValidBranchName name => (.ok (Repository.isValidName name), s)
  | .createBranch name => s.change (.ok (s.repo.createBranch name))
  | .checkout branch => s.change (s.repo.checkout branch)
  | .deleteBranch branch => s.change (s.repo.deleteBranch branch)
  | .resetSoft rev => s.change (s.repo.resetSoft rev)
  | .mergeFastForward rev => s.change (s.repo.mergeFastForward rev)
  | .stageAll => s.change (.ok s.repo.stageAll)
  | .hasStagedChanges => (.ok s.repo.staged, s)
  | .commit message =>
      let out := s.repo.commit message
      (out.1, { s with repo := out.2 })
  | .rebase onto => s.change (s.repo.rebase onto)
  | .push branch mode => s.change (s.repo.push branch mode)
  | .findRequest head => (.ok (PullRequest.forHead head s.host.requests), s)
  | .createRequest draft =>
      let out := s.host.create draft
      (.ok out.1, { s with host := out.2 })

end Site

end Shipment
