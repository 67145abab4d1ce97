import Shipment.Git.Client
import Shipment.Review.Client

/-!
# The calls of a run as work

Each call of a run is answered by git or by the command line of the review host.
-/

namespace Shipment

/-- Answer a call for the working tree at a root. -/
def Call.work (root : Path) : (c : Call) → Work c.Answer
  | .isAuthenticated => ReviewClient.isAuthenticated root
  | .hasOrigin => Git.hasOrigin root
  | .operationInProgress => Git.operationInProgress root
  | .currentBranch => Git.currentBranch root
  | .defaultBranch => Git.defaultBranch root
  | .isClean => Git.isClean root
  | .headCommit => Git.headCommit root
  | .fetch branch => Git.fetch root branch
  | .remoteBranchExists branch => Git.remoteBranchExists root branch
  | .localBranchExists branch => Git.localBranchExists root branch
  | .countCommits start target => Git.countCommits root start target
  | .listCommits start target => Git.listCommits root start target
  | .isAncestor ancestor descendant => Git.isAncestor root ancestor descendant
  | .isValidBranchName name => Git.isValidBranchName root name
  | .createBranch name => Git.change root ["checkout", "-b", name]
  | .checkout branch => Git.change root ["checkout", branch]
  | .deleteBranch branch => Git.change root ["branch", "-D", branch]
  | .resetSoft rev => Git.change root ["reset", "--soft", rev]
  | .mergeFastForward rev => Git.change root ["merge", "--ff-only", rev]
  | .stageAll => Git.change root ["add", "--all"]
  | .hasStagedChanges => Git.hasStagedChanges root
  | .commit message => Git.change root ["commit", "--message", message]
  | .rebase onto => Git.change root ["rebase", onto]
  | .push branch mode => Git.push root branch mode
  | .findRequest head => ReviewClient.findRequest root head
  | .createRequest draft => ReviewClient.createRequest root draft

end Shipment
