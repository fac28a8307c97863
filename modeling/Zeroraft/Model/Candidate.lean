import Zeroraft.Model.Node

/-!
# Vote sessions

The parts of `role_candidate.rs` and `send_request_vote_rpc` that compute
something. How the tasks of a session interleave is the subject of `Runtime`.
-/

namespace Zeroraft

variable {S R : Type}

inductive VoteResult where
  | noPeers
  | granted
  deriving DecidableEq, Repr

/-- `VoteSession::initialize`. Neither the new term nor the vote is persisted. -/
def initializeVoteSession : NodeM S Unit := do
  incrementTerm
  voteForSelf

@[simp] theorem run_initializeVoteSession (node : RaftNode S) :
    initializeVoteSession.run node =
      (.ok (), { node with
        currentTerm := (node.currentTerm + 1) % u64Size, votedFor := some node.id }) := rfl

/-- The members other than the node itself. -/
def MembershipMap.peers (membership : MembershipMap) (id : NodeId) : List NodeId :=
  membership.ids.filter (· ≠ id)

def unackPeers (peers ackPeers : List NodeId) : List NodeId := peers.filter (· ∉ ackPeers)

/-- More than half of the votes of a cluster of `peersLen + 1` nodes. -/
def EnoughVotes (peersLen grantedVotes : Nat) : Prop := grantedVotes > (peersLen + 1) / 2

instance (peersLen grantedVotes : Nat) : Decidable (EnoughVotes peersLen grantedVotes) :=
  inferInstanceAs (Decidable (_ > _))

/-- Responses on which a candidate adopts the responder's term and steps down. -/
def RequestVoteResponseReason.stepsDown : RequestVoteResponseReason → Bool
  | .staleTerm | .incompleteLog => true
  | .alreadyVoted | .ok => false

def requestVoteRequest (node : RaftNode S) (lastLogIndex lastLogTerm : Nat) :
    RequestVoteRequest where
  term := node.currentTerm
  candidateId := node.id
  lastLogIndex := lastLogIndex
  lastLogTerm := lastLogTerm

end Zeroraft
