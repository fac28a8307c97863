import Zeroraft.Properties.VoteRecord

/-!
# Vote requests that arrive again

A candidate resends its request to the peers it has not heard from. A voter that has
granted the request looks only at whether it has voted, not for whom.
-/

namespace Zeroraft

variable {S R : Type} [State S R]

def Grants (request : RequestVoteRequest) (responseTx : Sender) (node node' : RaftNode S) : Prop :=
  ∃ response, (respondToRequestVote request responseTx).run node = (.ok response, node') ∧
    response.voteGranted = true

variable {request : RequestVoteRequest} {responseTx : Sender} {node node' : RaftNode S}

theorem Grants.votedFor (h : Grants request responseTx node node') :
    node'.votedFor = some request.candidateId := by
  obtain ⟨response, hRun, hGranted⟩ := h
  have hHandled := respondToRequestVote_handled request responseTx node
  rw [hRun] at hHandled
  cases hHandled with
  | kept _ _ hVote => exact absurd hVote (by simp [grantedVote, hGranted])
  | recorded _ hMemory _ => exact congrArg Prod.snd hMemory

theorem handle_voted (event : Inbound R) (hVoted : node.votedFor.isSome) :
    (event.handle node).1.votedFor.isSome := by
  cases event with
  | requestVote request responseTx =>
    simp only [Inbound.handle]
    cases respondToRequestVote_handled request responseTx node with
    | kept _ hMemory _ =>
      have hKept : ((respondToRequestVote request responseTx).run node).2.votedFor =
          node.votedFor := congrArg Prod.snd hMemory
      rwa [hKept]
    | recorded _ hMemory _ =>
      have hNew : ((respondToRequestVote request responseTx).run node).2.votedFor =
          some request.candidateId := congrArg Prod.snd hMemory
      rw [hNew]
      rfl
  | appendEntries request responseTx =>
    have hMemory := congrArg Prod.snd (respondToAppendEntries_memory request responseTx node)
    rw [apply_ite Prod.snd] at hMemory
    have hKept : ((respondToAppendEntries request responseTx).run node).2.votedFor =
        node.votedFor := hMemory.trans (ite_self _)
    simp only [Inbound.handle]
    rwa [hKept]
  | startSession => rfl

theorem respondToRequestVote_voted (responseTx : Sender) (hTerm : node.currentTerm = request.term)
    (hVoted : node.votedFor.isSome) : (respondToRequestVote request responseTx).run node =
      (responseTx.send ⟨request.term, false, node.id, .alreadyVoted⟩).run node := by
  simp only [respondToRequestVote, getCurrentTerm, getId, getVotedFor, NodeM.run_read_bind,
    NodeM.run_ite]
  rw [if_pos ⟨hTerm, hVoted⟩, hTerm]

/-- A request that has been granted is not granted again in its term, whatever the voter
handles in between: the answer is that the vote is taken. -/
theorem resent_alreadyVoted (hGrants : Grants request responseTx node node')
    (events : List (Inbound R)) (hTerm : (handleAll node' events).1.currentTerm = request.term)
    (again : Sender) : (respondToRequestVote request again).run (handleAll node' events).1 =
        (again.send ⟨request.term, false, (handleAll node' events).1.id, .alreadyVoted⟩).run
          (handleAll node' events).1 ∧
      ∀ after, ¬ Grants request again (handleAll node' events).1 after := by
  have hFirst : node'.votedFor.isSome := by
    rw [hGrants.votedFor]
    rfl
  have hEvent (node : RaftNode S) (event : Inbound R) (_ : True) (hNode : node.votedFor.isSome) :
      (event.handle node).1.votedFor.isSome := handle_voted event hNode
  have hVoted : (handleAll node' events).1.votedFor.isSome :=
    handleAll_induction hEvent node' events (fun _ _ => trivial) hFirst
  have hAnswer := respondToRequestVote_voted again hTerm hVoted
  refine ⟨hAnswer, fun after hAgain => ?_⟩
  obtain ⟨response, hRun, hGranted⟩ := hAgain
  obtain ⟨_, rfl, _⟩ := Sender.run_send_eq_ok_iff.mp (hAnswer.symm.trans hRun)
  cases hGranted

def freshVoter : RaftNode (Stored Unit) where
  id := 2
  currentTerm := 2
  votedFor := none
  state := ⟨[], 0, ⟨[1, 2, 3], nodup_triple⟩, none, 2⟩
  currentState := .follower
  leaderId := none

/-- The node when it has granted term 3 to node 1. -/
def grantedVoter : RaftNode (Stored Unit) where
  id := 2
  currentTerm := 3
  votedFor := some 1
  state := ⟨[], 0, ⟨[1, 2, 3], nodup_triple⟩, some 1, 3⟩
  currentState := .follower
  leaderId := none

theorem freshVoter_grants : Grants ⟨3, 1, 0, 0⟩ ⟨1, 0, false⟩ freshVoter grantedVoter :=
  ⟨⟨2, true, 2, .ok⟩, rfl, rfl⟩

/-- The answer is lost, the candidate asks again, and its own vote is held against it. -/
theorem resent_refused : Grants ⟨3, 1, 0, 0⟩ ⟨1, 0, false⟩ freshVoter grantedVoter ∧
    grantedVoter.votedFor = some 1 ∧
    (respondToRequestVote ⟨3, 1, 0, 0⟩ ⟨1, 1, false⟩).run grantedVoter =
      (.ok ⟨3, false, 2, .alreadyVoted⟩, grantedVoter) ∧
    ∀ after, ¬ Grants ⟨3, 1, 0, 0⟩ ⟨1, 1, false⟩ grantedVoter after := by
  refine ⟨freshVoter_grants, rfl, rfl, fun after hAgain => ?_⟩
  obtain ⟨response, hRun, hGranted⟩ := hAgain
  cases hRun
  cases hGranted

/-- A late request of the leader of an older term arrives in between. -/
def lateVoter : RaftNode (Stored Unit) :=
  (handleAll grantedVoter [.appendEntries ⟨2, 3, 0, 0, 0, []⟩ ⟨3, 0, false⟩]).1

theorem resent_alreadyVoted_late :
    (respondToRequestVote ⟨3, 1, 0, 0⟩ ⟨1, 1, false⟩).run lateVoter =
        (Sender.send ⟨1, 1, false⟩ ⟨3, false, lateVoter.id, .alreadyVoted⟩).run lateVoter ∧
      ∀ after, ¬ Grants ⟨3, 1, 0, 0⟩ ⟨1, 1, false⟩ lateVoter after :=
  resent_alreadyVoted freshVoter_grants
    [.appendEntries ⟨2, 3, 0, 0, 0, []⟩ ⟨3, 0, false⟩] rfl ⟨1, 1, false⟩

end Zeroraft
