import Zeroraft.Model.Common

/-!
# What the request handlers do to a node

For a lawful `State` each handler is one of three transformations of the node,
selected by a condition on the node and the request. Later modules use these
equations and never unfold the handlers.
-/

namespace Zeroraft

variable {S R : Type} [State S R]

section StateOperations

variable {α : Type} [LawfulState S R]

@[simp] theorem run_storeCurrentTerm_bind (term : Nat) (f : Unit → NodeM S α) (node : RaftNode S) :
    (NodeM.modifyState (State.storeCurrentTerm · term) >>= f).run node =
      (f ()).run { node with state := (State.storeCurrentTerm node.state term).2 } :=
  NodeM.run_modifyState_bind (LawfulState.storeCurrentTerm_ok node.state term) f

@[simp] theorem run_storeVotedFor_bind (candidateId : NodeId) (f : Unit → NodeM S α) (node : RaftNode S) :
    (NodeM.modifyState (State.storeVotedFor · candidateId) >>= f).run node =
      (f ()).run { node with state := (State.storeVotedFor node.state candidateId).2 } :=
  NodeM.run_modifyState_bind (LawfulState.storeVotedFor_ok node.state candidateId) f

@[simp] theorem run_removeEntriesAfter_bind (index : Nat) (f : Unit → NodeM S α) (node : RaftNode S) :
    (NodeM.modifyState (State.removeEntriesAfter · index) >>= f).run node =
      (f ()).run { node with state := (State.removeEntriesAfter node.state index).2 } :=
  NodeM.run_modifyState_bind (LawfulState.removeEntriesAfter_ok node.state index) f

@[simp] theorem run_appendEntries_bind (entries : List (LogEntry R)) (f : Unit → NodeM S α) (node : RaftNode S) :
    (NodeM.modifyState (State.appendEntries · entries) >>= f).run node =
      (f ()).run { node with state := (State.appendEntries node.state entries).2 } :=
  NodeM.run_modifyState_bind (LawfulState.appendEntries_ok node.state entries) f

@[simp] theorem run_setLastCommitIndex_bind (index : Nat) (f : Unit → NodeM S α) (node : RaftNode S) :
    (NodeM.modifyState (State.setLastCommitIndex · index) >>= f).run node =
      (f ()).run { node with state := (State.setLastCommitIndex node.state index).2 } :=
  NodeM.run_modifyState_bind (LawfulState.setLastCommitIndex_ok node.state index) f

end StateOperations

namespace RequestVoteRequest

/-- The request is answered without touching the node. -/
def Refused (request : RequestVoteRequest) (node : RaftNode S) : Prop :=
  (node.currentTerm = request.term ∧ node.votedFor.isSome) ∨ node.currentTerm > request.term

instance (request : RequestVoteRequest) (node : RaftNode S) : Decidable (request.Refused node) :=
  inferInstanceAs (Decidable (_ ∨ _))

def record (request : RequestVoteRequest) (node : RaftNode S) : RaftNode S :=
  { node with
    currentTerm := request.term
    votedFor := some request.candidateId
    currentState := .follower
    state := (State.storeVotedFor (State.storeCurrentTerm node.state request.term).2
      request.candidateId).2 }

/-- The candidate's log is behind the one stored at the node. -/
def Behind (request : RequestVoteRequest) (s : Stored R) : Prop :=
  IncompleteLog s.lastTerm s.log.length request

instance (request : RequestVoteRequest) (s : Stored R) : Decidable (request.Behind s) :=
  inferInstanceAs (Decidable (IncompleteLog _ _ _))

@[simp] theorem record_id (request : RequestVoteRequest) (node : RaftNode S) :
    (request.record node).id = node.id := rfl

@[simp] theorem record_currentTerm (request : RequestVoteRequest) (node : RaftNode S) :
    (request.record node).currentTerm = request.term := rfl

@[simp] theorem record_votedFor (request : RequestVoteRequest) (node : RaftNode S) :
    (request.record node).votedFor = some request.candidateId := rfl

@[simp] theorem record_currentState (request : RequestVoteRequest) (node : RaftNode S) :
    (request.record node).currentState = .follower := rfl

@[simp] theorem stored_record [LawfulState S R] (request : RequestVoteRequest)
    (node : RaftNode S) : stored (request.record node).state =
      { stored node.state with
        currentTerm := request.term, votedFor := some request.candidateId } := by
  simp [record]

end RequestVoteRequest

/-- The voter's reply, in the four branches of the handler. -/
theorem respondToRequestVote_eq [LawfulState S R] (request : RequestVoteRequest)
    (responseTx : Sender) (node : RaftNode S) :
    (respondToRequestVote request responseTx).run node =
      if node.currentTerm = request.term ∧ node.votedFor.isSome then
        (responseTx.send ⟨node.currentTerm, false, node.id, .alreadyVoted⟩).run node
      else if node.currentTerm > request.term then
        (responseTx.send ⟨node.currentTerm, false, node.id, .staleTerm⟩).run node
      else if request.Behind (stored node.state) then
        (responseTx.send ⟨node.currentTerm, false, node.id, .incompleteLog⟩).run (request.record node)
      else
        (responseTx.send ⟨node.currentTerm, true, node.id, .ok⟩).run (request.record node) := by
  simp only [respondToRequestVote, getCurrentTerm, getId, getVotedFor, NodeM.run_read_bind,
    NodeM.run_ite]
  refine if_congr Iff.rfl rfl (if_congr Iff.rfl rfl ?_)
  simp only [updateCurrentTermAndVotedFor, setCurrentTerm, setVotedFor, changeToFollowerState,
    NodeM.run_bind_assoc, run_storeCurrentTerm_bind, run_storeVotedFor_bind,
    NodeM.run_modify_bind, NodeM.run_read_bind, LawfulState.getLastIndex_eq,
    LawfulState.getLastTerm_eq, LawfulState.stored_storeVotedFor,
    LawfulState.stored_storeCurrentTerm, NodeM.run_ite]
  rfl

theorem respondToRequestVote_node [LawfulState S R] (request : RequestVoteRequest)
    (responseTx : Sender) (node : RaftNode S) :
    ((respondToRequestVote request responseTx).run node).2 =
      if request.Refused node then node else request.record node := by
  rw [respondToRequestVote_eq]
  by_cases hVoted : node.currentTerm = request.term ∧ node.votedFor.isSome
  · have hRefused : request.Refused node := Or.inl hVoted
    rw [if_pos hVoted, if_pos hRefused, Sender.run_send_snd]
  by_cases hStale : node.currentTerm > request.term
  · have hRefused : request.Refused node := Or.inr hStale
    rw [if_neg hVoted, if_pos hStale, if_pos hRefused, Sender.run_send_snd]
  · have hRecorded : ¬ request.Refused node := not_or.mpr ⟨hVoted, hStale⟩
    rw [if_neg hVoted, if_neg hStale, if_neg hRecorded]
    split <;> rw [Sender.run_send_snd]

/-- A vote is granted exactly when the request is neither refused nor behind. -/
theorem respondToRequestVote_granted [LawfulState S R] {request : RequestVoteRequest}
    {responseTx : Sender} {node node' : RaftNode S} {response : RequestVoteResponse}
    (h : (respondToRequestVote request responseTx).run node = (.ok response, node'))
    (hg : response.voteGranted = true) :
    ¬ request.Refused node ∧ ¬ request.Behind (stored node.state) ∧
      node' = request.record node := by
  rw [respondToRequestVote_eq] at h
  split at h
  · obtain ⟨-, rfl, -⟩ := Sender.run_send_eq_ok_iff.mp h
    cases hg
  split at h
  · obtain ⟨-, rfl, -⟩ := Sender.run_send_eq_ok_iff.mp h
    cases hg
  rename_i hVoted hStale
  split at h
  · obtain ⟨-, rfl, -⟩ := Sender.run_send_eq_ok_iff.mp h
    cases hg
  · rename_i hBehind
    obtain ⟨-, -, rfl⟩ := Sender.run_send_eq_ok_iff.mp h
    exact ⟨not_or.mpr ⟨hVoted, hStale⟩, hBehind, rfl⟩

namespace AppendEntriesRequest

/-- The node after it has accepted the sender as the leader of the request's term. -/
def follow (request : AppendEntriesRequest R) (node : RaftNode S) : RaftNode S :=
  { node with
    currentTerm := request.term
    leaderId := some request.leaderId
    currentState := .follower
    state := (State.storeCurrentTerm node.state request.term).2 }

/-- The consistency check at `prevLogIndex` fails. Index 0 has no entry and
passes whatever `prevLogTerm` says. -/
def Mismatch (request : AppendEntriesRequest R) (s : Stored R) : Prop :=
  s.log.length < request.prevLogIndex ∨
    (s.entry request.prevLogIndex).any (·.term ≠ request.prevLogTerm)

instance (request : AppendEntriesRequest R) (s : Stored R) : Decidable (request.Mismatch s) :=
  inferInstanceAs (Decidable (_ ∨ _))

/-- The log is cut at `prevLogIndex`, extended, and the commit index overwritten. -/
def store (request : AppendEntriesRequest R) (node : RaftNode S) : RaftNode S :=
  let cut := (State.removeEntriesAfter (request.follow node).state request.prevLogIndex).2
  let extended := (State.appendEntries cut request.entries).2
  { request.follow node with
    state := (State.setLastCommitIndex extended
      (min request.lastCommitIndex (State.getLastIndex extended))).2 }

@[simp] theorem follow_id (request : AppendEntriesRequest R) (node : RaftNode S) :
    (request.follow node).id = node.id := rfl

@[simp] theorem follow_currentTerm (request : AppendEntriesRequest R) (node : RaftNode S) :
    (request.follow node).currentTerm = request.term := rfl

@[simp] theorem follow_votedFor (request : AppendEntriesRequest R) (node : RaftNode S) :
    (request.follow node).votedFor = node.votedFor := rfl

@[simp] theorem follow_currentState (request : AppendEntriesRequest R) (node : RaftNode S) :
    (request.follow node).currentState = .follower := rfl

@[simp] theorem stored_follow [LawfulState S R] (request : AppendEntriesRequest R)
    (node : RaftNode S) : stored (request.follow node).state =
      { stored node.state with currentTerm := request.term } := by
  simp [follow]

@[simp] theorem store_id (request : AppendEntriesRequest R) (node : RaftNode S) :
    (request.store node).id = node.id := rfl

@[simp] theorem store_currentTerm (request : AppendEntriesRequest R) (node : RaftNode S) :
    (request.store node).currentTerm = request.term := rfl

@[simp] theorem store_votedFor (request : AppendEntriesRequest R) (node : RaftNode S) :
    (request.store node).votedFor = node.votedFor := rfl

@[simp] theorem store_currentState (request : AppendEntriesRequest R) (node : RaftNode S) :
    (request.store node).currentState = .follower := rfl

@[simp] theorem stored_store [LawfulState S R] (request : AppendEntriesRequest R)
    (node : RaftNode S) : stored (request.store node).state =
      { stored node.state with
        currentTerm := request.term
        log := (stored node.state).log.take request.prevLogIndex ++ request.entries
        commit := min request.lastCommitIndex
          ((stored node.state).log.take request.prevLogIndex ++ request.entries).length } := by
  simp [store]

end AppendEntriesRequest

/-- The follower's reply, in the four branches of the handler. -/
theorem respondToAppendEntries_eq [LawfulState S R] (request : AppendEntriesRequest R)
    (responseTx : Sender) (node : RaftNode S) :
    (respondToAppendEntries request responseTx).run node =
      if node.currentTerm > request.term then
        (responseTx.send ⟨node.currentTerm, false, node.id, 0, .staleTerm⟩).run node
      else if request.Mismatch (stored node.state) then
        (responseTx.send ⟨node.currentTerm, false, node.id, 0, .logMismatch⟩).run (request.follow node)
      else
        (responseTx.send ⟨node.currentTerm, true, node.id, request.entries.length, .ok⟩).run
          (request.store node) := by
  simp only [respondToAppendEntries, getCurrentTerm, getId, NodeM.run_read_bind,
    LawfulState.getLastIndex_eq, NodeM.run_ite]
  refine if_congr Iff.rfl rfl ?_
  simp only [updateCurrentTerm, setCurrentTerm, updateLeaderId, changeToFollowerState,
    NodeM.run_bind_assoc, run_storeCurrentTerm_bind, NodeM.run_modify_bind,
    NodeM.run_read_bind, NodeM.run_ite, LawfulState.getEntry_eq,
    LawfulState.stored_storeCurrentTerm, run_removeEntriesAfter_bind, run_appendEntries_bind,
    run_setLastCommitIndex_bind]
  by_cases hShort : (stored node.state).log.length < request.prevLogIndex
  · have hMismatch : request.Mismatch (stored node.state) := Or.inl hShort
    rw [if_pos hShort, if_pos hMismatch]
    rfl
  · rw [if_neg hShort]
    refine if_congr ⟨Or.inr, fun h => h.resolve_left hShort⟩ rfl ?_
    simp only [AppendEntriesRequest.store, AppendEntriesRequest.follow,
      LawfulState.getLastIndex_eq]

theorem respondToAppendEntries_node [LawfulState S R] (request : AppendEntriesRequest R)
    (responseTx : Sender) (node : RaftNode S) :
    ((respondToAppendEntries request responseTx).run node).2 =
      if node.currentTerm > request.term then node
      else if request.Mismatch (stored node.state) then request.follow node
      else request.store node := by
  rw [respondToAppendEntries_eq]
  split_ifs <;> simp [Sender.run_send_snd]

end Zeroraft
