import Zeroraft.Runtime.MainLoop

/-!
# The steps inside the handlers

What one access of a handler writes, and where the handler goes on after it. The
state may do anything that one operation of the `State` trait does.
-/

namespace Zeroraft

open Routine

variable {S R : Type}

/-- One operation of the `State`, or none. -/
inductive StateStep [State S R] (s : S) : S → Prop
  | none : StateStep s s
  | appendEntries (entries : List (LogEntry R)) : StateStep s (State.appendEntries s entries).2
  | removeEntriesAfter (index : Nat) : StateStep s (State.removeEntriesAfter s index).2
  | setLastCommitIndex (index : Nat) : StateStep s (State.setLastCommitIndex s index).2
  | storeVotedFor (candidateId : NodeId) : StateStep s (State.storeVotedFor s candidateId).2
  | storeCurrentTerm (term : Nat) : StateStep s (State.storeCurrentTerm s term).2

theorem StateStep.membership [State S R] [FallibleState S R] {s s' : S} (h : StateStep s s') :
    (stored s').membership = (stored s).membership := by
  cases h with
  | none => rfl
  | appendEntries => exact (FallibleState.appendEntries _ _).keeps Stored.membership rfl
  | removeEntriesAfter => exact (FallibleState.removeEntriesAfter _ _).keeps Stored.membership rfl
  | setLastCommitIndex => exact (FallibleState.setLastCommitIndex _ _).keeps Stored.membership rfl
  | storeVotedFor => exact (FallibleState.storeVotedFor _ _).keeps Stored.membership rfl
  | storeCurrentTerm => exact (FallibleState.storeCurrentTerm _ _).keeps Stored.membership rfl

theorem atomically_modifyState_snd {P β : Type} (f : S → Result Unit × S)
    (next : Unit → Outcome P ZeroraftError β) (node : RaftNode S) :
    (atomically (NodeM.modifyState f) next node).2 =
      { node with state := (f node.state).2 } := by
  unfold atomically NodeM.modifyState NodeM.run
  dsimp only
  cases (f node.state).1 <;> rfl

theorem atomically_send_snd {P β : Type} (responseTx : Sender) (response : β)
    (next : β → Outcome P ZeroraftError β) (node : RaftNode S) :
    (atomically (responseTx.send response) next node).2 = node := by
  unfold atomically NodeM.run Sender.send
  cases responseTx.closed <;> rfl

variable [State S R]

section Handlers

variable (ourId : NodeId) (responseTx : Sender) (node : RaftNode S)

theorem RequestVotePc.step_node (request : RequestVoteRequest) (pc : RequestVotePc) :
    ∃ state, StateStep node.state state ∧ (pc.step ourId request responseTx node).2 =
      match pc with
      | .setCurrentTerm _ => { node with currentTerm := request.term }
      | .setVotedFor _ => { node with votedFor := some request.candidateId }
      | .becomeFollower _ => { node with currentState := .follower }
      | _ => { node with state } := by
  cases pc with
  | loadTerm =>
    refine ⟨node.state, StateStep.none, ?_⟩
    simp only [RequestVotePc.step]
    split_ifs <;> rfl
  | readVotedFor _ | readLastTerm _ _ =>
    refine ⟨node.state, StateStep.none, ?_⟩
    simp only [RequestVotePc.step]
    split <;> rfl
  | storeCurrentTerm _ =>
    exact ⟨_, StateStep.storeCurrentTerm request.term, atomically_modifyState_snd _ _ _⟩
  | storeVotedFor _ =>
    exact ⟨_, StateStep.storeVotedFor request.candidateId, atomically_modifyState_snd _ _ _⟩
  | send _ => exact ⟨node.state, StateStep.none, atomically_send_snd _ _ _ _⟩
  | setCurrentTerm _ | setVotedFor _ | becomeFollower _ | readLastIndex _ =>
    exact ⟨node.state, StateStep.none, rfl⟩

theorem AppendEntriesPc.step_node (request : AppendEntriesRequest R) (pc : AppendEntriesPc) :
    ∃ state, StateStep node.state state ∧ (pc.step ourId request responseTx node).2 =
      match pc with
      | .setCurrentTerm _ _ => { node with currentTerm := request.term }
      | .setLeaderId _ _ => { node with leaderId := some request.leaderId }
      | .becomeFollower _ _ => { node with currentState := .follower }
      | _ => { node with state } := by
  cases pc with
  | readLastIndex _ | readEntry _ =>
    refine ⟨node.state, StateStep.none, ?_⟩
    simp only [AppendEntriesPc.step]
    split <;> rfl
  | storeCurrentTerm _ _ =>
    exact ⟨_, StateStep.storeCurrentTerm request.term, atomically_modifyState_snd _ _ _⟩
  | removeEntries _ =>
    exact ⟨_, StateStep.removeEntriesAfter request.prevLogIndex, atomically_modifyState_snd _ _ _⟩
  | appendEntries _ =>
    exact ⟨_, StateStep.appendEntries request.entries, atomically_modifyState_snd _ _ _⟩
  | setCommit _ index =>
    exact ⟨_, StateStep.setLastCommitIndex (min request.lastCommitIndex index),
      atomically_modifyState_snd _ _ _⟩
  | send _ => exact ⟨node.state, StateStep.none, atomically_send_snd _ _ _ _⟩
  | loadTerm | setCurrentTerm _ _ | setLeaderId _ _ | becomeFollower _ _ | readNewLastIndex _ =>
    exact ⟨node.state, StateStep.none, rfl⟩

/-- The ways through `respondToRequestVote`. -/
inductive RequestVotePc.Edge (ourId : NodeId) (request : RequestVoteRequest) (node : RaftNode S) :
    RequestVotePc → RequestVotePc → Prop
  | same (h : node.currentTerm = request.term) :
      Edge ourId request node .loadTerm (.readVotedFor node.currentTerm)
  | stale (h : request.term < node.currentTerm) :
      Edge ourId request node .loadTerm (.send ⟨node.currentTerm, false, ourId, .staleTerm⟩)
  | newer (h : node.currentTerm < request.term) :
      Edge ourId request node .loadTerm (.storeCurrentTerm node.currentTerm)
  | voted {ourTerm : Nat} (h : node.votedFor.isSome) : Edge ourId request node
      (.readVotedFor ourTerm) (.send ⟨ourTerm, false, ourId, .alreadyVoted⟩)
  | notVoted {ourTerm : Nat} (h : node.votedFor = none) :
      Edge ourId request node (.readVotedFor ourTerm) (.storeCurrentTerm ourTerm)
  | storedTerm {ourTerm : Nat} :
      Edge ourId request node (.storeCurrentTerm ourTerm) (.storeVotedFor ourTerm)
  | storedVote {ourTerm : Nat} :
      Edge ourId request node (.storeVotedFor ourTerm) (.setCurrentTerm ourTerm)
  | setTerm {ourTerm : Nat} :
      Edge ourId request node (.setCurrentTerm ourTerm) (.setVotedFor ourTerm)
  | setVote {ourTerm : Nat} :
      Edge ourId request node (.setVotedFor ourTerm) (.becomeFollower ourTerm)
  | follower {ourTerm : Nat} :
      Edge ourId request node (.becomeFollower ourTerm) (.readLastIndex ourTerm)
  | lastIndex {ourTerm : Nat} : Edge ourId request node
      (.readLastIndex ourTerm) (.readLastTerm ourTerm (State.getLastIndex node.state))
  | incomplete {ourTerm ourLastLogIndex : Nat} : Edge ourId request node
      (.readLastTerm ourTerm ourLastLogIndex) (.send ⟨ourTerm, false, ourId, .incompleteLog⟩)
  | complete {ourTerm ourLastLogIndex : Nat}
      (h : ¬ IncompleteLog (State.getLastTerm node.state) ourLastLogIndex request) :
      Edge ourId request node
        (.readLastTerm ourTerm ourLastLogIndex) (.send ⟨ourTerm, true, ourId, .ok⟩)

/-- The ways through `respondToAppendEntries`. -/
inductive AppendEntriesPc.Edge (ourId : NodeId) (request : AppendEntriesRequest R)
    (node : RaftNode S) : AppendEntriesPc → AppendEntriesPc → Prop
  | loaded : Edge ourId request node .loadTerm (.readLastIndex node.currentTerm)
  | stale {ourTerm : Nat} (h : request.term < ourTerm) : Edge ourId request node
      (.readLastIndex ourTerm) (.send ⟨ourTerm, false, ourId, 0, .staleTerm⟩)
  | accepted {ourTerm : Nat} (h : ourTerm ≤ request.term) : Edge ourId request node
      (.readLastIndex ourTerm) (.storeCurrentTerm ourTerm (State.getLastIndex node.state))
  | storedTerm {ourTerm index : Nat} :
      Edge ourId request node (.storeCurrentTerm ourTerm index) (.setCurrentTerm ourTerm index)
  | setTerm {ourTerm index : Nat} :
      Edge ourId request node (.setCurrentTerm ourTerm index) (.setLeaderId ourTerm index)
  | setLeader {ourTerm index : Nat} :
      Edge ourId request node (.setLeaderId ourTerm index) (.becomeFollower ourTerm index)
  | short {ourTerm index : Nat} (h : index < request.prevLogIndex) : Edge ourId request node
      (.becomeFollower ourTerm index) (.send ⟨ourTerm, false, ourId, 0, .logMismatch⟩)
  | follower {ourTerm index : Nat} (h : request.prevLogIndex ≤ index) :
      Edge ourId request node (.becomeFollower ourTerm index) (.readEntry ourTerm)
  | mismatch {ourTerm : Nat} : Edge ourId request node
      (.readEntry ourTerm) (.send ⟨ourTerm, false, ourId, 0, .logMismatch⟩)
  | same {ourTerm : Nat}
      (h : ¬ (State.getEntry node.state request.prevLogIndex).any (·.term ≠ request.prevLogTerm)) :
      Edge ourId request node (.readEntry ourTerm) (.removeEntries ourTerm)
  | removed {ourTerm : Nat} :
      Edge ourId request node (.removeEntries ourTerm) (.appendEntries ourTerm)
  | appended {ourTerm : Nat} :
      Edge ourId request node (.appendEntries ourTerm) (.readNewLastIndex ourTerm)
  | lastIndex {ourTerm : Nat} : Edge ourId request node
      (.readNewLastIndex ourTerm) (.setCommit ourTerm (State.getLastIndex node.state))
  | committed {ourTerm index : Nat} : Edge ourId request node
      (.setCommit ourTerm index) (.send ⟨ourTerm, true, ourId, request.entries.length, .ok⟩)

theorem atomically_modifyState_fst {P β : Type} (f : S → Result Unit × S)
    (next : Unit → Outcome P ZeroraftError β) :
    (atomically (NodeM.modifyState f) next node).1 = next () ∨
      ∃ e, (atomically (NodeM.modifyState f) next node).1 = .failed e := by
  unfold atomically NodeM.modifyState NodeM.run
  dsimp only
  cases (f node.state).1 with
  | ok _ => exact Or.inl rfl
  | error e => exact Or.inr ⟨e, rfl⟩

theorem atomically_modifyState_next {P β : Type} {f : S → Result Unit × S}
    {next : Unit → Outcome P ZeroraftError β} {pc' : P}
    (h : (atomically (NodeM.modifyState f) next node).1 = .next pc') : next () = .next pc' := by
  rcases atomically_modifyState_fst node f next with hNext | ⟨e, hFailed⟩
  · exact hNext.symm.trans h
  · cases hFailed.symm.trans h

theorem atomically_modifyState_done {P β : Type} {f : S → Result Unit × S}
    {next : Unit → Outcome P ZeroraftError β} {result : β}
    (h : (atomically (NodeM.modifyState f) next node).1 = .done result) :
    next () = .done result := by
  rcases atomically_modifyState_fst node f next with hNext | ⟨e, hFailed⟩
  · exact hNext.symm.trans h
  · cases hFailed.symm.trans h

theorem RequestVotePc.edge_of_next {request : RequestVoteRequest} {pc pc' : RequestVotePc}
    (h : (pc.step ourId request responseTx node).1 = .next pc') :
    Edge ourId request node pc pc' := by
  cases pc with
  | loadTerm =>
    simp only [RequestVotePc.step] at h
    split_ifs at h with hSame hStale <;> cases h
    · exact Edge.same hSame
    · exact Edge.stale hStale
    · exact Edge.newer (by omega)
  | readVotedFor _ =>
    simp only [RequestVotePc.step] at h
    split_ifs at h with hVoted <;> cases h
    · exact Edge.voted hVoted
    · exact Edge.notVoted (Option.not_isSome_iff_eq_none.mp hVoted)
  | storeCurrentTerm _ =>
    cases atomically_modifyState_next node h
    exact Edge.storedTerm
  | storeVotedFor _ =>
    cases atomically_modifyState_next node h
    exact Edge.storedVote
  | setCurrentTerm _ =>
    cases h
    exact Edge.setTerm
  | setVotedFor _ =>
    cases h
    exact Edge.setVote
  | becomeFollower _ =>
    cases h
    exact Edge.follower
  | readLastIndex _ =>
    cases h
    exact Edge.lastIndex
  | readLastTerm _ _ =>
    simp only [RequestVotePc.step] at h
    split_ifs at h with hLog <;> cases h
    · exact Edge.incomplete
    · exact Edge.complete hLog
  | send _ =>
    rw [RequestVotePc.step, atomically_send] at h
    split_ifs at h

theorem RequestVotePc.step_done {request : RequestVoteRequest} {pc : RequestVotePc}
    {response : RequestVoteResponse}
    (h : (pc.step ourId request responseTx node).1 = .done response) : pc = .send response := by
  cases pc with
  | loadTerm | readVotedFor _ | readLastTerm _ _ =>
    simp only [RequestVotePc.step] at h
    split_ifs at h
  | storeCurrentTerm _ | storeVotedFor _ => cases atomically_modifyState_done node h
  | setCurrentTerm _ | setVotedFor _ | becomeFollower _ | readLastIndex _ => cases h
  | send _ =>
    rw [RequestVotePc.step, atomically_send] at h
    split_ifs at h
    cases h
    rfl

theorem AppendEntriesPc.edge_of_next {request : AppendEntriesRequest R} {pc pc' : AppendEntriesPc}
    (h : (pc.step ourId request responseTx node).1 = .next pc') :
    Edge ourId request node pc pc' := by
  cases pc with
  | loadTerm =>
    cases h
    exact Edge.loaded
  | readLastIndex _ =>
    simp only [AppendEntriesPc.step] at h
    split_ifs at h with hStale <;> cases h
    · exact Edge.stale hStale
    · exact Edge.accepted (Nat.le_of_not_lt hStale)
  | storeCurrentTerm _ _ =>
    cases atomically_modifyState_next node h
    exact Edge.storedTerm
  | setCurrentTerm _ _ =>
    cases h
    exact Edge.setTerm
  | setLeaderId _ _ =>
    cases h
    exact Edge.setLeader
  | becomeFollower _ _ =>
    cases h
    split_ifs with hShort
    · exact Edge.short hShort
    · exact Edge.follower (Nat.le_of_not_lt hShort)
  | readEntry _ =>
    simp only [AppendEntriesPc.step] at h
    split_ifs at h with hTerm <;> cases h
    · exact Edge.mismatch
    · exact Edge.same hTerm
  | removeEntries _ =>
    cases atomically_modifyState_next node h
    exact Edge.removed
  | appendEntries _ =>
    cases atomically_modifyState_next node h
    exact Edge.appended
  | readNewLastIndex _ =>
    cases h
    exact Edge.lastIndex
  | setCommit _ _ =>
    cases atomically_modifyState_next node h
    exact Edge.committed
  | send _ =>
    rw [AppendEntriesPc.step, atomically_send] at h
    split_ifs at h

theorem AppendEntriesPc.step_done {request : AppendEntriesRequest R} {pc : AppendEntriesPc}
    {response : AppendEntriesResponse}
    (h : (pc.step ourId request responseTx node).1 = .done response) : pc = .send response := by
  cases pc with
  | readLastIndex _ | readEntry _ =>
    simp only [AppendEntriesPc.step] at h
    split_ifs at h
  | storeCurrentTerm _ _ | removeEntries _ | appendEntries _ | setCommit _ _ =>
    cases atomically_modifyState_done node h
  | loadTerm | setCurrentTerm _ _ | setLeaderId _ _ | becomeFollower _ _ | readNewLastIndex _ =>
    cases h
  | send _ =>
    rw [AppendEntriesPc.step, atomically_send] at h
    split_ifs at h
    cases h
    rfl

theorem RequestVotePc.step_failed {request : RequestVoteRequest} {pc : RequestVotePc}
    {e : ZeroraftError} (h : (pc.step ourId request responseTx node).1 = .failed e) :
    ∃ state, StateStep node.state state ∧
      (pc.step ourId request responseTx node).2 = { node with state } := by
  obtain ⟨state, hState, hNode⟩ := RequestVotePc.step_node ourId responseTx node request pc
  refine ⟨state, hState, ?_⟩
  cases pc with
  | setCurrentTerm _ | setVotedFor _ | becomeFollower _ => cases h
  | _ => exact hNode

theorem AppendEntriesPc.step_failed {request : AppendEntriesRequest R} {pc : AppendEntriesPc}
    {e : ZeroraftError} (h : (pc.step ourId request responseTx node).1 = .failed e) :
    ∃ state, StateStep node.state state ∧
      (pc.step ourId request responseTx node).2 = { node with state } := by
  obtain ⟨state, hState, hNode⟩ := AppendEntriesPc.step_node ourId responseTx node request pc
  refine ⟨state, hState, ?_⟩
  cases pc with
  | setCurrentTerm _ _ | setLeaderId _ _ | becomeFollower _ _ => cases h
  | _ => exact hNode

end Handlers

end Zeroraft
