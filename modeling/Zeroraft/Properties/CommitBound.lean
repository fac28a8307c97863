import Zeroraft.Model.Inbound
import Zeroraft.Properties.CommitRule
import Zeroraft.Runtime.Peers

/-!
# The commit index stays within the log

A follower cuts its log and sets the commit index to a minimum, a leader sets it to a
median of what its peers have reported. The first is bounded by the last index it was
computed with, the second is the index of an entry that exists.
-/

namespace Zeroraft

variable {S R : Type} [State S R]

section Events

/-- What a node does to its log and its commit index, each handler as one step. -/
inductive LogEvent (R : Type) where
  | inbound (event : Inbound R)
  | clientRequest (request : R)
  | standbyOk (peers : PeerMap) (response : AppendEntriesResponse)

/-- The client request branch of the leader loop. -/
def appendClientRequest (request : R) (node : RaftNode S) : RaftNode S :=
  { node with
    state := (State.appendEntries node.state [⟨node.currentTerm, .clientRequest request⟩]).2 }

/-- The `Ok` branch of the standby update. Where it panics the task ends. -/
def updateForOk (peers : PeerMap) (response : AppendEntriesResponse) (node : RaftNode S) :
    RaftNode S :=
  match recordAppended peers response.id response.len with
  | .error _ => node
  | .ok peers' =>
    let ourLastCommitIndex := State.getLastCommitIndex node.state
    match calculateLastCommitIndex node peers' with
    | none => node
    | some lastCommitIndex =>
      if ourLastCommitIndex < lastCommitIndex then
        { node with state := (State.setLastCommitIndex node.state lastCommitIndex).2 }
      else node

def LogEvent.handle (node : RaftNode S) : LogEvent R → RaftNode S
  | .inbound event => (event.handle node).1
  | .clientRequest request => appendClientRequest request node
  | .standbyOk peers response => updateForOk peers response node

/-- The peers map of `ReplicationSession::initialize`. -/
def initializeReplicationSession (node : RaftNode S) : PeerMap :=
  let nextIndex := State.getLastCommitIndex node.state + 1
  initialPeers (State.getMembership node.state) node.id nextIndex

end Events

section Invariant

def CommitsWithinLog (node : RaftNode S) : Prop :=
  State.getLastCommitIndex node.state ≤ State.getLastIndex node.state

instance (node : RaftNode S) : Decidable (CommitsWithinLog node) :=
  inferInstanceAs (Decidable (_ ≤ _))

variable [LawfulState S R]

theorem commitsWithinLog_iff {node : RaftNode S} :
    CommitsWithinLog node ↔ (stored node.state).commit ≤ (stored node.state).log.length := by
  rw [CommitsWithinLog, LawfulState.getLastIndex_eq, getLastCommitIndex_eq]

variable {node : RaftNode S}

theorem respondToRequestVote_withinLog (request : RequestVoteRequest) (responseTx : Sender)
    (h : CommitsWithinLog node) :
    CommitsWithinLog ((respondToRequestVote request responseTx).run node).2 := by
  rw [respondToRequestVote_node]
  split
  · exact h
  · rw [commitsWithinLog_iff, RequestVoteRequest.stored_record]
    exact commitsWithinLog_iff.mp h

/-- The commit index is computed from the log that the handler has just written. -/
theorem respondToAppendEntries_withinLog (request : AppendEntriesRequest R) (responseTx : Sender)
    (h : CommitsWithinLog node) :
    CommitsWithinLog ((respondToAppendEntries request responseTx).run node).2 := by
  rw [respondToAppendEntries_node]
  split
  · exact h
  split
  · rw [commitsWithinLog_iff, AppendEntriesRequest.stored_follow]
    exact commitsWithinLog_iff.mp h
  · rw [commitsWithinLog_iff, AppendEntriesRequest.stored_store]
    exact Nat.min_le_right _ _

theorem Inbound.handle_withinLog (event : Inbound R) (h : CommitsWithinLog node) :
    CommitsWithinLog (event.handle node).1 := by
  cases event with
  | requestVote request responseTx => exact respondToRequestVote_withinLog request responseTx h
  | appendEntries request responseTx => exact respondToAppendEntries_withinLog request responseTx h
  | startSession => exact h

theorem appendClientRequest_withinLog (request : R) (h : CommitsWithinLog node) :
    CommitsWithinLog (appendClientRequest request node) := by
  have hBefore := commitsWithinLog_iff.mp h
  rw [commitsWithinLog_iff, appendClientRequest, LawfulState.stored_appendEntries]
  simp only [List.length_append]
  omega

theorem calculateLastCommitIndex_le_lastIndex {peers : PeerMap} {i : Nat}
    (h : calculateLastCommitIndex node peers = some i) :
    i ≤ (stored node.state).log.length := by
  obtain ⟨-, -, entry, hEntry, -⟩ := (calculateLastCommitIndex_eq_some_iff node peers i).mp h
  rw [LawfulState.getEntry_eq, Stored.entry_eq_some_iff] at hEntry
  obtain ⟨hPos, hEntry⟩ := hEntry
  obtain ⟨hLt, -⟩ := List.getElem?_eq_some_iff.mp hEntry
  omega

theorem updateForOk_withinLog (peers : PeerMap) (response : AppendEntriesResponse)
    (h : CommitsWithinLog node) : CommitsWithinLog (updateForOk peers response node) := by
  unfold updateForOk
  split
  · exact h
  split
  · exact h
  rename_i hMedian
  dsimp only
  split
  · rw [commitsWithinLog_iff, LawfulState.stored_setLastCommitIndex]
    exact calculateLastCommitIndex_le_lastIndex hMedian
  · exact h

theorem LogEvent.handle_withinLog (event : LogEvent R) (h : CommitsWithinLog node) :
    CommitsWithinLog (event.handle node) := by
  cases event with
  | inbound event => exact event.handle_withinLog h
  | clientRequest request => exact appendClientRequest_withinLog request h
  | standbyOk peers response => exact updateForOk_withinLog peers response h

theorem run_withinLog (events : List (LogEvent R)) (h : CommitsWithinLog node) :
    CommitsWithinLog (events.foldl LogEvent.handle node) := by
  induction events generalizing node with
  | nil => exact h
  | cons event rest ih => exact ih (event.handle_withinLog h)

end Invariant

section Sessions

variable [LawfulState S R]

/-- A session never starts before index 1 or more than one entry after the log. -/
theorem nextIndex_within_log (node : RaftNode S) (hStart : CommitsWithinLog node)
    (events : List (LogEvent R)) :
    CommitsWithinLog (events.foldl LogEvent.handle node) ∧
    ∀ id peer,
      (initializeReplicationSession (events.foldl LogEvent.handle node)).lookup id = some peer →
      1 ≤ peer.nextIndex ∧
        peer.nextIndex ≤ State.getLastIndex (events.foldl LogEvent.handle node).state + 1 := by
  have hWithin := run_withinLog events hStart
  refine ⟨hWithin, fun id peer hPeer => ?_⟩
  obtain ⟨-, rfl⟩ := lookup_initialPeers.mp hPeer
  exact ⟨Nat.le_add_left 1 _, Nat.add_le_add_right hWithin 1⟩

/-- A leader of three in term 1 with one entry, none committed. -/
def leaderOfOneEntry : RaftNode (Stored Nat) where
  id := 1
  currentTerm := 1
  votedFor := some 1
  state := ⟨[⟨1, .clientRequest 5⟩], 0, ⟨[1, 2, 3], nodup_triple⟩, some 1, 1⟩
  currentState := .leader
  leaderId := none

/-- It appends an entry, commits the first one and loses both to a heartbeat. -/
theorem nextIndex_within_log_after_heartbeat :
    CommitsWithinLog (([.clientRequest 6,
      .standbyOk (initialPeers ⟨[1, 2, 3], nodup_triple⟩ 1 1) ⟨1, true, 2, 1, .ok⟩,
      .inbound (.appendEntries ⟨1, 2, 9, 0, 0, []⟩ ⟨2, 0, false⟩)] :
        List (LogEvent Nat)).foldl LogEvent.handle leaderOfOneEntry) :=
  (nextIndex_within_log leaderOfOneEntry (by decide) _).1

end Sessions

end Zeroraft
