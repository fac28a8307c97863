import Zeroraft.Model.CommonSpec
import Zeroraft.Model.Leader

/-!
# Are committed entries permanent?

The receiver cuts its log at `prevLogIndex` whether or not there is a conflict
and overwrites the commit index, so what it keeps depends on how far the request
reaches. Heartbeats reach nowhere: they carry index 0 and no entries.
-/

namespace Zeroraft

variable {S R : Type} [State S R]

/-- The requests that a leader's code sends from a given log; the term and the
commit index are read at other moments. -/
inductive Sendable (leader : RaftNode S) : AppendEntriesRequest R → Prop
  | heartbeat (term lastCommitIndex : Nat) :
      Sendable leader { heartbeatRequest leader lastCommitIndex with term }
  | composed {peers : PeerMap} {peer : NodeId} {request : AppendEntriesRequest R}
      (h : composeAppendEntriesRequest leader peers peer = some request)
      (term lastCommitIndex : Nat) : Sendable leader { request with term, lastCommitIndex }

def KeepsCommitted (before after : Stored R) : Prop :=
  after.log.take before.commit = before.log.take before.commit ∧ before.commit ≤ after.commit

/-- The request is refused, or it reaches the follower's commit index with its
entries and with its own commit index. -/
def RefusedOrReaches (node : RaftNode S) (request : AppendEntriesRequest R) : Prop :=
  request.term < node.currentTerm ∨ request.Mismatch (stored node.state) ∨
    ((stored node.state).commit ≤ request.prevLogIndex + request.entries.length ∧
      (stored node.state).commit ≤ request.lastCommitIndex)

section

variable [LawfulState S R]

theorem composeAppendEntriesRequest_eq_some {leader : RaftNode S} {peers : PeerMap} {peer : NodeId}
    {request : AppendEntriesRequest R}
    (h : composeAppendEntriesRequest leader peers peer = some request) :
    request.prevLogIndex ≤ (stored leader.state).log.length ∧
      request.entries = (stored leader.state).log.drop request.prevLogIndex := by
  unfold composeAppendEntriesRequest at h
  simp only [Option.bind_eq_bind, Option.bind_eq_some_iff, Option.ite_none_left_eq_some,
    LawfulState.getEntry_eq] at h
  obtain ⟨⟨nextIndex, _⟩, _, hNext, entry, hEntry, hRequest⟩ := h
  cases hRequest
  obtain ⟨_, hEntry⟩ := Stored.entry_eq_some_iff.mp hEntry
  have hBound := (List.getElem?_eq_some_iff.mp hEntry).1
  dsimp only at hNext hBound ⊢
  exact ⟨by omega, LawfulState.getEntries_from _ _ (Nat.one_le_iff_ne_zero.mpr hNext)⟩

/-- Cutting a log that shares its first `c` entries with the sender's log and
continuing as the sender does keeps these entries, if the sender has them. -/
theorem take_append_drop_of_shared {log sent full : List (LogEntry R)} {c prev : Nat}
    (hShared : log.take c <+: full) (hSent : sent <+: full) (hCommit : c ≤ log.length)
    (hReach : c ≤ sent.length) (hPrev : prev ≤ log.length) :
    (log.take prev ++ sent.drop prev).take c = log.take c := by
  by_cases hc : c ≤ prev
  · rw [List.take_append_of_le_length (by rw [List.length_take]; omega), List.take_take,
      Nat.min_eq_left hc]
  · have hPrefix : log.take c <+: sent :=
      List.prefix_of_prefix_length_le hShared hSent (by rw [List.length_take]; omega)
    have hSame : log.take c = sent.take c := by
      rw [List.prefix_iff_eq_take.mp hPrefix, List.length_take, Nat.min_eq_left hCommit]
    have hCut : log.take prev = sent.take prev := by
      have := congrArg (List.take prev) hSame
      rwa [List.take_take, List.take_take, Nat.min_eq_left (by omega)] at this
    rw [hCut, List.take_append_drop, hSame]

theorem keepsCommitted_iff (leaderLog : List (LogEntry R)) (node : RaftNode S)
    (hCommit : (stored node.state).commit ≤ (stored node.state).log.length)
    (hShared : (stored node.state).log.take (stored node.state).commit <+: leaderLog)
    (sender : RaftNode S) (hSender : (stored sender.state).log <+: leaderLog)
    (request : AppendEntriesRequest R) (hRequest : Sendable sender request) (responseTx : Sender) :
    KeepsCommitted (stored node.state)
        (stored ((respondToAppendEntries request responseTx).run node).2.state) ↔
      RefusedOrReaches node request := by
  rw [respondToAppendEntries_node]
  unfold RefusedOrReaches KeepsCommitted
  by_cases hStale : node.currentTerm > request.term
  · rw [if_pos hStale]
    exact iff_of_true ⟨rfl, le_rfl⟩ (Or.inl hStale)
  by_cases hMismatch : request.Mismatch (stored node.state)
  · rw [if_neg hStale, if_pos hMismatch, AppendEntriesRequest.stored_follow]
    exact iff_of_true ⟨rfl, le_rfl⟩ (Or.inr (Or.inl hMismatch))
  have hPrev : request.prevLogIndex ≤ (stored node.state).log.length :=
    Nat.le_of_not_lt (not_or.mp hMismatch).1
  have hLength : ((stored node.state).log.take request.prevLogIndex ++ request.entries).length =
      request.prevLogIndex + request.entries.length := by
    rw [List.length_append, List.length_take, Nat.min_eq_left hPrev]
  rw [if_neg hStale, if_neg hMismatch, AppendEntriesRequest.stored_store, hLength]
  dsimp only
  constructor
  · rintro ⟨hLog, hMin⟩
    have hTake := congrArg List.length hLog
    rw [List.length_take, List.length_take, hLength] at hTake
    exact Or.inr (Or.inr ⟨by omega, by omega⟩)
  · rintro (h | h | ⟨hReach, hSent⟩)
    · exact absurd h hStale
    · exact absurd h hMismatch
    refine ⟨?_, le_min hSent hReach⟩
    cases hRequest with
    | heartbeat _ _ =>
      have hZero : (stored node.state).commit = 0 := Nat.le_zero.mp hReach
      rw [hZero, List.take_zero, List.take_zero]
    | composed hComposed _ _ =>
      dsimp only at hReach hPrev ⊢
      obtain ⟨hBound, hEntries⟩ := composeAppendEntriesRequest_eq_some hComposed
      rw [hEntries, List.length_drop] at hReach
      rw [hEntries]
      exact take_append_drop_of_shared hShared hSender hCommit (by omega) hPrev

end

def setEntry : LogEntry Unit := ⟨1, .clientRequest ()⟩

/-- A leader of term 1 with two entries. -/
def committedLeader : RaftNode (Stored Unit) where
  id := 1
  currentTerm := 1
  votedFor := some 1
  state := ⟨[setEntry, setEntry], 1, ⟨[1, 2], nodup_pair⟩, none, 0⟩
  currentState := .leader
  leaderId := none

/-- Its follower has the first entry, and it is committed. -/
def committedFollower : RaftNode (Stored Unit) where
  id := 2
  currentTerm := 1
  votedFor := some 1
  state := ⟨[setEntry], 1, ⟨[1, 2], nodup_pair⟩, some 1, 1⟩
  currentState := .follower
  leaderId := some 1

def followerPeers : PeerMap := initialPeers ⟨[1, 2], nodup_pair⟩ 1 2

/-- The request for the second entry keeps the first. -/
theorem keepsCommitted_secondEntry :
    KeepsCommitted (stored committedFollower.state)
      (stored ((respondToAppendEntries ⟨1, 1, 1, 1, 1, [setEntry]⟩ ⟨1, 0, false⟩).run
        committedFollower).2.state) :=
  (keepsCommitted_iff [setEntry, setEntry] committedFollower (by decide) (by decide)
    committedLeader (by decide) ⟨1, 1, 1, 1, 1, [setEntry]⟩
    (@Sendable.composed _ _ _ _ followerPeers 2 ⟨1, 1, 1, 1, 1, [setEntry]⟩ rfl 1 1)
    ⟨1, 0, false⟩).mpr (Or.inr (Or.inr (by decide)))

/-- The leader's heartbeat erases the follower's committed entry. -/
theorem heartbeat_erases_committed :
    (stored committedFollower.state).log.take 1 <+: (stored committedLeader.state).log ∧
    Sendable committedLeader (heartbeatRequest committedLeader 1) ∧
    ¬ KeepsCommitted (stored committedFollower.state)
      (stored ((respondToAppendEntries (heartbeatRequest committedLeader 1) ⟨1, 0, false⟩).run
        committedFollower).2.state) :=
  ⟨by decide, Sendable.heartbeat 1 1, fun h => absurd h.1 (by decide)⟩

end Zeroraft
