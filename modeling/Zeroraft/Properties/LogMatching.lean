import Zeroraft.Library.LogMatching
import Zeroraft.Model.Inbound

/-!
# Log Matching at the receiver

A node that only receives heartbeats and slices of the logs of a matching family
holds a prefix of some log of the family at every time.
-/

namespace Zeroraft

open LogMatching

variable {S R : Type} [State S R]

/-- Same index and same term imply identical entries up to that index. -/
abbrev LogsMatch (a b : List (LogEntry R)) : Prop := Matches LogEntry.term a b

/-- The request carries entries of `log` right after `prevLogIndex`, with the term
that `log` has there, or 0 at index 0. -/
def AppendEntriesRequest.SliceOf (request : AppendEntriesRequest R) (log : List (LogEntry R)) :
    Prop :=
  request.prevLogIndex ≤ log.length ∧
  request.prevLogTerm =
    (if request.prevLogIndex = 0 then 0
      else (log[request.prevLogIndex - 1]?.map (·.term)).getD 0) ∧
  ∃ n, request.entries = (log.drop request.prevLogIndex).take n

def AppendEntriesRequest.IsHeartbeat (request : AppendEntriesRequest R) : Prop :=
  request.prevLogIndex = 0 ∧ request.entries = []

/-- Requests for votes, heartbeats and slices of logs of the family. -/
def FromFamily (family : Set (List (LogEntry R))) : Inbound R → Prop
  | .requestVote _ _ => True
  | .appendEntries request _ =>
    request.IsHeartbeat ∨ ∃ log ∈ family, request.SliceOf log
  | .startSession => True

/-- The node's log is a prefix of a log of the family. -/
def WithinFamily (family : Set (List (LogEntry R))) (node : RaftNode S) : Prop :=
  ∃ log ∈ family, (stored node.state).log <+: log

theorem prefix_of_slice {log g f : List (LogEntry R)} (hMatch : LogsMatch g f) (hLog : log <+: g)
    {request : AppendEntriesRequest R} (hSlice : request.SliceOf f)
    (hLength : request.prevLogIndex ≤ log.length)
    (hTerm : ∀ entry, log[request.prevLogIndex - 1]? = some entry → request.prevLogIndex ≠ 0 →
      entry.term = request.prevLogTerm) :
    log.take request.prevLogIndex ++ request.entries <+: f := by
  obtain ⟨hBound, hPrevTerm, n, hEntries⟩ := hSlice
  rw [hEntries]
  cases hPrev : request.prevLogIndex with
  | zero =>
    rw [List.take_zero, List.nil_append, List.drop_zero]
    exact List.take_prefix _ _
  | succ prev =>
    rw [hPrev] at hBound hLength hPrevTerm hTerm
    have hx := List.getElem?_eq_getElem (l := log) (i := prev) hLength
    have hy := List.getElem?_eq_getElem (l := f) (i := prev) hBound
    have hxTerm := hTerm _ hx (by omega)
    have hyTerm : request.prevLogTerm = f[prev].term := by simpa [hy] using hPrevTerm
    exact take_append_prefix hMatch hLog hx hy (hxTerm.trans hyTerm) n

variable [LawfulState S R]

theorem handle_withinFamily {family : Set (List (LogEntry R))}
    (hFamily : ∀ f ∈ family, ∀ g ∈ family, LogsMatch f g) (node : RaftNode S)
    (event : Inbound R) (hEvent : FromFamily family event) (hNode : WithinFamily family node) :
    WithinFamily family (event.handle node).1 := by
  obtain ⟨g, hg, hLog⟩ := hNode
  cases event with
  | requestVote request responseTx =>
    refine ⟨g, hg, ?_⟩
    simp only [Inbound.handle, respondToRequestVote_node]
    split
    · exact hLog
    · rwa [RequestVoteRequest.stored_record]
  | startSession => exact ⟨g, hg, hLog⟩
  | appendEntries request responseTx =>
    simp only [Inbound.handle, respondToAppendEntries_node]
    split
    · exact ⟨g, hg, hLog⟩
    split
    · refine ⟨g, hg, ?_⟩
      rwa [AppendEntriesRequest.stored_follow]
    rename_i hMismatch
    obtain ⟨hLength, hAny⟩ := not_or.mp hMismatch
    rcases hEvent with ⟨hZero, hEmpty⟩ | ⟨f, hf, hSlice⟩
    · refine ⟨g, hg, ?_⟩
      rw [AppendEntriesRequest.stored_store, hZero, hEmpty]
      exact List.nil_prefix
    · refine ⟨f, hf, ?_⟩
      rw [AppendEntriesRequest.stored_store]
      refine prefix_of_slice (hFamily g hg f hf) hLog hSlice (Nat.le_of_not_lt hLength) ?_
      intro entry hEntry hPrev
      have hStored : (stored node.state).entry request.prevLogIndex = some entry :=
        Stored.entry_eq_some_iff.mpr ⟨Nat.one_le_iff_ne_zero.mpr hPrev, hEntry⟩
      simpa [hStored] using hAny

theorem handleAll_withinFamily {family : Set (List (LogEntry R))}
    (hFamily : ∀ f ∈ family, ∀ g ∈ family, LogsMatch f g) (node : RaftNode S)
    (events : List (Inbound R)) (hEvents : ∀ event ∈ events, FromFamily family event)
    (hNode : WithinFamily family node) : WithinFamily family (handleAll node events).1 :=
  handleAll_induction (handle_withinFamily hFamily) node events hEvents hNode

/-- Two receivers of one family end with matching logs, each a prefix of a log of
the family. -/
theorem received_logs_match (family : Set (List (LogEntry R)))
    (hFamily : ∀ f ∈ family, ∀ g ∈ family, LogsMatch f g) (node other : RaftNode S)
    (hNode : WithinFamily family node) (hOther : WithinFamily family other)
    (events otherEvents : List (Inbound R)) (hEvents : ∀ event ∈ events, FromFamily family event)
    (hOtherEvents : ∀ event ∈ otherEvents, FromFamily family event) :
    WithinFamily family (handleAll node events).1 ∧
      LogsMatch (stored (handleAll node events).1.state).log
        (stored (handleAll other otherEvents).1.state).log := by
  have hFirst := handleAll_withinFamily hFamily node events hEvents hNode
  obtain ⟨g, hg, hSecond⟩ := handleAll_withinFamily hFamily other otherEvents hOtherEvents hOther
  refine ⟨hFirst, ?_⟩
  obtain ⟨f, hf, hFirst⟩ := hFirst
  exact (hFamily f hf g hg).of_prefixes hFirst hSecond

def leaderLog : List (LogEntry Unit) := [⟨1, .clientRequest ()⟩, ⟨2, .clientRequest ()⟩]

def emptyReceiver : RaftNode (Stored Unit) where
  id := 2
  currentTerm := 0
  votedFor := none
  state := ⟨[], 0, ⟨[1, 2], nodup_pair⟩, none, 0⟩
  currentState := .follower
  leaderId := none

/-- The first entry, then a heartbeat, then both entries. -/
def leaderRequests : List (Inbound Unit) :=
  [.appendEntries ⟨1, 1, 0, 0, 0, leaderLog.take 1⟩ ⟨1, 0, false⟩,
    .appendEntries ⟨2, 1, 0, 0, 0, []⟩ ⟨1, 1, false⟩,
    .appendEntries ⟨2, 1, 0, 0, 0, leaderLog⟩ ⟨1, 2, false⟩]

theorem received_logs_match_leaderLog :
    LogsMatch (stored (handleAll emptyReceiver leaderRequests).1.state).log
      (stored (handleAll emptyReceiver []).1.state).log := by
  have hFamily : ∀ f ∈ ({leaderLog} : Set _), ∀ g ∈ ({leaderLog} : Set _), LogsMatch f g := by
    rintro _ rfl _ rfl
    exact fun _ _ _ _ _ _ => rfl
  have hNode : WithinFamily {leaderLog} emptyReceiver := ⟨leaderLog, rfl, List.nil_prefix⟩
  refine (received_logs_match {leaderLog} hFamily emptyReceiver emptyReceiver hNode hNode
    leaderRequests [] ?_ fun _ h => absurd h List.not_mem_nil).2
  have hFirst : FromFamily {leaderLog}
      (.appendEntries ⟨1, 1, 0, 0, 0, leaderLog.take 1⟩ ⟨1, 0, false⟩) :=
    Or.inr ⟨leaderLog, rfl, Nat.zero_le _, rfl, 1, rfl⟩
  have hHeartbeat : FromFamily {leaderLog}
      (.appendEntries ⟨2, 1, 0, 0, 0, []⟩ ⟨1, 1, false⟩) := Or.inl ⟨rfl, rfl⟩
  have hBoth : FromFamily {leaderLog}
      (.appendEntries ⟨2, 1, 0, 0, 0, leaderLog⟩ ⟨1, 2, false⟩) :=
    Or.inr ⟨leaderLog, rfl, Nat.zero_le _, rfl, 2, rfl⟩
  simp only [leaderRequests, List.forall_mem_cons]
  exact ⟨hFirst, hHeartbeat, hBoth, fun _ h => absurd h List.not_mem_nil⟩

end Zeroraft
