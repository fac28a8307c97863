import Zeroraft.Model.Inbound

/-!
# One AppendEntries request, and the same request again

What a request leaves behind depends on the node only through its fields and through what
its state shows, and a node that has handled a request shows what the request asks for.
-/

namespace Zeroraft

variable {S R : Type} [State S R]

/-- The handler ends by sending this response, and leaves this node. -/
def Answers (request : AppendEntriesRequest R) (responseTx : Sender) (node : RaftNode S)
    (response : AppendEntriesResponse) (node' : RaftNode S) : Prop :=
  (respondToAppendEntries request responseTx).run node = (responseTx.send response).run node'

/-- The log ends before the index, or has an entry of another term there. -/
def AppendEntriesRequest.PrevMissing (request : AppendEntriesRequest R) (log : List (LogEntry R)) :
    Prop :=
  log.length < request.prevLogIndex ∨ (1 ≤ request.prevLogIndex ∧
    ∃ entry, log[request.prevLogIndex - 1]? = some entry ∧ entry.term ≠ request.prevLogTerm)

/-- The node has accepted the sender of the request as the leader. -/
structure Followed (request : AppendEntriesRequest R) (node node' : RaftNode S) : Prop where
  currentTerm : node'.currentTerm = request.term
  persistedTerm : (stored node'.state).currentTerm = request.term
  leaderId : node'.leaderId = some request.leaderId
  currentState : node'.currentState = .follower
  votedFor : node'.votedFor = node.votedFor
  persistedVote : (stored node'.state).votedFor = (stored node.state).votedFor

namespace AppendEntriesRequest

variable [LawfulState S R] (request : AppendEntriesRequest R) (node : RaftNode S)

omit [State S R] [LawfulState S R] in
theorem mismatch_iff {s : Stored R} : request.Mismatch s ↔ request.PrevMissing s.log := by
  refine or_congr Iff.rfl ?_
  simp only [Option.any_eq_true, decide_eq_true_eq, Stored.entry_eq_some_iff]
  constructor
  · rintro ⟨entry, ⟨hPrev, hEntry⟩, hTerm⟩
    exact ⟨hPrev, entry, hEntry, hTerm⟩
  · rintro ⟨hPrev, entry, hEntry, hTerm⟩
    exact ⟨entry, ⟨hPrev, hEntry⟩, hTerm⟩

theorem followed_follow : Followed request node (request.follow node) where
  currentTerm := rfl
  persistedTerm := by rw [stored_follow]
  leaderId := rfl
  currentState := rfl
  votedFor := rfl
  persistedVote := by rw [stored_follow]

theorem followed_store : Followed request node (request.store node) where
  currentTerm := rfl
  persistedTerm := by rw [stored_store]
  leaderId := rfl
  currentState := rfl
  votedFor := rfl
  persistedVote := by rw [stored_store]

end AppendEntriesRequest

/-- The three outcomes of a request, each with its response and the node that it leaves. -/
theorem appendEntries_outcome [LawfulState S R] (request : AppendEntriesRequest R)
    (responseTx : Sender) (node : RaftNode S) :
    (request.term < node.currentTerm →
      Answers request responseTx node ⟨node.currentTerm, false, node.id, 0, .staleTerm⟩ node) ∧
    (node.currentTerm ≤ request.term → request.PrevMissing (stored node.state).log →
      ∃ node', Answers request responseTx node ⟨node.currentTerm, false, node.id, 0, .logMismatch⟩
        node' ∧ Followed request node node' ∧
        (stored node'.state).log = (stored node.state).log ∧
        (stored node'.state).commit = (stored node.state).commit) ∧
    (node.currentTerm ≤ request.term → ¬ request.PrevMissing (stored node.state).log →
      ∃ node', Answers request responseTx node
        ⟨node.currentTerm, true, node.id, request.entries.length, .ok⟩ node' ∧
        Followed request node node' ∧
        (stored node'.state).log =
          (stored node.state).log.take request.prevLogIndex ++ request.entries ∧
        (stored node'.state).commit =
          min request.lastCommitIndex (request.prevLogIndex + request.entries.length)) := by
  unfold Answers
  rw [respondToAppendEntries_eq, ← request.mismatch_iff]
  refine ⟨fun hStale => ?_, fun hTerm hMismatch => ?_, fun hTerm hMismatch => ?_⟩
  · rw [if_pos hStale]
  · rw [if_neg (Nat.not_lt.mpr hTerm), if_pos hMismatch]
    refine ⟨request.follow node, rfl, request.followed_follow node, ?_, ?_⟩ <;>
      rw [AppendEntriesRequest.stored_follow]
  · rw [if_neg (Nat.not_lt.mpr hTerm), if_neg hMismatch]
    have hPrev : request.prevLogIndex ≤ (stored node.state).log.length :=
      Nat.le_of_not_lt (not_or.mp hMismatch).1
    refine ⟨request.store node, rfl, request.followed_store node, ?_, ?_⟩
    · rw [AppendEntriesRequest.stored_store]
    · rw [AppendEntriesRequest.stored_store, List.length_append, List.length_take,
        Nat.min_eq_left hPrev]

def oneEntry : List (LogEntry Unit) := [⟨1, .clientRequest ()⟩]

/-- A follower in term 1 whose only entry is committed. -/
def oneEntryFollower : RaftNode (Stored Unit) where
  id := 2
  currentTerm := 1
  votedFor := some 1
  state := ⟨oneEntry, 1, ⟨[1, 2], nodup_pair⟩, some 1, 1⟩
  currentState := .follower
  leaderId := none

/-- A second entry, in term 2. -/
theorem appendEntries_outcome_second : ∃ node',
    Answers ⟨2, 1, 2, 1, 1, oneEntry⟩ ⟨1, 0, false⟩ oneEntryFollower ⟨1, true, 2, 1, .ok⟩ node' ∧
      node'.currentTerm = 2 ∧ node'.state.log = oneEntry ++ oneEntry ∧ node'.state.commit = 2 := by
  obtain ⟨_, _, hOk⟩ :=
    appendEntries_outcome ⟨2, 1, 2, 1, 1, oneEntry⟩ ⟨1, 0, false⟩ oneEntryFollower
  have hPresent : ¬ AppendEntriesRequest.PrevMissing ⟨2, 1, 2, 1, 1, oneEntry⟩ oneEntry := by
    rintro (hShort | ⟨_, entry, hEntry, hTerm⟩)
    · exact absurd hShort (by decide)
    · cases hEntry
      exact hTerm rfl
  obtain ⟨node', hAnswers, hFollowed, hLog, hCommit⟩ := hOk (by decide) hPresent
  exact ⟨node', hAnswers, hFollowed.currentTerm, hLog, hCommit⟩

section Indistinguishable

/-- Nodes that differ at most in what their states do not show. -/
structure SameNode (a b : RaftNode S) : Prop where
  id : a.id = b.id
  currentTerm : a.currentTerm = b.currentTerm
  votedFor : a.votedFor = b.votedFor
  currentState : a.currentState = b.currentState
  leaderId : a.leaderId = b.leaderId
  stored : stored a.state = stored b.state

theorem SameNode.refl (a : RaftNode S) : SameNode a a := ⟨rfl, rfl, rfl, rfl, rfl, rfl⟩

theorem SameNode.trans {a b c : RaftNode S} (hab : SameNode a b) (hbc : SameNode b c) :
    SameNode a c where
  id := hab.id.trans hbc.id
  currentTerm := hab.currentTerm.trans hbc.currentTerm
  votedFor := hab.votedFor.trans hbc.votedFor
  currentState := hab.currentState.trans hbc.currentState
  leaderId := hab.leaderId.trans hbc.leaderId
  stored := hab.stored.trans hbc.stored

/-- What a response says apart from the term that the responder had before. -/
def AppendEntriesResponse.outcome (response : AppendEntriesResponse) :
    Bool × AppendEntriesResponseReason × Nat :=
  (response.success, response.reason, response.len)

/-- The outcome that the sender of a request learns. -/
def learned (result : Result AppendEntriesResponse) :
    Option (Bool × AppendEntriesResponseReason × Nat) :=
  result.toOption.map AppendEntriesResponse.outcome

variable [LawfulState S R] {a b : RaftNode S}

omit [LawfulState S R] in
theorem RequestVoteRequest.refused_congr {request : RequestVoteRequest} (h : SameNode a b) :
    request.Refused a ↔ request.Refused b := by
  rw [Refused, Refused, h.currentTerm, h.votedFor]

theorem RequestVoteRequest.record_congr (request : RequestVoteRequest) (h : SameNode a b) :
    SameNode (request.record a) (request.record b) where
  id := h.id
  currentTerm := rfl
  votedFor := rfl
  currentState := rfl
  leaderId := h.leaderId
  stored := by rw [stored_record, stored_record, h.stored]

theorem AppendEntriesRequest.follow_congr (request : AppendEntriesRequest R) (h : SameNode a b) :
    SameNode (request.follow a) (request.follow b) where
  id := h.id
  currentTerm := rfl
  votedFor := h.votedFor
  currentState := rfl
  leaderId := rfl
  stored := by rw [stored_follow, stored_follow, h.stored]

theorem AppendEntriesRequest.store_congr (request : AppendEntriesRequest R) (h : SameNode a b) :
    SameNode (request.store a) (request.store b) where
  id := h.id
  currentTerm := rfl
  votedFor := h.votedFor
  currentState := rfl
  leaderId := rfl
  stored := by rw [stored_store, stored_store, h.stored]

theorem Inbound.handle_congr (event : Inbound R) (h : SameNode a b) :
    SameNode (event.handle a).1 (event.handle b).1 := by
  cases event with
  | requestVote request responseTx =>
    simp only [Inbound.handle, respondToRequestVote_node]
    by_cases hRefused : request.Refused a
    · rwa [if_pos hRefused, if_pos ((RequestVoteRequest.refused_congr h).mp hRefused)]
    · rw [if_neg hRefused, if_neg fun hb => hRefused ((RequestVoteRequest.refused_congr h).mpr hb)]
      exact request.record_congr h
  | appendEntries request responseTx =>
    simp only [Inbound.handle, respondToAppendEntries_node, h.currentTerm, h.stored]
    split_ifs
    · exact h
    · exact request.follow_congr h
    · exact request.store_congr h
  | startSession =>
    refine ⟨h.id, ?_, congrArg some h.id, h.currentState, h.leaderId, h.stored⟩
    exact congrArg (fun term => (term + 1) % u64Size) h.currentTerm

theorem handleAll_congr (events : List (Inbound R)) (h : SameNode a b) :
    SameNode (handleAll a events).1 (handleAll b events).1 := by
  induction events generalizing a b with
  | nil => exact h
  | cons event rest ih => exact ih (event.handle_congr h)

namespace AppendEntriesRequest

theorem follow_follow (request : AppendEntriesRequest R) (node : RaftNode S) :
    SameNode (request.follow (request.follow node)) (request.follow node) where
  id := rfl
  currentTerm := rfl
  votedFor := rfl
  currentState := rfl
  leaderId := rfl
  stored := by rw [stored_follow, stored_follow]

theorem not_mismatch_store {request : AppendEntriesRequest R} {node : RaftNode S}
    (h : ¬ request.Mismatch (stored node.state)) :
    ¬ request.Mismatch (stored (request.store node).state) := by
  obtain ⟨hPrev, hEntry⟩ := not_or.mp h
  have hLength : request.prevLogIndex ≤ (stored node.state).log.length := Nat.le_of_not_lt hPrev
  rw [stored_store]
  refine not_or.mpr ⟨?_, ?_⟩
  · rw [List.length_append, List.length_take, Nat.min_eq_left hLength]
    omega
  · unfold Stored.entry at hEntry ⊢
    by_cases hZero : request.prevLogIndex = 0
    · rw [if_pos hZero]
      exact Bool.false_ne_true
    · rw [if_neg hZero] at hEntry ⊢
      have hLast : request.prevLogIndex - 1 < request.prevLogIndex := by omega
      rwa [List.getElem?_append_left (by rw [List.length_take]; omega),
        List.getElem?_take_of_lt hLast]

theorem store_store {request : AppendEntriesRequest R} {node : RaftNode S}
    (h : request.prevLogIndex ≤ (stored node.state).log.length) :
    SameNode (request.store (request.store node)) (request.store node) where
  id := rfl
  currentTerm := rfl
  votedFor := rfl
  currentState := rfl
  leaderId := rfl
  stored := by
    have hCut : ((stored node.state).log.take request.prevLogIndex ++ request.entries).take
        request.prevLogIndex = (stored node.state).log.take request.prevLogIndex := by
      rw [List.take_append_of_le_length (by rw [List.length_take]; omega), List.take_take,
        Nat.min_self]
    rw [stored_store, stored_store]
    dsimp only
    rw [hCut]

end AppendEntriesRequest

omit [State S R] [LawfulState S R] in
theorem learned_send (responseTx : Sender) (response : AppendEntriesResponse) (node : RaftNode S) :
    learned ((responseTx.send response).run node).1 =
      if responseTx.closed then none else some response.outcome := by
  unfold NodeM.run Sender.send
  cases responseTx.closed <;> rfl

/-- A handled request is handled once more without effect, and with the same outcome. -/
theorem appendEntries_again (request : AppendEntriesRequest R) (node : RaftNode S)
    (responseTx again : Sender) :
    SameNode ((respondToAppendEntries request again).run
        ((respondToAppendEntries request responseTx).run node).2).2
      ((respondToAppendEntries request responseTx).run node).2 ∧
    learned ((respondToAppendEntries request again).run
        ((respondToAppendEntries request responseTx).run node).2).1 =
      learned ((respondToAppendEntries request again).run node).1 := by
  rw [respondToAppendEntries_node request responseTx node]
  by_cases hStale : node.currentTerm > request.term
  · rw [if_pos hStale, respondToAppendEntries_node, if_pos hStale]
    exact ⟨SameNode.refl node, rfl⟩
  have hFresh : ¬ request.term > request.term := Nat.lt_irrefl _
  by_cases hMismatch : request.Mismatch (stored node.state)
  · have hAgain : request.Mismatch (stored (request.follow node).state) := by
      rw [AppendEntriesRequest.stored_follow]
      exact hMismatch
    rw [if_neg hStale, if_pos hMismatch]
    simp only [respondToAppendEntries_eq, AppendEntriesRequest.follow_currentTerm, if_neg hFresh,
      if_pos hAgain, if_neg hStale, if_pos hMismatch, Sender.run_send_snd, learned_send]
    exact ⟨request.follow_follow node, rfl⟩
  · have hAgain := AppendEntriesRequest.not_mismatch_store hMismatch
    rw [if_neg hStale, if_neg hMismatch]
    simp only [respondToAppendEntries_eq, AppendEntriesRequest.store_currentTerm, if_neg hFresh,
      if_neg hAgain, if_neg hStale, if_neg hMismatch, Sender.run_send_snd, learned_send]
    exact ⟨AppendEntriesRequest.store_store (Nat.le_of_not_lt (not_or.mp hMismatch).1), rfl⟩

def copiesOf (request : AppendEntriesRequest R) (channels : List Sender) : List (Inbound R) :=
  channels.map (.appendEntries request ·)

theorem handled_congr (request : AppendEntriesRequest R) (node : RaftNode S) (first : Sender)
    (channels : List Sender) (h : SameNode a ((respondToAppendEntries request first).run node).2) :
    SameNode (handleAll a (copiesOf request channels)).1
      ((respondToAppendEntries request first).run node).2 := by
  induction channels generalizing a with
  | nil => exact h
  | cons channel rest ih =>
    exact ih (((Inbound.appendEntries request channel).handle_congr h).trans
      (appendEntries_again request node first channel).1)

theorem learned_congr (request : AppendEntriesRequest R) (responseTx : Sender) (h : SameNode a b) :
    learned ((respondToAppendEntries request responseTx).run a).1 =
      learned ((respondToAppendEntries request responseTx).run b).1 := by
  simp only [respondToAppendEntries_eq, h.currentTerm, h.stored]
  split_ifs <;> rw [learned_send, learned_send] <;> rfl

/-- A request that arrives any number of times leaves what it leaves when it arrives once,
after whatever came before and up to whatever comes after, and every copy has its outcome. -/
theorem appendEntries_idempotent (node : RaftNode S) (before after : List (Inbound R))
    (request : AppendEntriesRequest R) (responseTx first : Sender) (channels : List Sender) :
    SameNode (handleAll node (before ++ copiesOf request (first :: channels) ++ after)).1
        (handleAll node (before ++ [.appendEntries request responseTx] ++ after)).1 ∧
      ∀ earlier copy later, first :: channels = earlier ++ copy :: later →
        learned ((respondToAppendEntries request copy).run
            (handleAll node (before ++ copiesOf request earlier)).1).1 =
          learned ((respondToAppendEntries request copy).run (handleAll node before).1).1 := by
  refine ⟨?_, ?_⟩
  · have hOnce : ((respondToAppendEntries request first).run (handleAll node before).1).2 =
        ((respondToAppendEntries request responseTx).run (handleAll node before).1).2 := by
      rw [respondToAppendEntries_node, respondToAppendEntries_node]
    have hCopies := handled_congr request (handleAll node before).1 first channels
      (SameNode.refl _)
    rw [handleAll_append, handleAll_append, handleAll_append node (before ++ _),
      handleAll_append]
    refine handleAll_congr after ?_
    change SameNode _ ((respondToAppendEntries request responseTx).run (handleAll node before).1).2
    rw [← hOnce]
    exact hCopies
  · intro earlier copy later hSplit
    rw [handleAll_append]
    cases earlier with
    | nil => rfl
    | cons channel rest =>
      have hCopies := handled_congr request (handleAll node before).1 channel rest
        (SameNode.refl _)
      exact (learned_congr request copy hCopies).trans
        (appendEntries_again request (handleAll node before).1 channel copy).2

end Indistinguishable

/-- The second entry arrives twice, the second time through a channel nobody listens to. -/
theorem appendEntries_idempotent_second :
    SameNode (handleAll oneEntryFollower
        [.appendEntries ⟨2, 1, 2, 1, 1, oneEntry⟩ ⟨1, 0, false⟩,
          .appendEntries ⟨2, 1, 2, 1, 1, oneEntry⟩ ⟨1, 1, true⟩]).1
      (handleAll oneEntryFollower [.appendEntries ⟨2, 1, 2, 1, 1, oneEntry⟩ ⟨1, 0, false⟩]).1 :=
  (appendEntries_idempotent oneEntryFollower [] [] ⟨2, 1, 2, 1, 1, oneEntry⟩ ⟨1, 0, false⟩
    ⟨1, 0, false⟩ [⟨1, 1, true⟩]).1

end Zeroraft
