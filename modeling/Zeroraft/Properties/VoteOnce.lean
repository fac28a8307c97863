import Mathlib.Data.List.Infix
import Mathlib.Data.Prod.Lex
import Zeroraft.Library.Ballot
import Zeroraft.Model.Inbound

/-!
# One vote per term

Seen as a voter, a node that handles requests and starts sessions one after the
other takes steps of `Ballot`. A `votedFor` is never cleared, so the vote of the
present term is free only at a node that has never voted at all.
-/

namespace Zeroraft

variable {S R : Type} [State S R]

def Vote.cast (vote : Vote) : Nat × NodeId := (vote.term, vote.candidate)

/-- The node as an abstract voter that has cast `votes`. -/
def ballot (node : RaftNode S) (votes : List Vote) : Ballot NodeId where
  term := node.currentTerm
  marked := node.votedFor.isSome
  cast := votes.map Vote.cast

/-- The vote that was persisted before the node was built. -/
def persistedVote (state : S) : Option Vote :=
  (State.loadVotedFor state).map fun candidate => ⟨State.loadCurrentTerm state, candidate⟩

/-- No session is started in the last term that a `u64` holds. -/
def SessionsBelowMax (node : RaftNode S) (events : List (Inbound R)) : Prop :=
  ∀ handled, handled ++ [.startSession] <+: events →
    (handleAll node handled).1.currentTerm < u64Size - 1

def UpToDate (request : RequestVoteRequest) (state : S) : Prop :=
  toLex (State.getLastTerm state, State.getLastIndex state) ≤
    toLex (request.lastLogTerm, request.lastLogIndex)

def VoteRecorded (request : RequestVoteRequest) (node : RaftNode S) : Prop :=
  node.currentTerm = request.term ∧ node.votedFor = some request.candidateId ∧
    State.loadCurrentTerm node.state = request.term ∧
    State.loadVotedFor node.state = some request.candidateId

theorem SessionsBelowMax.of_inits {node : RaftNode S} {events : List (Inbound R)}
    (h : ∀ handled ∈ events.inits, (handleAll node handled).1.currentTerm < u64Size - 1) :
    SessionsBelowMax node events := fun handled hPrefix =>
  h handled ((List.mem_inits _ _).mpr ((List.prefix_append handled _).trans hPrefix))

theorem SessionsBelowMax.of_not_mem {node : RaftNode S} {events : List (Inbound R)}
    (h : .startSession ∉ events) : SessionsBelowMax node events := fun _ hPrefix =>
  absurd (hPrefix.subset (List.mem_append_right _ (List.mem_singleton_self _))) h

theorem SessionsBelowMax.head {node : RaftNode S} {event : Inbound R} {rest : List (Inbound R)}
    (h : SessionsBelowMax node (event :: rest)) (hSession : event = .startSession) :
    node.currentTerm < u64Size - 1 :=
  h [] (List.cons_prefix_cons.mpr ⟨hSession.symm, List.nil_prefix⟩)

theorem SessionsBelowMax.tail {node : RaftNode S} {event : Inbound R} {rest : List (Inbound R)}
    (h : SessionsBelowMax node (event :: rest)) : SessionsBelowMax (event.handle node).1 rest :=
  fun handled hPrefix => h (event :: handled) (List.cons_prefix_cons.mpr ⟨rfl, hPrefix⟩)

theorem RequestVoteRequest.free_of_not_refused {request : RequestVoteRequest} {node : RaftNode S}
    (h : ¬ request.Refused node) (votes : List Vote) : (ballot node votes).Free request.term := by
  obtain ⟨hVoted, hStale⟩ := not_or.mp h
  rcases Nat.lt_or_eq_of_le (Nat.le_of_not_lt hStale) with hLt | hEq
  · exact Or.inl hLt
  · exact Or.inr ⟨hEq, fun hSome => hVoted ⟨hEq, hSome⟩⟩

section

variable [LawfulState S R]

theorem grantedVote_eq_some {request : RequestVoteRequest} {responseTx : Sender}
    {node : RaftNode S} {vote : Vote}
    (h : grantedVote request ((respondToRequestVote request responseTx).run node).1 = some vote) :
    ¬ request.Refused node ∧ vote = ⟨request.term, request.candidateId⟩ := by
  rcases hRun : (respondToRequestVote request responseTx).run node with ⟨⟨_⟩ | ⟨response⟩, node'⟩
  · rw [hRun] at h
    cases h
  · rw [hRun] at h
    obtain ⟨hGranted, hVote⟩ := Option.ite_none_right_eq_some.mp h
    exact ⟨(respondToRequestVote_granted hRun hGranted).1, (Option.some.inj hVote).symm⟩

/-- Every event is a step of the abstract voter. -/
theorem handle_ballotStep (node : RaftNode S) (event : Inbound R) (votes : List Vote)
    (hBelow : event = .startSession → node.currentTerm < u64Size - 1) :
    Ballot.Step (ballot node votes)
      (ballot (event.handle node).1 (votes ++ (event.handle node).2.toList)) := by
  cases event with
  | requestVote request responseTx =>
    simp only [Inbound.handle, respondToRequestVote_node]
    cases hVote : grantedVote request ((respondToRequestVote request responseTx).run node).1 with
    | none =>
      rw [Option.toList_none, List.append_nil]
      split
      · exact Ballot.Step.stay _
      · rename_i hRefused
        exact (congrArg _ (by simp [ballot])).mp
          (Ballot.Step.mark (RequestVoteRequest.free_of_not_refused hRefused votes))
    | some vote =>
      obtain ⟨hRefused, rfl⟩ := grantedVote_eq_some hVote
      rw [if_neg hRefused, Option.toList_some]
      exact (congrArg _ (by simp [ballot, Vote.cast])).mp
        (Ballot.Step.cast (RequestVoteRequest.free_of_not_refused hRefused votes)
          request.candidateId)
  | appendEntries request responseTx =>
    simp only [Inbound.handle, respondToAppendEntries_node, Option.toList_none, List.append_nil]
    split
    · exact Ballot.Step.stay _
    rename_i hStale
    have hAdvance : Ballot.Step (ballot node votes)
        { ballot node votes with term := request.term } :=
      Ballot.Step.advance (Nat.le_of_not_lt hStale)
    split <;> exact hAdvance
  | startSession =>
    have hNext : (node.currentTerm + 1) % u64Size = node.currentTerm + 1 :=
      Nat.mod_eq_of_lt (Nat.add_lt_of_lt_sub (hBelow rfl))
    simp only [Inbound.handle, run_initializeVoteSession, hNext, Option.toList_some]
    exact (congrArg _ (by simp [ballot, Vote.cast])).mp
      (Ballot.Step.cast (Or.inl (Nat.lt_succ_self _)) node.id)

theorem handleAll_ballotSteps (node : RaftNode S) (events : List (Inbound R)) (votes : List Vote)
    (hBelow : SessionsBelowMax node events) :
    Ballot.Steps (ballot node votes)
      (ballot (handleAll node events).1 (votes ++ (handleAll node events).2)) := by
  induction events generalizing node votes with
  | nil => rw [handleAll_nil, List.append_nil]
  | cons event rest ih =>
    rw [handleAll_cons, ← List.append_assoc]
    exact Relation.ReflTransGen.head (handle_ballotStep node event votes hBelow.head)
      (ih _ _ hBelow.tail)

theorem ballot_valid_of_build {builder : RaftNodeBuilder S} {node : RaftNode S}
    (hBuild : builder.build = .ok node) :
    (ballot node (persistedVote builder.state).toList).Valid := by
  obtain ⟨built, hBuilt, _, hTerm, hVoted, _⟩ := builder.build_spec
  obtain rfl : built = node := Except.ok.inj (hBuilt.symm.trans hBuild)
  unfold persistedVote ballot
  rw [loadVotedFor_eq, loadCurrentTerm_eq, ← hVoted, ← hTerm]
  cases built.votedFor with
  | none => exact ⟨List.Pairwise.nil, fun _ h => absurd h List.not_mem_nil, fun h => absurd rfl h⟩
  | some candidate =>
    refine ⟨List.pairwise_singleton _ _, fun vote h => ?_, fun _ => rfl⟩
    rw [List.mem_singleton.mp h]
    exact Nat.le_refl _

theorem upToDate_of_not_behind {request : RequestVoteRequest} {state : S}
    (h : ¬ request.Behind (stored state)) : UpToDate request state := by
  obtain ⟨hTerm, hIndex⟩ := not_or.mp h
  rw [UpToDate, LawfulState.getLastTerm_eq, LawfulState.getLastIndex_eq, Prod.Lex.toLex_le_toLex]
  rcases Nat.lt_or_eq_of_le (Nat.le_of_not_lt hTerm) with hLt | hEq
  · exact Or.inl hLt
  · exact Or.inr ⟨hEq, Nat.le_of_not_lt fun hGt => hIndex ⟨hEq, hGt⟩⟩

theorem voteRecorded_record (request : RequestVoteRequest) (node : RaftNode S) :
    VoteRecorded request (request.record node) := by
  refine ⟨rfl, rfl, ?_, ?_⟩
  · rw [loadCurrentTerm_eq, RequestVoteRequest.stored_record]
  · rw [loadVotedFor_eq, RequestVoteRequest.stored_record]

theorem votes_once (builder : RaftNodeBuilder S) (node : RaftNode S)
    (hBuild : builder.build = .ok node) (events : List (Inbound R))
    (hBelow : SessionsBelowMax node events) :
    (((persistedVote builder.state).toList ++ (handleAll node events).2).map
        Vote.term).Pairwise (· < ·) ∧
    ∀ handled request responseTx response after,
      handled ++ [Inbound.requestVote request responseTx] <+: events →
      (respondToRequestVote request responseTx).run (handleAll node handled).1 =
        (.ok response, after) →
      response.voteGranted = true →
      UpToDate request (handleAll node handled).1.state ∧ VoteRecorded request after := by
  constructor
  · have hValid := (handleAll_ballotSteps node events (persistedVote builder.state).toList
      hBelow).valid (ballot_valid_of_build hBuild)
    have hIncreasing := hValid.increasing
    rwa [ballot, List.map_map] at hIncreasing
  · intro handled request responseTx response after _ hRun hGranted
    obtain ⟨_, hBehind, rfl⟩ := respondToRequestVote_granted hRun hGranted
    exact ⟨upToDate_of_not_behind hBehind, voteRecorded_record request _⟩

end

/-- A node that has voted for node 2 in term 3. -/
def votedBuilder : RaftNodeBuilder (Stored Unit) where
  id := 1
  state := ⟨[⟨3, .clientRequest ()⟩], 0, ⟨[1, 2, 3], nodup_triple⟩, some 2, 3⟩
  seeds := .empty

def votedNode : RaftNode (Stored Unit) where
  id := 1
  currentTerm := 3
  votedFor := some 2
  state := votedBuilder.state
  currentState := .follower
  leaderId := none

/-- It refuses term 3, grants term 5 and votes for itself in term 6. -/
def votedEvents : List (Inbound Unit) :=
  [.requestVote ⟨3, 3, 1, 3⟩ ⟨3, 0, false⟩, .requestVote ⟨5, 3, 1, 3⟩ ⟨3, 1, false⟩, .startSession]

theorem votes_once_voted :
    (handleAll votedNode votedEvents).2 = [⟨5, 3⟩, ⟨6, 1⟩] ∧
    (((persistedVote votedBuilder.state).toList ++ (handleAll votedNode votedEvents).2).map
      Vote.term).Pairwise (· < ·) := by
  have hBelow : SessionsBelowMax votedNode votedEvents := .of_inits (by decide)
  exact ⟨by decide, (votes_once votedBuilder votedNode rfl votedEvents hBelow).1⟩

end Zeroraft
