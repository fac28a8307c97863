import Zeroraft.Properties.VoteOnce

/-!
# What the vote record says

`voted_for` is the vote of the current term as long as the term and the vote are
written together. The handlers write one without the other: a vote for a candidate
that is then refused, and a term with the vote of an earlier one. Nothing is assumed
of the `State` here, its operations may fail.
-/

namespace Zeroraft

variable {S R : Type} [State S R]

section Handlers

/-- A part of the node that a computation does not change. -/
def NodeM.Keeps {α β : Type} (f : RaftNode S → β) (x : NodeM S α) : Prop :=
  ∀ node, f (x.run node).2 = f node

def RaftNode.memory (node : RaftNode S) : Nat × Option NodeId := (node.currentTerm, node.votedFor)

variable {α β γ : Type} {f : RaftNode S → γ}

omit [State S R] in
theorem NodeM.Keeps.bind {x : NodeM S α} {next : α → NodeM S β} (hx : x.Keeps f)
    (hNext : ∀ a, (next a).Keeps f) : (x >>= next).Keeps f := by
  intro node
  have hFirst := hx node
  rw [NodeM.run_bind]
  rcases hRun : x.run node with ⟨⟨e⟩ | ⟨a⟩, node'⟩
  · rwa [hRun] at hFirst
  · rw [hRun] at hFirst
    exact (hNext a node').trans hFirst

omit [State S R] in
theorem NodeM.Keeps.ite {c : Prop} [Decidable c] {x y : NodeM S α} (hx : x.Keeps f)
    (hy : y.Keeps f) : (if c then x else y).Keeps f := by
  split
  · exact hx
  · exact hy

omit [State S R] in
theorem NodeM.keeps_read (g : RaftNode S → α) : (NodeM.read g).Keeps f := fun _ => rfl

omit [State S R] in
theorem Sender.keeps_send (responseTx : Sender) (response : α) :
    (responseTx.send response : NodeM S α).Keeps f := fun node =>
  congrArg f (responseTx.run_send_snd response node)

omit [State S R] in
theorem NodeM.keeps_modifyState (operation : S → Result Unit × S) :
    (NodeM.modifyState operation).Keeps RaftNode.memory := fun _ => rfl

omit [State S R] in
theorem NodeM.Keeps.run_eq {x : NodeM S α} (h : x.Keeps f) {node : RaftNode S} {value : γ}
    (hNode : f node = value) : f (x.run node).2 = value :=
  (h node).trans hNode

omit [State S R] in
theorem NodeM.Keeps.run_bind {x : NodeM S α} {next : α → NodeM S β}
    (hNext : ∀ a, (next a).Keeps f) (node : RaftNode S) :
    f ((x >>= next).run node).2 = f (x.run node).2 := by
  rw [NodeM.run_bind]
  rcases x.run node with ⟨⟨e⟩ | ⟨a⟩, node'⟩
  · rfl
  · exact hNext a node'

theorem updateCurrentTerm_memory (term : Nat) (node : RaftNode S) :
    ((updateCurrentTerm term).run node).2.memory =
      if (State.storeCurrentTerm node.state term).1 = .ok () then (term, node.votedFor)
      else node.memory := by
  rw [updateCurrentTerm, NodeM.run_bind]
  simp only [NodeM.run, NodeM.modifyState]
  rcases hStore : (State.storeCurrentTerm node.state term).1 with e | ⟨⟨⟩⟩
  · rfl
  · rfl

/-- The request is accepted and its term reaches the node. -/
def AppendEntriesRequest.StoresTerm (request : AppendEntriesRequest R) (node : RaftNode S) : Prop :=
  node.currentTerm ≤ request.term ∧ (State.storeCurrentTerm node.state request.term).1 = .ok ()

instance (request : AppendEntriesRequest R) (node : RaftNode S) :
    Decidable (request.StoresTerm node) := inferInstanceAs (Decidable (_ ∧ _))

theorem respondToAppendEntries_memory (request : AppendEntriesRequest R) (responseTx : Sender)
    (node : RaftNode S) : ((respondToAppendEntries request responseTx).run node).2.memory =
      if request.StoresTerm node then (request.term, node.votedFor) else node.memory := by
  simp only [respondToAppendEntries, getCurrentTerm, getId, NodeM.run_read_bind, NodeM.run_ite]
  by_cases hStale : node.currentTerm > request.term
  · have hKept : ¬ request.StoresTerm node := fun h => absurd h.1 (Nat.not_le_of_lt hStale)
    rw [if_pos hStale, if_neg hKept, Sender.run_send_snd]
  · rw [if_neg hStale, NodeM.Keeps.run_bind (f := RaftNode.memory), updateCurrentTerm_memory]
    · exact if_congr ⟨fun h => ⟨Nat.le_of_not_lt hStale, h⟩, And.right⟩ rfl rfl
    · intro _
      refine NodeM.Keeps.bind (fun _ => rfl) fun _ => NodeM.Keeps.bind (fun _ => rfl) fun _ => ?_
      refine NodeM.Keeps.ite (Sender.keeps_send _ _) ?_
      refine NodeM.Keeps.bind (NodeM.keeps_read _) fun _ => NodeM.Keeps.ite (Sender.keeps_send _ _) ?_
      refine NodeM.Keeps.bind (NodeM.keeps_modifyState _) fun _ => ?_
      refine NodeM.Keeps.bind (NodeM.keeps_modifyState _) fun _ => ?_
      refine NodeM.Keeps.bind (NodeM.keeps_read _) fun _ => ?_
      exact NodeM.Keeps.bind (NodeM.keeps_modifyState _) fun _ => Sender.keeps_send _ _

namespace RequestVoteRequest

/-- The request gets past the first checks and is recorded. -/
def Records (request : RequestVoteRequest) (node : RaftNode S) : Prop :=
  ¬ request.Refused node ∧ (State.storeCurrentTerm node.state request.term).1 = .ok () ∧
    (State.storeVotedFor (State.storeCurrentTerm node.state request.term).2
      request.candidateId).1 = .ok ()

/-- The last check fails, on the state that has recorded the vote. -/
def Incomplete (request : RequestVoteRequest) (node : RaftNode S) : Prop :=
  IncompleteLog (State.getLastTerm (request.record node).state)
    (State.getLastIndex (request.record node).state) request

instance (request : RequestVoteRequest) (node : RaftNode S) : Decidable (request.Records node) :=
  inferInstanceAs (Decidable (_ ∧ _))

instance (request : RequestVoteRequest) (node : RaftNode S) :
    Decidable (request.Incomplete node) := inferInstanceAs (Decidable (IncompleteLog _ _ _))

end RequestVoteRequest

theorem grantedVote_send (request : RequestVoteRequest) (responseTx : Sender)
    (response : RequestVoteResponse) (node : RaftNode S) :
    grantedVote request ((responseTx.send response).run node).1 =
      if response.voteGranted ∧ responseTx.closed = false
      then some ⟨request.term, request.candidateId⟩ else none := by
  unfold Sender.send NodeM.run
  cases hClosed : responseTx.closed <;> simp [grantedVote]

omit [State S R] in
theorem NodeM.run_modifyState_bind_error {g : S → Result Unit × S} {node : RaftNode S}
    {e : ZeroraftError} (h : (g node.state).1 = .error e) (next : Unit → NodeM S β) :
    (NodeM.modifyState g >>= next).run node =
      (.error e, { node with state := (g node.state).2 }) := by
  rw [NodeM.run_bind]
  simp only [NodeM.run, NodeM.modifyState, h]

/-- What a vote request does to the memory, and the vote that it gets. -/
inductive VoteHandled (request : RequestVoteRequest) (responseTx : Sender) (node : RaftNode S)
    (outcome : Result RequestVoteResponse × RaftNode S) : Prop
  | kept (hRecords : ¬ request.Records node) (hMemory : outcome.2.memory = node.memory)
      (hVote : grantedVote request outcome.1 = none)
  | recorded (hRecords : request.Records node)
      (hMemory : outcome.2.memory = (request.term, some request.candidateId))
      (hVote : grantedVote request outcome.1 =
        if ¬ request.Incomplete node ∧ responseTx.closed = false
        then some ⟨request.term, request.candidateId⟩ else none)

theorem respondToRequestVote_handled (request : RequestVoteRequest) (responseTx : Sender)
    (node : RaftNode S) :
    VoteHandled request responseTx node ((respondToRequestVote request responseTx).run node) := by
  simp only [respondToRequestVote, getCurrentTerm, getId, getVotedFor, NodeM.run_read_bind,
    NodeM.run_ite]
  by_cases hVoted : node.currentTerm = request.term ∧ node.votedFor.isSome
  · rw [if_pos hVoted]
    exact .kept (fun h => h.1 (Or.inl hVoted)) (by rw [Sender.run_send_snd])
      (by simp [grantedVote_send])
  by_cases hStale : node.currentTerm > request.term
  · rw [if_neg hVoted, if_pos hStale]
    exact .kept (fun h => h.1 (Or.inr hStale)) (by rw [Sender.run_send_snd])
      (by simp [grantedVote_send])
  have hOpen : ¬ request.Refused node := not_or.mpr ⟨hVoted, hStale⟩
  rw [if_neg hVoted, if_neg hStale]
  simp only [updateCurrentTermAndVotedFor, setCurrentTerm, setVotedFor, changeToFollowerState,
    NodeM.run_bind_assoc]
  rcases hTerm : (State.storeCurrentTerm node.state request.term).1 with e | ⟨⟨⟩⟩
  · rw [NodeM.run_modifyState_bind_error hTerm]
    exact .kept (fun h => by cases hTerm.symm.trans h.2.1) rfl rfl
  rw [NodeM.run_modifyState_bind hTerm, NodeM.run_bind_assoc]
  rcases hVote : (State.storeVotedFor (State.storeCurrentTerm node.state request.term).2
    request.candidateId).1 with e | ⟨⟨⟩⟩
  · rw [NodeM.run_modifyState_bind_error hVote]
    exact .kept (fun h => by cases hVote.symm.trans h.2.2) rfl rfl
  rw [NodeM.run_modifyState_bind hVote]
  simp only [NodeM.run_bind_assoc, NodeM.run_modify_bind, NodeM.run_read_bind, NodeM.run_ite]
  have hRecords : request.Records node := ⟨hOpen, hTerm, hVote⟩
  split
  · rename_i hBehind
    have hIncomplete : request.Incomplete node := hBehind
    exact .recorded hRecords (by rw [Sender.run_send_snd]; rfl)
      (by simp [grantedVote_send, hIncomplete])
  · rename_i hBehind
    have hComplete : ¬ request.Incomplete node := hBehind
    exact .recorded hRecords (by rw [Sender.run_send_snd]; rfl)
      (by simp [grantedVote_send, hComplete])

end Handlers

section Events

/-- `voted_for` is the vote that has been cast in the current term, if one has. -/
def VoteExact (node : RaftNode S) (votes : List Vote) : Prop :=
  ∀ candidate, node.votedFor = some candidate ↔ ⟨node.currentTerm, candidate⟩ ∈ votes

/-- The event does not write the vote without casting it, nor the term under a vote. -/
def Inbound.RecordsExactly (node : RaftNode S) : Inbound R → Prop
  | .requestVote request responseTx =>
    request.Records node → ¬ request.Incomplete node ∧ responseTx.closed = false
  | .appendEntries request _ =>
    request.StoresTerm node → node.currentTerm < request.term → node.votedFor = none
  | .startSession => True

instance (node : RaftNode S) : (event : Inbound R) → Decidable (event.RecordsExactly node)
  | .requestVote _ _ => inferInstanceAs (Decidable (_ → _))
  | .appendEntries _ _ => inferInstanceAs (Decidable (_ → _ → _))
  | .startSession => isTrue trivial

def VotesBounded (node : RaftNode S) (votes : List Vote) : Prop :=
  ∀ vote ∈ votes, vote.term ≤ node.currentTerm

variable {node : RaftNode S} {votes : List Vote}

theorem RequestVoteRequest.Records.term_le {request : RequestVoteRequest}
    (h : request.Records node) : node.currentTerm ≤ request.term :=
  Nat.le_of_not_lt fun hLt => h.1 (Or.inr hLt)

theorem RequestVoteRequest.Records.unused {request : RequestVoteRequest}
    (h : request.Records node) (hExact : VoteExact node votes) (hBounded : VotesBounded node votes)
    (candidate : NodeId) : ⟨request.term, candidate⟩ ∉ votes := by
  intro hMem
  obtain hEq : node.currentTerm = request.term := Nat.le_antisymm h.term_le (hBounded _ hMem)
  have hVoted : node.votedFor = some candidate := (hExact candidate).mpr (hEq ▸ hMem)
  exact h.1 (Or.inl ⟨hEq, by rw [hVoted]; rfl⟩)

omit [State S R] in
theorem voteExact_iff_of_memory {term : Nat} {votedFor : Option NodeId}
    (h : node.memory = (term, votedFor)) :
    VoteExact node votes ↔ ∀ candidate, votedFor = some candidate ↔ ⟨term, candidate⟩ ∈ votes := by
  obtain ⟨rfl, rfl⟩ := Prod.mk.inj h
  exact Iff.rfl

theorem handle_memory (event : Inbound R)
    (hBelow : event = .startSession → node.currentTerm < u64Size - 1) :
    node.currentTerm ≤ (event.handle node).1.currentTerm ∧
      ∀ vote ∈ (event.handle node).2, vote.term ≤ (event.handle node).1.currentTerm := by
  cases event with
  | requestVote request responseTx =>
    cases respondToRequestVote_handled request responseTx node with
    | kept _ hMemory hVote =>
      refine ⟨(congrArg Prod.fst hMemory).ge, fun vote hMem => ?_⟩
      exact nomatch hMem.symm.trans hVote
    | recorded hRecords hMemory hVote =>
      have hTerm := congrArg Prod.fst hMemory
      refine ⟨hRecords.term_le.trans hTerm.ge, fun vote hMem => ?_⟩
      have hGrant := hVote.symm.trans hMem
      obtain ⟨_, hEq⟩ := Option.ite_none_right_eq_some.mp hGrant
      exact (Option.some.inj hEq ▸ hTerm.ge)
  | appendEntries request responseTx =>
    refine ⟨?_, nofun⟩
    have hTerm := congrArg Prod.fst (respondToAppendEntries_memory request responseTx node)
    split at hTerm
    · rename_i hStores
      exact hStores.1.trans hTerm.ge
    · exact hTerm.ge
  | startSession =>
    have hNext : (node.currentTerm + 1) % u64Size = node.currentTerm + 1 :=
      Nat.mod_eq_of_lt (Nat.add_lt_of_lt_sub (hBelow rfl))
    refine ⟨(Nat.le_succ _).trans hNext.ge, fun vote hMem => ?_⟩
    exact (Option.some.inj hMem ▸ Nat.le_refl _)

theorem handle_votesBounded (event : Inbound R)
    (hBelow : event = .startSession → node.currentTerm < u64Size - 1)
    (h : VotesBounded node votes) :
    VotesBounded (event.handle node).1 (votes ++ (event.handle node).2.toList) := by
  obtain ⟨hTerm, hVote⟩ := handle_memory event hBelow
  intro vote hMem
  rcases List.mem_append.mp hMem with hOld | hNew
  · exact (h vote hOld).trans hTerm
  · exact hVote vote (Option.mem_toList.mp hNew)

/-- An event keeps the record exact exactly if it writes the term and the vote together. -/
theorem handle_voteExact_iff (event : Inbound R)
    (hBelow : event = .startSession → node.currentTerm < u64Size - 1)
    (hBounded : VotesBounded node votes) (hExact : VoteExact node votes) :
    VoteExact (event.handle node).1 (votes ++ (event.handle node).2.toList) ↔
      event.RecordsExactly node := by
  cases event with
  | requestVote request responseTx =>
    have hUnused := fun h : request.Records node => h.unused hExact hBounded
    simp only [Inbound.handle, Inbound.RecordsExactly]
    cases respondToRequestVote_handled request responseTx node with
    | kept hRecords hMemory hVote =>
      rw [hVote, Option.toList_none, List.append_nil, voteExact_iff_of_memory hMemory]
      exact ⟨fun _ h => absurd h hRecords, fun _ => hExact⟩
    | recorded hRecords hMemory hVote =>
      rw [hVote, voteExact_iff_of_memory hMemory]
      split
      · rename_i hGranted
        refine ⟨fun _ _ => hGranted, fun _ candidate => ?_⟩
        simp [hUnused hRecords candidate, eq_comm]
      · rename_i hRefused
        refine ⟨fun h => ?_, fun h => absurd (h hRecords) hRefused⟩
        have hMem := (h request.candidateId).mp rfl
        rw [Option.toList_none, List.append_nil] at hMem
        exact absurd hMem (hUnused hRecords _)
  | appendEntries request responseTx =>
    have hMemory := respondToAppendEntries_memory request responseTx node
    simp only [Inbound.handle, Inbound.RecordsExactly, Option.toList_none, List.append_nil]
    by_cases hStores : request.StoresTerm node
    · rw [if_pos hStores] at hMemory
      rw [voteExact_iff_of_memory hMemory]
      rcases hStores.1.lt_or_eq with hLt | hEq
      · have hUnused : ∀ candidate, ⟨request.term, candidate⟩ ∉ votes :=
          fun candidate hMem => absurd (hBounded _ hMem) (Nat.not_le_of_lt hLt)
        refine ⟨fun h _ _ => ?_, fun h candidate => ?_⟩
        · cases hVoted : node.votedFor with
          | none => rfl
          | some candidate => exact absurd ((h candidate).mp hVoted) (hUnused candidate)
        · rw [h hStores hLt]
          exact ⟨by rintro ⟨⟩, fun hMem => absurd hMem (hUnused candidate)⟩
      · rw [← hEq]
        exact ⟨fun _ _ hLt => absurd hLt (Nat.lt_irrefl _), fun _ => hExact⟩
    · rw [if_neg hStores] at hMemory
      rw [voteExact_iff_of_memory hMemory]
      exact ⟨fun _ h => absurd h hStores, fun _ => hExact⟩
  | startSession =>
    have hNext : (node.currentTerm + 1) % u64Size = node.currentTerm + 1 :=
      Nat.mod_eq_of_lt (Nat.add_lt_of_lt_sub (hBelow rfl))
    have hUnused : ∀ candidate, ⟨node.currentTerm + 1, candidate⟩ ∉ votes :=
      fun candidate hMem => absurd (hBounded _ hMem) (Nat.not_succ_le_self _)
    have hMemory : (Inbound.startSession.handle node : RaftNode S × Option Vote).1.memory =
        (node.currentTerm + 1, some node.id) := congrArg (·, some node.id) hNext
    have hVote : (Inbound.startSession.handle node : RaftNode S × Option Vote).2 =
        some ⟨node.currentTerm + 1, node.id⟩ :=
      congrArg (fun term => some (Vote.mk term node.id)) hNext
    rw [voteExact_iff_of_memory hMemory, hVote]
    refine ⟨fun _ => trivial, fun _ candidate => ?_⟩
    simp [hUnused candidate, eq_comm]

theorem handleAll_voteExact_iff (events : List (Inbound R)) (hBelow : SessionsBelowMax node events)
    (hBounded : VotesBounded node votes) (hExact : VoteExact node votes) :
    (∀ handled, handled <+: events →
      VoteExact (handleAll node handled).1 (votes ++ (handleAll node handled).2)) ↔
    ∀ handled event, handled ++ [event] <+: events →
      event.RecordsExactly (handleAll node handled).1 := by
  induction events generalizing node votes with
  | nil =>
    constructor
    · intro _ handled event hPrefix
      simp at hPrefix
    · intro _ handled hPrefix
      rw [List.prefix_nil.mp hPrefix, handleAll_nil, List.append_nil]
      exact hExact
  | cons event rest ih =>
    have hStep := handle_voteExact_iff event hBelow.head hBounded hExact
    have hRest := fun h => ih hBelow.tail (handle_votesBounded event hBelow.head hBounded) h
    constructor
    · intro h handled next hPrefix
      have hAfter : ∀ handled, handled <+: rest → VoteExact
          (handleAll (event.handle node).1 handled).1
          (votes ++ (event.handle node).2.toList ++ (handleAll (event.handle node).1 handled).2) :=
        fun handled hHandled => by
          have hCons := h (event :: handled) (List.cons_prefix_cons.mpr ⟨rfl, hHandled⟩)
          rwa [handleAll_cons, ← List.append_assoc] at hCons
      have hNext : VoteExact (event.handle node).1 (votes ++ (event.handle node).2.toList) := by
        simpa using hAfter [] List.nil_prefix
      cases handled with
      | nil =>
        obtain ⟨rfl, _⟩ := List.cons_prefix_cons.mp hPrefix
        exact hStep.mp hNext
      | cons first handled =>
        obtain ⟨rfl, hHandled⟩ := List.cons_prefix_cons.mp hPrefix
        exact (hRest hNext).mp hAfter handled next hHandled
    · intro h handled hPrefix
      have hNext := hStep.mpr (h [] event (List.cons_prefix_cons.mpr ⟨rfl, List.nil_prefix⟩))
      cases handled with
      | nil =>
        rw [handleAll_nil, List.append_nil]
        exact hExact
      | cons first handled =>
        obtain ⟨rfl, hHandled⟩ := List.cons_prefix_cons.mp hPrefix
        have hLater := (hRest hNext).mpr (fun handled next hNextPrefix =>
          h (first :: handled) next (List.cons_prefix_cons.mpr ⟨rfl, hNextPrefix⟩)) handled hHandled
        rwa [handleAll_cons, ← List.append_assoc]

theorem build_voteExact {builder : RaftNodeBuilder S} (hBuild : builder.build = .ok node) :
    VoteExact node (persistedVote builder.state).toList ∧
      VotesBounded node (persistedVote builder.state).toList := by
  have hMemory : node.memory =
      (State.loadCurrentTerm builder.state, State.loadVotedFor builder.state) := by
    unfold RaftNodeBuilder.build at hBuild
    dsimp only at hBuild
    split at hBuild <;> cases hBuild
    rfl
  have hTerm : node.currentTerm = State.loadCurrentTerm builder.state := congrArg Prod.fst hMemory
  unfold persistedVote
  rw [voteExact_iff_of_memory hMemory]
  cases State.loadVotedFor builder.state with
  | none => exact ⟨fun _ => ⟨nofun, nofun⟩, nofun⟩
  | some candidate =>
    refine ⟨fun other => by simp [eq_comm], fun vote hVote => ?_⟩
    rw [List.mem_singleton.mp hVote]
    exact hTerm.ge

/-- From a persisted state on, the record stays exact exactly as long as every event
writes the term and the vote together. -/
theorem voteRecord_exact_iff (builder : RaftNodeBuilder S) (node : RaftNode S)
    (hBuild : builder.build = .ok node) (events : List (Inbound R))
    (hBelow : SessionsBelowMax node events) :
    (∀ handled, handled <+: events → VoteExact (handleAll node handled).1
      ((persistedVote builder.state).toList ++ (handleAll node handled).2)) ↔
    ∀ handled event, handled ++ [event] <+: events →
      event.RecordsExactly (handleAll node handled).1 := by
  obtain ⟨hExact, hBounded⟩ := build_voteExact hBuild
  exact handleAll_voteExact_iff events hBelow hBounded hExact

end Events

/-- A node that voted in term 3 keeps that vote when a leader brings term 5, and a vote
for a candidate whose log is behind is recorded although it is refused. -/
theorem voteRecord_stale : votedBuilder.build = .ok votedNode ∧
    (∀ event ∈ [Inbound.appendEntries ⟨5, 3, 0, 0, 0, []⟩ ⟨3, 0, false⟩,
        Inbound.requestVote ⟨5, 3, 0, 0⟩ ⟨3, 0, false⟩],
      ¬ VoteExact (handleAll votedNode [event]).1
        ((persistedVote votedBuilder.state).toList ++ (handleAll votedNode [event]).2)) := by
  refine ⟨rfl, fun event hEvent hExact => ?_⟩
  rcases List.mem_pair.mp hEvent with rfl | rfl
  · exact absurd ((hExact 2).mp rfl) (by decide)
  · exact absurd ((hExact 3).mp rfl) (by decide)

theorem voteRecord_exact_voted :
    VoteExact (handleAll votedNode votedEvents).1 [⟨3, 2⟩, ⟨5, 3⟩, ⟨6, 1⟩] := by
  have hInits : ∀ handled ∈ votedEvents.inits,
      (handleAll votedNode handled).1.currentTerm < u64Size - 1 ∧
      ∀ event ∈ handled.getLast?, event.RecordsExactly (handleAll votedNode handled.dropLast).1 := by
    decide
  refine (voteRecord_exact_iff votedBuilder votedNode rfl votedEvents ?_).mpr ?_ votedEvents
    List.prefix_rfl
  · exact .of_inits fun handled hMem => (hInits handled hMem).1
  · intro handled event hPrefix
    have hLast := (hInits _ ((List.mem_inits _ _).mpr hPrefix)).2 event (by simp)
    rwa [List.dropLast_concat] at hLast

end Zeroraft
