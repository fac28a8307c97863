import Zeroraft.Properties.Leadership
import Zeroraft.Properties.VoteOnce

/-!
# Votes across a crash

A crash leaves what is persisted. A vote is covered by it if the node that is
rebuilt from it cannot vote in that term again. Grants are persisted before the
response is sent; a vote of a node for itself is not persisted at all.
-/

namespace Zeroraft

open Routine

variable {S R : Type} [State S R]

/-- The states persisted at a crash between two events or during one. Starting
a vote session persists nothing. -/
inductive CrashPoint (node : RaftNode S) : S → Prop
  | idle : CrashPoint node node.state
  | requestVote (request : RequestVoteRequest) (responseTx : Sender) {node' : RaftNode S}
      (h : Visits (RequestVotePc.step node.id request responseTx) .loadTerm node node') :
      CrashPoint node node'.state
  | appendEntries (request : AppendEntriesRequest R) (responseTx : Sender) {node' : RaftNode S}
      (h : Visits (AppendEntriesPc.step node.id request responseTx) .loadTerm node node') :
      CrashPoint node node'.state

/-- The votes that node `id` casts after it has been rebuilt from `state`, with
any number of further crashes. -/
inductive Aftermath (id : NodeId) : S → List Vote → Prop
  | run {state : S} {seeds : MembershipMap} {node : RaftNode S} {events : List (Inbound R)}
      (hBuild : RaftNodeBuilder.build ⟨id, state, seeds⟩ = .ok node)
      (hBelow : SessionsBelowMax node events) : Aftermath id state (handleAll node events).2
  | crash {state state' : S} {seeds : MembershipMap} {node : RaftNode S}
      {events : List (Inbound R)} {votes : List Vote}
      (hBuild : RaftNodeBuilder.build ⟨id, state, seeds⟩ = .ok node)
      (hBelow : SessionsBelowMax node events) (hCrash : CrashPoint (handleAll node events).1 state')
      (hRest : Aftermath id state' votes) :
      Aftermath id state ((handleAll node events).2 ++ votes)

/-- No vote for another candidate is cast later in the term of one of the votes. -/
def VotesDurable (id : NodeId) (votes : List Vote) (state : S) : Prop :=
  ∀ later, Aftermath id state later →
    ∀ vote ∈ votes, ∀ vote' ∈ later, vote'.term = vote.term → vote'.candidate = vote.candidate

/-- The persisted term is past the vote's term, or it is that term and some vote
is persisted. -/
def Stored.Covers (s : Stored R) (vote : Vote) : Prop :=
  vote.term < s.currentTerm ∨ (vote.term = s.currentTerm ∧ s.votedFor.isSome)

/-- The order in which the persisted term and vote develop. -/
def DiskLe (s s' : Stored R) : Prop :=
  s.currentTerm ≤ s'.currentTerm ∧ (s.votedFor.isSome → s'.votedFor.isSome)

def Synced (node : RaftNode S) : Prop :=
  (stored node.state).currentTerm ≤ node.currentTerm ∧
    ((stored node.state).votedFor.isSome → node.votedFor.isSome)

theorem DiskLe.refl (s : Stored R) : DiskLe s s := ⟨Nat.le_refl _, id⟩

theorem DiskLe.trans {s s' s'' : Stored R} (h : DiskLe s s') (h' : DiskLe s' s'') : DiskLe s s'' :=
  ⟨h.1.trans h'.1, h'.2 ∘ h.2⟩

theorem Stored.Covers.mono {s s' : Stored R} (hLe : DiskLe s s') {vote : Vote}
    (h : s.Covers vote) : s'.Covers vote := by
  rcases h with hLt | ⟨hEq, hSome⟩
  · exact Or.inl (hLt.trans_le hLe.1)
  · rcases Nat.lt_or_eq_of_le hLe.1 with hLt | hTerm
    · exact Or.inl (hEq ▸ hLt)
    · exact Or.inr ⟨hEq.trans hTerm, hLe.2 hSome⟩

theorem Stored.Covers.not_free {s : Stored R} {vote : Vote} (h : s.Covers vote)
    {b : Ballot NodeId} (hMarked : b.marked ↔ s.votedFor.isSome) (hTerm : b.term = s.currentTerm) :
    ¬ b.Free vote.term := by
  rintro (hLt | ⟨hEq, hNot⟩)
  · rcases h with h | ⟨h, _⟩ <;> omega
  · rcases h with h | ⟨_, h⟩
    · omega
    · exact hNot (hMarked.mpr h)

section Disk

variable [LawfulState S R]

theorem handle_synced (node : RaftNode S) (event : Inbound R)
    (hBelow : event = .startSession → node.currentTerm < u64Size - 1) (h : Synced node) :
    Synced (event.handle node).1 ∧
      DiskLe (stored node.state) (stored (event.handle node).1.state) := by
  cases event with
  | requestVote request responseTx =>
    simp only [Inbound.handle, respondToRequestVote_node]
    split
    · exact ⟨h, DiskLe.refl _⟩
    · rename_i hRefused
      have hLe := Nat.le_of_not_lt (not_or.mp hRefused).2
      simp only [Synced, DiskLe, RequestVoteRequest.stored_record]
      exact ⟨⟨Nat.le_refl _, fun _ => rfl⟩, h.1.trans hLe, fun _ => rfl⟩
  | appendEntries request responseTx =>
    simp only [Inbound.handle, respondToAppendEntries_node]
    split
    · exact ⟨h, DiskLe.refl _⟩
    rename_i hStale
    have hLe := Nat.le_of_not_lt hStale
    split
    · simp only [Synced, DiskLe, AppendEntriesRequest.stored_follow]
      exact ⟨⟨Nat.le_refl _, h.2⟩, h.1.trans hLe, id⟩
    · simp only [Synced, DiskLe, AppendEntriesRequest.stored_store]
      exact ⟨⟨Nat.le_refl _, h.2⟩, h.1.trans hLe, id⟩
  | startSession =>
    have hNext : (node.currentTerm + 1) % u64Size = node.currentTerm + 1 :=
      Nat.mod_eq_of_lt (Nat.add_lt_of_lt_sub (hBelow rfl))
    simp only [Inbound.handle, run_initializeVoteSession, Synced, hNext]
    exact ⟨⟨h.1.trans (Nat.le_succ _), fun _ => rfl⟩, DiskLe.refl _⟩

theorem handleAll_synced (node : RaftNode S) (events : List (Inbound R))
    (hBelow : SessionsBelowMax node events) (h : Synced node) :
    Synced (handleAll node events).1 ∧
      DiskLe (stored node.state) (stored (handleAll node events).1.state) := by
  induction events generalizing node with
  | nil => exact ⟨h, DiskLe.refl _⟩
  | cons event rest ih =>
    obtain ⟨hSynced, hLe⟩ := handle_synced node event hBelow.head h
    obtain ⟨hLast, hRest⟩ := ih _ hBelow.tail hSynced
    exact ⟨hLast, hLe.trans hRest⟩

end Disk

/-- What is persisted at each point of `respondToRequestVote`. -/
def RequestVotePc.DiskAt (request : RequestVoteRequest) (node : RaftNode S) :
    RequestVotePc → RaftNode S → Prop
  | .loadTerm, node' => node' = node
  | .readVotedFor ourTerm, node' =>
    node' = node ∧ ourTerm = request.term ∧ node.currentTerm = ourTerm
  | .storeCurrentTerm _, node' => node' = node ∧ node.currentTerm ≤ request.term
  | _, node' => DiskLe (stored node.state) (stored node'.state)

/-- What is persisted at each point of `respondToAppendEntries`. -/
def AppendEntriesPc.DiskAt (request : AppendEntriesRequest R) (node : RaftNode S) :
    AppendEntriesPc → RaftNode S → Prop
  | .loadTerm, node' => node' = node
  | .readLastIndex ourTerm, node' => node' = node ∧ node.currentTerm = ourTerm
  | .storeCurrentTerm _ _, node' => node' = node ∧ node.currentTerm ≤ request.term
  | _, node' => DiskLe (stored node.state) (stored node'.state)

theorem RequestVotePc.DiskAt.diskLe {request : RequestVoteRequest} {node node' : RaftNode S}
    {pc : RequestVotePc} (h : pc.DiskAt request node node') :
    DiskLe (stored node.state) (stored node'.state) := by
  cases pc with
  | loadTerm => exact h ▸ DiskLe.refl _
  | readVotedFor _ | storeCurrentTerm _ => exact h.1 ▸ DiskLe.refl _
  | _ => exact h

theorem AppendEntriesPc.DiskAt.diskLe {request : AppendEntriesRequest R} {node node' : RaftNode S}
    {pc : AppendEntriesPc} (h : pc.DiskAt request node node') :
    DiskLe (stored node.state) (stored node'.state) := by
  cases pc with
  | loadTerm => exact h ▸ DiskLe.refl _
  | readLastIndex _ | storeCurrentTerm _ _ => exact h.1 ▸ DiskLe.refl _
  | _ => exact h

section Disk

variable [LawfulState S R]

theorem RequestVotePc.diskAt_step {request : RequestVoteRequest} {responseTx : Sender}
    {node node' : RaftNode S} (hSynced : Synced node) {pc : RequestVotePc}
    (h : pc.DiskAt request node node') :
    DiskLe (stored node.state) (stored (pc.step node.id request responseTx node').2.state) ∧
    ∀ pc', (pc.step node.id request responseTx node').1 = .next pc' →
      pc'.DiskAt request node (pc.step node.id request responseTx node').2 := by
  cases pc with
  | loadTerm =>
    obtain rfl : node' = node := h
    simp only [RequestVotePc.step]
    split_ifs with hEq hStale
    · exact ⟨DiskLe.refl _, by rintro _ ⟨⟩; exact ⟨rfl, hEq, rfl⟩⟩
    · exact ⟨DiskLe.refl _, by rintro _ ⟨⟩; exact DiskLe.refl _⟩
    · exact ⟨DiskLe.refl _, by rintro _ ⟨⟩; exact ⟨rfl, Nat.le_of_not_lt hStale⟩⟩
  | readVotedFor ourTerm =>
    obtain ⟨rfl, hEq, hTerm⟩ := h
    simp only [RequestVotePc.step]
    split_ifs
    · exact ⟨DiskLe.refl _, by rintro _ ⟨⟩; exact DiskLe.refl _⟩
    · exact ⟨DiskLe.refl _, by rintro _ ⟨⟩; exact ⟨rfl, Nat.le_of_eq (hTerm.trans hEq)⟩⟩
  | storeCurrentTerm ourTerm =>
    obtain ⟨rfl, hLe⟩ := h
    have hDisk : DiskLe (stored node'.state)
        { stored node'.state with currentTerm := request.term } := ⟨hSynced.1.trans hLe, id⟩
    simp only [RequestVotePc.step, atomically_storeCurrentTerm,
      LawfulState.stored_storeCurrentTerm]
    exact ⟨hDisk, by rintro _ ⟨⟩; simpa only [RequestVotePc.DiskAt,
      LawfulState.stored_storeCurrentTerm] using hDisk⟩
  | storeVotedFor ourTerm =>
    have hDisk : DiskLe (stored node.state)
        { stored node'.state with votedFor := some request.candidateId } := ⟨h.1, fun _ => rfl⟩
    simp only [RequestVotePc.step, atomically_storeVotedFor, LawfulState.stored_storeVotedFor]
    exact ⟨hDisk, by rintro _ ⟨⟩; simpa only [RequestVotePc.DiskAt,
      LawfulState.stored_storeVotedFor] using hDisk⟩
  | setCurrentTerm _ | setVotedFor _ | becomeFollower _ | readLastIndex _ =>
    exact ⟨h, by rintro _ ⟨⟩; exact h⟩
  | readLastTerm _ _ =>
    simp only [RequestVotePc.step]
    split <;> exact ⟨h, by rintro _ ⟨⟩; exact h⟩
  | send _ =>
    rw [RequestVotePc.step, atomically_send]
    split <;> exact ⟨h, fun _ hNext => by cases hNext⟩

theorem AppendEntriesPc.diskAt_step {request : AppendEntriesRequest R} {responseTx : Sender}
    {node node' : RaftNode S} (hSynced : Synced node) {pc : AppendEntriesPc}
    (h : pc.DiskAt request node node') :
    DiskLe (stored node.state) (stored (pc.step node.id request responseTx node').2.state) ∧
    ∀ pc', (pc.step node.id request responseTx node').1 = .next pc' →
      pc'.DiskAt request node (pc.step node.id request responseTx node').2 := by
  cases pc with
  | loadTerm =>
    obtain rfl : node' = node := h
    exact ⟨DiskLe.refl _, by rintro _ ⟨⟩; exact ⟨rfl, rfl⟩⟩
  | readLastIndex ourTerm =>
    obtain ⟨rfl, hTerm⟩ := h
    simp only [AppendEntriesPc.step]
    split_ifs with hStale
    · exact ⟨DiskLe.refl _, by rintro _ ⟨⟩; exact DiskLe.refl _⟩
    · exact ⟨DiskLe.refl _, by rintro _ ⟨⟩; exact ⟨rfl, by omega⟩⟩
  | storeCurrentTerm _ _ =>
    obtain ⟨rfl, hLe⟩ := h
    have hDisk : DiskLe (stored node'.state)
        { stored node'.state with currentTerm := request.term } := ⟨hSynced.1.trans hLe, id⟩
    simp only [AppendEntriesPc.step, atomically_storeCurrentTerm,
      LawfulState.stored_storeCurrentTerm]
    exact ⟨hDisk, by rintro _ ⟨⟩; simpa only [AppendEntriesPc.DiskAt,
      LawfulState.stored_storeCurrentTerm] using hDisk⟩
  | setCurrentTerm _ _ | setLeaderId _ _ | readNewLastIndex _ =>
    exact ⟨h, by rintro _ ⟨⟩; exact h⟩
  | becomeFollower _ _ =>
    refine ⟨h, ?_⟩
    rintro _ ⟨⟩
    split <;> exact h
  | readEntry _ =>
    simp only [AppendEntriesPc.step]
    split <;> exact ⟨h, by rintro _ ⟨⟩; exact h⟩
  | removeEntries _ | appendEntries _ | setCommit _ _ =>
    simp only [AppendEntriesPc.step, atomically_removeEntriesAfter, atomically_appendEntries,
      atomically_setLastCommitIndex, LawfulState.stored_removeEntriesAfter,
      LawfulState.stored_appendEntries, LawfulState.stored_setLastCommitIndex]
    refine ⟨h, ?_⟩
    rintro _ ⟨⟩
    simpa [AppendEntriesPc.DiskAt, DiskLe] using h
  | send _ =>
    rw [AppendEntriesPc.step, atomically_send]
    split <;> exact ⟨h, fun _ hNext => by cases hNext⟩

/-- A crash at any point leaves the persisted term and vote of before, or later ones. -/
theorem CrashPoint.diskLe {node : RaftNode S} {state : S} (hSynced : Synced node)
    (h : CrashPoint node state) : DiskLe (stored node.state) (stored state) := by
  cases h with
  | idle => exact DiskLe.refl _
  | requestVote request responseTx hVisits =>
    exact hVisits.of_assertions (RequestVotePc.DiskAt request node)
      (fun node' => DiskLe (stored node.state) (stored node'.state)) rfl
      (fun _ _ pc' hAt => (RequestVotePc.diskAt_step hSynced hAt).2 pc')
      (fun _ _ hAt => hAt.diskLe) (fun _ _ hAt => (RequestVotePc.diskAt_step hSynced hAt).1)
  | appendEntries request responseTx hVisits =>
    exact hVisits.of_assertions (AppendEntriesPc.DiskAt request node)
      (fun node' => DiskLe (stored node.state) (stored node'.state)) rfl
      (fun _ _ pc' hAt => (AppendEntriesPc.diskAt_step hSynced hAt).2 pc')
      (fun _ _ hAt => hAt.diskLe) (fun _ _ hAt => (AppendEntriesPc.diskAt_step hSynced hAt).1)

theorem synced_of_build {builder : RaftNodeBuilder S} {node : RaftNode S}
    (hBuild : builder.build = .ok node) :
    Synced node ∧ DiskLe (stored builder.state) (stored node.state) ∧
      node.currentTerm = (stored builder.state).currentTerm ∧
      node.votedFor = (stored builder.state).votedFor := by
  obtain ⟨built, hBuilt, _, hTerm, hVoted, _, hStored⟩ := builder.build_spec
  obtain rfl : built = node := Except.ok.inj (hBuilt.symm.trans hBuild)
  simp only [Synced, DiskLe, hStored, hTerm, hVoted]
  exact ⟨⟨Nat.le_refl _, id⟩, ⟨Nat.le_refl _, id⟩, trivial, trivial⟩

theorem Aftermath.term_ne {id : NodeId} {state : S} {later : List Vote}
    (h : Aftermath id state later) {vote : Vote} (hCovers : (stored state).Covers vote) :
    ∀ vote' ∈ later, vote'.term ≠ vote.term := by
  -- The votes between a restart and the next crash were free at the restart.
  have hSegment : ∀ {state : S} {seeds : MembershipMap} {node : RaftNode S}
      {events : List (Inbound R)}, RaftNodeBuilder.build ⟨id, state, seeds⟩ = .ok node →
      SessionsBelowMax node events → (stored state).Covers vote →
      ∀ vote' ∈ (handleAll node events).2, vote'.term ≠ vote.term := by
    intro state seeds node events hBuild hBelow hCovers vote' hMem hEq
    obtain ⟨_, _, hTerm, hVoted⟩ := synced_of_build hBuild
    have hSteps := handleAll_ballotSteps node events [] hBelow
    have hCast : vote'.cast ∈ (ballot (handleAll node events).1 ([] ++ (handleAll node events).2)).cast :=
      List.mem_map_of_mem hMem
    rcases hSteps.free_of_mem hCast with hOld | hFree
    · cases hOld
    · have hMarked : (ballot node []).marked ↔ (stored state).votedFor.isSome := by
        rw [ballot, hVoted]
      have hFreeTerm : (ballot node []).Free vote.term := by
        rw [← hEq]
        exact hFree
      exact hCovers.not_free hMarked hTerm hFreeTerm
  induction h with
  | run hBuild hBelow => exact hSegment hBuild hBelow hCovers
  | crash hBuild hBelow hCrash _ ih =>
    obtain ⟨hSynced, hBuiltLe, _, _⟩ := synced_of_build hBuild
    obtain ⟨hLastSynced, hRunLe⟩ := handleAll_synced _ _ hBelow hSynced
    have hLe := (hBuiltLe.trans hRunLe).trans (hCrash.diskLe hLastSynced)
    intro vote' hMem
    rcases List.mem_append.mp hMem with hOld | hNew
    · exact hSegment hBuild hBelow hCovers vote' hOld
    · exact ih (hCovers.mono hLe) vote' hNew

/-- The request of a candidate with the voter's own log. -/
def rivalRequest (vote : Vote) (s : Stored R) : RequestVoteRequest where
  term := vote.term
  candidateId := vote.candidate + 1
  lastLogIndex := s.log.length
  lastLogTerm := s.lastTerm

/-- A vote that is not covered can be given to a rival after a restart. -/
theorem covers_of_votesDurable {id : NodeId} {votes : List Vote} {state : S}
    (h : VotesDurable id votes state) {vote : Vote} (hMem : vote ∈ votes) :
    (stored state).Covers vote := by
  by_contra hCovers
  obtain ⟨hLt, hEq⟩ := not_or.mp hCovers
  obtain ⟨node, hBuild, _, hTerm, hVoted, _, hStored⟩ :=
    RaftNodeBuilder.build_spec ⟨id, state, MembershipMap.empty⟩
  dsimp only at hTerm hVoted hStored
  have hLe : node.currentTerm ≤ vote.term := hTerm ▸ Nat.le_of_not_lt hLt
  let request := rivalRequest vote (stored state)
  have hRefused : ¬ request.Refused node := by
    rintro (⟨hSame, hSome⟩ | hStale)
    · exact hEq ⟨hSame.symm.trans hTerm, hVoted ▸ hSome⟩
    · exact absurd hStale (Nat.not_lt.mpr hLe)
  have hBehind : ¬ request.Behind (stored node.state) := by
    have hTermEq : (stored node.state).lastTerm = (stored state).lastTerm := by
      rw [hStored]; rfl
    have hLog : (stored node.state).log = (stored state).log := by rw [hStored]
    simp [RequestVoteRequest.Behind, IncompleteLog, request, rivalRequest, hTermEq, hLog]
  have hRun : (respondToRequestVote request ⟨0, 0, false⟩).run node =
      (.ok ⟨node.currentTerm, true, node.id, .ok⟩, request.record node) := by
    rw [respondToRequestVote_eq, if_neg (not_or.mp hRefused).1, if_neg (not_or.mp hRefused).2,
      if_neg hBehind]
    rfl
  have hHandle : (Inbound.requestVote request ⟨0, 0, false⟩).handle node =
      (request.record node, some ⟨vote.term, vote.candidate + 1⟩) := by
    simp only [Inbound.handle, hRun]
    rfl
  have hVotes : (handleAll node [Inbound.requestVote request ⟨0, 0, false⟩]).2 =
      [⟨vote.term, vote.candidate + 1⟩] := by
    rw [handleAll_cons, hHandle]
    rfl
  have hRunBelow : SessionsBelowMax node [Inbound.requestVote request ⟨0, 0, false⟩] :=
    .of_not_mem (by simp)
  have hSame := h _ (Aftermath.run hBuild hRunBelow) vote hMem ⟨vote.term, vote.candidate + 1⟩
    (hVotes ▸ List.mem_singleton_self _) rfl
  exact Nat.succ_ne_self _ hSame

/-- The vote for itself with which a node starts a session after `handled`. -/
def sessionVote (node : RaftNode S) (handled : List (Inbound R)) : Vote where
  term := (handleAll node (handled ++ [.startSession])).1.currentTerm
  candidate := (handleAll node (handled ++ [.startSession])).1.id

omit [LawfulState S R] in
theorem sessionVote_mem {node : RaftNode S} {handled events : List (Inbound R)}
    (h : handled ++ [.startSession] <+: events) :
    sessionVote node handled ∈ (handleAll node events).2 := by
  obtain ⟨rest, rfl⟩ := h
  rw [handleAll_append, List.mem_append]
  left
  rw [sessionVote, handleAll_append, handleAll_cons, List.mem_append]
  exact Or.inr List.mem_cons_self

/-- The votes for other nodes are covered by what is persisted from then on. -/
theorem session_or_covers (node : RaftNode S) (events : List (Inbound R))
    (hBelow : SessionsBelowMax node events) (hSynced : Synced node) {vote : Vote}
    (hMem : vote ∈ (handleAll node events).2) :
    (∃ handled, handled ++ [.startSession] <+: events ∧ vote = sessionVote node handled) ∨
      (stored (handleAll node events).1.state).Covers vote := by
  induction events generalizing node with
  | nil => cases hMem
  | cons event rest ih =>
    obtain ⟨hNextSynced, _⟩ := handle_synced node event hBelow.head hSynced
    rw [handleAll_cons] at hMem ⊢
    rcases List.mem_append.mp hMem with hNow | hLater
    · cases event with
      | requestVote request responseTx =>
        right
        obtain ⟨hRefused, rfl⟩ := grantedVote_eq_some (Option.mem_toList.mp hNow)
        have hLe := (handleAll_synced _ rest hBelow.tail hNextSynced).2
        refine Stored.Covers.mono hLe (Or.inr ?_)
        simp only [Inbound.handle, respondToRequestVote_node, if_neg hRefused,
          RequestVoteRequest.stored_record]
        exact ⟨trivial, rfl⟩
      | appendEntries request responseTx => cases hNow
      | startSession =>
        left
        refine ⟨[], List.cons_prefix_cons.mpr ⟨rfl, List.nil_prefix⟩, ?_⟩
        exact List.mem_singleton.mp hNow
    · rcases ih _ hBelow.tail hNextSynced hLater with ⟨handled, hPrefix, hVote⟩ | hCovers
      · exact Or.inl ⟨event :: handled, List.cons_prefix_cons.mpr ⟨rfl, hPrefix⟩, hVote⟩
      · exact Or.inr hCovers

theorem votesDurable_iff (builder : RaftNodeBuilder S) (node : RaftNode S)
    (hBuild : builder.build = .ok node) (events : List (Inbound R))
    (hBelow : SessionsBelowMax node events) (state : S)
    (hCrash : CrashPoint (handleAll node events).1 state) :
    VotesDurable node.id (handleAll node events).2 state ↔
      ∀ handled, handled ++ [.startSession] <+: events →
        (stored state).Covers (sessionVote node handled) := by
  obtain ⟨hLastSynced, _⟩ := handleAll_synced node events hBelow (synced_of_build hBuild).1
  constructor
  · exact fun hDurable handled hPrefix =>
      covers_of_votesDurable hDurable (sessionVote_mem hPrefix)
  · intro hSessions later hLater vote hMem vote' hMem' hEq
    have hCovers : (stored state).Covers vote := by
      rcases session_or_covers node events hBelow (synced_of_build hBuild).1 hMem with
        ⟨handled, hPrefix, rfl⟩ | hCovers
      · exact hSessions handled hPrefix
      · exact hCovers.mono (hCrash.diskLe hLastSynced)
    exact absurd hEq (hLater.term_ne hCovers vote' hMem')

end Disk

/-- The voted node starts a session in term 4 and hears of term 5. -/
def followedEvents : List (Inbound Unit) :=
  [.startSession, .appendEntries ⟨5, 2, 0, 0, 0, []⟩ ⟨2, 0, false⟩]

theorem votesDurable_followed :
    VotesDurable 1 (handleAll votedNode followedEvents).2
      (handleAll votedNode followedEvents).1.state := by
  refine (votesDurable_iff votedBuilder votedNode rfl followedEvents ?_ _ CrashPoint.idle).mpr ?_
  · exact .of_inits (by decide)
  · intro handled hPrefix
    have hNil : handled = [] := by
      rcases handled with _ | ⟨_, _ | ⟨_, _⟩⟩
      · rfl
      · simp [followedEvents] at hPrefix
      · simp [followedEvents] at hPrefix
    subst hNil
    exact Or.inl (by decide)

def freshBuilder : RaftNodeBuilder (Stored Unit) where
  id := 1
  state := ⟨[], 0, ⟨[1, 2, 3], nodup_triple⟩, none, 0⟩
  seeds := .empty

def freshNode : RaftNode (Stored Unit) where
  id := 1
  currentTerm := 0
  votedFor := none
  state := freshBuilder.state
  currentState := .follower
  leaderId := none

/-- The election timeout elapses, and node 1 asks both of its peers. -/
def campaignedActions : List (Action Unit) :=
  [candidateActions, List.replicate 3 (.task 1), List.replicate 3 (.task 2)].flatten

def campaignRpcs : List (OutRpc Unit) :=
  [⟨2, .requestVote ⟨1, 1, 0, 0⟩, 1⟩, ⟨3, .requestVote ⟨1, 1, 0, 0⟩, 2⟩]

/-- A new node votes for itself in term 1, crashes and votes for node 2 in term 1. When it has
asked its peers for their votes nothing is persisted either. -/
theorem selfVote_not_durable :
    freshBuilder.build = .ok freshNode ∧
    (∃ m : Machine (Stored Unit) Unit, Machine.Runs (fun _ _ => True) { node := freshNode } m ∧
      m.outRpc = campaignRpcs ∧ m.node.currentTerm = 1 ∧ m.node.votedFor = some 1 ∧
      m.node.state.currentTerm = 0 ∧ m.node.state.votedFor = none) ∧
    ¬ ∀ (events : List (Inbound Unit)) (state : Stored Unit),
      CrashPoint (handleAll freshNode events).1 state →
        VotesDurable 1 (handleAll freshNode events).2 state := by
  refine ⟨rfl, ?_, fun h => ?_⟩
  · obtain ⟨m, hRuns, hAsked⟩ := Machine.exists_of_run
      (show (Machine.run (fun _ _ => True) { node := freshNode } campaignedActions).map
        (fun m => decide (m.outRpc = campaignRpcs ∧ m.node.currentTerm = 1 ∧
          m.node.votedFor = some 1 ∧ m.node.state.currentTerm = 0 ∧
          m.node.state.votedFor = none)) = some true by decide)
    exact ⟨m, hRuns, of_decide_eq_true hAsked⟩
  · have hBelow : SessionsBelowMax freshNode [.requestVote ⟨1, 2, 0, 0⟩ ⟨2, 0, false⟩] :=
      .of_not_mem (by simp)
    have hLater : Aftermath 1 freshBuilder.state
        (handleAll freshNode [.requestVote ⟨1, 2, 0, 0⟩ ⟨2, 0, false⟩]).2 :=
      @Aftermath.run _ _ _ 1 _ .empty _ _ rfl hBelow
    exact absurd (h [.startSession] _ CrashPoint.idle _ hLater ⟨1, 1⟩ (by decide) ⟨1, 2⟩
      (by decide) rfl) (by decide)

end Zeroraft
