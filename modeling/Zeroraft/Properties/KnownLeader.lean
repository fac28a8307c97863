import Zeroraft.Properties.VoteRecord
import Zeroraft.Runtime.MainLoop

/-!
# Is the known leader the leader of the current term?

Only an accepted append request sets `leader_id`, and it sets the term with it. A vote
for another candidate and the start of a vote session set the term alone.
-/

namespace Zeroraft

variable {S R : Type} [State S R]

section Handlers

theorem respondToRequestVote_leaderId (request : RequestVoteRequest) (responseTx : Sender)
    (node : RaftNode S) :
    ((respondToRequestVote request responseTx).run node).2.leaderId = node.leaderId := by
  refine NodeM.Keeps.run_eq (f := RaftNode.leaderId) ?_ rfl
  refine NodeM.Keeps.bind (NodeM.keeps_read _) fun _ => ?_
  refine NodeM.Keeps.bind (NodeM.keeps_read _) fun _ => ?_
  refine NodeM.Keeps.bind (NodeM.keeps_read _) fun _ => ?_
  refine NodeM.Keeps.ite (Sender.keeps_send _ _) (NodeM.Keeps.ite (Sender.keeps_send _ _) ?_)
  have hUpdate : (updateCurrentTermAndVotedFor request.term request.candidateId :
      NodeM S Unit).Keeps RaftNode.leaderId := by
    refine NodeM.Keeps.bind (fun _ => rfl) fun _ => ?_
    refine NodeM.Keeps.bind (fun _ => rfl) fun _ => ?_
    exact NodeM.Keeps.bind (fun _ => rfl) fun _ => fun _ => rfl
  refine NodeM.Keeps.bind hUpdate fun _ => NodeM.Keeps.bind (fun _ => rfl) fun _ => ?_
  refine NodeM.Keeps.bind (NodeM.keeps_read _) fun _ => ?_
  refine NodeM.Keeps.bind (NodeM.keeps_read _) fun _ => ?_
  exact NodeM.Keeps.ite (Sender.keeps_send _ _) (Sender.keeps_send _ _)

theorem respondToAppendEntries_leaderId (request : AppendEntriesRequest R) (responseTx : Sender)
    (node : RaftNode S) : ((respondToAppendEntries request responseTx).run node).2.leaderId =
      if request.StoresTerm node then some request.leaderId else node.leaderId := by
  simp only [respondToAppendEntries, getCurrentTerm, getId, NodeM.run_read_bind, NodeM.run_ite]
  by_cases hStale : node.currentTerm > request.term
  · have hKept : ¬ request.StoresTerm node := fun h => absurd h.1 (Nat.not_le_of_lt hStale)
    rw [if_pos hStale, if_neg hKept, Sender.run_send_snd]
  rw [if_neg hStale]
  simp only [updateCurrentTerm, setCurrentTerm, updateLeaderId, NodeM.run_bind_assoc]
  rcases hTerm : (State.storeCurrentTerm node.state request.term).1 with e | ⟨⟨⟩⟩
  · have hKept : ¬ request.StoresTerm node := fun h => by cases hTerm.symm.trans h.2
    rw [NodeM.run_modifyState_bind_error hTerm, if_neg hKept]
  · have hStores : request.StoresTerm node := ⟨Nat.le_of_not_lt hStale, hTerm⟩
    rw [NodeM.run_modifyState_bind hTerm, if_pos hStores]
    simp only [NodeM.run_modify_bind]
    refine NodeM.Keeps.run_eq (f := RaftNode.leaderId) ?_ rfl
    refine NodeM.Keeps.bind (fun _ => rfl) fun _ => NodeM.Keeps.ite (Sender.keeps_send _ _) ?_
    refine NodeM.Keeps.bind (NodeM.keeps_read _) fun _ => NodeM.Keeps.ite (Sender.keeps_send _ _) ?_
    refine NodeM.Keeps.bind (fun _ => rfl) fun _ => NodeM.Keeps.bind (fun _ => rfl) fun _ => ?_
    refine NodeM.Keeps.bind (NodeM.keeps_read _) fun _ => ?_
    exact NodeM.Keeps.bind (fun _ => rfl) fun _ => Sender.keeps_send _ _

end Handlers

section Recognitions

/-- The sender of an append request and the term in which the node accepted it. -/
structure Recognition where
  leader : NodeId
  term : Nat
  deriving DecidableEq

/-- What the node accepts while it handles an event: the request is not stale, and its term
is stored. -/
def Inbound.recognition (node : RaftNode S) : Inbound R → Option Recognition
  | .appendEntries request _ =>
    if request.StoresTerm node then some ⟨request.leaderId, request.term⟩ else none
  | .requestVote _ _ | .startSession => none

/-- What the node has accepted in a sequence of events, oldest first. -/
def recognitions (node : RaftNode S) : List (Inbound R) → List Recognition
  | [] => []
  | event :: rest => (event.recognition node).toList ++ recognitions (event.handle node).1 rest

theorem recognitions_append (node : RaftNode S) (first second : List (Inbound R)) :
    recognitions node (first ++ second) =
      recognitions node first ++ recognitions (handleAll node first).1 second := by
  induction first generalizing node with
  | nil => rfl
  | cons event rest ih => simp [recognitions, ih]

theorem recognitions_singleton (node : RaftNode S) (event : Inbound R) :
    recognitions node [event] = (event.recognition node).toList := by
  simp [recognitions]

/-- The leader that the node knows has sent it an append request in the current term, and so
has the one that a client is redirected to. -/
structure KnowsCurrentLeader (node : RaftNode S) (accepted : List Recognition) : Prop where
  leader : ∀ l, node.leaderId = some l → ⟨l, node.currentTerm⟩ ∈ accepted
  redirect : (redirectResponse node.leaderId).reason = .redirect →
    ∃ l, (redirectResponse node.leaderId).leaderId = some l ∧ ⟨l, node.currentTerm⟩ ∈ accepted

omit [State S R] in
theorem KnowsCurrentLeader.of_leader {node : RaftNode S} {accepted : List Recognition}
    (h : ∀ l, node.leaderId = some l → ⟨l, node.currentTerm⟩ ∈ accepted) :
    KnowsCurrentLeader node accepted := by
  refine ⟨h, fun hRedirect => ?_⟩
  cases hLeader : node.leaderId with
  | none =>
    rw [hLeader] at hRedirect
    cases hRedirect
  | some l => exact ⟨l, rfl, h l hLeader⟩

/-- The event moves the node to another term without the request of a leader. -/
def Inbound.MovesTerm (node : RaftNode S) : Inbound R → Prop
  | .requestVote request _ => request.Records node ∧ node.currentTerm < request.term
  | .appendEntries _ _ => False
  | .startSession => True

instance (node : RaftNode S) : (event : Inbound R) → Decidable (event.MovesTerm node)
  | .requestVote _ _ => inferInstanceAs (Decidable (_ ∧ _))
  | .appendEntries _ _ => isFalse id
  | .startSession => isTrue trivial

variable {node : RaftNode S} {accepted : List Recognition}

theorem handle_leaderId (event : Inbound R) {l : NodeId}
    (h : (event.handle node).1.leaderId = some l) :
    (node.leaderId = some l ∧ event.recognition node = none) ∨
      event.recognition node = some ⟨l, (event.handle node).1.currentTerm⟩ := by
  cases event with
  | requestVote request responseTx =>
    exact Or.inl ⟨(respondToRequestVote_leaderId request responseTx node).symm.trans h, rfl⟩
  | appendEntries request responseTx =>
    have hLeader := (respondToAppendEntries_leaderId request responseTx node).symm.trans h
    have hMemory := respondToAppendEntries_memory request responseTx node
    by_cases hStores : request.StoresTerm node
    · rw [if_pos hStores] at hLeader hMemory
      have hTerm : (Inbound.handle node (.appendEntries request responseTx)).1.currentTerm =
          request.term := congrArg Prod.fst hMemory
      rw [hTerm, ← Option.some.inj hLeader]
      exact Or.inr (if_pos hStores)
    · rw [if_neg hStores] at hLeader
      exact Or.inl ⟨hLeader, if_neg hStores⟩
  | startSession => exact Or.inl ⟨h, rfl⟩

theorem handle_currentTerm {event : Inbound R} (hAccepted : event.recognition node = none)
    (hMoves : ¬ event.MovesTerm node) : (event.handle node).1.currentTerm = node.currentTerm := by
  cases event with
  | requestVote request responseTx =>
    cases respondToRequestVote_handled request responseTx node with
    | kept _ hMemory _ => exact congrArg Prod.fst hMemory
    | recorded hRecords hMemory _ =>
      have hTerm := congrArg Prod.fst hMemory
      have hSame : ¬ node.currentTerm < request.term := fun hLt => hMoves ⟨hRecords, hLt⟩
      exact hTerm.trans (Nat.le_antisymm (Nat.le_of_not_lt hSame) hRecords.term_le)
  | appendEntries request responseTx =>
    have hMemory := respondToAppendEntries_memory request responseTx node
    have hKept : ¬ request.StoresTerm node := fun hStores => by
      have hSome := (if_pos hStores).symm.trans hAccepted
      cases hSome
    rw [if_neg hKept] at hMemory
    exact congrArg Prod.fst hMemory
  | startSession => exact absurd trivial hMoves

theorem KnowsCurrentLeader.handle (h : KnowsCurrentLeader node accepted) (event : Inbound R)
    (hKeeps : event.MovesTerm node → node.leaderId = none) :
    KnowsCurrentLeader (event.handle node).1
      (accepted ++ (event.recognition node).toList) := by
  refine .of_leader fun l hLeader => ?_
  rcases handle_leaderId event hLeader with ⟨hOld, hAccepted⟩ | hAccepted
  · have hMoves : ¬ event.MovesTerm node := fun hMoves => by
      cases hOld.symm.trans (hKeeps hMoves)
    rw [handle_currentTerm hAccepted hMoves]
    exact List.mem_append_left _ (h.leader l hOld)
  · rw [hAccepted]
    exact List.mem_append_right _ (List.mem_singleton_self _)

/-- What was accepted was accepted in the present term or an earlier one. -/
def Recognised (node : RaftNode S) (accepted : List Recognition) : Prop :=
  ∀ r ∈ accepted, r.term ≤ node.currentTerm

theorem Recognised.handle (h : Recognised node accepted) (event : Inbound R)
    (hBelow : event = .startSession → node.currentTerm < u64Size - 1) :
    Recognised (event.handle node).1 (accepted ++ (event.recognition node).toList) := by
  obtain ⟨hTerm, _⟩ := handle_memory event hBelow
  intro r hMem
  rcases List.mem_append.mp hMem with hOld | hNew
  · exact (h r hOld).trans hTerm
  cases event with
  | requestVote request responseTx => cases hNew
  | appendEntries request responseTx =>
    obtain ⟨hStores, hSome⟩ := Option.ite_none_right_eq_some.mp (Option.mem_toList.mp hNew)
    have hMemory := respondToAppendEntries_memory request responseTx node
    rw [if_pos hStores] at hMemory
    rw [← Option.some.inj hSome]
    exact (congrArg Prod.fst hMemory).ge
  | startSession => cases hNew

/-- The known leader has sent nothing in the term that the event moves to. -/
theorem Recognised.not_knows_of_movesTerm (h : Recognised node accepted) {event : Inbound R}
    (hBelow : event = .startSession → node.currentTerm < u64Size - 1)
    (hMoves : event.MovesTerm node) {l : NodeId}
    (hLeader : node.leaderId = some l) :
    ¬ KnowsCurrentLeader (event.handle node).1
      (accepted ++ (event.recognition node).toList) := by
  intro hKnows
  cases event with
  | requestVote request responseTx =>
    obtain ⟨hRecords, hLt⟩ := hMoves
    have hTerm : (Inbound.handle node (.requestVote request responseTx : Inbound R)).1.currentTerm =
        request.term := by
      cases respondToRequestVote_handled request responseTx node with
      | kept hKept _ _ => exact absurd hRecords hKept
      | recorded _ hMemory _ => exact congrArg Prod.fst hMemory
    have hMem := hKnows.leader l
      ((respondToRequestVote_leaderId request responseTx node).trans hLeader)
    rw [hTerm] at hMem
    have hLe := h _ ((List.mem_append.mp hMem).resolve_right (List.not_mem_nil))
    exact Nat.not_le_of_lt hLt hLe
  | appendEntries request responseTx => exact hMoves
  | startSession =>
    have hNext : (node.currentTerm + 1) % u64Size = node.currentTerm + 1 :=
      Nat.mod_eq_of_lt (Nat.add_lt_of_lt_sub (hBelow rfl))
    have hMem := hKnows.leader l hLeader
    have hLe := h _ ((List.mem_append.mp hMem).resolve_right (List.not_mem_nil))
    exact Nat.not_succ_le_self _ (hNext.ge.trans hLe)

end Recognitions

section Runs

variable {node : RaftNode S}

/-- No event moves the term of a node that knows a leader, except for the request of one. -/
def KeepsTermUnderLeader (node : RaftNode S) (events : List (Inbound R)) : Prop :=
  ∀ handled event, handled ++ [event] <+: events →
    event.MovesTerm (handleAll node handled).1 → (handleAll node handled).1.leaderId = none

theorem handleAll_append_singleton (node : RaftNode S) (handled : List (Inbound R))
    (event : Inbound R) : (handleAll node (handled ++ [event])).1 =
      (event.handle (handleAll node handled).1).1 := by
  rw [handleAll_append]
  rfl

theorem handleAll_knowsCurrentLeader (hStart : node.leaderId = none) (events : List (Inbound R))
    (hKeeps : KeepsTermUnderLeader node events) :
    KnowsCurrentLeader (handleAll node events).1 (recognitions node events) := by
  induction events using List.reverseRecOn with
  | nil => exact .of_leader fun l hLeader => by cases hStart.symm.trans hLeader
  | append_singleton handled event ih =>
    have hBefore := ih fun before next hPrefix =>
      hKeeps before next (hPrefix.trans (List.prefix_append handled [event]))
    rw [handleAll_append_singleton, recognitions_append, recognitions_singleton]
    exact hBefore.handle event (hKeeps handled event List.prefix_rfl)

theorem handleAll_recognised (events : List (Inbound R)) (hBelow : SessionsBelowMax node events) :
    Recognised (handleAll node events).1 (recognitions node events) := by
  induction events using List.reverseRecOn with
  | nil =>
    intro r hMem
    cases hMem
  | append_singleton handled event ih =>
    have hPrefix := List.prefix_append handled [event]
    have hBefore := ih fun before hBefore => hBelow before (hBefore.trans hPrefix)
    rw [handleAll_append_singleton, recognitions_append, recognitions_singleton]
    exact hBefore.handle event fun hSession => hBelow handled (hSession ▸ List.prefix_rfl)

theorem RaftNodeBuilder.leaderId_of_build {builder : RaftNodeBuilder S}
    (hBuild : builder.build = .ok node) : node.leaderId = none := by
  simp only [RaftNodeBuilder.build] at hBuild
  split at hBuild <;> cases hBuild
  rfl

/-- The known leader is current in every state of a run that does not move the term under a
leader, and, unless the term wraps around, in no other run. -/
theorem knownLeader_current (builder : RaftNodeBuilder S) (node : RaftNode S)
    (hBuild : builder.build = .ok node) (events : List (Inbound R)) :
    (KeepsTermUnderLeader node events → ∀ handled, handled <+: events →
      KnowsCurrentLeader (handleAll node handled).1 (recognitions node handled)) ∧
    (SessionsBelowMax node events → (∀ handled, handled <+: events →
      KnowsCurrentLeader (handleAll node handled).1 (recognitions node handled)) →
      KeepsTermUnderLeader node events) := by
  constructor
  · intro hKeeps handled hHandled
    exact handleAll_knowsCurrentLeader (RaftNodeBuilder.leaderId_of_build hBuild) handled
      fun before event hPrefix => hKeeps before event (hPrefix.trans hHandled)
  · intro hBelow hKnows handled event hPrefix hMoves
    have hHandled : handled <+: events := (List.prefix_append handled [event]).trans hPrefix
    have hRecognised := handleAll_recognised handled fun before hBefore =>
      hBelow before (hBefore.trans hHandled)
    have hAfter := hKnows _ hPrefix
    rw [handleAll_append_singleton, recognitions_append, recognitions_singleton] at hAfter
    cases hLeader : (handleAll node handled).1.leaderId with
    | none => rfl
    | some l =>
      exact absurd hAfter
        (hRecognised.not_knows_of_movesTerm
          (fun hSession => hBelow handled (hSession ▸ hPrefix)) hMoves hLeader)

end Runs

section Redirected

def seedBuilder : RaftNodeBuilder (Stored Nat) :=
  ⟨1, ⟨[], 0, ⟨[1, 2, 3], nodup_triple⟩, none, 0⟩, ⟨[1, 2, 3], nodup_triple⟩⟩

def seedFollower : RaftNode (Stored Nat) :=
  ⟨1, 0, none, seedBuilder.state, .follower, none⟩

def firstHeartbeat : Inbound Nat := .appendEntries ⟨1, 2, 0, 0, 0, []⟩ ⟨2, 0, false⟩

def nextCandidacy : Inbound Nat := .requestVote ⟨2, 3, 0, 0⟩ ⟨3, 0, false⟩

theorem knownLeader_current_after_heartbeat :
    KnowsCurrentLeader (handleAll seedFollower [firstHeartbeat]).1 [⟨2, 1⟩] := by
  refine (knownLeader_current seedBuilder seedFollower rfl [firstHeartbeat]).1 ?_ _
    List.prefix_rfl
  intro handled event hPrefix _
  have hShort := hPrefix.length_le
  cases handled with
  | nil => rfl
  | cons _ _ => simp at hShort

/-- A node that has voted for node 3 in term 2 redirects clients to node 2, whose append
request was of term 1. -/
theorem redirects_to_earlier_leader :
    seedBuilder.build = .ok seedFollower ∧
    (handleAll seedFollower [firstHeartbeat, nextCandidacy]).1.currentTerm = 2 ∧
    redirectResponse (handleAll seedFollower [firstHeartbeat, nextCandidacy]).1.leaderId =
      ⟨false, .redirect, some 2⟩ ∧
    recognitions seedFollower [firstHeartbeat, nextCandidacy] = [⟨2, 1⟩] ∧
    ¬ KnowsCurrentLeader (handleAll seedFollower [firstHeartbeat, nextCandidacy]).1
      (recognitions seedFollower [firstHeartbeat, nextCandidacy]) := by
  refine ⟨rfl, rfl, rfl, rfl, fun h => ?_⟩
  have hMem : (⟨2, 2⟩ : Recognition) ∈ [(⟨2, 1⟩ : Recognition)] := h.leader 2 rfl
  exact absurd hMem (by decide)

end Redirected

end Zeroraft
