import Mathlib.Data.Finset.Card
import Mathlib.Data.List.Dedup
import Zeroraft.Properties.CommitRule
import Zeroraft.Properties.VoteTally
import Zeroraft.Runtime.Peers

/-!
# Votes and commits meet

The vote tally counts against the membership map and one more, the commit rule
against the peers that the leader has. Whether the map lists the node itself or
not, the nodes behind two such decisions have one in common.
-/

namespace Zeroraft

open OrderStatistics

variable {S R : Type}

/-- The maps of the nodes of one cluster. -/
inductive Shared (nodes : Finset NodeId) : (NodeId → MembershipMap) → Prop
  | all (membership : MembershipMap) (h : membership.ids.toFinset = nodes) :
      Shared nodes fun _ => membership
  | others (membership : NodeId → MembershipMap)
      (h : ∀ id ∈ nodes, (membership id).ids.toFinset = nodes.erase id) : Shared nodes membership

/-- The nodes whose votes make the session of a candidate send `Granted`. -/
structure VoteQuorum (membership : MembershipMap) (candidate : NodeId) (votes : Finset NodeId) :
    Prop where
  own : candidate ∈ votes
  granted : ∀ id ∈ votes, id ≠ candidate → id ∈ membership.peers candidate
  enough : EnoughVotes membership.ids.length votes.card

def PeersOf (membership : MembershipMap) (id : NodeId) (peers : PeerMap) : Prop :=
  ∀ peer, peer ∈ peers ↔ peer ∈ membership.peers id

/-- The peers whose match index is at least `m`. -/
def reachedPeers (peers : PeerMap) (m : Nat) : Finset NodeId :=
  ((peers.entries.filter fun entry => entry.2.matchIndex.any (m ≤ ·)).map (·.1)).toFinset

theorem MembershipMap.mem_peers {membership : MembershipMap} {id peer : NodeId} :
    peer ∈ membership.peers id ↔ peer ∈ membership.ids ∧ peer ≠ id := by
  simp [MembershipMap.peers]

theorem Shared.mem_peers {nodes : Finset NodeId} {membership : NodeId → MembershipMap}
    (h : Shared nodes membership) {id peer : NodeId} (hId : id ∈ nodes) :
    peer ∈ (membership id).peers id ↔ peer ∈ nodes ∧ peer ≠ id := by
  rw [MembershipMap.mem_peers]
  cases h with
  | all membership h => rw [← h, List.mem_toFinset]
  | others membership h =>
    rw [← List.mem_toFinset, h id hId, Finset.mem_erase]
    tauto

theorem MembershipMap.card_ids (membership : MembershipMap) :
    membership.ids.toFinset.card = membership.ids.length :=
  List.toFinset_card_of_nodup membership.nodup

theorem Shared.length_ids {nodes : Finset NodeId} {membership : NodeId → MembershipMap}
    (h : Shared nodes membership) {id : NodeId} (hId : id ∈ nodes) :
    nodes.card ≤ (membership id).ids.length + 1 := by
  rw [← MembershipMap.card_ids]
  cases h with
  | all membership h => rw [h]; exact Nat.le_succ _
  | others membership h => rw [h id hId, Finset.card_erase_add_one hId]

theorem VoteQuorum.subset {nodes : Finset NodeId} {membership : NodeId → MembershipMap}
    (hShared : Shared nodes membership) {candidate : NodeId} {votes : Finset NodeId}
    (hCandidate : candidate ∈ nodes) (h : VoteQuorum (membership candidate) candidate votes) :
    votes ⊆ nodes := by
  intro id hVote
  by_cases hOwn : id = candidate
  · rwa [hOwn]
  · exact ((hShared.mem_peers hCandidate).mp (h.granted id hVote hOwn)).1

theorem VoteQuorum.majority {nodes : Finset NodeId} {membership : NodeId → MembershipMap}
    (hShared : Shared nodes membership) {candidate : NodeId} {votes : Finset NodeId}
    (hCandidate : candidate ∈ nodes) (h : VoteQuorum (membership candidate) candidate votes) :
    nodes.card < 2 * votes.card := by
  have hEnough : votes.card > ((membership candidate).ids.length + 1) / 2 := h.enough
  have hLength := hShared.length_ids hCandidate
  omega

theorem card_reachedPeers (peers : PeerMap) (m : Nat) :
    (reachedPeers peers m).card = reachedCount peers m := by
  have hNodup : ((peers.entries.filter fun entry =>
      entry.2.matchIndex.any (m ≤ ·)).map (·.1)).Nodup :=
    (List.filter_sublist.map _).nodup peers.nodupKeys
  rw [reachedPeers, List.toFinset_card_of_nodup hNodup, List.length_map, reachedCount,
    List.countP_eq_length_filter]

theorem reachedPeers_subset (peers : PeerMap) (m : Nat) : ∀ id ∈ reachedPeers peers m, id ∈ peers := by
  intro id hId
  obtain ⟨entry, hEntry, rfl⟩ := List.mem_map.mp (List.mem_toFinset.mp hId)
  exact List.mem_map_of_mem (List.mem_filter.mp hEntry).1

theorem PeersOf.length {nodes : Finset NodeId} {membership : NodeId → MembershipMap}
    (hShared : Shared nodes membership) {id : NodeId} (hId : id ∈ nodes) {peers : PeerMap}
    (h : PeersOf (membership id) id peers) : peers.entries.length + 1 = nodes.card := by
  have hKeys : peers.keys.toFinset = nodes.erase id := by
    ext peer
    rw [List.mem_toFinset, ← AList.mem_keys, h peer, hShared.mem_peers hId, Finset.mem_erase]
    tauto
  have hCard : peers.keys.toFinset.card = peers.keys.length :=
    List.toFinset_card_of_nodup peers.nodupKeys
  rw [← Finset.card_erase_add_one hId, ← hKeys, hCard, AList.keys, List.keys, List.length_map]

theorem matchIndices_length {peers : PeerMap} (h : ∀ entry ∈ peers.entries, entry.2.matchIndex ≠ none) :
    (matchIndices peers).length = peers.entries.length :=
  List.filterMap_length_eq_length.mpr fun entry hEntry =>
    Option.isSome_iff_ne_none.mpr (h entry hEntry)

variable [State S R]

/-- The leader and the peers behind a commit index are half of the cluster and one node more. -/
theorem card_commit {nodes : Finset NodeId} {membership : NodeId → MembershipMap}
    (hShared : Shared nodes membership) {node : RaftNode S} (hNode : node.id ∈ nodes)
    {peers : PeerMap} (hPeers : PeersOf (membership node.id) node.id peers)
    (hAnswered : ∀ entry ∈ peers.entries, entry.2.matchIndex ≠ none) {m : Nat}
    (hm : calculateLastCommitIndex node peers = some m) :
    nodes.card ≤ 2 * (insert node.id (reachedPeers peers m)).card := by
  have hNotOwn : node.id ∉ reachedPeers peers m := fun hMem =>
    ((hShared.mem_peers hNode).mp ((hPeers _).mp (reachedPeers_subset peers m _ hMem))).2 rfl
  obtain ⟨hBelow, -, -⟩ := (calculateLastCommitIndex_eq_some_iff node peers m).mp hm
  have hCount := below_add_atLeast (matchIndices peers) m
  have hLength := hPeers.length hShared hNode
  rw [Finset.card_insert_of_notMem hNotOwn, card_reachedPeers, ← atLeast_matchIndices]
  rw [matchIndices_length hAnswered] at hBelow hCount
  omega

/-- Two vote quorums meet, and a vote quorum meets the nodes behind a commit index. -/
theorem quorums_intersect {nodes : Finset NodeId} {membership : NodeId → MembershipMap}
    (hShared : Shared nodes membership) {candidate : NodeId} (hCandidate : candidate ∈ nodes)
    {votes : Finset NodeId} (hVotes : VoteQuorum (membership candidate) candidate votes) :
    (∀ rival ∈ nodes, ∀ votes', VoteQuorum (membership rival) rival votes' →
      (votes ∩ votes').Nonempty) ∧
    (∀ (leader : RaftNode S) (peers : PeerMap) (m : Nat), leader.id ∈ nodes →
      PeersOf (membership leader.id) leader.id peers →
      (∀ entry ∈ peers.entries, entry.2.matchIndex ≠ none) →
      calculateLastCommitIndex leader peers = some m →
      (votes ∩ insert leader.id (reachedPeers peers m)).Nonempty) := by
  have hSubset := hVotes.subset hShared hCandidate
  have hMajority := hVotes.majority hShared hCandidate
  constructor
  · intro rival hRival votes' hVotes'
    have hMajority' := hVotes'.majority hShared hRival
    refine Finset.inter_nonempty_of_card_lt_card_add_card hSubset
      (hVotes'.subset hShared hRival) ?_
    omega
  · intro leader peers m hLeader hPeers hAnswered hm
    have hCommit := card_commit hShared hLeader hPeers hAnswered hm
    refine Finset.inter_nonempty_of_card_lt_card_add_card hSubset ?_ ?_
    · refine Finset.insert_subset hLeader fun id hId => ?_
      exact ((hShared.mem_peers hLeader).mp ((hPeers id).mp (reachedPeers_subset peers m id hId))).1
    · omega

/-- Each of four nodes lists the other three. -/
def otherNodes (id : NodeId) : MembershipMap where
  ids := [1, 2, 3, 4].filter (· ≠ id)
  nodup := List.Nodup.filter _ (by decide)

/-- Node 4 leads; two of its peers have reached its only entry. -/
def answeredPeers : PeerMap where
  entries := [⟨1, ⟨1, some 0⟩⟩, ⟨2, ⟨2, some 1⟩⟩, ⟨3, ⟨2, some 1⟩⟩]
  nodupKeys := by simp [List.NodupKeys, List.keys]

theorem quorums_intersect_four :
    (({1, 2, 3} : Finset NodeId) ∩ {1, 3, 4}).Nonempty ∧
      (({1, 2, 3} : Finset NodeId) ∩ insert 4 (reachedPeers answeredPeers 1)).Nonempty := by
  have hShared : Shared {1, 2, 3, 4} otherNodes := Shared.others _ (by decide)
  have hVotes : VoteQuorum (otherNodes 1) 1 {1, 2, 3} := ⟨by decide, by decide, by decide⟩
  have hRival : VoteQuorum (otherNodes 4) 4 {1, 3, 4} := ⟨by decide, by decide, by decide⟩
  obtain ⟨hVoters, hCommitters⟩ := quorums_intersect (S := Stored Unit) hShared (by decide) hVotes
  refine ⟨hVoters 4 (by decide) _ hRival, hCommitters { oneEntryLeader with id := 4 } _ _
    (by decide) ?_ (by decide) (by decide)⟩
  intro peer
  rw [AList.mem_keys]
  simp [AList.keys, answeredPeers, List.keys, MembershipMap.peers, otherNodes]

section Runs

variable {Allowed : Machine S R → Action R → Prop} {node : RaftNode S} {m : Machine S R}

omit [State S R] in
theorem Tally.voteQuorum [State S R] {membership : MembershipMap} {id : NodeId}
    (hTally : Tally membership id m) {i : Nat} {session : VoteSession}
    (hSession : m.voteSessions[i]? = some session) (hMajority : m.Majority membership i)
    (hOnce : (session.grants.map (·.2.response.id)).Nodup) :
    VoteQuorum membership id (insert id (session.grants.map (·.2.response.id)).toFinset) := by
  have hPeer : ∀ voter ∈ session.grants.map (·.2.response.id), voter ∈ membership.peers id := by
    intro voter hVoter
    obtain ⟨grant, hGrant, rfl⟩ := List.mem_map.mp hVoter
    exact (hTally.grants i session hSession).peer grant hGrant
  have hNotOwn : id ∉ (session.grants.map (·.2.response.id)).toFinset := fun hMem =>
    (MembershipMap.mem_peers.mp (hPeer _ (List.mem_toFinset.mp hMem))).2 rfl
  refine ⟨Finset.mem_insert_self _ _, fun voter hVoter hNe => ?_, ?_⟩
  · exact hPeer voter (List.mem_toFinset.mp ((Finset.mem_insert.mp hVoter).resolve_left hNe))
  · obtain ⟨session', hSession', hEnough⟩ := hMajority
    obtain rfl := Option.some.inj (hSession.symm.trans hSession')
    have hCounted := hTally.counted i session hSession
    rw [Finset.card_insert_of_notMem hNotOwn, List.toFinset_card_of_nodup hOnce, List.length_map]
    unfold EnoughVotes at hEnough ⊢
    omega

/-- The votes behind a `Granted` that a running session is about to send. -/
theorem sendGranted_voteQuorum [FallibleState S R] (hRuns : Machine.Runs Allowed { node } m)
    {k i : Nat} (hSend : m.tasks[k]? = some (.round i .sendGranted)) {session : VoteSession}
    (hSession : m.voteSessions[i]? = some session)
    (hOnce : (session.grants.map (·.2.response.id)).Nodup) :
    VoteQuorum (State.getMembership node.state) node.id
      (insert node.id (session.grants.map (·.2.response.id)).toFinset) :=
  hRuns.tally.voteQuorum hSession (hRuns.tally.tasks k _ hSend).2 hOnce

omit [State S R] in
theorem initialPeers_peersOf (membership : MembershipMap) (id : NodeId) (nextIndex : Nat) :
    PeersOf membership id (initialPeers membership id nextIndex) := by
  intro peer
  rw [AList.mem_keys, AList.keys, initialPeers, List.keys, List.map_map]
  exact ⟨fun h => by simpa using h, fun h => by simpa using h⟩

structure SessionPeers (membership : MembershipMap) (id : NodeId) (m : Machine S R) : Prop where
  identity : m.node.identity = (id, membership)
  peersOf : ∀ peers ∈ m.replicationSessions, PeersOf membership id peers

theorem step_sessionPeers [FallibleState S R] {membership : MembershipMap} {id : NodeId}
    {m' : Machine S R} {action : Action R} (hStep : m.step action = some m')
    (h : SessionPeers membership id m) : SessionPeers membership id m' := by
  have hWritten : ∀ {i : Nat} {peers peers' : PeerMap}, m.replicationSessions[i]? = some peers →
      (∀ peer, peer ∈ peers' ↔ peer ∈ peers) → PeersOf membership id peers' :=
    fun hPeers hSame peer => (hSame peer).trans (h.peersOf _ (List.mem_of_getElem? hPeers) peer)
  refine ⟨(step_identity hStep).trans h.identity, fun peers hPeers => ?_⟩
  cases step_peersChange hStep with
  | kept hKept => exact h.peersOf peers (hKept ▸ hPeers)
  | started _ _ hNew =>
    rw [hNew] at hPeers
    rcases List.mem_append.mp hPeers with hOld | hPeers
    · exact h.peersOf peers hOld
    · obtain ⟨hId, hMembership⟩ := Prod.mk.inj h.identity
      rw [List.mem_singleton.mp hPeers, hId, hMembership]
      exact initialPeers_peersOf _ _ _
  | mismatch _ _ _ _ hOld hNext hSet =>
    obtain ⟨entry, hEntry, _, rfl⟩ := decrementNextIndex_eq_some hNext
    rcases List.mem_or_eq_of_mem_set (hSet ▸ hPeers) with hPeers | rfl
    · exact h.peersOf peers hPeers
    · exact hWritten hOld fun _ => mem_insert_of_lookup hEntry
  | appended _ _ _ hOld hNext hSet =>
    rcases List.mem_or_eq_of_mem_set (hSet ▸ hPeers) with hPeers | rfl
    · exact h.peersOf peers hPeers
    · exact hWritten hOld fun _ => mem_recordAppended hNext

theorem Machine.Runs.sessionPeers [FallibleState S R] (hRuns : Machine.Runs Allowed { node } m) :
    SessionPeers (State.getMembership node.state) node.id m :=
  hRuns.invariant ⟨rfl, nofun⟩ fun _ _ _ _ hStep h => step_sessionPeers hStep h

end Runs

end Zeroraft
