import Mathlib.Order.Bounds.Defs
import Zeroraft.Library.OrderStatistics
import Zeroraft.Model.Leader

/-!
# Which commit indices are backed by a majority

`calculateLastCommitIndex` takes the upper median of the match indices of those
peers that have answered. The peers that have not answered are missing from the
list but not from the cluster.
-/

namespace Zeroraft

open OrderStatistics

variable {S R : Type} [State S R]

/-- The number of peers whose match index is at least `m`. -/
def reachedCount (peers : PeerMap) (m : Nat) : Nat :=
  peers.entries.countP fun entry => entry.2.matchIndex.any (m ≤ ·)

/-- The leader together with `count` peers is a strict majority. -/
def LeaderMajority (peers : PeerMap) (count : Nat) : Prop :=
  peers.entries.length + 1 < 2 * (1 + count)

/-- Every index the function returns is reached by a strict majority. -/
def CommitSafe (node : RaftNode S) (peers : PeerMap) : Prop :=
  ∀ m, calculateLastCommitIndex node peers = some m → LeaderMajority peers (reachedCount peers m)

/-- The entry at `m` was created in the leader's term. -/
def CurrentTermAt (node : RaftNode S) (m : Nat) : Prop :=
  ∃ entry, State.getEntry node.state m = some entry ∧ entry.term = node.currentTerm

theorem atLeast_matchIndices (peers : PeerMap) (m : Nat) :
    atLeast (matchIndices peers) m = reachedCount peers m := by
  unfold atLeast matchIndices reachedCount
  rw [List.countP_filterMap]
  refine List.countP_congr fun entry _ => ?_
  cases entry.2.matchIndex <;> simp

theorem calculateLastCommitIndex_eq_some_iff (node : RaftNode S) (peers : PeerMap) (m : Nat) :
    calculateLastCommitIndex node peers = some m ↔
      below (matchIndices peers) m ≤ (matchIndices peers).length / 2 ∧
      (matchIndices peers).length / 2 < atMost (matchIndices peers) m ∧
      CurrentTermAt node m := by
  rw [← and_assoc, ← getElem?_insertionSort_eq_some_iff]
  unfold calculateLastCommitIndex CurrentTermAt
  simp only [List.length_insertionSort]
  generalize ((matchIndices peers).insertionSort (· ≤ ·))[(matchIndices peers).length / 2]? = median
  cases median with
  | none => simp
  | some k =>
    simp only [Option.map_eq_some_iff, Option.ite_none_right_eq_some, Option.some.injEq]
    constructor
    · rintro ⟨hTerm, rfl⟩
      exact ⟨rfl, hTerm⟩
    · rintro ⟨rfl, hTerm⟩
      exact ⟨hTerm, rfl⟩

/-- Nobody or everybody has answered, or one of an even number of peers is silent. -/
def FewSilent (peers : PeerMap) : Prop :=
  matchIndices peers = [] ∨ (matchIndices peers).length = peers.entries.length ∨
    (2 ∣ peers.entries.length ∧ (matchIndices peers).length + 1 = peers.entries.length)

/-- What is known of the peers but for the match indices. -/
def answers (entries : List (Sigma fun _ : NodeId => Peer)) : List (NodeId × Nat × Bool) :=
  entries.map fun entry => (entry.1, entry.2.nextIndex, entry.2.matchIndex.isSome)

/-- The same peers have answered, whatever they have answered. -/
def AnsweredAlike (peers peers' : PeerMap) : Prop := answers peers'.entries = answers peers.entries

/-- One peer out of four has answered. -/
def oneAnswerPeers : PeerMap where
  entries := [⟨2, ⟨2, some 1⟩⟩, ⟨3, ⟨1, none⟩⟩, ⟨4, ⟨1, none⟩⟩, ⟨5, ⟨1, none⟩⟩]
  nodupKeys := by simp [List.NodupKeys, List.keys]

def oneEntryLeader : RaftNode (Stored Unit) where
  id := 1
  currentTerm := 1
  votedFor := some 1
  state := ⟨[⟨1, .clientRequest ()⟩], 0, ⟨[1, 2, 3, 4, 5], by decide⟩, some 1, 1⟩
  currentState := .leader
  leaderId := none

theorem leaderMajority_reachedCount_iff (peers : PeerMap) (m : Nat) :
    LeaderMajority peers (reachedCount peers m) ↔
      below (matchIndices peers) m + (peers.entries.length + 1) / 2 ≤
        (matchIndices peers).length := by
  have hCount := below_add_atLeast (matchIndices peers) m
  rw [LeaderMajority, ← atLeast_matchIndices]
  omega

/-- Two nodes out of five commit. -/
theorem commitSafe_fails : ¬ CommitSafe oneEntryLeader oneAnswerPeers := by
  intro h
  have hMajority := h 1 (by decide)
  revert hMajority
  unfold LeaderMajority reachedCount
  decide

theorem commitSafe_of_fewSilent (node : RaftNode S) {peers : PeerMap} (h : FewSilent peers) :
    CommitSafe node peers := by
  intro m hm
  obtain ⟨hBelow, hAtMost, _⟩ := (calculateLastCommitIndex_eq_some_iff node peers m).mp hm
  rw [leaderMajority_reachedCount_iff]
  rcases h with hNone | hAll | ⟨hEven, hOne⟩
  · simp [hNone, atMost] at hAtMost
  · omega
  · omega

section Alike

variable {peers peers' : PeerMap}

theorem AnsweredAlike.length (h : AnsweredAlike peers peers') :
    peers'.entries.length = peers.entries.length := by
  have hLength := congrArg List.length h
  rwa [answers, answers, List.length_map, List.length_map] at hLength

theorem length_filterMap_matchIndex (entries : List (Sigma fun _ : NodeId => Peer)) :
    (entries.filterMap (·.2.matchIndex)).length = (answers entries).countP (·.2.2) := by
  rw [List.length_filterMap_eq_countP, answers, List.countP_map]
  rfl

theorem AnsweredAlike.answered (h : AnsweredAlike peers peers') :
    (matchIndices peers').length = (matchIndices peers).length := by
  unfold matchIndices
  rw [length_filterMap_matchIndex, length_filterMap_matchIndex, h]

theorem AnsweredAlike.fewSilent (h : AnsweredAlike peers peers') (hFew : FewSilent peers) :
    FewSilent peers' := by
  rw [FewSilent, ← List.length_eq_zero_iff] at hFew ⊢
  rwa [h.answered, h.length]

/-- Of the peers that have answered, the first `zeros` get the match index 0 and the others `m`. -/
def reassign (m : Nat) : Nat → List (Sigma fun _ : NodeId => Peer) →
    List (Sigma fun _ : NodeId => Peer)
  | _, [] => []
  | zeros, entry :: rest =>
    match entry.2.matchIndex, zeros with
    | none, zeros => entry :: reassign m zeros rest
    | some _, 0 => ⟨entry.1, { entry.2 with matchIndex := some m }⟩ :: reassign m 0 rest
    | some _, zeros + 1 =>
      ⟨entry.1, { entry.2 with matchIndex := some 0 }⟩ :: reassign m zeros rest

theorem answers_reassign (m zeros : Nat) (entries : List (Sigma fun _ : NodeId => Peer)) :
    answers (reassign m zeros entries) = answers entries := by
  unfold answers
  fun_induction reassign m zeros entries with
  | case1 => rfl
  | case2 entry rest zeros hNone ih => rw [List.map_cons, List.map_cons, ih]
  | case3 entry rest k hSome ih | case4 entry rest k zeros hSome ih =>
    rw [List.map_cons, List.map_cons, ih, hSome]
    rfl

theorem keys_eq_answers (entries : List (Sigma fun _ : NodeId => Peer)) :
    entries.keys = (answers entries).map (·.1) := by
  simp [answers, List.keys]

theorem below_reassign {m : Nat} (hm : 0 < m) (zeros : Nat)
    (entries : List (Sigma fun _ : NodeId => Peer)) :
    below ((reassign m zeros entries).filterMap (·.2.matchIndex)) m =
      min zeros (entries.filterMap (·.2.matchIndex)).length := by
  fun_induction reassign m zeros entries with
  | case1 => simp [below]
  | case2 entry rest zeros hNone ih => simp [hNone, ih]
  | case3 entry rest k hSome ih => simp [hSome, ih]
  | case4 entry rest k zeros hSome ih => simp [hSome, ih, hm]

theorem atMost_reassign (m zeros : Nat) (entries : List (Sigma fun _ : NodeId => Peer)) :
    atMost ((reassign m zeros entries).filterMap (·.2.matchIndex)) m =
      (entries.filterMap (·.2.matchIndex)).length := by
  fun_induction reassign m zeros entries with
  | case1 => simp [atMost]
  | case2 entry rest zeros hNone ih => simp [hNone, ih]
  | case3 entry rest k hSome ih | case4 entry rest k zeros hSome ih => simp [hSome, ih]

/-- If too many are silent, the others may answer so that half of them make `m` the median. -/
theorem exists_unsafe (node : RaftNode S) {m : Nat} (hm : 0 < m) (hTerm : CurrentTermAt node m)
    (hMany : ¬ FewSilent peers) :
    ∃ peers', AnsweredAlike peers peers' ∧ ¬ CommitSafe node peers' := by
  have hAnswers := answers_reassign m ((matchIndices peers).length / 2) peers.entries
  have hKeys : (reassign m ((matchIndices peers).length / 2) peers.entries).NodupKeys := by
    rw [List.NodupKeys, keys_eq_answers, hAnswers, ← keys_eq_answers]
    exact peers.nodupKeys
  let peers' : PeerMap := ⟨_, hKeys⟩
  have hAlike : AnsweredAlike peers peers' := hAnswers
  have hBelow : below (matchIndices peers') m = (matchIndices peers).length / 2 := by
    have hMin := below_reassign hm ((matchIndices peers).length / 2) peers.entries
    exact hMin.trans (Nat.min_eq_left (Nat.div_le_self _ 2))
  have hAtMost : atMost (matchIndices peers') m = (matchIndices peers).length :=
    atMost_reassign m _ peers.entries
  refine ⟨peers', hAlike, fun hSafe => hMany ?_⟩
  by_cases hNone : matchIndices peers = []
  · exact Or.inl hNone
  have hPos : 0 < (matchIndices peers).length := List.length_pos_iff.mpr hNone
  have hMajority := hSafe m ((calculateLastCommitIndex_eq_some_iff node peers' m).mpr
    ⟨by rw [hBelow, hAlike.answered], by rw [hAtMost, hAlike.answered]; omega, hTerm⟩)
  rw [leaderMajority_reachedCount_iff, hBelow, hAlike.answered, hAlike.length] at hMajority
  have hLe : (matchIndices peers).length ≤ peers.entries.length := List.length_filterMap_le _ _
  rw [FewSilent]
  omega

end Alike

/-- Whatever the peers that have answered have answered, what the function returns is reached
by a strict majority: so it is if few peers are silent or no entry is of the current term, and
only then. -/
theorem commitSafe_alike_iff [FallibleState S R] (node : RaftNode S) (peers : PeerMap) :
    (∀ peers', AnsweredAlike peers peers' → CommitSafe node peers') ↔
      FewSilent peers ∨ ∀ m, ¬ CurrentTermAt node m := by
  constructor
  · intro hSafe
    by_contra hNot
    obtain ⟨hMany, hCurrent⟩ := not_or.mp hNot
    obtain ⟨m, hTerm⟩ := not_forall_not.mp hCurrent
    have hm : 0 < m := by
      obtain ⟨entry, hEntry, _⟩ := hTerm
      rw [FallibleState.getEntry_eq, Stored.entry_eq_some_iff] at hEntry
      exact hEntry.1
    obtain ⟨peers', hAlike, hUnsafe⟩ := exists_unsafe node hm hTerm hMany
    exact hUnsafe (hSafe peers' hAlike)
  · rintro (hFew | hNone) peers' hAlike
    · exact commitSafe_of_fewSilent node (hAlike.fewSilent hFew)
    · intro m hm
      exact absurd ((calculateLastCommitIndex_eq_some_iff node peers' m).mp hm).2.2 (hNone m)

/-- Three peers out of four have answered. -/
def oneSilentPeers : PeerMap where
  entries := [⟨2, ⟨2, some 1⟩⟩, ⟨3, ⟨1, some 0⟩⟩, ⟨4, ⟨2, some 1⟩⟩, ⟨5, ⟨1, none⟩⟩]
  nodupKeys := by simp [List.NodupKeys, List.keys]

theorem commitSafe_alike_oneSilent :
    calculateLastCommitIndex oneEntryLeader oneSilentPeers = some 1 ∧
      ∀ peers', AnsweredAlike oneSilentPeers peers' → CommitSafe oneEntryLeader peers' := by
  have hFew : FewSilent oneSilentPeers := by
    unfold FewSilent
    decide
  exact ⟨by decide, (commitSafe_alike_iff oneEntryLeader oneSilentPeers).mpr (Or.inl hFew)⟩

/-- The leader and the peers that have reached `m` are a strict majority, and the entry there
is of the current term. -/
def Committable (node : RaftNode S) (peers : PeerMap) (m : Nat) : Prop :=
  LeaderMajority peers (reachedCount peers m) ∧ CurrentTermAt node m

theorem CurrentTermAt.mono [FallibleState S R] {node : RaftNode S} {m n : Nat}
    (h : CurrentTermAt node m)
    (hOrdered : (stored node.state).log.Pairwise fun a b => a.term ≤ b.term)
    (hBounded : ∀ entry ∈ (stored node.state).log, entry.term ≤ node.currentTerm) (hLe : m ≤ n)
    (hLength : n ≤ (stored node.state).log.length) : CurrentTermAt node n := by
  obtain ⟨entry, hEntry, hTerm⟩ := h
  rw [FallibleState.getEntry_eq, Stored.entry_eq_some_iff] at hEntry
  obtain ⟨hm, hEntry⟩ := hEntry
  have hLast := List.getElem?_eq_getElem (l := (stored node.state).log) (i := n - 1) (by omega)
  refine ⟨_, ?_, Nat.le_antisymm (hBounded _ (List.mem_of_getElem? hLast)) ?_⟩
  · rw [FallibleState.getEntry_eq, Stored.entry_eq_some_iff]
    exact ⟨hm.trans hLe, hLast⟩
  · rcases hLe.eq_or_lt with rfl | hLt
    · rw [← hTerm, Option.some.inj (hEntry.symm.trans hLast)]
    · obtain ⟨hi, rfl⟩ := List.getElem?_eq_some_iff.mp hEntry
      rw [← hTerm]
      exact List.pairwise_iff_getElem.mp hOrdered _ _ hi _ (by omega)

/-- When every peer has answered, the function returns the greatest index that a majority has
reached and whose entry is of the current term, if there is one. -/
theorem calculate_greatest [FallibleState S R] (node : RaftNode S) (peers : PeerMap)
    (hOrdered : (stored node.state).log.Pairwise fun a b => a.term ≤ b.term)
    (hBounded : ∀ entry ∈ (stored node.state).log, entry.term ≤ node.currentTerm)
    (hPeers : peers.entries ≠ [])
    (hAnswered : ∀ entry ∈ peers.entries,
      ∃ k, entry.2.matchIndex = some k ∧ k ≤ (stored node.state).log.length) :
    (∀ N, calculateLastCommitIndex node peers = some N ↔
      IsGreatest {m | Committable node peers m} N) ∧
    (calculateLastCommitIndex node peers = none ↔ ¬ ∃ m, Committable node peers m) := by
  have hLength : (matchIndices peers).length = peers.entries.length :=
    List.filterMap_length_eq_length.mpr fun entry hEntry => by
      obtain ⟨k, hk, _⟩ := hAnswered entry hEntry
      rw [hk]
      rfl
  have hPos : 0 < peers.entries.length := List.length_pos_iff.mpr hPeers
  obtain ⟨median, hMedian, hRank⟩ :=
    exists_rank (l := matchIndices peers) (k := (matchIndices peers).length / 2) (by omega)
  have hInLog : median ≤ (stored node.state).log.length := by
    obtain ⟨entry, hEntry, hMatch⟩ := List.mem_filterMap.mp hMedian
    obtain ⟨k, hk, hLe⟩ := hAnswered entry hEntry
    obtain rfl := Option.some.inj (hk.symm.trans hMatch)
    exact hLe
  have hMajority (m : Nat) : LeaderMajority peers (reachedCount peers m) ↔ m ≤ median := by
    rw [leaderMajority_reachedCount_iff, ← (hRank m).1]
    omega
  -- A committable index makes the median committable.
  have hAbove {m : Nat} (h : Committable node peers m) :
      m ≤ median ∧ Committable node peers median :=
    have hLe := (hMajority m).mp h.1
    ⟨hLe, (hMajority median).mpr (Nat.le_refl _), h.2.mono hOrdered hBounded hLe hInLog⟩
  have hSome (N : Nat) : calculateLastCommitIndex node peers = some N ↔
      N = median ∧ Committable node peers median := by
    rw [calculateLastCommitIndex_eq_some_iff, (hRank N).1, (hRank N).2, ← and_assoc,
      ← le_antisymm_iff]
    constructor
    · rintro ⟨rfl, hTerm⟩
      exact ⟨rfl, (hMajority N).mpr (Nat.le_refl _), hTerm⟩
    · rintro ⟨rfl, hCommittable⟩
      exact ⟨rfl, hCommittable.2⟩
  refine ⟨fun N => (hSome N).trans ⟨?_, fun ⟨hMem, hUpper⟩ => ?_⟩, ?_⟩
  · rintro ⟨rfl, hCommittable⟩
    exact ⟨hCommittable, fun m hm => (hAbove hm).1⟩
  · obtain ⟨hLe, hCommittable⟩ := hAbove hMem
    exact ⟨Nat.le_antisymm hLe (hUpper hCommittable), hCommittable⟩
  · rw [Option.eq_none_iff_forall_ne_some]
    constructor
    · rintro hNone ⟨m, hm⟩
      exact hNone median ((hSome median).mpr ⟨rfl, (hAbove hm).2⟩)
    · intro hNone N hN
      exact hNone ⟨median, ((hSome N).mp hN).2⟩

/-- Both peers have answered, one of them has the entry. -/
def reachedOncePeers : PeerMap where
  entries := [⟨2, ⟨2, some 1⟩⟩, ⟨3, ⟨1, some 0⟩⟩]
  nodupKeys := by simp [List.NodupKeys, List.keys]

/-- Two nodes out of three are enough for the entry. -/
theorem calculate_greatest_answered : IsGreatest {m | Committable oneEntryLeader reachedOncePeers m} 1 := by
  have hAnswered : ∀ entry ∈ reachedOncePeers.entries, ∃ k, entry.2.matchIndex = some k ∧
      k ≤ (stored oneEntryLeader.state).log.length := by
    intro entry hEntry
    rcases List.mem_pair.mp hEntry with rfl | rfl
    · exact ⟨1, rfl, by decide⟩
    · exact ⟨0, rfl, by decide⟩
  exact ((calculate_greatest oneEntryLeader reachedOncePeers (List.pairwise_singleton _ _) (by decide)
    (by decide) hAnswered).1 1).mp (by decide)

end Zeroraft
