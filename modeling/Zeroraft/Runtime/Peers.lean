import Zeroraft.Runtime.Growth

/-!
# Who writes the peers maps

A replication session starts with a map of its own. The heartbeats and the standby
update both take next indices back; only the standby update records a match.
-/

namespace Zeroraft

variable {S R : Type}

section Entries

variable {peers peers' : PeerMap} {id peer : NodeId}

theorem decrementNextIndex_eq_some (h : decrementNextIndex peers id = some peers') :
    ∃ entry, peers.lookup id = some entry ∧ entry.nextIndex ≠ 0 ∧
      peers' = peers.insert id { entry with nextIndex := entry.nextIndex - 1 } := by
  simp only [decrementNextIndex, Option.bind_eq_bind, Option.bind_eq_some_iff] at h
  obtain ⟨entry, hEntry, h⟩ := h
  split_ifs at h with hNext
  exact ⟨entry, hEntry, hNext, (Option.some.inj h).symm⟩

theorem recordAppended_eq_ok {len : Nat} (h : recordAppended peers id len = .ok peers') :
    ∃ entry, peers.lookup id = some entry ∧ entry.nextIndex + len ≠ 0 ∧
      2 * entry.nextIndex + len < u64Size ∧
      peers' = peers.insert id ⟨entry.nextIndex + (entry.nextIndex + len),
        some (entry.nextIndex + len - 1)⟩ := by
  unfold recordAppended at h
  split at h
  · cases h
  · rename_i entry hEntry
    dsimp only at h
    split_ifs at h with hNext hSum
    exact ⟨entry, hEntry, by omega, by omega, (Except.ok.inj h).symm⟩

/-- A panic changes nothing, or it comes after the match index has been set. -/
theorem recordAppended_eq_error {len : Nat} (h : recordAppended peers id len = .error peers') :
    peers' = peers ∨ ∃ entry, peers.lookup id = some entry ∧ entry.nextIndex + len ≠ 0 ∧
      u64Size ≤ 2 * entry.nextIndex + len ∧
      peers' = peers.insert id { entry with matchIndex := some (entry.nextIndex + len - 1) } := by
  unfold recordAppended at h
  split at h
  · exact Or.inl (Except.error.inj h).symm
  · rename_i entry hEntry
    dsimp only at h
    split_ifs at h with hNext hSum
    · exact Or.inl (Except.error.inj h).symm
    · exact Or.inr ⟨entry, hEntry, by omega, by omega, (Except.error.inj h).symm⟩

theorem exists_recordAppended_eq_ok_iff {len : Nat} :
    (∃ peers', recordAppended peers id len = .ok peers') ↔
      ∃ entry ∈ peers.lookup id, entry.nextIndex + len ≠ 0 ∧
        2 * entry.nextIndex + len < u64Size := by
  constructor
  · rintro ⟨peers', h⟩
    obtain ⟨entry, hEntry, hNext, hSum, _⟩ := recordAppended_eq_ok h
    exact ⟨entry, hEntry, hNext, hSum⟩
  · rintro ⟨entry, hEntry, hNext, hSum⟩
    rw [Option.mem_def] at hEntry
    simp only [recordAppended, hEntry]
    rw [if_neg (by omega), if_neg (by omega)]
    exact ⟨_, rfl⟩

theorem lookup_initialPeers {membership : MembershipMap} {nextIndex : Nat} {entry : Peer} :
    (initialPeers membership id nextIndex).lookup peer = some entry ↔
      peer ∈ membership.peers id ∧ entry = ⟨nextIndex, none⟩ := by
  rw [← Option.mem_def, AList.mem_lookup_iff, initialPeers, List.mem_map]
  constructor
  · rintro ⟨_, hPeer, ⟨⟩⟩
    exact ⟨hPeer, rfl⟩
  · rintro ⟨hPeer, rfl⟩
    exact ⟨peer, hPeer, rfl⟩

theorem mem_insert_of_lookup {entry entry' : Peer} (h : peers.lookup id = some entry) :
    peer ∈ peers.insert id entry' ↔ peer ∈ peers := by
  have hMem : id ∈ peers := AList.lookup_isSome.mp (by rw [h]; rfl)
  rw [AList.mem_insert]
  exact ⟨fun hPeer => hPeer.elim (fun hEq => hEq ▸ hMem) fun hPeer => hPeer, Or.inr⟩

theorem mem_recordAppended {len : Nat} (h : recordAppended peers id len = .ok peers' ∨
    recordAppended peers id len = .error peers') : peer ∈ peers' ↔ peer ∈ peers := by
  rcases h with hOk | hError
  · obtain ⟨entry, hEntry, _, _, rfl⟩ := recordAppended_eq_ok hOk
    exact mem_insert_of_lookup hEntry
  · rcases recordAppended_eq_error hError with rfl | ⟨entry, hEntry, _, _, rfl⟩
    · exact Iff.rfl
    · exact mem_insert_of_lookup hEntry

end Entries

variable [State S R] {m m' : Machine S R}

inductive PeersChange (m : Machine S R) (action : Action R) (m' : Machine S R) : Prop
  | kept (h : m'.replicationSessions = m.replicationSessions)
  | started {nextIndex : Nat} (hAction : action = .main)
      (hMain : m.main = .readMembership nextIndex)
      (h : m'.replicationSessions = m.replicationSessions ++
        [initialPeers (State.getMembership m.node.state) m.node.id nextIndex])
  | mismatch {k i : Nat} {task : Task R} {response : AppendEntriesResponse}
      {peers peers' : PeerMap} (hAction : action = .task k) (hTask : m.tasks[k]? = some task)
      (hLock : task = .heartbeat i (.lockPeers response) ∨ task = .standby i (.lockPeers response))
      (hReason : response.reason = .logMismatch) (hPeers : m.replicationSessions[i]? = some peers)
      (hNext : decrementNextIndex peers response.id = some peers')
      (h : m'.replicationSessions = m.replicationSessions.set i peers')
  | appended {k i : Nat} {response : AppendEntriesResponse} {peers peers' : PeerMap}
      (hAction : action = .task k) (hTask : m.tasks[k]? = some (.standby i (.lockPeers response)))
      (hReason : response.reason = .ok) (hPeers : m.replicationSessions[i]? = some peers)
      (hNext : recordAppended peers response.id response.len = .ok peers' ∨
        recordAppended peers response.id response.len = .error peers')
      (h : m'.replicationSessions = m.replicationSessions.set i peers')

theorem ReplicationStepped.peersChange {k : Nat} {task task' : Task R} {m₁ : Machine S R}
    (hTask : m.tasks[k]? = some task) (h : ReplicationStepped m k task task' m₁)
    (hSame : m'.replicationSessions = m₁.replicationSessions) : PeersChange m (.task k) m' := by
  cases h with
  | heartbeatMismatch hPeers _ hReason hNext =>
    exact PeersChange.mismatch rfl hTask (Or.inl rfl) hReason hPeers hNext hSame
  | standbyMismatch hPeers _ hReason hNext =>
    exact PeersChange.mismatch rfl hTask (Or.inr rfl) hReason hPeers hNext hSame
  | standbyAppended hPeers _ hReason hNext =>
    exact PeersChange.appended rfl hTask hReason hPeers (Or.inl hNext) hSame
  | standbyOverflowed hPeers hReason hNext =>
    exact PeersChange.appended rfl hTask hReason hPeers (Or.inr hNext) hSame
  | heartbeatStepDown h | standbyStepDown h =>
    obtain ⟨node, rfl⟩ := h.frame
    exact PeersChange.kept hSame
  | _ => exact PeersChange.kept hSame

theorem step_peersChange {action : Action R} (hStep : m.step action = some m') :
    PeersChange m action m' := by
  cases step_cases hStep with
  | main h =>
    rcases h.replicationSessions with hKept | ⟨nextIndex, hMain, hNew⟩
    · exact PeersChange.kept hKept
    · exact PeersChange.started rfl hMain hNew
  | select _ h => exact PeersChange.kept h.replicationSessions
  | vote _ h => exact PeersChange.kept h.replicationFrame.replicationSessions
  | replicate hTask h => exact h.peersChange hTask rfl
  | recv _ _ h =>
    obtain ⟨voteSessions, rfl⟩ := h.frame
    exact PeersChange.kept rfl
  | overrun _ | answerVote _ | environment _ _ => exact PeersChange.kept rfl

theorem step_sessionCount {action : Action R} (hStep : m.step action = some m') :
    m.replicationSessions.length ≤ m'.replicationSessions.length := by
  cases step_peersChange hStep with
  | kept h => rw [h]
  | started _ _ h =>
    rw [h, List.length_append]
    exact Nat.le_add_right _ _
  | mismatch _ _ _ _ _ _ h | appended _ _ _ _ _ h => rw [h, List.length_set]

theorem step_sessionCount_started {nextIndex : Nat} (hMain : m.main = .readMembership nextIndex)
    (hStep : m.step .main = some m') :
    m'.replicationSessions.length = m.replicationSessions.length + 1 := by
  simp only [Machine.step, mainStep, hMain] at hStep
  cases hStep
  exact List.length_append

end Zeroraft
