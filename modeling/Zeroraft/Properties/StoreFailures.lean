import Zeroraft.Properties.VoteRecord
import Zeroraft.Model.Builder

/-!
# Failing stores

Every write of the `State` may fail. A handler makes several of them in a row and
returns at the first that fails, without undoing the ones before.
-/

namespace Zeroraft

section Faulty

variable {R : Type}

/-- The operations of the `State` that can fail. -/
inductive StateOperation where
  | appendEntries
  | removeEntriesAfter
  | setLastCommitIndex
  | setInitialMembership
  | storeVotedFor
  | storeCurrentTerm
  deriving DecidableEq

/-- A record of observations one of whose operations fails whenever it is called. -/
structure Faulty (R : Type) where
  record : Stored R
  broken : StateOperation

def Faulty.write (s : Faulty R) (operation : StateOperation) (after : Stored R) :
    Result Unit × Faulty R :=
  if s.broken = operation then (.error (.stateMachineError "write failed"), s)
  else (.ok (), { s with record := after })

instance Faulty.instState : State (Faulty R) R where
  appendEntries s es := s.write .appendEntries { s.record with log := s.record.log ++ es }
  removeEntriesAfter s i := s.write .removeEntriesAfter { s.record with log := s.record.log.take i }
  getEntry s i := s.record.entry i
  getEntries s start limit := State.getEntries s.record start limit
  getLastIndex s := s.record.log.length
  getLastTerm s := s.record.lastTerm
  getLastCommitIndex s := s.record.commit
  getMembership s := s.record.membership
  setInitialMembership s m := s.write .setInitialMembership { s.record with membership := m }
  setLastCommitIndex s i := s.write .setLastCommitIndex { s.record with commit := i }
  loadVotedFor s := s.record.votedFor
  loadCurrentTerm s := s.record.currentTerm
  storeVotedFor s c := s.write .storeVotedFor { s.record with votedFor := some c }
  storeCurrentTerm s t := s.write .storeCurrentTerm { s.record with currentTerm := t }

theorem Faulty.effect_write (s : Faulty R) (operation : StateOperation) (after : Stored R) :
    Effect (stored s) after (s.write operation after) := by
  unfold Faulty.write
  split
  · exact Or.inr ⟨⟨_, rfl⟩, rfl⟩
  · exact Or.inl ⟨rfl, rfl⟩

instance Faulty.instFallibleState : FallibleState (Faulty R) R where
  getEntry_eq _ _ := rfl
  getEntries_from _ _ _ := rfl
  getLastIndex_eq _ := rfl
  getLastTerm_eq _ := rfl
  appendEntries s _ := s.effect_write _ _
  removeEntriesAfter s _ := s.effect_write _ _
  setLastCommitIndex s _ := s.effect_write _ _
  setInitialMembership s _ := s.effect_write _ _
  storeVotedFor s _ := s.effect_write _ _
  storeCurrentTerm s _ := s.effect_write _ _

/-- A follower in term 1 that has voted for node 3; its log holds one committed entry. -/
def faultyNode (broken : StateOperation) : RaftNode (Faulty Nat) where
  id := 1
  currentTerm := 1
  votedFor := some 3
  state := ⟨⟨[⟨1, .clientRequest 5⟩], 1, ⟨[1, 2, 3], nodup_triple⟩, some 3, 1⟩, broken⟩
  currentState := .follower
  leaderId := none

end Faulty

variable {S R : Type} [State S R]

section Vote

/-- The persisted term and vote, which a restarted node loads. -/
def RaftNode.persisted (node : RaftNode S) : Nat × Option NodeId :=
  (State.loadCurrentTerm node.state, State.loadVotedFor node.state)

/-- `store_current_term` succeeds. -/
def RaftNode.StoresTerm (node : RaftNode S) (term : Nat) : Prop :=
  (State.storeCurrentTerm node.state term).1 = .ok ()

/-- `store_voted_for` succeeds on the state with the new term. -/
def RaftNode.StoresVote (node : RaftNode S) (term : Nat) (candidateId : NodeId) : Prop :=
  (State.storeVotedFor (State.storeCurrentTerm node.state term).2 candidateId).1 = .ok ()

/-- Term and vote are persisted together or not at all, and the memory follows. -/
structure PersistedTogether (node : RaftNode S) (new : Nat × Option NodeId)
    (outcome : Result Unit × RaftNode S) : Prop where
  oldOrNew : outcome.2.persisted = node.persisted ∨ outcome.2.persisted = new
  memory : node.memory = node.persisted → outcome.2.memory = outcome.2.persisted
  newIff : outcome.2.persisted = new ↔ outcome.1 = .ok ()

variable [FallibleState S R] {node : RaftNode S} {term : Nat} {candidateId : NodeId}

inductive Updated (node : RaftNode S) (term : Nat) (candidateId : NodeId)
    (outcome : Result Unit × RaftNode S) : Prop
  | both (hTerm : node.StoresTerm term) (hVote : node.StoresVote term candidateId)
      (hResult : outcome.1 = .ok ()) (hPersisted : outcome.2.persisted = (term, some candidateId))
      (hMemory : outcome.2.memory = (term, some candidateId))
  | termOnly (hTerm : node.StoresTerm term) (hVote : ¬ node.StoresVote term candidateId)
      (hResult : outcome.1 ≠ .ok ()) (hPersisted : outcome.2.persisted = (term, node.persisted.2))
      (hMemory : outcome.2.memory = node.memory)
  | neither (hTerm : ¬ node.StoresTerm term) (hResult : outcome.1 ≠ .ok ())
      (hPersisted : outcome.2.persisted = node.persisted)
      (hMemory : outcome.2.memory = node.memory)

theorem updateCurrentTermAndVotedFor_updated (node : RaftNode S) (term : Nat)
    (candidateId : NodeId) :
    Updated node term candidateId ((updateCurrentTermAndVotedFor term candidateId).run node) := by
  have hFirst := FallibleState.storeCurrentTerm node.state term
  have hSecond := FallibleState.storeVotedFor (State.storeCurrentTerm node.state term).2 candidateId
  unfold updateCurrentTermAndVotedFor
  rcases hTerm : (State.storeCurrentTerm node.state term).1 with e | ⟨⟨⟩⟩
  · have hFailed : ¬ node.StoresTerm term := fun h => by cases hTerm.symm.trans h
    rw [NodeM.run_modifyState_bind_error hTerm]
    refine .neither hFailed (by rintro ⟨⟩) ?_ rfl
    exact congrArg (fun s : Stored R => (s.currentTerm, s.votedFor)) (hFirst.error hTerm)
  rw [NodeM.run_modifyState_bind hTerm]
  rw [hFirst.ok hTerm] at hSecond
  rcases hVote : (State.storeVotedFor (State.storeCurrentTerm node.state term).2 candidateId).1
    with e | ⟨⟨⟩⟩
  · have hFailed : ¬ node.StoresVote term candidateId := fun h => by cases hVote.symm.trans h
    rw [NodeM.run_modifyState_bind_error hVote]
    refine .termOnly hTerm hFailed (by rintro ⟨⟩) ?_ rfl
    exact congrArg (fun s : Stored R => (s.currentTerm, s.votedFor)) (hSecond.error hVote)
  · rw [NodeM.run_modifyState_bind hVote]
    refine .both hTerm hVote rfl ?_ rfl
    exact congrArg (fun s : Stored R => (s.currentTerm, s.votedFor)) (hSecond.ok hVote)

omit [FallibleState S R] in
theorem persistedTogether_of_unchanged {new : Nat × Option NodeId}
    {outcome : Result Unit × RaftNode S} (hResult : outcome.1 ≠ .ok ())
    (hPersisted : outcome.2.persisted = node.persisted) (hMemory : outcome.2.memory = node.memory) :
    PersistedTogether node new outcome ↔ node.persisted ≠ new := by
  constructor
  · intro h hEq
    exact hResult (h.newIff.mp (hPersisted.trans hEq))
  · intro hNot
    refine ⟨Or.inl hPersisted, fun h => ?_, fun h => ?_, fun h => absurd h hResult⟩
    · rw [hMemory, h, hPersisted]
    · exact absurd (hPersisted.symm.trans h) hNot

theorem persistedTogether_iff (node : RaftNode S) (term : Nat) (candidateId : NodeId) :
    PersistedTogether node (term, some candidateId)
        ((updateCurrentTermAndVotedFor term candidateId).run node) ↔
      (node.StoresTerm term ∧ node.StoresVote term candidateId) ∨
        (node.persisted ≠ (term, some candidateId) ∧
          (node.StoresTerm term → node.persisted.1 = term)) := by
  cases updateCurrentTermAndVotedFor_updated node term candidateId with
  | both hTerm hVote hResult hPersisted hMemory =>
    have hHolds : PersistedTogether node (term, some candidateId)
        ((updateCurrentTermAndVotedFor term candidateId).run node) :=
      ⟨Or.inr hPersisted, fun _ => hMemory.trans hPersisted.symm,
        ⟨fun _ => hResult, fun _ => hPersisted⟩⟩
    exact ⟨fun _ => Or.inl ⟨hTerm, hVote⟩, fun _ => hHolds⟩
  | termOnly hTerm hVote hResult hPersisted hMemory =>
    -- The new term with the old vote: the old pair only if the term was the old one.
    constructor
    · intro h
      have hNotNew : (term, node.persisted.2) ≠ (term, some candidateId) := fun hEq =>
        hResult (h.newIff.mp (hPersisted.trans hEq))
      have hOld := h.oldOrNew.resolve_right fun hNew => hNotNew (hPersisted.symm.trans hNew)
      have hSame : node.persisted = (term, node.persisted.2) := hOld.symm.trans hPersisted
      refine Or.inr ⟨?_, fun _ => congrArg Prod.fst hSame⟩
      rw [hSame]
      exact hNotNew
    · rintro (⟨-, h⟩ | ⟨hNot, hSame⟩)
      · exact absurd h hVote
      · have hOld : (term, node.persisted.2) = node.persisted := by rw [← hSame hTerm]
        exact (persistedTogether_of_unchanged hResult (hPersisted.trans hOld) hMemory).mpr hNot
  | neither hTerm hResult hPersisted hMemory =>
    rw [persistedTogether_of_unchanged hResult hPersisted hMemory]
    constructor
    · intro hNot
      exact Or.inr ⟨hNot, fun h => absurd h hTerm⟩
    · rintro (⟨h, -⟩ | ⟨hNot, -⟩)
      · exact absurd h hTerm
      · exact hNot

/-- A node whose term cannot be stored keeps its vote. -/
theorem persistedTogether_without_term :
    PersistedTogether (faultyNode .storeCurrentTerm) (2, some 2)
      ((updateCurrentTermAndVotedFor 2 2).run (faultyNode .storeCurrentTerm)) := by
  have hNotNew : (faultyNode .storeCurrentTerm).persisted ≠ (2, some 2) := by decide
  refine (persistedTogether_iff _ 2 2).mpr (Or.inr ⟨hNotNew, ?_⟩)
  rintro ⟨⟩

/-- `store_voted_for` fails after `store_current_term` has succeeded: the node persists
the new term with the old vote, and a restart votes for node 3 in term 2. -/
theorem term_persisted_without_vote :
    (∃ e, ((updateCurrentTermAndVotedFor 2 2).run (faultyNode .storeVotedFor)).1 = .error e) ∧
    ((updateCurrentTermAndVotedFor 2 2).run (faultyNode .storeVotedFor)).2.persisted =
      (2, some 3) ∧
    ¬ PersistedTogether (faultyNode .storeVotedFor) (2, some 2)
      ((updateCurrentTermAndVotedFor 2 2).run (faultyNode .storeVotedFor)) ∧
    ((RaftNodeBuilder.mk 1 ((updateCurrentTermAndVotedFor 2 2).run
        (faultyNode .storeVotedFor)).2.state ⟨[1, 2, 3], nodup_triple⟩).build).map
      RaftNode.memory = .ok (2, some 3) := by
  refine ⟨⟨_, rfl⟩, rfl, fun h => ?_, rfl⟩
  have hOldOrNew : ((2, some 3) : Nat × Option NodeId) = (1, some 3) ∨
      ((2, some 3) : Nat × Option NodeId) = (2, some 2) := h.oldOrNew
  exact absurd hOldOrNew (by decide)

end Vote

section Log

/-- The part of the `State` that the replacement of the log is about. -/
def Stored.journal (s : Stored R) : List (LogEntry R) × Nat := (s.log, s.commit)

/-- The calls of `respond_to_append_entries` that can fail, in their order. -/
inductive FailurePoint where
  | storeCurrentTerm
  | removeEntriesAfter
  | appendEntries
  | setLastCommitIndex
  | send
  deriving DecidableEq

namespace AppendEntriesRequest

def Accepted (request : AppendEntriesRequest R) (node : RaftNode S) : Prop :=
  node.currentTerm ≤ request.term ∧ ¬ request.Mismatch (stored node.state)

/-- `remove_entries_after`, `append_entries` and `set_last_commit_index`, each on the state
that the calls before it have left. -/
def cut (request : AppendEntriesRequest R) (node : RaftNode S) : Result Unit × S :=
  State.removeEntriesAfter (request.follow node).state request.prevLogIndex

def extended (request : AppendEntriesRequest R) (node : RaftNode S) : Result Unit × S :=
  State.appendEntries (request.cut node).2 request.entries

def committed (request : AppendEntriesRequest R) (node : RaftNode S) : Result Unit × S :=
  State.setLastCommitIndex (request.extended node).2
    (min request.lastCommitIndex (State.getLastIndex (request.extended node).2))

def failurePoint (request : AppendEntriesRequest R) (responseTx : Sender) (node : RaftNode S) :
    Option FailurePoint :=
  match (State.storeCurrentTerm node.state request.term).1, (request.cut node).1,
    (request.extended node).1, (request.committed node).1, responseTx.closed with
  | .error _, _, _, _, _ => some .storeCurrentTerm
  | .ok _, .error _, _, _, _ => some .removeEntriesAfter
  | .ok _, .ok _, .error _, _, _ => some .appendEntries
  | .ok _, .ok _, .ok _, .error _, _ => some .setLastCommitIndex
  | .ok _, .ok _, .ok _, .ok _, true => some .send
  | .ok _, .ok _, .ok _, .ok _, false => none

/-- The log and the commit index that the calls before the failing one leave behind. -/
def journalAt (request : AppendEntriesRequest R) (s : Stored R) :
    FailurePoint → List (LogEntry R) × Nat
  | .storeCurrentTerm | .removeEntriesAfter => s.journal
  | .appendEntries => (s.log.take request.prevLogIndex, s.commit)
  | .setLastCommitIndex => (s.log.take request.prevLogIndex ++ request.entries, s.commit)
  | .send =>
    let log := s.log.take request.prevLogIndex ++ request.entries
    (log, min request.lastCommitIndex log.length)

/-- The calls before the failing one have changed nothing, and the commit index was within
the log: no entry follows `prevLogIndex`, or the request brings the very entries that do. -/
def Harmless (request : AppendEntriesRequest R) (s : Stored R) : FailurePoint → Prop
  | .storeCurrentTerm | .removeEntriesAfter => s.commit ≤ s.log.length
  | .appendEntries => s.log.length ≤ request.prevLogIndex ∧ s.commit ≤ s.log.length
  | .setLastCommitIndex =>
    s.log.drop request.prevLogIndex = request.entries ∧ s.commit ≤ s.log.length
  | .send =>
    s.log.drop request.prevLogIndex = request.entries ∧
      s.commit = min request.lastCommitIndex s.log.length

theorem harmless_iff (request : AppendEntriesRequest R) (s : Stored R) (point : FailurePoint) :
    (request.journalAt s point = s.journal ∧
        (request.journalAt s point).2 ≤ (request.journalAt s point).1.length) ↔
      request.Harmless s point := by
  have hSpliced : s.log.take request.prevLogIndex ++ request.entries = s.log ↔
      s.log.drop request.prevLogIndex = request.entries := by
    conv_lhs => rhs; rw [← List.take_append_drop request.prevLogIndex s.log]
    rw [List.append_cancel_left_eq]
    exact eq_comm
  cases point with
  | storeCurrentTerm => exact ⟨And.right, fun h => ⟨rfl, h⟩⟩
  | removeEntriesAfter => exact ⟨And.right, fun h => ⟨rfl, h⟩⟩
  | appendEntries =>
    simp only [journalAt, Stored.journal, Harmless, Prod.mk.injEq, and_true, List.take_eq_self_iff]
    constructor
    · rintro ⟨hCut, hCommit⟩
      rw [List.take_of_length_le hCut] at hCommit
      exact ⟨hCut, hCommit⟩
    · rintro ⟨hCut, hCommit⟩
      rw [List.take_of_length_le hCut]
      exact ⟨hCut, hCommit⟩
  | setLastCommitIndex =>
    simp only [journalAt, Stored.journal, Harmless, Prod.mk.injEq, and_true, hSpliced]
    refine and_congr_right fun hEntries => ?_
    rw [hSpliced.mpr hEntries]
  | send =>
    simp only [journalAt, Stored.journal, Harmless, Prod.mk.injEq, hSpliced, and_assoc]
    refine and_congr_right fun hEntries => ?_
    rw [hSpliced.mpr hEntries]
    omega

end AppendEntriesRequest

inductive Replaced (request : AppendEntriesRequest R) (responseTx : Sender) (node : RaftNode S)
    (outcome : Result AppendEntriesResponse × RaftNode S) : Prop
  | answered (hPoint : request.failurePoint responseTx node = none)
      (hResult : ∃ response, outcome.1 = .ok response)
  | failed (point : FailurePoint) (hPoint : request.failurePoint responseTx node = some point)
      (hResult : ∃ e, outcome.1 = .error e)
      (hJournal : (stored outcome.2.state).journal =
        request.journalAt (stored node.state) point)

variable [FallibleState S R]

/-- The part of the handler after its checks. -/
def AppendEntriesRequest.replaceLog (request : AppendEntriesRequest R) (responseTx : Sender)
    (response : AppendEntriesResponse) : NodeM S AppendEntriesResponse := do
  NodeM.modifyState (State.removeEntriesAfter · request.prevLogIndex)
  NodeM.modifyState (State.appendEntries · request.entries)
  let ourLastLogIndex ← NodeM.read (State.getLastIndex ·.state)
  NodeM.modifyState (State.setLastCommitIndex · (min request.lastCommitIndex ourLastLogIndex))
  responseTx.send response

theorem run_accepted {request : AppendEntriesRequest R} {node : RaftNode S} (responseTx : Sender)
    (hAccepted : request.Accepted node)
    (hTerm : (State.storeCurrentTerm node.state request.term).1 = .ok ()) :
    (respondToAppendEntries request responseTx).run node =
      (request.replaceLog responseTx ⟨node.currentTerm, true, node.id, request.entries.length,
        .ok⟩).run (request.follow node) := by
  obtain ⟨hFresh, hMatches⟩ := hAccepted
  obtain ⟨hLong, hEntry⟩ := not_or.mp hMatches
  simp only [respondToAppendEntries, getCurrentTerm, getId, NodeM.run_read_bind, NodeM.run_ite]
  rw [if_neg (Nat.not_lt.mpr hFresh), FallibleState.getLastIndex_eq]
  simp only [updateCurrentTerm, setCurrentTerm, NodeM.run_bind_assoc]
  rw [NodeM.run_modifyState_bind hTerm]
  simp only [updateLeaderId, changeToFollowerState, NodeM.run_modify_bind, NodeM.run_ite,
    NodeM.run_read_bind, FallibleState.getEntry_eq]
  have hSame : (stored (State.storeCurrentTerm node.state request.term).2).entry
      request.prevLogIndex = (stored node.state).entry request.prevLogIndex :=
    (FallibleState.storeCurrentTerm node.state request.term).keeps (·.entry request.prevLogIndex) rfl
  rw [hSame, if_neg hLong, if_neg hEntry]
  rfl

omit [FallibleState S R] in
theorem run_accepted_error {request : AppendEntriesRequest R} {node : RaftNode S}
    (responseTx : Sender) (hAccepted : request.Accepted node) {e : ZeroraftError}
    (hTerm : (State.storeCurrentTerm node.state request.term).1 = .error e) :
    (respondToAppendEntries request responseTx).run node =
      (.error e, { node with state := (State.storeCurrentTerm node.state request.term).2 }) := by
  simp only [respondToAppendEntries, getCurrentTerm, getId, NodeM.run_read_bind, NodeM.run_ite]
  rw [if_neg (Nat.not_lt.mpr hAccepted.1)]
  simp only [updateCurrentTerm, setCurrentTerm, NodeM.run_bind_assoc]
  rw [NodeM.run_modifyState_bind_error hTerm]

section Journal

variable {request : AppendEntriesRequest R} {node : RaftNode S}

theorem journal_follow (request : AppendEntriesRequest R) (node : RaftNode S) :
    (stored (request.follow node).state).journal = (stored node.state).journal :=
  (FallibleState.storeCurrentTerm node.state request.term).keeps Stored.journal rfl

theorem journal_cut (hCut : (request.cut node).1 = .ok ()) : (stored (request.cut node).2).journal =
      ((stored node.state).log.take request.prevLogIndex, (stored node.state).commit) := by
  obtain ⟨hLog, hCommit⟩ := Prod.mk.inj (journal_follow request node)
  rw [← hLog, ← hCommit]
  exact congrArg Stored.journal ((FallibleState.removeEntriesAfter _ _).ok hCut)

theorem journal_extended (hCut : (request.cut node).1 = .ok ())
    (hExtended : (request.extended node).1 = .ok ()) :
    (stored (request.extended node).2).journal =
      ((stored node.state).log.take request.prevLogIndex ++ request.entries,
        (stored node.state).commit) := by
  obtain ⟨hLog, hCommit⟩ := Prod.mk.inj (journal_cut hCut)
  rw [← hLog, ← hCommit]
  exact congrArg Stored.journal ((FallibleState.appendEntries _ _).ok hExtended)

theorem journal_committed (hCut : (request.cut node).1 = .ok ())
    (hExtended : (request.extended node).1 = .ok ()) (hCommitted : (request.committed node).1 = .ok ()) :
    (stored (request.committed node).2).journal =
      request.journalAt (stored node.state) .send := by
  obtain ⟨hLog, -⟩ := Prod.mk.inj (journal_extended hCut hExtended)
  rw [AppendEntriesRequest.journalAt, ← hLog, ← FallibleState.getLastIndex_eq]
  exact congrArg Stored.journal ((FallibleState.setLastCommitIndex _ _).ok hCommitted)

end Journal

theorem respondToAppendEntries_replaced {request : AppendEntriesRequest R} {node : RaftNode S}
    (responseTx : Sender) (hAccepted : request.Accepted node) :
    Replaced request responseTx node ((respondToAppendEntries request responseTx).run node) := by
  -- One case for each call that can be the first to fail, with the journal left so far.
  rcases hTerm : (State.storeCurrentTerm node.state request.term).1 with e | ⟨⟨⟩⟩
  · rw [run_accepted_error responseTx hAccepted hTerm]
    refine .failed .storeCurrentTerm ?_ ⟨e, rfl⟩ ?_
    · simp only [AppendEntriesRequest.failurePoint, hTerm]
    · exact congrArg Stored.journal ((FallibleState.storeCurrentTerm _ _).error hTerm)
  rw [run_accepted responseTx hAccepted hTerm, AppendEntriesRequest.replaceLog]
  rcases hCut : (request.cut node).1 with e | ⟨⟨⟩⟩
  · rw [NodeM.run_modifyState_bind_error hCut]
    refine .failed .removeEntriesAfter ?_ ⟨e, rfl⟩ ?_
    · simp only [AppendEntriesRequest.failurePoint, hTerm, hCut]
    · have hKept := congrArg Stored.journal ((FallibleState.removeEntriesAfter _ _).error hCut)
      exact hKept.trans (journal_follow request node)
  rw [NodeM.run_modifyState_bind hCut]
  rcases hExtended : (request.extended node).1 with e | ⟨⟨⟩⟩
  · rw [NodeM.run_modifyState_bind_error hExtended]
    refine .failed .appendEntries ?_ ⟨e, rfl⟩ ?_
    · simp only [AppendEntriesRequest.failurePoint, hTerm, hCut, hExtended]
    · have hKept := congrArg Stored.journal ((FallibleState.appendEntries _ _).error hExtended)
      exact hKept.trans (journal_cut hCut)
  rw [NodeM.run_modifyState_bind hExtended, NodeM.run_read_bind]
  rcases hCommitted : (request.committed node).1 with e | ⟨⟨⟩⟩
  · rw [NodeM.run_modifyState_bind_error hCommitted]
    refine .failed .setLastCommitIndex ?_ ⟨e, rfl⟩ ?_
    · simp only [AppendEntriesRequest.failurePoint, hTerm, hCut, hExtended, hCommitted]
    · have hKept := congrArg Stored.journal
        ((FallibleState.setLastCommitIndex _ _).error hCommitted)
      exact hKept.trans (journal_extended hCut hExtended)
  rw [NodeM.run_modifyState_bind hCommitted]
  cases hClosed : responseTx.closed with
  | true =>
    refine .failed .send ?_ ?_ ?_
    · simp only [AppendEntriesRequest.failurePoint, hTerm, hCut, hExtended, hCommitted, hClosed]
    · exact ⟨_, by simp only [NodeM.run, Sender.send, hClosed, if_true]; rfl⟩
    · rw [Sender.run_send_snd]
      exact journal_committed hCut hExtended hCommitted
  | false =>
    refine .answered ?_ ?_
    · simp only [AppendEntriesRequest.failurePoint, hTerm, hCut, hExtended, hCommitted, hClosed]
    · exact ⟨_, by simp only [NodeM.run, Sender.send, hClosed]; rfl⟩

/-- A failed request leaves the log and the commit index as they were, within bounds. -/
def ReplacesAtomically (request : AppendEntriesRequest R) (responseTx : Sender)
    (node : RaftNode S) : Prop :=
  ∀ e node', (respondToAppendEntries request responseTx).run node = (.error e, node') →
    (stored node'.state).journal = (stored node.state).journal ∧
      (stored node'.state).commit ≤ (stored node'.state).log.length

theorem replacesAtomically_iff (request : AppendEntriesRequest R) (responseTx : Sender)
    (node : RaftNode S) (hAccepted : request.Accepted node) :
    ReplacesAtomically request responseTx node ↔
      ∀ point, request.failurePoint responseTx node = some point →
        request.Harmless (stored node.state) point := by
  unfold ReplacesAtomically
  rcases hRun : (respondToAppendEntries request responseTx).run node with ⟨result, node'⟩
  have hReplaced := respondToAppendEntries_replaced responseTx hAccepted
  rw [hRun] at hReplaced
  cases hReplaced with
  | answered hPoint hResult =>
    obtain ⟨response, rfl⟩ := hResult
    rw [hPoint]
    exact ⟨fun _ _ h => (by cases h), fun _ _ _ h => (by cases h)⟩
  | failed point hPoint hResult hJournal =>
    obtain ⟨e, rfl⟩ := hResult
    have hHarmless := request.harmless_iff (stored node.state) point
    rw [← hJournal] at hHarmless
    constructor
    · intro h point' hPoint'
      cases hPoint.symm.trans hPoint'
      exact hHarmless.mp (h e node' rfl)
    · rintro h e' node'' ⟨⟩
      exact hHarmless.mpr (h point hPoint)

def oneEntryRequest : AppendEntriesRequest Nat := ⟨1, 2, 1, 0, 0, [⟨1, .clientRequest 7⟩]⟩

/-- A node whose term cannot be stored keeps its log. -/
theorem replacesAtomically_without_term :
    ReplacesAtomically oneEntryRequest ⟨2, 0, false⟩ (faultyNode .storeCurrentTerm) := by
  have hAccepted : oneEntryRequest.Accepted (faultyNode .storeCurrentTerm) :=
    ⟨by decide, by decide⟩
  refine (replacesAtomically_iff _ _ _ hAccepted).mpr ?_
  rintro point ⟨⟩
  exact Nat.le_refl 1

/-- `append_entries` fails after `remove_entries_after` has succeeded: the committed entry
is gone, and the commit index is beyond the end of the log. -/
theorem committed_entry_lost_on_error :
    oneEntryRequest.Accepted (faultyNode .appendEntries) ∧
    (∃ e node', (respondToAppendEntries oneEntryRequest ⟨2, 0, false⟩).run
        (faultyNode .appendEntries) = (.error e, node') ∧
      (stored node'.state).log = [] ∧ (stored node'.state).commit = 1) ∧
    ¬ ReplacesAtomically oneEntryRequest ⟨2, 0, false⟩ (faultyNode .appendEntries) := by
  refine ⟨⟨by decide, by decide⟩, ⟨_, _, rfl, rfl, rfl⟩, fun h => ?_⟩
  have hCommit : (1 : Nat) ≤ 0 := (h _ _ rfl).2
  exact absurd hCommit (by decide)

end Log

end Zeroraft
