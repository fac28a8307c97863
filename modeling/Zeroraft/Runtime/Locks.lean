import Zeroraft.Library.RwLock
import Zeroraft.Runtime.Peers

/-!
# The locks of the handling of a response

The guards that the heartbeats and the standby update take for one response, as
the source nests them, and the lock of a peers map that the tasks of a machine
hold between them.
-/

namespace Zeroraft

open RwLocks

variable {S R : Type}

/-- The lock of the session's peers map, and those of the node. -/
inductive LockName where
  | peers
  | state
  | currentState
  deriving DecidableEq

section Handling

variable [State S R]

/-- `update_current_term(term)?` and `change_to_follower_state()`. -/
def stepDownLocking (node : RaftNode S) (term : Nat) : Locking LockName :=
  (Locking.once .state .write).append
    (match (State.storeCurrentTerm node.state term).1 with
    | .ok () => .once .currentState .write
    | .error _ => .done)

def calculateLastCommitIndexLocking (peers : PeerMap) : Locking LockName :=
  (Locking.once .peers .read).append
    (if matchIndices peers = [] then .done else .once .state .read)

/-- The body of the receive loop of `send_heartbeats`. -/
def heartbeatLocking (node : RaftNode S) (response : AppendEntriesResponse) : Locking LockName :=
  .guard .peers .write
    (match response.reason with
    | .logMismatch => .done
    | .staleTerm => stepDownLocking node response.term
    | .ok => .done)
    .done

/-- The body of the receive loop of `start_standby_update`. -/
def standbyLocking (node : RaftNode S) (peers : PeerMap) (response : AppendEntriesResponse) :
    Locking LockName :=
  .guard .peers .write
    (match response.reason with
    | .logMismatch => .done
    | .ok =>
      match recordAppended peers response.id response.len with
      -- The unwinding of a panic drops the guard.
      | .error _ => .done
      | .ok peers' =>
        (Locking.once .state .read).append ((calculateLastCommitIndexLocking peers').append
          (match calculateLastCommitIndex node peers' with
          | none => .done
          | some lastCommitIndex =>
            if State.getLastCommitIndex node.state < lastCommitIndex then .once .state .write
            else .done))
    | .staleTerm => stepDownLocking node response.term)
    .done

theorem stepDownLocking_noSelfConflict (node : RaftNode S) (term : Nat) :
    (stepDownLocking node term).NoSelfConflict [(.peers, .write)] := by
  rw [stepDownLocking, Locking.noSelfConflict_append]
  refine ⟨by simp [Locking.Conflicts], ?_⟩
  split
  · simp [Locking.Conflicts]
  · trivial

theorem heartbeatLocking_noSelfConflict (node : RaftNode S) (response : AppendEntriesResponse) :
    (heartbeatLocking node response).NoSelfConflict [] := by
  refine ⟨by simp [Locking.Conflicts], ?_, trivial⟩
  split
  · trivial
  · exact stepDownLocking_noSelfConflict node _
  · trivial

/-- The standby update requests the map against its own guard after every `Ok`
that it can record. -/
theorem standbyLocking_noSelfConflict_iff (node : RaftNode S) (peers : PeerMap)
    (response : AppendEntriesResponse) :
    (standbyLocking node peers response).NoSelfConflict [] ↔
      (response.reason = .ok →
        ¬ ∃ peers', recordAppended peers response.id response.len = .ok peers') := by
  have hOuter : ¬ Locking.Conflicts [] LockName.peers .write := by simp [Locking.Conflicts]
  simp only [standbyLocking, Locking.NoSelfConflict, hOuter, not_false_eq_true, true_and, and_true]
  cases hReason : response.reason with
  | staleTerm => simp [stepDownLocking_noSelfConflict]
  | logMismatch => simp [Locking.NoSelfConflict]
  | ok =>
    cases hNext : recordAppended peers response.id response.len with
    | error _ => simp [Locking.NoSelfConflict]
    | ok peers' => simp [calculateLastCommitIndexLocking, Locking.Conflicts]

end Handling

namespace Machine

variable (m : Machine S R) (i : Nat)

def peersLock : RwLock :=
  if m.tasks.any (Task.writesPeers i) then .writer
  else .readers (m.tasks.countP (Task.readsPeers i))

theorem canRead_iff : m.CanRead i ↔ (m.peersLock i).acquire .read ≠ none := by
  unfold peersLock CanRead
  split
  · rename_i h
    obtain ⟨task, hMem, hWrites⟩ := List.any_eq_true.mp h
    simp only [RwLock.acquire, ne_eq, not_true_eq_false, iff_false, not_forall]
    exact ⟨task, hMem, by simp [hWrites]⟩
  · rename_i h
    simpa [RwLock.acquire] using h

theorem canWrite_iff : m.CanWrite i ↔ (m.peersLock i).acquire .write ≠ none := by
  unfold peersLock CanWrite
  split
  · rename_i h
    obtain ⟨task, hMem, hWrites⟩ := List.any_eq_true.mp h
    simp only [RwLock.acquire, ne_eq, not_true_eq_false, iff_false, not_forall]
    exact ⟨task, hMem, by simp [hWrites]⟩
  · rename_i h
    simp only [List.any_eq_true, not_exists, not_and, Bool.not_eq_true] at h
    simp only [RwLock.acquire, ne_eq, ite_eq_right_iff, reduceCtorEq, imp_false, not_not,
      List.countP_eq_zero]
    exact ⟨fun hFree task hMem => by simp [(hFree task hMem).2],
      fun hNone task hMem => ⟨h task hMem, by simpa using hNone task hMem⟩⟩

end Machine

end Zeroraft
