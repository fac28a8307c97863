import Zeroraft.Properties.OnlyLeaders
import Zeroraft.Properties.CommitRule
import Zeroraft.Runtime.Locks
import Zeroraft.Runtime.Turns

/-!
# Replication that waits for itself

`calculate_last_commit_index` reads the peers map while the standby update still
holds its write guard. The locks of tokio are not reentrant, so the first `Ok`
that is recorded stops the session for good.
-/

namespace Zeroraft

open RwLocks

variable {S R : Type} [State S R] {m m' : Machine S R}

/-- The task requests no lock against a guard of its own; where nobody else holds a
lock it comes to its end and has dropped its guards. -/
structure Completes (p : Locking LockName) : Prop where
  noSelfConflict : p.NoSelfConflict []
  run : p.run (fun _ => RwLock.free) = some fun _ => RwLock.free

theorem completes_iff (p : Locking LockName) : Completes p ↔ p.NoSelfConflict [] :=
  ⟨fun h => h.noSelfConflict, fun h => ⟨h, (Locking.run_free_iff p).mpr h⟩⟩

/-- The response is no `Ok`, or the recording of it panics: its sender has no entry, or the
arithmetic of `u64` leaves its range. -/
def NotRecorded (peers : PeerMap) (response : AppendEntriesResponse) : Prop :=
  response.reason = .ok → ∀ peer ∈ peers.lookup response.id,
    peer.nextIndex + response.len = 0 ∨ u64Size ≤ 2 * peer.nextIndex + response.len

theorem notRecorded_iff (peers : PeerMap) (response : AppendEntriesResponse) :
    NotRecorded peers response ↔ (response.reason = .ok →
      ¬ ∃ peers', recordAppended peers response.id response.len = .ok peers') := by
  refine imp_congr_right fun _ => ?_
  rw [exists_recordAppended_eq_ok_iff]
  constructor
  · rintro h ⟨peer, hPeer, hNext, hSum⟩
    have hPanics := h peer hPeer
    omega
  · intro h peer hPeer
    by_contra hRecorded
    exact h ⟨peer, hPeer, by omega, by omega⟩

theorem standbyLocking_completes_iff (node : RaftNode S) (peers : PeerMap)
    (response : AppendEntriesResponse) :
    Completes (standbyLocking node peers response) ↔ NotRecorded peers response := by
  rw [completes_iff, standbyLocking_noSelfConflict_iff, notRecorded_iff]

/-- Whatever else holds locks, an `Ok` that is recorded is never handled. -/
theorem standbyLocking_run_eq_none (node : RaftNode S) {peers peers' : PeerMap}
    {response : AppendEntriesResponse} (hReason : response.reason = .ok)
    (hNext : recordAppended peers response.id response.len = .ok peers')
    (locks : LockName → RwLock) : (standbyLocking node peers response).run locks = none := by
  refine Locking.run_eq_none (fun h => ?_) locks
  exact (standbyLocking_noSelfConflict_iff _ _ _).mp h hReason ⟨peers', hNext⟩

section Machine

omit [State S R] in
theorem calculate_waits {k i index : Nat}
    (hTask : m.tasks[k]? = some (.standby i (.calculate index))) : ¬ m.CanRead i := by
  intro h
  have hWrites := h _ (List.mem_of_getElem? hTask)
  simp [Task.writesPeers] at hWrites

theorem step_calculate {action : Action R} {k i index : Nat} (hStep : m.step action = some m')
    (hTask : m.tasks[k]? = some (.standby i (.calculate index))) :
    m'.tasks[k]? = some (.standby i (.calculate index)) := by
  obtain ⟨task', hTask', hTurn⟩ := step_turn hStep hTask
  cases hTurn with
  | kept | stopped _ => exact hTask'
  | vote h => cases h
  | replicate h =>
    cases h with
    | notNewer hRead => exact absurd hRead (calculate_waits hTask)
    | newer _ hRead _ _ => exact absurd hRead (calculate_waits hTask)
  | environment h => cases h with
    | answerAppend h | lose h | cancel h | elapse h => cases h

/-- A standby update that waits for its own guard keeps the peers map from everybody. -/
theorem calculate_blocks {Allowed : Machine S R → Action R → Prop} {k i index : Nat}
    (hTask : m.tasks[k]? = some (.standby i (.calculate index)))
    (hRuns : Machine.Runs Allowed m m') : m'.peersLock i = .writer := by
  have hWaits : m'.tasks[k]? = some (.standby i (.calculate index)) :=
    hRuns.invariant hTask fun _ _ _ _ hStep h => step_calculate hStep h
  unfold Machine.peersLock
  rw [if_pos (List.any_eq_true.mpr ⟨_, List.mem_of_getElem? hWaits, by simp [Task.writesPeers]⟩)]

/-- The machine takes the steps of one task only. -/
def OnlyTask (k : Nat) (_ : Machine S R) (action : Action R) : Prop := action = .task k

theorem OnlyTask.single {k : Nat} {task task' : Task R} {m₁ : Machine S R}
    (hTask : m.tasks[k]? = some task) (h : taskStep k task m = some (task', m₁)) :
    Machine.Runs (OnlyTask k) m (m₁.setTask k task') := by
  refine Relation.ReflTransGen.single ⟨.task k, rfl, ?_⟩
  simp only [Machine.step, hTask, Option.bind_eq_bind, Option.bind_some, h]

def Handled (m : Machine S R) (k i : Nat) : Prop :=
  m.tasks[k]? = some (.standby i .recv) ∨ m.tasks[k]? = some .ended

theorem stepDown_single {k i : Nat} {pc : StepDownPc}
    (hTask : m.tasks[k]? = some (.standby i (.stepDown pc))) :
    ∃ task' m₁, StepDownStepped (fun pc' => .standby i (.stepDown pc')) m pc task' m₁ ∧
      Machine.Runs (OnlyTask k) m (m₁.setTask k task') ∧
        (m₁.setTask k task').tasks[k]? = some task' := by
  have hStepped := stepDown_cases (fun pc' => Task.standby (R := R) i (.stepDown pc')) m pc
  refine ⟨_, _, hStepped, OnlyTask.single hTask rfl, ?_⟩
  obtain ⟨node, hFrame⟩ := hStepped.frame
  rw [hFrame]
  exact Machine.setTask_self hTask _

theorem becomeFollower_handled {k i : Nat}
    (hTask : m.tasks[k]? = some (.standby i (.stepDown .becomeFollower))) :
    ∃ m', Machine.Runs (OnlyTask k) m m' ∧ Handled m' k i := by
  obtain ⟨task', m₁, hStepped, hRuns, hEnd⟩ := stepDown_single hTask
  cases hStepped
  exact ⟨_, hRuns, Or.inr hEnd⟩

theorem setCurrentTerm_handled {k i term : Nat}
    (hTask : m.tasks[k]? = some (.standby i (.stepDown (.setCurrentTerm term)))) :
    ∃ m', Machine.Runs (OnlyTask k) m m' ∧ Handled m' k i := by
  obtain ⟨task', m₁, hStepped, hRuns, hNext⟩ := stepDown_single hTask
  cases hStepped
  obtain ⟨m', hRest, hHandled⟩ := becomeFollower_handled hNext
  exact ⟨m', hRuns.trans hRest, hHandled⟩

theorem stepDown_handled {k i term : Nat}
    (hTask : m.tasks[k]? = some (.standby i (.stepDown (.storeCurrentTerm term)))) :
    ∃ m', Machine.Runs (OnlyTask k) m m' ∧ Handled m' k i := by
  obtain ⟨task', m₁, hStepped, hRuns, hNext⟩ := stepDown_single hTask
  cases hStepped with
  | failed => exact ⟨_, hRuns, Or.inr hNext⟩
  | stored =>
    obtain ⟨m', hRest, hHandled⟩ := setCurrentTerm_handled hNext
    exact ⟨m', hRuns.trans hRest, hHandled⟩

/-- The handling of an `Ok` that is recorded, up to the point where it waits. -/
inductive Recording (m : Machine S R) (k i : Nat) (m' : Machine S R) : Prop
  | start (h : m' = m)
  | readCommit (h : m'.tasks[k]? = some (.standby i .readCommit))
  | calculate {index : Nat} (h : m'.tasks[k]? = some (.standby i (.calculate index)))

omit [State S R] in
theorem Recording.not_handled {k i : Nat} {response : AppendEntriesResponse}
    (hTask : m.tasks[k]? = some (.standby i (.lockPeers response))) (h : Recording m k i m') :
    ¬ Handled m' k i := by
  have hPoint : ∃ pc, pc ≠ StandbyPc.recv ∧ m'.tasks[k]? = some (.standby i pc) := by
    cases h with
    | start h => exact ⟨.lockPeers response, nofun, h ▸ hTask⟩
    | readCommit h => exact ⟨.readCommit, nofun, h⟩
    | @calculate index h => exact ⟨.calculate index, nofun, h⟩
  obtain ⟨pc, hNe, hPc⟩ := hPoint
  rintro (hRecv | hEnded)
  · cases hPc.symm.trans hRecv
    exact hNe rfl
  · cases hPc.symm.trans hEnded

theorem step_standby {k i : Nat} {pc : StandbyPc} (hTask : m.tasks[k]? = some (.standby i pc))
    (hStep : m.step (.task k) = some m') :
    ∃ task' m₁, ReplicationStepped m k (.standby i pc) task' m₁ ∧ m' = m₁.setTask k task' := by
  cases step_cases hStep with
  | vote hOwn h =>
    obtain rfl := Option.some.inj (hTask.symm.trans hOwn)
    cases h
  | replicate hOwn h =>
    obtain rfl := Option.some.inj (hTask.symm.trans hOwn)
    exact ⟨_, _, h, rfl⟩
  | environment _ h => cases h

theorem step_recording {k i : Nat} {response : AppendEntriesResponse} {peers peers' : PeerMap}
    (hTask : m.tasks[k]? = some (.standby i (.lockPeers response)))
    (hPeers : m.replicationSessions[i]? = some peers) (hReason : response.reason = .ok)
    (hNext : recordAppended peers response.id response.len = .ok peers') {m₁ m₂ : Machine S R}
    (hStep : m₁.step (.task k) = some m₂) (h : Recording m k i m₁) : Recording m k i m₂ := by
  cases h with
  | start h =>
    subst h
    obtain ⟨task', m₃, hStepped, rfl⟩ := step_standby hTask hStep
    cases hStepped with
    | standbyAppended => exact Recording.readCommit (Machine.setTask_self hTask _)
    | standbyMismatch _ _ hMismatch | standbyPanicked _ hMismatch | standbyStale _ hMismatch =>
      rw [hReason] at hMismatch
      cases hMismatch
    | standbyOverflowed hPeers' _ hPanics =>
      obtain rfl := Option.some.inj (hPeers.symm.trans hPeers')
      cases hNext.symm.trans hPanics
  | readCommit h =>
    obtain ⟨task', m₃, hStepped, rfl⟩ := step_standby h hStep
    cases hStepped
    exact Recording.calculate (Machine.setTask_self h _)
  | calculate h => exact Recording.calculate (step_calculate hStep h)

/-- Task `k` is the standby update of session `i`, has the lock of the peers map free, and
is about to take it for the response. -/
structure StandbyHandles (m : Machine S R) (k i : Nat) (peers : PeerMap)
    (response : AppendEntriesResponse) : Prop where
  task : m.tasks[k]? = some (.standby i (.lockPeers response))
  peers : m.replicationSessions[i]? = some peers
  write : m.CanWrite i

/-- Undisturbed, the standby update of the machine comes back from a response that is not
recorded. -/
theorem StandbyHandles.returns {k i : Nat} {response : AppendEntriesResponse} {peers : PeerMap}
    (h : StandbyHandles m k i peers response) (hNot : NotRecorded peers response) :
    ∃ m', Machine.Runs (OnlyTask k) m m' ∧ Handled m' k i := by
  obtain ⟨hTask, hPeers, hWrite⟩ := h
  cases hReason : response.reason with
  | logMismatch =>
    cases hNext : decrementNextIndex peers response.id with
    | none =>
      have hRuns : Machine.Runs (OnlyTask k) m (m.setTask k .ended) :=
        OnlyTask.single hTask (by simp [taskStep, standbyStep, hPeers, hWrite, hReason, hNext])
      exact ⟨_, hRuns, Or.inr (Machine.setTask_self hTask _)⟩
    | some peers' =>
      have hRuns : Machine.Runs (OnlyTask k) m
          ((m.setPeers i peers').setTask k (.standby i .recv)) :=
        OnlyTask.single hTask (by simp [taskStep, standbyStep, hPeers, hWrite, hReason, hNext])
      exact ⟨_, hRuns, Or.inl (Machine.setTask_self (m := m.setPeers i peers') hTask _)⟩
  | ok =>
    cases hNext : recordAppended peers response.id response.len with
    | error peers' =>
      have hRuns : Machine.Runs (OnlyTask k) m ((m.setPeers i peers').setTask k .ended) :=
        OnlyTask.single hTask (by simp [taskStep, standbyStep, hPeers, hWrite, hReason, hNext])
      exact ⟨_, hRuns, Or.inr (Machine.setTask_self (m := m.setPeers i peers') hTask _)⟩
    | ok peers' => exact ((notRecorded_iff _ _).mp hNot hReason ⟨peers', hNext⟩).elim
  | staleTerm =>
    have hRuns : Machine.Runs (OnlyTask k) m
        (m.setTask k (.standby i (.stepDown (.storeCurrentTerm response.term)))) :=
      OnlyTask.single hTask (by simp [taskStep, standbyStep, hPeers, hWrite, hReason])
    obtain ⟨m', hRest, hHandled⟩ := stepDown_handled (Machine.setTask_self hTask _)
    exact ⟨m', hRuns.trans hRest, hHandled⟩

/-- It does not come back from one that it records, and keeps the peers map for good. -/
theorem StandbyHandles.blocks {k i : Nat} {response : AppendEntriesResponse} {peers : PeerMap}
    (h : StandbyHandles m k i peers response) (hRecorded : ¬ NotRecorded peers response) :
    (¬ ∃ m', Machine.Runs (OnlyTask k) m m' ∧ Handled m' k i) ∧
      ∃ m₁, Machine.Runs (OnlyTask k) m m₁ ∧
        ∀ Allowed m', Machine.Runs Allowed m₁ m' → m'.peersLock i = .writer := by
  obtain ⟨hTask, hPeers, hWrite⟩ := h
  rw [notRecorded_iff] at hRecorded
  push Not at hRecorded
  obtain ⟨hReason, peers', hNext⟩ := hRecorded
  constructor
  · rintro ⟨m', hRuns, hHandled⟩
    have hRecording : Recording m k i m' := by
      refine @Machine.Runs.invariant S R _ _ (Recording m k i) _ _ hRuns (Recording.start rfl) ?_
      rintro m₁ _ m₂ rfl hStep h
      exact step_recording hTask hPeers hReason hNext hStep h
    exact hRecording.not_handled hTask hHandled
  · have hFirst : Machine.Runs (OnlyTask k) m
        ((m.setPeers i peers').setTask k (.standby i .readCommit)) :=
      OnlyTask.single hTask (by simp [taskStep, standbyStep, hPeers, hWrite, hReason, hNext])
    have hReads := Machine.setTask_self (m := m.setPeers i peers') hTask
      (.standby i .readCommit : Task R)
    have hSecond := OnlyTask.single hReads rfl
    refine ⟨_, hFirst.trans hSecond, fun Allowed m' hRuns => ?_⟩
    exact calculate_blocks (Machine.setTask_self hReads _) hRuns

end Machine

/-- Both loops handle a response unless it is an `Ok` that the standby update records. In a
running node the standby update comes back in just these cases; in the others the peers map
of the session is locked in all later states. -/
theorem handling_completes_iff (node : RaftNode S) (peers : PeerMap)
    (response : AppendEntriesResponse) :
    ((Completes (standbyLocking node peers response) ∧ Completes (heartbeatLocking node response)) ↔
      NotRecorded peers response) ∧
    ∀ (m : Machine S R) (k i : Nat), StandbyHandles m k i peers response →
      ((∃ m', Machine.Runs (OnlyTask k) m m' ∧ Handled m' k i) ↔ NotRecorded peers response) ∧
      (¬ NotRecorded peers response → ∃ m₁, Machine.Runs (OnlyTask k) m m₁ ∧
        ∀ Allowed m', Machine.Runs Allowed m₁ m' → m'.peersLock i = .writer) := by
  have hHeartbeat := (completes_iff _).mpr (heartbeatLocking_noSelfConflict node response)
  refine ⟨by rw [and_iff_left hHeartbeat, standbyLocking_completes_iff], fun m k i h => ?_⟩
  refine ⟨⟨fun hReturns => ?_, h.returns⟩, fun hRecorded => (h.blocks hRecorded).2⟩
  by_contra hRecorded
  exact (h.blocks hRecorded).1 hReturns

/-- The peer of a pair of nodes appends an entry. -/
theorem ok_response_deadlocks :
    ¬ (Completes (standbyLocking oneEntryLeader (initialPeers ⟨[1, 2], by decide⟩ 1 1)
        ⟨1, true, 2, 1, .ok⟩) ∧
      Completes (heartbeatLocking oneEntryLeader ⟨1, true, 2, 1, .ok⟩)) := by
  rintro ⟨hStandby, _⟩
  rw [standbyLocking_completes_iff] at hStandby
  rcases hStandby rfl ⟨1, none⟩ (by decide) with hZero | hSum
  · cases hZero
  · exact absurd hSum (by decide)

/-- Node 2 has taken the entry that the standby update of session 0 has sent it, and the
standby update is about to record that. -/
def recordingActions : List (Action Unit) :=
  [deposedActions, [.task 4, .answerAppend 4 ⟨3, true, 2, 1, .ok⟩, .task 4, .task 3]].flatten

def Machine.recordsSecondEntry (m : Machine (Stored Unit) Unit) : Bool :=
  match m.tasks[3]?, m.replicationSessions[0]? with
  | some (Task.standby 0 (.lockPeers response)), some peers =>
    decide (response = ⟨3, true, 2, 1, .ok⟩ ∧ peers.lookup 2 = some ⟨2, none⟩ ∧ m.CanWrite 0)
  | _, _ => false

/-- From there on the lock of the peers map is never free again. -/
theorem handling_blocks_running : ∃ m m₁ : Machine (Stored Unit) Unit,
    Machine.Runs (fun _ _ => True) { node := committedNode } m ∧
      Machine.Runs (OnlyTask 3) m m₁ ∧
      ∀ m', Machine.Runs (fun _ _ => True) m₁ m' → m'.peersLock 0 = .writer := by
  obtain ⟨m, hRuns, hm⟩ := Machine.exists_of_run
    (show (Machine.run (fun _ _ => True) { node := committedNode } recordingActions).map
      Machine.recordsSecondEntry = some true by decide)
  unfold Machine.recordsSecondEntry at hm
  split at hm
  · rename_i response peers hTask hPeers
    obtain ⟨rfl, hPeer, hWrite⟩ := of_decide_eq_true hm
    have hRecorded : ¬ NotRecorded peers ⟨3, true, 2, 1, .ok⟩ := by
      intro h
      rcases h rfl _ hPeer with hZero | hSum
      · cases hZero
      · exact absurd hSum (by decide)
    obtain ⟨m₁, hFirst, hBlocked⟩ := ((handling_completes_iff m.node peers _).2 m 3 0
      ⟨hTask, hPeers, hWrite⟩).2 hRecorded
    exact ⟨m, m₁, hRuns, hFirst, fun m' hRest => hBlocked _ m' hRest⟩
  · cases hm

end Zeroraft
