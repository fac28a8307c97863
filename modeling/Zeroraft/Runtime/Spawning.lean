import Zeroraft.Runtime.Growth

/-!
# The tasks that a step spawns

After a step every task is one that was there, further on, or one that the step
has spawned; what may be spawned names its sessions and its owner.
-/

namespace Zeroraft

open Growth

variable {S R : Type} [State S R] {m m' : Machine S R}

inductive Spawned (m : Machine S R) : Action R → Task R → Prop
  | firstRound (hMain : m.main = .voteForSelf) :
      Spawned m .main (.round m.voteSessions.length .readPeersLen)
  | retry {i : Nat} (hMain : m.main = .select (.candidate i)) :
      Spawned m (.event .retryTimeout) (.round i .readPeersLen)
  | voteSend {k i peersLen : Nat} {peers : List NodeId} {session : VoteSession} {peer : NodeId}
      (hTask : m.tasks[k]? = some (.round i (.readAckPeers peersLen peers)))
      (hSession : m.voteSessions[i]? = some session)
      (hPeer : peer ∈ unackPeers peers session.ackPeers) :
      Spawned m (.task k) (.voteSend i k peer .readLastIndex)
  | firstHeartbeat {nextIndex : Nat} (hMain : m.main = .readMembership nextIndex) :
      Spawned m .main (.heartbeat m.replicationSessions.length .readCommit)
  | heartbeat {i : Nat} (hMain : m.main = .select (.leader i)) :
      Spawned m (.event .heartbeatTimeout) (.heartbeat i .readCommit)
  | standby {nextIndex : Nat} (hMain : m.main = .readMembership nextIndex) :
      Spawned m .main (.standby m.replicationSessions.length .readStalePeers)
  | heartbeatSend {k i lastCommitIndex : Nat} {peer : NodeId} {rest : List NodeId}
      (hTask : m.tasks[k]? = some (.heartbeat i (.spawn lastCommitIndex (peer :: rest)))) :
      Spawned m (.task k)
        (.heartbeatSend k peer (.send (heartbeatRequest m.node lastCommitIndex)))
  | peerLoop {k i : Nat} {peers : PeerMap} {peer : NodeId}
      (hTask : m.tasks[k]? = some (.standby i .readStalePeers))
      (hPeers : m.replicationSessions[i]? = some peers) (hPeer : peer ∈ getStalePeers m.node peers) :
      Spawned m (.task k) (.peerLoop i k peer .peerMatches)

/-- Nothing else is added to the tasks. -/
def SpawnsOnly (m : Machine S R) (action : Action R) (m' : Machine S R) : Prop :=
  ∀ task ∈ m'.tasks.drop m.tasks.length, Spawned m action task

theorem SpawnsOnly.of_append {action : Action R} {spawned : List (Task R)}
    (hTasks : m'.tasks = m.tasks ++ spawned) (h : ∀ task ∈ spawned, Spawned m action task) :
    SpawnsOnly m action m' := by
  intro task hTask
  rw [hTasks, List.drop_left] at hTask
  exact h task hTask

theorem SpawnsOnly.of_length_eq {action : Action R} (h : m'.tasks.length = m.tasks.length) :
    SpawnsOnly m action m' := by
  intro task hTask
  rw [← h, List.drop_length] at hTask
  cases hTask

theorem SpawnsOnly.setTask {action : Action R} (h : SpawnsOnly m action m') {k : Nat}
    (hk : k < m.tasks.length) (task : Task R) : SpawnsOnly m action (m'.setTask k task) := by
  intro t ht
  rw [show (m'.setTask k task).tasks = m'.tasks.set k task from rfl, List.drop_set_of_lt hk] at ht
  exact h t ht

theorem MainStepped.spawns (h : MainStepped m m') : SpawnsOnly m (.main : Action R) m' := by
  cases h with
  | voteForSelf hMain =>
    refine SpawnsOnly.of_append rfl fun task hTask => ?_
    rw [List.mem_singleton.mp hTask]
    exact Spawned.firstRound hMain
  | readMembership hMain =>
    refine SpawnsOnly.of_append rfl fun task hTask => ?_
    rcases List.mem_pair.mp hTask with rfl | rfl
    · exact Spawned.firstHeartbeat hMain
    · exact Spawned.standby hMain
  | @leave role _ _ =>
    cases role with
    | leader i => exact SpawnsOnly.of_length_eq (List.length_map _)
    | follower | candidate _ => exact SpawnsOnly.of_length_eq rfl
  | _ => exact SpawnsOnly.of_length_eq rfl

theorem SelectStepped.spawns {role : RoleLoop} {event : Event R} (hMain : m.main = .select role)
    (h : SelectStepped m role event m') : SpawnsOnly m (.event event) m' := by
  cases h with
  | retry =>
    refine SpawnsOnly.of_append rfl fun task hTask => ?_
    rw [List.mem_singleton.mp hTask]
    exact Spawned.retry hMain
  | heartbeat =>
    refine SpawnsOnly.of_append rfl fun task hTask => ?_
    rw [List.mem_singleton.mp hTask]
    exact Spawned.heartbeat hMain
  | _ => exact SpawnsOnly.of_length_eq rfl

theorem VoteStepped.spawns {k : Nat} {task task' : Task R} (hTask : m.tasks[k]? = some task)
    (h : VoteStepped m k task task' m') : SpawnsOnly m (.task k) m' := by
  cases h with
  | asked hSession =>
    refine SpawnsOnly.of_append rfl fun t ht => ?_
    obtain ⟨peer, hPeer, rfl⟩ := List.mem_map.mp ht
    exact Spawned.voteSend hTask hSession hPeer
  | sentNoPeers h | sentGranted h =>
    obtain ⟨voteSessions, rfl⟩ := h.frame
    exact SpawnsOnly.of_length_eq rfl
  | stepDown h =>
    obtain ⟨node, rfl⟩ := h.frame
    exact SpawnsOnly.of_length_eq rfl
  | _ => exact SpawnsOnly.of_length_eq rfl

theorem ReplicationStepped.spawns {k : Nat} {task task' : Task R} (hTask : m.tasks[k]? = some task)
    (h : ReplicationStepped m k task task' m') : SpawnsOnly m (.task k) m' := by
  cases h with
  | heartbeatSpawn =>
    refine SpawnsOnly.of_append rfl fun t ht => ?_
    rw [List.mem_singleton.mp ht]
    exact Spawned.heartbeatSend hTask
  | stalePeers hPeers _ =>
    refine SpawnsOnly.of_append rfl fun t ht => ?_
    obtain ⟨peer, hPeer, rfl⟩ := List.mem_map.mp ht
    exact Spawned.peerLoop hTask hPeers hPeer
  | heartbeatStepDown h | standbyStepDown h =>
    obtain ⟨node, rfl⟩ := h.frame
    exact SpawnsOnly.of_length_eq rfl
  | _ => exact SpawnsOnly.of_length_eq rfl

theorem step_spawns {action : Action R} (hStep : m.step action = some m') :
    SpawnsOnly m action m' := by
  cases step_cases hStep with
  | main h => exact h.spawns
  | select hMain h => exact h.spawns hMain
  | vote hTask h | replicate hTask h =>
    exact (h.spawns hTask).setTask (List.getElem?_eq_some_iff.mp hTask).1 _
  | recv _ _ h =>
    obtain ⟨voteSessions, rfl⟩ := h.frame
    exact SpawnsOnly.of_length_eq (List.length_set.trans List.length_set)
  | overrun _ => exact SpawnsOnly.of_length_eq rfl
  | answerVote _ | environment _ _ => exact SpawnsOnly.of_length_eq List.length_set

theorem step_task {action : Action R} (hStep : m.step action = some m') {k : Nat} {task' : Task R}
    (hTask' : m'.tasks[k]? = some task') :
    (∃ task, m.tasks[k]? = some task ∧ task.Later task') ∨
      (m.tasks.length ≤ k ∧ Spawned m action task') := by
  by_cases hk : k < m.tasks.length
  · obtain ⟨task'', hSame, hLater⟩ := (step_grows hStep).tasks k _ (List.getElem?_eq_getElem hk)
    rw [hTask', Option.some.injEq] at hSame
    subst hSame
    exact Or.inl ⟨_, List.getElem?_eq_getElem hk, hLater⟩
  · have hLength := Nat.le_of_not_lt hk
    have hDrop : (m'.tasks.drop m.tasks.length)[k - m.tasks.length]? = some task' := by
      rw [List.getElem?_drop, Nat.add_sub_cancel' hLength, hTask']
    exact Or.inr ⟨hLength, step_spawns hStep task' (List.mem_of_getElem? hDrop)⟩

end Zeroraft
