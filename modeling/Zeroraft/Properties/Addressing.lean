import Zeroraft.Properties.Leadership
import Zeroraft.Properties.Quorum
import Zeroraft.Runtime.Deliveries

/-!
# Whom a node asks

Every request goes to another member of the cluster and names the node that sends it, so
that a forwarder always finds an address for it.
-/

namespace Zeroraft

variable {S R : Type}

/-- The node that the request names as its sender. -/
def PeerRpc.sender : PeerRpc R → NodeId
  | .requestVote request => request.candidateId
  | .appendEntries request => request.leaderId

/-- The nodes that the task asks, or has others ask. -/
def Task.recipients : Task R → List NodeId
  | .round _ (.readAckPeers _ peers) => peers
  | .heartbeat _ (.spawn _ peers) => peers
  | .voteSend _ _ peer _ | .heartbeatSend _ peer _ | .peerLoop _ _ peer _ => [peer]
  | _ => []

def Task.appendRequest : Task R → Option (AppendEntriesRequest R)
  | .heartbeatSend _ _ (.send request) => some request
  | .peerLoop _ _ _ (.send request) => some request
  | _ => none

structure Task.Addresses (members : MembershipMap) (id : NodeId) (task : Task R) : Prop where
  recipients : ∀ peer ∈ task.recipients, peer ∈ members.peers id
  sender : ∀ request ∈ task.appendRequest, request.leaderId = id

def OutRpc.Addressed (members : MembershipMap) (id : NodeId) (out : OutRpc R) : Prop :=
  out.peer ∈ members.peers id ∧ out.rpc.sender = id

structure Addresses (members : MembershipMap) (id : NodeId) [State S R] (m : Machine S R) :
    Prop where
  sessions : SessionPeers members id m
  tasks : ∀ task ∈ m.tasks, task.Addresses members id
  outRpc : ∀ out ∈ m.outRpc, out.Addressed members id

variable {members : MembershipMap} {id : NodeId}

theorem Task.Addresses.of_recipients_nil {task : Task R} (hAsks : task.recipients = [])
    (hRequest : task.appendRequest = none) : task.Addresses members id := by
  constructor
  · rw [hAsks]
    exact nofun
  · rw [hRequest]
    exact nofun

/-- The task asks nobody new, and composes nothing. -/
theorem Task.Addresses.mono {task task' : Task R} (h : task.Addresses members id)
    (hAsks : task'.recipients ⊆ task.recipients) (hRequest : ∀ request ∈ task'.appendRequest,
      request ∈ task.appendRequest ∨ request.leaderId = id) : task'.Addresses members id where
  recipients := fun peer hPeer => h.recipients peer (hAsks hPeer)
  sender := fun request hMem => (hRequest request hMem).elim (h.sender request) fun hOwn => hOwn

variable [State S R] {m m' : Machine S R} {action : Action R}

theorem StepDownStepped.addresses {wrap : StepDownPc → Task R} {pc : StepDownPc} {task' : Task R}
    (h : StepDownStepped wrap m pc task' m')
    (hWrap : ∀ pc, (wrap pc).Addresses members id) : task'.Addresses members id := by
  cases h with
  | stored | setTerm => exact hWrap _
  | failed | follower => exact Task.Addresses.of_recipients_nil rfl rfl

theorem VoteStepped.addresses {k : Nat} {task task' : Task R}
    (h : VoteStepped m k task task' m') (hIdentity : m.node.identity = (id, members))
    (hTask : task.Addresses members id) : task'.Addresses members id := by
  obtain ⟨hId, hMembers⟩ := Prod.mk.inj hIdentity
  cases h with
  | peers _ =>
    refine ⟨fun peer hPeer => ?_, nofun⟩
    rw [← hId, ← hMembers]
    exact hPeer
  | lastIndex | lastTerm | requested => exact hTask.mono (List.Subset.refl _) nofun
  | stepDown hDown => exact hDown.addresses fun _ => Task.Addresses.of_recipients_nil rfl rfl
  | _ => exact Task.Addresses.of_recipients_nil rfl rfl

theorem SessionPeers.mem {i : Nat} {peers : PeerMap} (h : SessionPeers members id m)
    (hPeers : m.replicationSessions[i]? = some peers) {peer : NodeId}
    (hPeer : peer ∈ peers.entries.map (·.1)) : peer ∈ members.peers id :=
  (h.peersOf peers (List.mem_of_getElem? hPeers) peer).mp hPeer

theorem ReplicationStepped.addresses {k : Nat} {task task' : Task R}
    (h : ReplicationStepped m k task task' m') (hSessions : SessionPeers members id m)
    (hTask : task.Addresses members id) : task'.Addresses members id := by
  obtain ⟨hId, _⟩ := Prod.mk.inj hSessions.identity
  cases h with
  | heartbeatPeers hPeers _ => exact ⟨fun peer hPeer => hSessions.mem hPeers hPeer, nofun⟩
  | heartbeatSpawn => exact hTask.mono (List.subset_cons_self _ _) nofun
  | composed =>
    refine hTask.mono (List.Subset.refl _) ?_
    rintro _ ⟨⟩
    exact Or.inr hId
  | heartbeatSent | peerBehind _ _ | nextIndex _ _ _ | prevEntry _ | entries | entriesSent
  | forwarded => exact hTask.mono (List.Subset.refl _) nofun
  | heartbeatStepDown hDown | standbyStepDown hDown =>
    exact hDown.addresses fun _ => Task.Addresses.of_recipients_nil rfl rfl
  | _ => exact Task.Addresses.of_recipients_nil rfl rfl

theorem TaskTurn.addresses {k : Nat} {task task' : Task R} (h : TaskTurn m k action task task' m')
    (hSessions : SessionPeers members id m) (hTask : task.Addresses members id) :
    task'.Addresses members id := by
  cases h with
  | kept => exact hTask
  | stopped _ =>
    rcases Task.stop_cases _ task with hStop | hStop <;> rw [hStop]
    · exact hTask
    · exact Task.Addresses.of_recipients_nil rfl rfl
  | vote h => exact h.addresses hSessions.identity hTask
  | replicate h => exact h.addresses hSessions hTask
  | recv _ h => cases h <;> exact Task.Addresses.of_recipients_nil rfl rfl
  | taken => exact Task.Addresses.of_recipients_nil rfl rfl
  | answerVote => exact hTask.mono (List.Subset.refl _) nofun
  | environment h =>
    cases h.moved with
    | ended _ => exact Task.Addresses.of_recipients_nil rfl rfl
    | _ => exact hTask.mono (List.Subset.refl _) nofun

theorem mem_of_mem_getStalePeers {node : RaftNode S} {peers : PeerMap} {peer : NodeId}
    (h : peer ∈ getStalePeers (R := R) node peers) : peer ∈ peers.entries.map (·.1) := by
  obtain ⟨⟨peer', entry⟩, hEntry, hSome⟩ := List.mem_filterMap.mp h
  dsimp only at hSome
  split_ifs at hSome
  cases hSome
  exact List.mem_map_of_mem hEntry

theorem Spawned.addresses {task' : Task R} (h : Spawned m action task')
    (hSessions : SessionPeers members id m) (hTasks : ∀ task ∈ m.tasks, task.Addresses members id) :
    task'.Addresses members id := by
  cases h with
  | voteSend hTask _ hPeer =>
    have hAsks :=
      (hTasks _ (List.mem_of_getElem? hTask)).recipients _ (List.mem_of_mem_filter hPeer)
    refine ⟨fun peer hMem => ?_, nofun⟩
    rw [List.mem_singleton.mp hMem]
    exact hAsks
  | heartbeatSend hTask =>
    have hAsks := (hTasks _ (List.mem_of_getElem? hTask)).recipients _ List.mem_cons_self
    refine ⟨fun peer hMem => ?_, ?_⟩
    · rw [List.mem_singleton.mp hMem]
      exact hAsks
    · rintro _ ⟨⟩
      exact (Prod.mk.inj hSessions.identity).1
  | peerLoop _ hPeers hPeer =>
    have hMember := hSessions.mem hPeers (mem_of_mem_getStalePeers hPeer)
    refine ⟨fun peer hMem => ?_, nofun⟩
    rw [List.mem_singleton.mp hMem]
    exact hMember
  | _ => exact Task.Addresses.of_recipients_nil rfl rfl

theorem Sent.addressed {out : OutRpc R} (h : Sent m action out)
    (hIdentity : m.node.identity = (id, members))
    (hTasks : ∀ task ∈ m.tasks, task.Addresses members id) : out.Addressed members id := by
  cases h with
  | requestVote hTask =>
    have hAddresses := hTasks _ (List.mem_of_getElem? hTask)
    exact ⟨hAddresses.recipients _ (List.mem_singleton_self _), (Prod.mk.inj hIdentity).1⟩
  | heartbeat hTask | entries hTask =>
    have hAddresses := hTasks _ (List.mem_of_getElem? hTask)
    exact ⟨hAddresses.recipients _ (List.mem_singleton_self _), hAddresses.sender _ rfl⟩

theorem step_addresses [FallibleState S R] (hStep : m.step action = some m')
    (h : Addresses members id m) : Addresses members id m' where
  sessions := step_sessionPeers hStep h.sessions
  tasks := by
    intro task' hTask'
    obtain ⟨k, hk⟩ := List.mem_iff_getElem?.mp hTask'
    rcases step_turned hStep hk with ⟨task, hTask, hTurn⟩ | ⟨_, hSpawned⟩
    · exact hTurn.addresses h.sessions (h.tasks task (List.mem_of_getElem? hTask))
    · exact hSpawned.addresses h.sessions h.tasks
  outRpc := by
    intro out hOut
    rcases step_out hStep hOut with hOld | hSent
    · exact h.outRpc out hOld
    · exact hSent.addressed h.sessions.identity h.tasks

theorem Machine.Runs.addresses [FallibleState S R] {node : RaftNode S}
    (hRuns : Machine.Runs (fun _ _ => True) { node } m) :
    Addresses (State.getMembership node.state) node.id m := by
  have hStart : Addresses (State.getMembership node.state) node.id ({ node } : Machine S R) :=
    ⟨⟨rfl, nofun⟩, nofun, nofun⟩
  exact hRuns.invariant hStart fun _ _ _ _ hStep h => step_addresses hStep h

/-- A node sends its requests to the other members only, in its own name. -/
theorem requests_addressed [FallibleState S R] (node : RaftNode S) (m : Machine S R)
    (hRuns : Machine.Runs (fun _ _ => True) { node } m) :
    ∀ out ∈ m.outRpc, out.peer ∈ (State.getMembership node.state).peers node.id ∧
      out.rpc.sender = node.id :=
  hRuns.addresses.outRpc

/-- A candidate of a cluster of two has asked the other node. -/
theorem requests_addressed_pair : ∃ m : Machine (Stored Unit) Unit, m.outRpc.length = 1 ∧
    ∀ out ∈ m.outRpc, out.peer ∈ MembershipMap.peers ⟨[1, 2], nodup_pair⟩ 1 ∧
      out.rpc.sender = 1 := by
  obtain ⟨m, hRuns, hm⟩ := Machine.exists_of_run
    (show (Machine.run (fun _ _ => True) { node := emptyNode ⟨[1, 2], nodup_pair⟩ }
      (candidateActions ++ List.replicate 3 (.task 1))).map
        (fun m => decide (m.outRpc.length = 1)) = some true by decide)
  exact ⟨m, of_decide_eq_true hm, requests_addressed (emptyNode ⟨[1, 2], nodup_pair⟩) m hRuns⟩

end Zeroraft
