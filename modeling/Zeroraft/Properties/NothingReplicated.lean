import Zeroraft.Library.Provenance
import Zeroraft.Properties.ForgottenPeers

/-!
# Nothing is replicated

A peer has a loop of its own if the standby update finds it within the committed part of
the log, and a session starts every peer past it. The commit index does not rise either:
all that a node sends is heartbeats, and a heartbeat empties the log of whoever takes it.
What a client gives to a leader stays on that node.
-/

namespace Zeroraft

variable {S R : Type}

/-- The request carries no entries and names none. -/
def AppendEntriesRequest.IsBlank (request : AppendEntriesRequest R) : Prop :=
  request.prevLogIndex = 0 ∧ request.prevLogTerm = 0 ∧ request.entries = []

def PeerRpc.Quiet : PeerRpc R → Prop
  | .requestVote _ => True
  | .appendEntries request => request.IsBlank

/-- A standby update that has found nobody, and no loop of a peer. -/
def Task.Quiet : Task R → Prop
  | .standby _ pc => pc = .readStalePeers ∨ pc = .recv
  | .heartbeatSend _ _ (.send request) => request.IsBlank
  | .peerLoop _ _ _ _ => False
  | .round _ _ | .voteSend _ _ _ _ | .heartbeat _ _ | .heartbeatSend _ _ _ | .ended => True

/-- The handler has removed all entries, and takes the commit index from what is left. -/
def Main.Emptied (log : List (LogEntry R)) : Main R → Prop
  | .appendEntries _ _ _ (.appendEntries _) | .appendEntries _ _ _ (.readNewLastIndex _) => log = []
  | .appendEntries _ _ _ (.setCommit _ ourLastLogIndex) => ourLastLogIndex = 0
  | _ => True

/-- The requests that reach the node are heartbeats, or ask for votes. -/
def TakesQuiet (action : Action R) : Prop :=
  ∀ rpc responseTx, action.delivers = some (rpc, responseTx) → rpc.Quiet

section Tasks

variable [State S R] {m m' : Machine S R} {action : Action R} {k : Nat} {task task' : Task R}

theorem Task.quiet_of_not_replicates (h : task.replicates = false) : task.Quiet := by
  cases task with
  | round _ _ | voteSend _ _ _ _ | ended => trivial
  | heartbeat _ _ | heartbeatSend _ _ _ | standby _ _ | peerLoop _ _ _ _ => cases h

theorem Task.Local.quiet (h : task.Local action k task') (hQuiet : task.Quiet) : task'.Quiet := by
  cases h.moved with
  | heartbeatAnswered | ended _ => trivial
  | loopAnswered | elapsed => exact hQuiet

end Tasks

variable [State S R] [FallibleState S R] {m m' : Machine S R} {action : Action R}

structure Quiet (m : Machine S R) : Prop where
  handling : ∀ rpc responseTx, m.main.handling = some (rpc, responseTx) → rpc.Quiet
  emptied : m.main.Emptied m.log
  reading : ∀ nextIndex, m.main = .readMembership nextIndex → m.commitIndex < nextIndex
  peers : ∀ peers ∈ m.replicationSessions, ∀ id, ∀ peer ∈ peers.lookup id,
    m.commitIndex < peer.nextIndex
  tasks : ∀ (k : Nat) (task : Task R), m.tasks[k]? = some task → task.Quiet
  queued : ∀ owner response, (owner, response) ∈ m.appendRx → m.Heartbeat owner
  sent : ∀ out ∈ m.outRpc, out.rpc.Quiet

section Commit

theorem AppendEntriesPc.step_commitIndex (ourId : NodeId) (responseTx : Sender) (node : RaftNode S)
    (request : AppendEntriesRequest R) (pc : AppendEntriesPc) :
    State.getLastCommitIndex (pc.step ourId request responseTx node).2.state =
        State.getLastCommitIndex node.state ∨
      ∃ ourTerm index, pc = .setCommit ourTerm index ∧
        State.getLastCommitIndex (pc.step ourId request responseTx node).2.state =
          min request.lastCommitIndex index := by
  by_cases hSets : ∃ ourTerm index, pc = .setCommit ourTerm index
  · obtain ⟨ourTerm, index, rfl⟩ := hSets
    rw [AppendEntriesPc.step, atomically_modifyState_snd]
    rcases FallibleState.setLastCommitIndex node.state (min request.lastCommitIndex index) with
      ⟨_, hAfter⟩ | ⟨_, hBefore⟩
    · exact Or.inr ⟨ourTerm, index, rfl, congrArg Stored.commit hAfter⟩
    · exact Or.inl (congrArg Stored.commit hBefore)
  · exact Or.inl (AppendEntriesPc.step_commit fun ourTerm index h => hSets ⟨ourTerm, index, h⟩)

/-- The main loop takes the commit index from the log that it has emptied. -/
theorem MainStepped.quietCommit (h : MainStepped m m') (hQuiet : Quiet m) :
    m'.commitIndex = m.commitIndex ∨ m'.commitIndex = 0 := by
  have hHandler : ∀ {role : RoleLoop} {request : AppendEntriesRequest R} {responseTx : Sender}
      {pc : AppendEntriesPc} {node : RaftNode S},
      m.main = .appendEntries role request responseTx pc →
      (pc.step m.node.id request responseTx m.node).2 = node →
      State.getLastCommitIndex node.state = m.commitIndex ∨
        State.getLastCommitIndex node.state = 0 := by
    rintro role request responseTx pc node hMain rfl
    rcases AppendEntriesPc.step_commitIndex m.node.id responseTx m.node request pc with
      hKept | ⟨ourTerm, index, rfl, hSet⟩
    · exact Or.inl hKept
    · right
      have hEmptied := hQuiet.emptied
      rw [hMain] at hEmptied
      rw [hSet, show index = 0 from hEmptied, Nat.min_zero]
  cases h with
  | appendEntries hMain _ _ => exact hHandler hMain rfl
  | failed _ hCause =>
    cases hCause with
    | appendEntries hMain hFailed => exact hHandler hMain (by rw [hFailed])
    | nonVoter _ _ | redirect _ _ => exact Or.inl rfl
    | @requestVote role request responseTx pc e _ _ hFailed =>
      left
      have hKept : State.getLastCommitIndex (pc.step m.node.id request responseTx m.node).2.state =
          State.getLastCommitIndex m.node.state :=
        RequestVotePc.step_keeps Stored.commit (fun _ _ => rfl) (fun _ _ => rfl) request pc
      rwa [hFailed] at hKept
    | @appendEntry i entry e _ _ hFailed =>
      left
      have hEffect := FallibleState.appendEntries m.node.state [entry]
      rw [hFailed] at hEffect
      exact hEffect.keeps Stored.commit rfl
  | requestVote _ _ _ =>
    exact Or.inl (RequestVotePc.step_keeps Stored.commit (fun _ _ => rfl) (fun _ _ => rfl) _ _)
  | appendEntry _ _ => exact Or.inl ((FallibleState.appendEntries _ _).keeps Stored.commit rfl)
  | leave _ _ =>
    exact Or.inl (by rw [Machine.commitIndex, RoleLoop.leave_node, Machine.commitIndex])
  | _ => exact Or.inl rfl

theorem Quiet.commit (hQuiet : Quiet m) (hStep : m.step action = some m') :
    m'.commitIndex = m.commitIndex ∨ m'.commitIndex = 0 := by
  cases step_commitChange hStep with
  | kept h => exact Or.inl h
  | standby hTask =>
    rcases hQuiet.tasks _ _ hTask with hPc | hPc <;> cases hPc
  | handler hMain =>
    cases step_cases hStep with
    | main h => exact h.quietCommit hQuiet
    | select hSelect _ =>
      rw [hSelect] at hMain
      cases hMain
    | vote _ h =>
      left
      cases h with
      | stepDown h => exact h.commit
      | sentNoPeers h | sentGranted h =>
        obtain ⟨voteSessions, rfl⟩ := h.frame
        rfl
      | _ => rfl
    | replicate hTask h =>
      left
      cases h with
      | heartbeatStepDown h | standbyStepDown h => exact h.commit
      | committed _ | commitFailed _ => rcases hQuiet.tasks _ _ hTask with hPc | hPc <;> cases hPc
      | _ => rfl
    | recv _ _ h =>
      obtain ⟨voteSessions, rfl⟩ := h.frame
      exact Or.inl rfl
    | overrun hOverrun =>
      obtain ⟨votedFor, rfl⟩ := hOverrun.frame
      exact Or.inl rfl
    | answerVote _ | environment _ _ => exact Or.inl rfl

theorem Quiet.commit_le (hQuiet : Quiet m) (hStep : m.step action = some m') :
    m'.commitIndex ≤ m.commitIndex := by
  have hCommit := hQuiet.commit hStep
  omega

end Commit

section Step

theorem MainStepped.emptied (h : MainStepped m m') (hQuiet : Quiet m) :
    m'.main.Emptied m'.log := by
  cases h with
  | appendEntries hMain hEdge hNext =>
    have hEmptied := hQuiet.emptied
    obtain ⟨hPrev, _, hEntries⟩ := hQuiet.handling _ _ (congrArg Main.handling hMain)
    have hLog := AppendEntriesPc.step_log hNext
    rw [hMain] at hEmptied
    cases hEdge with
    | removed => exact hLog.trans (by rw [AppendEntriesPc.logAfter, hPrev, List.take_zero])
    | appended =>
      have hEmpty : m.node.log = [] := hEmptied
      exact hLog.trans (by rw [AppendEntriesPc.logAfter, hEmpty, hEntries, List.append_nil])
    | lastIndex =>
      have hEmpty : m.node.log = [] := hEmptied
      exact (FallibleState.getLastIndex_eq _).trans (List.length_eq_zero_iff.mpr hEmpty)
    | _ => trivial
  | leave _ _ =>
    rw [RoleLoop.leave_main]
    trivial
  | _ => trivial

theorem Quiet.step_emptied (hQuiet : Quiet m) (hStep : m.step action = some m') :
    m'.main.Emptied m'.log := by
  cases step_cases hStep with
  | main h => exact h.emptied hQuiet
  | select _ h => cases h <;> trivial
  | @vote k task task' m₁ _ h =>
    have hLog : (m₁.setTask k task').log = m.log := h.log
    have hMain : (m₁.setTask k task').main = m.main := h.frame.main
    rw [hLog, hMain]
    exact hQuiet.emptied
  | @replicate k task task' m₁ _ h =>
    have hLog : (m₁.setTask k task').log = m.log := h.log
    have hMain : (m₁.setTask k task').main = m.main := h.frame.main
    rw [hLog, hMain]
    exact hQuiet.emptied
  | recv _ _ h =>
    obtain ⟨voteSessions, rfl⟩ := h.frame
    exact hQuiet.emptied
  | overrun _ => trivial
  | answerVote _ | environment _ _ => exact hQuiet.emptied

theorem Quiet.step_reading (hQuiet : Quiet m) (hStep : m.step action = some m') (nextIndex : Nat)
    (hMain' : m'.main = .readMembership nextIndex) : m'.commitIndex < nextIndex := by
  have hCommit := hQuiet.commit_le hStep
  have hSame : m.main = .readMembership nextIndex → m'.commitIndex < nextIndex := fun hMain =>
    Nat.lt_of_le_of_lt hCommit (hQuiet.reading nextIndex hMain)
  cases step_cases hStep with
  | main h =>
    cases h with
    | readCommit _ =>
      cases hMain'
      exact Nat.lt_succ_of_le hCommit
    | leave _ _ =>
      rw [RoleLoop.leave_main] at hMain'
      cases hMain'
    | _ => cases hMain'
  | select _ h => cases h <;> cases hMain'
  | vote _ h | replicate _ h => exact hSame (h.frame.main.symm.trans hMain')
  | recv _ _ h =>
    obtain ⟨voteSessions, rfl⟩ := h.frame
    exact hSame hMain'
  | overrun _ => cases hMain'
  | answerVote _ | environment _ _ => exact hSame hMain'

theorem Quiet.step_peers (hQuiet : Quiet m) (hRouted : Routed m) (hStep : m.step action = some m')
    (peers : PeerMap) (hPeers : peers ∈ m'.replicationSessions) (id : NodeId) (peer : Peer)
    (hPeer : peer ∈ peers.lookup id) : m'.commitIndex < peer.nextIndex := by
  have hCommit := hQuiet.commit_le hStep
  have hOld : peers ∈ m.replicationSessions → m'.commitIndex < peer.nextIndex := fun hMem =>
    Nat.lt_of_le_of_lt hCommit (hQuiet.peers peers hMem id peer hPeer)
  cases step_peersChange hStep with
  | kept hSame => exact hOld (hSame ▸ hPeers)
  | started _ hMain hNew =>
    rw [hNew] at hPeers
    rcases List.mem_append.mp hPeers with hMem | hLast
    · exact hOld hMem
    · obtain rfl := List.mem_singleton.mp hLast
      obtain ⟨_, rfl⟩ := lookup_initialPeers.mp hPeer
      exact Nat.lt_of_le_of_lt hCommit (hQuiet.reading _ hMain)
  | mismatch _ hTask hLock hReason _ _ _ =>
    rcases hLock with rfl | rfl
    · exact absurd hReason (hRouted.tasks _ _ hTask)
    · rcases hQuiet.tasks _ _ hTask with hPc | hPc <;> cases hPc
  | appended _ hTask _ _ _ _ => rcases hQuiet.tasks _ _ hTask with hPc | hPc <;> cases hPc

omit [FallibleState S R] in
theorem mem_getStalePeers {node : RaftNode S} {peers : PeerMap} {id : NodeId}
    (h : id ∈ getStalePeers node peers) :
    ∃ peer ∈ peers.lookup id, peer.nextIndex ≤ State.getLastCommitIndex node.state := by
  obtain ⟨⟨id', peer⟩, hEntry, hStale⟩ := List.mem_filterMap.mp h
  obtain ⟨hNext, hId⟩ := Option.ite_none_right_eq_some.mp hStale
  cases hId
  exact ⟨peer, AList.mem_lookup_iff.mpr hEntry, hNext⟩

omit [FallibleState S R] in
theorem Quiet.turn (hQuiet : Quiet m) {k : Nat} {task task' : Task R}
    (hTask : m.tasks[k]? = some task) (hTurn : TaskTurn m k action task task' m') :
    task'.Quiet := by
  have hOld := hQuiet.tasks k task hTask
  cases hTurn with
  | kept => exact hOld
  | stopped _ =>
    rcases Task.stop_cases _ task with hStop | hStop <;> rw [hStop]
    · exact hOld
    · trivial
  | vote h => exact Task.quiet_of_not_replicates h.replicationFrame.task
  | recv _ h => cases h <;> trivial
  | taken | answerVote => trivial
  | environment h => exact h.quiet hOld
  | replicate h =>
    cases h with
    | stalePeers _ _ => exact Or.inr rfl
    | @standbyRecv i owner response hRx =>
      obtain rfl : owner = k := of_decide_eq_true (List.find?_some hRx :)
      have hHeartbeat := hQuiet.queued owner response (List.mem_of_find?_eq_some hRx)
      exact absurd hTask hHeartbeat.not_standby
    | standbyMismatch _ _ _ _ | standbyAppended _ _ _ _ | standbyStale _ _ | standbyCommit
    | newer _ _ _ _ | committed _ => rcases hOld with hPc | hPc <;> cases hPc
    | notNewer _ => exact Or.inr rfl
    | standbyStepDown _ => rcases hOld with hPc | hPc <;> cases hPc
    | heartbeatStepDown h => cases h <;> trivial
    | peerBehind _ _ | nextIndex _ _ _ | prevEntry _ | entries | composed | entriesSent
    | forwarded => exact hOld
    | _ => trivial

omit [FallibleState S R] in
theorem Quiet.step_tasks (hQuiet : Quiet m) (hStep : m.step action = some m') (k : Nat)
    (task' : Task R) (hTask' : m'.tasks[k]? = some task') : task'.Quiet := by
  rcases step_turned hStep hTask' with ⟨task, hTask, hTurn⟩ | ⟨_, hSpawned⟩
  · exact hQuiet.turn hTask hTurn
  · cases hSpawned with
    | standby _ => exact Or.inl rfl
    | heartbeatSend _ => exact ⟨rfl, rfl, rfl⟩
    | peerLoop _ hPeers hPeer =>
      obtain ⟨peer, hLookup, hNext⟩ := mem_getStalePeers hPeer
      have hPast := hQuiet.peers _ (List.mem_of_getElem? hPeers) _ peer hLookup
      exact absurd hNext (Nat.not_le_of_lt hPast)
    | _ => trivial

omit [FallibleState S R] in
theorem Quiet.step_sent (hQuiet : Quiet m) (hStep : m.step action = some m') (out : OutRpc R)
    (hOut : out ∈ m'.outRpc) : out.rpc.Quiet := by
  rcases step_out hStep hOut with hOld | hSent
  · exact hQuiet.sent out hOld
  · cases hSent with
    | requestVote _ => trivial
    | heartbeat hTask => exact hQuiet.tasks _ _ hTask
    | entries hTask => exact (hQuiet.tasks _ _ hTask).elim

omit [FallibleState S R] in
theorem Quiet.step_queued (hQuiet : Quiet m) (hRouted : Routed m) (hStep : m.step action = some m')
    (owner : Nat) (response : AppendEntriesResponse) (hEntry : (owner, response) ∈ m'.appendRx) :
    m'.Heartbeat owner := by
  refine Machine.Heartbeat.mono ?_ (step_grows hStep)
  rcases step_queue hStep hEntry with hOld | hNew
  · exact hQuiet.queued owner response hOld
  · cases hNew with
    | heartbeat hTask => exact (hRouted.tasks _ _ hTask).1
    | entries hTask => exact (hQuiet.tasks _ _ hTask).elim

theorem step_quiet (hStep : m.step action = some m') (hTakes : TakesQuiet action)
    (hRouted : Routed m) (h : Quiet m) : Quiet m' where
  handling rpc responseTx hHandling :=
    (step_handling hStep hHandling).elim (h.handling rpc responseTx) (hTakes rpc responseTx)
  emptied := h.step_emptied hStep
  reading := h.step_reading hStep
  peers := h.step_peers hRouted hStep
  tasks := h.step_tasks hStep
  queued := h.step_queued hRouted hStep
  sent := h.step_sent hStep

/-- A step keeps the log, empties it or adds the entry of a client. -/
theorem Quiet.log (hQuiet : Quiet m) (hStep : m.step action = some m') :
    m'.log = m.log ∨ m'.log = [] ∨
      ∃ i entry, m.main = .appendEntry i entry ∧ m'.log = m.log ++ [entry] := by
  cases step_logChange hStep with
  | kept h => exact Or.inl h
  | removed _ hMain _ h =>
    obtain ⟨hPrev, _, _⟩ := hQuiet.handling _ _ (congrArg Main.handling hMain)
    exact Or.inr (Or.inl (by rw [h, hPrev, List.take_zero]))
  | replicated _ hMain _ h =>
    obtain ⟨_, _, hEntries⟩ := hQuiet.handling _ _ (congrArg Main.handling hMain)
    exact Or.inl (by rw [h, hEntries, List.append_nil])
  | created _ hMain _ h => exact Or.inr (Or.inr ⟨_, _, hMain, h⟩)

end Step

namespace Cluster

variable [DecidableEq R] {members : MembershipMap} {initial c c' : Cluster S R}

theorem Runs.routed (hInitial : Initial members initial)
    (hRuns : Runs members (fun _ _ => True) initial c) (i : NodeId) : Routed (c i) := by
  obtain ⟨node, hNode, _, hState⟩ := hInitial.machine i
  have hMachine := hRuns.machine_heartbeatsAgree hInitial i
  rw [hNode] at hMachine
  exact (hMachine.leaderIdle (by rw [hState]; exact nofun)).routed

omit [FallibleState S R] in
theorem takesQuiet {i : NodeId} (hQuiet : ∀ i, Quiet (c i)) (hDelivered : c.deliverable i action) :
    TakesQuiet action := fun _ responseTx hDelivers =>
  (hQuiet responseTx.node).sent _ (mem_outRpc_of_delivers hDelivered hDelivers)

theorem Runs.quiet (hInitial : Initial members initial)
    (hRuns : Runs members (fun _ _ => True) initial c) : ∀ i, Quiet (c i) := by
  induction hRuns with
  | refl =>
    intro i
    obtain ⟨node, hNode, _, _⟩ := hInitial.machine i
    rw [hNode]
    exact ⟨nofun, trivial, nofun, nofun, nofun, nofun, nofun⟩
  | @tail c _ hBefore hLast ih =>
    obtain ⟨i, action, _, hNext⟩ := hLast
    obtain ⟨_, hDelivered, m', hStep, rfl⟩ := step_eq_some hNext
    have hRouted : Routed (c i) := Runs.routed hInitial hBefore i
    exact forall_set (step_quiet hStep (takesQuiet ih hDelivered) hRouted (ih i)) ih

/-- In the step the main loop appends an entry that it has taken from a client. -/
def Creates (i : NodeId) (c c' : Cluster S R) (entry : LogEntry R) : Prop :=
  (∃ session, (c i).main = .appendEntry session entry) ∧ (c' i).log = (c i).log ++ [entry]

/-- In some step of the run the node appends the entry that it has taken from a client. -/
abbrev Created (members : MembershipMap) (initial c : Cluster S R) (i : NodeId)
    (entry : LogEntry R) : Prop :=
  Provenance.Made (Next members (fun _ _ => True)) (Creates i) initial c entry

end Cluster

section Filled

/-- Both nodes have one entry, which is committed. -/
def filledCluster : Cluster (Stored Unit) Unit := fun i =>
  { node := { emptyNode pairMembers with
      id := i, currentTerm := 1
      state := ⟨[⟨1, .clientRequest ()⟩], 1, pairMembers, none, 1⟩ } }

theorem filledCluster_initial : Cluster.Initial pairMembers filledCluster :=
  fun i => ⟨(filledCluster i).node.state, .empty, _, rfl, rfl, rfl⟩

/-- Node 1 is elected in term 2, appends a client request and sends a heartbeat, which
node 2 answers. -/
def emptiedLogActions : List (NodeId × Action Unit) :=
  [campaignActions 1, askActions 1 0 1, List.replicate 2 (2, .main),
    [(2, .event (.requestVote ⟨2, 1, 1, 1⟩ ⟨1, 1, false⟩))], List.replicate 10 (2, .main),
    [(1, .answerVote 1 ⟨1, true, 2, .ok⟩), (1, .recv 0 1)], List.replicate 3 (1, .task 0),
    [(1, .event .voteResult)], List.replicate 6 (1, .main),
    [(1, .event (.clientRequest () ⟨0, 0, false⟩))], List.replicate 3 (1, .main),
    List.replicate 3 (1, .task 2), [(1, .task 4)],
    [(2, .event (.appendEntries ⟨2, 1, 1, 0, 0, []⟩ ⟨1, 4, false⟩))],
    List.replicate 12 (2, .main)].flatten

theorem emptiedLog_run : ∃ c, Cluster.Runs pairMembers (fun _ _ => True) filledCluster c ∧
    (c 1).outRpc.length = 2 ∧ (c 1).node.state.log.length = 2 ∧ (c 2).node.state.commit ≠ 1 := by
  obtain ⟨c, hRuns, hc⟩ := Cluster.exists_of_run
    (show (filledCluster.run pairMembers (fun _ _ => True) emptiedLogActions).map (fun c =>
      decide ((c 1).outRpc.length = 2 ∧ (c 1).node.state.log.length = 2 ∧
        (c 2).node.state.commit ≠ 1)) = some true by decide)
  exact ⟨c, hRuns, of_decide_eq_true hc⟩

end Filled

variable [DecidableEq R]

/-- What the nodes of a cluster send to replicate their logs is heartbeats, and no peer
ever has a loop. -/
theorem heartbeats_only (members : MembershipMap) (initial c : Cluster S R)
    (hInitial : Cluster.Initial members initial)
    (hRuns : Cluster.Runs members (fun _ _ => True) initial c) (i : NodeId) :
    (∀ out ∈ (c i).outRpc, ∀ request, out.rpc = .appendEntries request → request.IsBlank) ∧
      ∀ (k session owner : Nat) peer pc,
        (c i).tasks[k]? ≠ some (.peerLoop session owner peer pc) := by
  have hQuiet := hRuns.quiet hInitial i
  constructor
  · intro out hOut request hRpc
    have hSent := hQuiet.sent out hOut
    rwa [hRpc] at hSent
  · intro k session owner peer pc hTask
    exact hQuiet.tasks k _ hTask

/-- Node 1 has asked for a vote and sent a heartbeat. -/
theorem heartbeats_only_filled : ∃ c : Cluster (Stored Unit) Unit, (c 1).outRpc.length = 2 ∧
    ∀ out ∈ (c 1).outRpc, ∀ request, out.rpc = .appendEntries request → request.IsBlank := by
  obtain ⟨c, hRuns, hSent, _⟩ := emptiedLog_run
  exact ⟨c, hSent,
    (heartbeats_only pairMembers filledCluster c filledCluster_initial hRuns 1).1⟩

/-- Nothing is ever committed: a commit index stays or falls back to 0. -/
theorem commitIndex_kept_or_zero (members : MembershipMap) (initial c c' : Cluster S R)
    (hInitial : Cluster.Initial members initial)
    (hBefore : Cluster.Runs members (fun _ _ => True) initial c)
    (hRuns : Cluster.Runs members (fun _ _ => True) c c') (i : NodeId) :
    (c' i).commitIndex = (c i).commitIndex ∨ (c' i).commitIndex = 0 := by
  induction hRuns with
  | refl => exact Or.inl rfl
  | @tail c₁ _ hMid hLast ih =>
    obtain ⟨j, action, _, hNext⟩ := hLast
    obtain ⟨_, _, m', hStep, rfl⟩ := Cluster.step_eq_some hNext
    have hQuiet := Cluster.Runs.quiet hInitial (hBefore.trans hMid) j
    by_cases hij : i = j
    · subst hij
      rw [Cluster.set_self]
      have hCommit := hQuiet.commit hStep
      omega
    · rwa [Cluster.set_of_ne _ _ hij]

/-- The heartbeat takes its committed entry from node 2. -/
theorem commitIndex_zero_filled : ∃ c : Cluster (Stored Unit) Unit, (c 2).commitIndex = 0 := by
  obtain ⟨c, hRuns, _, _, hCommit⟩ := emptiedLog_run
  exact ⟨c, (commitIndex_kept_or_zero pairMembers filledCluster filledCluster c
    filledCluster_initial Relation.ReflTransGen.refl hRuns 2).resolve_left hCommit⟩

/-- Beyond what it started with, a node only ever holds the entries that clients have given
to itself. -/
theorem log_created (members : MembershipMap) (initial c : Cluster S R)
    (hInitial : Cluster.Initial members initial)
    (hRuns : Cluster.Runs members (fun _ _ => True) initial c) (i : NodeId) :
    ∃ created, ((c i).log = (initial i).log ++ created ∨ (c i).log = created) ∧
      ∀ entry ∈ created, Cluster.Created members initial c i entry := by
  induction hRuns with
  | refl => exact ⟨[], Or.inl (List.append_nil _).symm, nofun⟩
  | @tail c₁ _ hBefore hLast ih =>
    obtain ⟨created, hLog, hCreated⟩ := ih
    have hKept : ∀ entry ∈ created, Cluster.Created members initial _ i entry :=
      fun entry hEntry => (hCreated entry hEntry).tail hLast
    obtain ⟨j, action, _, hNext⟩ := id hLast
    obtain ⟨_, _, m', hStep, rfl⟩ := Cluster.step_eq_some hNext
    by_cases hij : i = j
    · subst hij
      rw [Cluster.set_self]
      rcases (Cluster.Runs.quiet hInitial hBefore i).log hStep with
        hSame | hEmpty | ⟨session, entry, hMain, hNew⟩
      · exact ⟨created, hSame ▸ hLog, hKept⟩
      · exact ⟨[], Or.inr hEmpty, nofun⟩
      · refine ⟨created ++ [entry], ?_, ?_⟩
        · rw [hNew, ← List.append_assoc]
          exact hLog.imp (congrArg (· ++ [entry])) (congrArg (· ++ [entry]))
        · intro entry' hEntry
          rcases List.mem_append.mp hEntry with hOld | hLast'
          · exact hKept entry' hOld
          · obtain rfl := List.mem_singleton.mp hLast'
            refine Provenance.Made.last hBefore hLast ⟨⟨session, hMain⟩, ?_⟩
            rw [Cluster.set_self, hNew]
    · rw [Cluster.set_of_ne _ _ hij]
      exact ⟨created, hLog, hKept⟩

/-- Node 1 has a second entry. -/
theorem log_created_filled : ∃ c : Cluster (Stored Unit) Unit, (c 1).log.length = 2 ∧
    ∃ created, ((c 1).log = (filledCluster 1).log ++ created ∨ (c 1).log = created) ∧
      ∀ entry ∈ created, Cluster.Created pairMembers filledCluster c 1 entry := by
  obtain ⟨c, hRuns, _, hLength, _⟩ := emptiedLog_run
  exact ⟨c, hLength, log_created pairMembers filledCluster c filledCluster_initial hRuns 1⟩

end Zeroraft
