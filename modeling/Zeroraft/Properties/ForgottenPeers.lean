import Zeroraft.Properties.ElectionSafety
import Zeroraft.Properties.LeaderLog
import Zeroraft.Properties.SelfDeadlock
import Zeroraft.Runtime.Deliveries
import Zeroraft.Runtime.LogSteps
import Zeroraft.Runtime.Responses

/-!
# Are lagging peers forgotten?

A session starts every peer one past the commit index, and the standby update starts a
loop for the peers that are not past it. The commit index of a leader does not move, so
there are none.
-/

namespace Zeroraft

open Growth

variable {S R : Type} [State S R] {m m' : Machine S R} {action : Action R}

section Mismatches

/-- Log mismatches are answers to requests that name an entry of the log. -/
structure MismatchFits (m : Machine S R) : Prop where
  sending : ∀ role request responseTx response,
    m.main = .appendEntries role request responseTx (.send response) →
    response.reason = .logMismatch → request.prevLogIndex ≠ 0
  replies : ∀ responseTx request response, .appendEntries responseTx request response ∈ m.replies →
    response.reason = .logMismatch → request.prevLogIndex ≠ 0

variable [FallibleState S R]

/-- There is no entry at index 0 whose term could be another. -/
theorem AppendEntriesPc.mismatch_prevLogIndex {ourId : NodeId} {responseTx : Sender}
    {node : RaftNode S} {request : AppendEntriesRequest R} {pc : AppendEntriesPc}
    {response : AppendEntriesResponse} (hReason : response.reason = .logMismatch)
    (h : (pc.step ourId request responseTx node).1 = .next (.send response)) :
    request.prevLogIndex ≠ 0 := by
  cases AppendEntriesPc.edge_of_next _ _ _ h with
  | short hShort => exact Nat.ne_of_gt (Nat.zero_lt_of_lt hShort)
  | mismatch =>
    intro hZero
    simp only [AppendEntriesPc.step, FallibleState.getEntry_eq, hZero, Stored.entry, if_true,
      Option.any_none, Bool.false_eq_true, if_false] at h
    cases h
  | stale _ | committed => cases hReason

theorem step_mismatchFits (hStep : m.step action = some m') (h : MismatchFits m) :
    MismatchFits m' where
  sending := by
    intro role request responseTx response hMain' hReason
    cases step_cases hStep with
    | main hMain =>
      cases hMain with
      | appendEntries _ _ hNext =>
        cases hMain'
        exact AppendEntriesPc.mismatch_prevLogIndex hReason hNext
      | leave _ _ =>
        rw [RoleLoop.leave_main] at hMain'
        cases hMain'
      | _ => cases hMain'
    | select _ hSelect => cases hSelect <;> cases hMain'
    | vote _ hTask | replicate _ hTask =>
      exact h.sending role request responseTx response (hTask.frame.main.symm.trans hMain') hReason
    | recv _ _ hRecv =>
      obtain ⟨voteSessions, rfl⟩ := hRecv.frame
      exact h.sending role request responseTx response hMain' hReason
    | overrun _ => cases hMain'
    | answerVote _ | environment _ _ =>
      exact h.sending role request responseTx response hMain' hReason
  replies := by
    intro responseTx request response hReply hReason
    rcases step_replies hStep with hSame | ⟨_, _, last, hReplied, hNew⟩
    · exact h.replies responseTx request response (hSame ▸ hReply) hReason
    · rw [hNew] at hReply
      rcases List.mem_append.mp hReply with hOld | hLast
      · exact h.replies responseTx request response hOld hReason
      · obtain rfl := List.mem_singleton.mp hLast
        cases hReplied with
        | appendEntries hMain => exact h.sending _ request responseTx response hMain hReason

end Mismatches

namespace Cluster

variable [FallibleState S R] [DecidableEq R] {members : MembershipMap}
  {Allowed : Machine S R → Action R → Prop} {initial c : Cluster S R}

theorem Runs.mismatchFits (hInitial : Initial members initial)
    (hRuns : Runs members Allowed initial c) (i : NodeId) : MismatchFits (c i) := by
  refine @Runs.invariant S R _ _ members Allowed (fun _ m => MismatchFits m) _ _ hRuns (fun i => ?_)
    (fun c i action m' hAll _ _ hStep => step_mismatchFits hStep (hAll i)) i
  obtain ⟨node, hNode, _, _⟩ := hInitial.machine i
  rw [hNode]
  exact ⟨nofun, nofun⟩

theorem Runs.heartbeatsAgree (hInitial : Initial members initial)
    (hRuns : Runs members Allowed initial c) {i : NodeId}
    (hDelivered : c.deliverable i action) : HeartbeatsAgree (c i) action := by
  cases action with
  | answerAppend k response =>
    intro owner peer hTask hReason
    obtain ⟨reply, hReply, hAppend⟩ := List.any_eq_true.mp hDelivered
    cases reply with
    | appendEntries responseTx request response' =>
      obtain ⟨rfl, rfl, rfl⟩ := of_decide_eq_true hAppend
      have hSent := (hRuns.traced hInitial).took response'.id (.appendEntries request) responseTx
        (Or.inr ⟨_, hReply, rfl⟩)
      obtain ⟨request', hRpc, hPrev⟩ :=
        (hRuns.sentOnce hInitial _).tasks _ _ hTask _ hSent rfl
      cases hRpc
      exact (hRuns.mismatchFits hInitial _).replies responseTx request response' hReply hReason hPrev
    | requestVote _ _ | client _ _ => cases hAppend
  | _ => trivial

theorem Runs.machine_heartbeatsAgree (hInitial : Initial members initial)
    (hRuns : Runs members Allowed initial c) (i : NodeId) :
    Machine.Runs HeartbeatsAgree (initial i) (c i) := by
  induction hRuns with
  | refl => exact Relation.ReflTransGen.refl
  | @tail c _ hBefore hLast ih =>
    obtain ⟨j, action, _, hNext⟩ := hLast
    obtain ⟨_, hDelivered, m', hStep, rfl⟩ := step_eq_some hNext
    have hRuns : Runs members Allowed initial c := hBefore
    by_cases hij : i = j
    · subst hij
      rw [set_self]
      exact ih.tail ⟨action, hRuns.heartbeatsAgree hInitial hDelivered, hStep⟩
    · rwa [set_of_ne _ _ hij]

end Cluster

section Idle

/-- The handler has made the node a follower and goes on with the log. -/
def Main.follows : Main R → Bool
  | .appendEntries _ _ _ (.readEntry _) | .appendEntries _ _ _ (.removeEntries _)
  | .appendEntries _ _ _ (.appendEntries _) | .appendEntries _ _ _ (.readNewLastIndex _)
  | .appendEntries _ _ _ (.setCommit _ _) => true
  | _ => false

omit [State S R] in
theorem Main.follows_of_setsCommit {main : Main R} (h : main.setsCommit = true) :
    main.follows = true := by
  unfold Main.setsCommit at h
  split at h
  · rfl
  · cases h

theorem MainStepped.follows (h : MainStepped m m')
    (hFollows : m.main.follows = true → m.node.currentState ≠ .leader)
    (hFollows' : m'.main.follows = true) : m'.node.currentState ≠ .leader := by
  cases h with
  | @appendEntries role request responseTx pc pc' hMain hEdge _ =>
    rw [hMain] at hFollows
    obtain ⟨state, _, hNode⟩ := AppendEntriesPc.step_node m.node.id responseTx m.node request pc
    rw [hNode]
    cases hEdge with
    | follower _ => exact nofun
    | same _ | removed | appended | lastIndex => exact hFollows rfl
    | _ => cases hFollows'
  | leave _ _ =>
    rw [RoleLoop.leave_main] at hFollows'
    cases hFollows'
  | _ => cases hFollows'

/-- The session of a leader loop as it was started: every peer is one past the commit
index, and no loop has been started for any. -/
structure Idle (m : Machine S R) (i : Nat) : Prop where
  peers : m.replicationSessions[i]? = some
    (initialPeers (State.getMembership m.node.state) m.node.id (m.commitIndex + 1))
  loops : ∀ (k owner : Nat) peer pc, m.tasks[k]? ≠ some (Task.peerLoop i owner peer pc)
  standby : ∀ (k : Nat) pc, m.tasks[k]? = some (Task.standby i pc) →
    pc = .readStalePeers ∨ pc = .recv
  queued : ∀ (k : Nat) pc, m.tasks[k]? = some (Task.standby i pc) →
    ∀ entry ∈ m.appendRx, entry.1 ≠ k

structure LeaderIdle (m : Machine S R) : Prop where
  exist : SessionsExist m
  routed : Routed m
  follows : m.main.follows = true → m.node.currentState ≠ .leader
  commits : ∀ (k i index : Nat), m.tasks[k]? ≠ some (Task.standby i (.setCommit index))
  reading : ∀ nextIndex, m.main = .readMembership nextIndex → nextIndex = m.commitIndex + 1
  idle : m.node.currentState = .leader → ∀ i, m.main.role = some (.leader i) → Idle m i

variable [FallibleState S R] {i : Nat}

omit [FallibleState S R] in
theorem Idle.turn (h : Idle m i) {k : Nat} {pc : StandbyPc} {task' : Task R}
    (hTask : m.tasks[k]? = some (.standby i pc))
    (hTurn : TaskTurn m k action (.standby i pc) task' m') :
    task' = .standby i .readStalePeers ∨ task' = .standby i .recv := by
  rcases h.standby k pc hTask with rfl | rfl
  · cases hTurn with
    | kept | stopped _ => exact Or.inl rfl
    | vote h => cases h
    | replicate h =>
      cases h
      exact Or.inr rfl
    | environment h =>
      cases h with
      | answerAppend h | lose h | cancel h | elapse h => cases h
  · cases hTurn with
    | kept | stopped _ => exact Or.inr rfl
    | vote h => cases h
    | replicate hStepped =>
      cases hStepped with
      | standbyRecv hRx =>
        exact absurd (of_decide_eq_true (List.find?_some hRx :))
          (h.queued k _ hTask _ (List.mem_of_find?_eq_some hRx))
    | environment h =>
      cases h with
      | answerAppend h | lose h | cancel h | elapse h => cases h

omit [FallibleState S R] in
theorem Idle.sessions_of_step (h : Idle m i) (hRouted : Routed m) (hStep : m.step action = some m') :
    m'.replicationSessions[i]? = m.replicationSessions[i]? := by
  have hStandby : ∀ {k j : Nat} {response : AppendEntriesResponse} {peers' : PeerMap},
      m.tasks[k]? = some (Task.standby j (.lockPeers response)) →
      (m.replicationSessions.set j peers')[i]? = m.replicationSessions[i]? := by
    intro k j response peers' hTask
    refine List.getElem?_set_ne ?_
    rintro rfl
    rcases h.standby k _ hTask with hPc | hPc <;> cases hPc
  cases step_peersChange hStep with
  | kept hSame => rw [hSame]
  | started _ _ hNew =>
    rw [hNew, List.getElem?_append_left (List.getElem?_eq_some_iff.mp h.peers).1]
  | mismatch _ hTask hLock hReason _ _ hSet =>
    rw [hSet]
    rcases hLock with rfl | rfl
    · exact absurd hReason (hRouted.tasks _ _ hTask)
    · exact hStandby hTask
  | appended _ hTask _ _ _ hSet =>
    rw [hSet]
    exact hStandby hTask

omit [FallibleState S R] in
theorem getStalePeers_initialPeers (node : RaftNode S) (membership : MembershipMap) (id : NodeId) :
    getStalePeers node (initialPeers membership id (State.getLastCommitIndex node.state + 1)) = [] := by
  refine List.filterMap_eq_nil_iff.mpr fun entry hEntry => ?_
  obtain ⟨peer, _, rfl⟩ := List.mem_map.mp hEntry
  exact if_neg (Nat.not_succ_le_self _)

theorem Idle.step (h : Idle m i) (hRouted : Routed m) (hStep : m.step action = some m')
    (hCommit : m'.commitIndex = m.commitIndex) : Idle m' i where
  peers := by
    obtain ⟨hId, hMembership⟩ := Prod.mk.inj (step_identity hStep)
    rw [h.sessions_of_step hRouted hStep, h.peers, hCommit, hId, hMembership]
  loops := by
    intro k owner peer pc' hTask'
    rcases step_task hStep hTask' with ⟨task, hTask, hLater⟩ | ⟨_, hSpawned⟩
    · obtain ⟨pc, rfl⟩ := hLater.peerLoop_inv
      exact h.loops k owner peer pc hTask
    · cases hSpawned with
      | peerLoop _ hPeers hPeer =>
        rw [h.peers] at hPeers
        cases hPeers
        rw [Machine.commitIndex, getStalePeers_initialPeers] at hPeer
        cases hPeer
  standby := by
    intro k pc' hTask'
    rcases step_task hStep hTask' with ⟨task, hTask, hLater⟩ | ⟨_, hSpawned⟩
    · obtain ⟨pc, rfl⟩ := hLater.standby_inv
      obtain ⟨task', hSame, hTurn⟩ := step_turn hStep hTask
      obtain rfl := Option.some.inj (hTask'.symm.trans hSame)
      rcases h.turn hTask hTurn with hPc | hPc
      · exact Or.inl (Task.standby.inj hPc).2
      · exact Or.inr (Task.standby.inj hPc).2
    · cases hSpawned
      exact Or.inl rfl
  queued := by
    rintro k pc' hTask' ⟨owner, response⟩ hEntry rfl
    rcases step_task hStep hTask' with ⟨task, hTask, hLater⟩ | ⟨hNew, _⟩
    · obtain ⟨pc, rfl⟩ := hLater.standby_inv
      rcases step_queue hStep hEntry with hOld | hNew
      · exact h.queued owner pc hTask _ hOld rfl
      · cases hNew with
        | heartbeat hSend => exact (hRouted.tasks _ _ hSend).1.not_standby hTask
        | entries hLoop =>
          have hOwner : m.Standby owner _ := hRouted.tasks _ _ hLoop
          obtain rfl := hOwner.session_eq hTask
          exact h.loops _ _ _ _ hLoop
    · exact Nat.not_lt.mpr hNew (hRouted.queue_lt hStep hEntry)

omit [FallibleState S R] in
theorem LeaderIdle.start (h : LeaderIdle m) {nextIndex : Nat}
    (hMain : m.main = .readMembership nextIndex) (hStep : m.step .main = some m') :
    Idle m' m.replicationSessions.length := by
  obtain rfl := h.reading nextIndex hMain
  have hOld : ∀ {k : Nat} {task : Task R}, m.tasks[k]? = some task →
      task.session ≠ some m.replicationSessions.length := fun hTask hSession =>
    Nat.lt_irrefl _ (h.exist.tasks _ (List.mem_of_getElem? hTask) _ hSession)
  simp only [Machine.step, mainStep, hMain] at hStep
  cases hStep
  refine ⟨List.getElem?_concat_length, ?_, ?_, ?_⟩
  · intro k owner peer pc hTask
    rcases getElem?_append_cases hTask with hTask | hNew
    · exact hOld hTask rfl
    · rcases List.mem_pair.mp hNew with hTask | hTask <;> cases hTask
  · intro k pc hTask
    rcases getElem?_append_cases hTask with hTask | hNew
    · exact absurd rfl (hOld hTask)
    · rcases List.mem_pair.mp hNew with hTask | hTask <;> cases hTask
      exact Or.inl rfl
  · rintro k pc hTask entry hEntry rfl
    rw [List.getElem?_append_left (h.routed.queued_lt hEntry)] at hTask
    exact hOld hTask rfl

theorem LeaderIdle.commitIndex (h : LeaderIdle m) (hStep : m.step action = some m')
    (hLeader : m.node.currentState = .leader) : m'.commitIndex = m.commitIndex := by
  cases step_commitChange hStep with
  | kept hKept => exact hKept
  | handler hMain => exact absurd hLeader (h.follows (Main.follows_of_setsCommit hMain))
  | standby hTask => exact absurd hTask (h.commits _ _ _)

theorem LeaderIdle.step_idle (h : LeaderIdle m) (hStep : m.step action = some m')
    (hLeader : m'.node.currentState = .leader) (hRole : m'.main.role = some (.leader i)) :
    Idle m' i := by
  have hBefore : m.node.currentState = .leader := by
    rcases step_becomeLeader hStep hLeader with hOld | ⟨_, _, _, _, hMain', _⟩
    · exact hOld
    · rw [hMain'] at hRole
      cases hRole
  rcases step_leaderLoop hStep hRole with hOld | ⟨rfl, hLength⟩
  · exact (h.idle hBefore i hOld).step h.routed hStep (h.commitIndex hStep hBefore)
  · cases step_peersChange hStep with
    | started hAction hMain _ =>
      subst hAction
      exact h.start hMain hStep
    | kept hSame =>
      rw [hSame] at hLength
      exact absurd hLength (Nat.ne_of_lt (Nat.lt_succ_self _))
    | mismatch _ _ _ _ _ _ hSet | appended _ _ _ _ _ hSet =>
      rw [hSet, List.length_set] at hLength
      exact absurd hLength (Nat.ne_of_lt (Nat.lt_succ_self _))

omit [FallibleState S R] in
theorem step_commits (hStep : m.step action = some m')
    (h : ∀ (k i index : Nat), m.tasks[k]? ≠ some (Task.standby i (.setCommit index)))
    (k i index : Nat) : m'.tasks[k]? ≠ some (Task.standby i (.setCommit index)) := by
  intro hTask'
  rcases step_task hStep hTask' with ⟨task, hTask, hLater⟩ | ⟨_, hSpawned⟩
  · obtain ⟨pc, rfl⟩ := hLater.standby_inv
    obtain ⟨task', hSame, hTurn⟩ := step_turn hStep hTask
    obtain rfl := Option.some.inj (hTask'.symm.trans hSame)
    cases hTurn with
    | kept | stopped _ => exact h k i index hTask
    | vote hStepped => cases hStepped
    | replicate hStepped =>
      cases hStepped with
      | newer _ hRead _ _ => exact calculate_waits hTask hRead
      | standbyStepDown hDown => cases hDown
    | environment hLocal =>
      cases hLocal with
      | answerAppend hLocal | lose hLocal | cancel hLocal | elapse hLocal => cases hLocal
  · cases hSpawned

/-- Between its reads of the commit index and of the membership the main loop is alone in
writing the commit index. -/
theorem LeaderIdle.step_reading (h : LeaderIdle m) (hStep : m.step action = some m')
    (nextIndex : Nat) (hMain' : m'.main = .readMembership nextIndex) :
    nextIndex = m'.commitIndex + 1 := by
  have hSame : m.main = .readMembership nextIndex → nextIndex = m'.commitIndex + 1 := by
    intro hMain
    rw [h.reading nextIndex hMain]
    cases step_commitChange hStep with
    | kept hKept => rw [hKept]
    | handler hSets =>
      rw [hMain] at hSets
      cases hSets
    | standby hTask => exact absurd hTask (h.commits _ _ _)
  cases step_cases hStep with
  | main hMain =>
    cases hMain with
    | readCommit _ =>
      cases hMain'
      rfl
    | leave _ _ =>
      rw [RoleLoop.leave_main] at hMain'
      cases hMain'
    | _ => cases hMain'
  | select _ hSelect => cases hSelect <;> cases hMain'
  | vote _ hTask | replicate _ hTask => exact hSame (hTask.frame.main.symm.trans hMain')
  | recv _ _ hRecv =>
    obtain ⟨voteSessions, rfl⟩ := hRecv.frame
    exact hSame hMain'
  | overrun _ => cases hMain'
  | answerVote _ | environment _ _ => exact hSame hMain'

theorem step_leaderIdle (hStep : m.step action = some m') (hSafe : HeartbeatsAgree m action)
    (h : LeaderIdle m) : LeaderIdle m' where
  exist := step_sessionsExist hStep h.exist
  routed := step_routed hStep hSafe h.routed
  follows := step_asFollower hStep (fun hMain => hMain.follows h.follows)
    (fun _ _ hSelect => by cases hSelect <;> rfl) rfl h.follows
  commits := step_commits hStep h.commits
  reading := h.step_reading hStep
  idle := fun hLeader _ hRole => h.step_idle hStep hLeader hRole

theorem Machine.Runs.leaderIdle {node : RaftNode S} (hState : node.currentState ≠ .leader)
    (hRuns : Machine.Runs HeartbeatsAgree { node } m) : LeaderIdle m := by
  refine hRuns.invariant ?_ fun _ _ _ hSafe hStep h => step_leaderIdle hStep hSafe h
  exact ⟨⟨nofun, nofun⟩, ⟨nofun, nofun⟩, nofun, nofun, nofun, fun hLeader => absurd hLeader hState⟩

end Idle

/-- The peer has not answered yet, or has less than the whole log of the leader. -/
def Peer.Lags (peer : Peer) (node : RaftNode S) : Prop :=
  ∀ index ∈ peer.matchIndex, index < State.getLastIndex node.state

def Machine.Replicates (m : Machine S R) (i : Nat) (id : NodeId) : Prop :=
  ∃ (k owner : Nat) (pc : PeerLoopPc R), m.tasks[k]? = some (.peerLoop i owner id pc)

def NoneForgotten (m : Machine S R) (i : Nat) : Prop :=
  ∀ peers ∈ m.replicationSessions[i]?, ∀ id, ∀ peer ∈ peers.lookup id,
    peer.Lags m.node → m.Replicates i id

theorem Idle.noneForgotten_iff {i : Nat} (h : Idle m i) {members : MembershipMap}
    {id : NodeId} (hIdentity : m.node.identity = (id, members)) :
    NoneForgotten m i ↔ members.peers id = [] := by
  obtain ⟨hId, hMembers⟩ := Prod.mk.inj hIdentity
  have hPeers := h.peers
  rw [hId, hMembers] at hPeers
  constructor
  · intro hForgotten
    by_contra hSome
    obtain ⟨peer, hPeer⟩ := List.exists_mem_of_ne_nil _ hSome
    obtain ⟨k, owner, pc, hLoop⟩ := hForgotten _ hPeers peer ⟨m.commitIndex + 1, none⟩
      (lookup_initialPeers.mpr ⟨hPeer, rfl⟩) nofun
    exact h.loops k owner peer pc hLoop
  · intro hNone peers hOwn peer entry hEntry _
    rw [hPeers] at hOwn
    cases hOwn
    obtain ⟨hPeer, _⟩ := lookup_initialPeers.mp hEntry
    rw [hNone] at hPeer
    cases hPeer

theorem Cluster.Runs.idle [FallibleState S R] [DecidableEq R] {members : MembershipMap}
    {initial c : Cluster S R} (hInitial : Cluster.Initial members initial)
    (hRuns : Cluster.Runs members (fun _ _ => True) initial c) {id : NodeId} {i : Nat}
    (hLeader : (c id).node.currentState = .leader)
    (hRole : (c id).main.role = some (.leader i)) :
    Idle (c id) i ∧ (c id).node.identity = (id, members) := by
  obtain ⟨node, hNode, hIdentity, hState⟩ := hInitial.machine id
  have hMachine := hRuns.machine_heartbeatsAgree hInitial id
  rw [hNode] at hMachine
  exact ⟨(hMachine.leaderIdle (by rw [hState]; exact nofun)).idle hLeader i hRole,
    hMachine.tally.identity.trans hIdentity⟩

/-- Whether or not the standby update of a leader has looked for stale peers yet, every
peer that lags has a loop exactly if the leader has no peers. -/
theorem none_forgotten_iff [FallibleState S R] [DecidableEq R] (members : MembershipMap)
    (initial c : Cluster S R) (hInitial : Cluster.Initial members initial)
    (hRuns : Cluster.Runs members (fun _ _ => True) initial c) (id : NodeId) (i : Nat)
    (hLeader : (c id).node.currentState = .leader)
    (hRole : (c id).main.role = some (.leader i)) :
    NoneForgotten (c id) i ↔ members.peers id = [] := by
  obtain ⟨hIdle, hIdentity⟩ := hRuns.idle hInitial hLeader hRole
  exact hIdle.noneForgotten_iff hIdentity

def Task.hasLooked (i : Nat) : Task R → Bool
  | .standby session pc => session = i ∧ pc ≠ .readStalePeers
  | _ => false

def loneMembers : MembershipMap := ⟨[1], by decide⟩

def loneCluster : Cluster (Stored Unit) Unit := fun i =>
  { node := { emptyNode loneMembers with id := i } }

theorem loneCluster_initial : Cluster.Initial loneMembers loneCluster :=
  fun i => ⟨(loneCluster i).node.state, .empty, _, rfl, rfl, rfl⟩

/-- Node 1 is elected at once and its standby update looks for stale peers. -/
def loneLeaderActions : List (NodeId × Action Unit) :=
  [campaignActions 1, List.replicate 3 (1, .task 0), [(1, .event .voteResult)],
    List.replicate 6 (1, .main), [(1, .task 2)]].flatten

/-- The leader without peers forgets none. -/
theorem none_forgotten_lone : ∃ c : Cluster (Stored Unit) Unit,
    (c 1).node.currentState = .leader ∧ (c 1).tasks.any (Task.hasLooked 0) ∧
      NoneForgotten (c 1) 0 := by
  obtain ⟨c, hRuns, hc⟩ := Cluster.exists_of_run
    (show (loneCluster.run loneMembers (fun _ _ => True) loneLeaderActions).map (fun c =>
      decide ((c 1).node.currentState = .leader ∧ (c 1).main.role = some (.leader 0) ∧
        (c 1).tasks.any (Task.hasLooked 0))) = some true by decide)
  obtain ⟨hLeader, hRole, hLooked⟩ := of_decide_eq_true hc
  exact ⟨c, hLeader, hLooked, (none_forgotten_iff loneMembers loneCluster c loneCluster_initial
    hRuns 1 0 hLeader hRole).mpr (by decide)⟩

/-- Node 2 votes for node 1, whose standby update looks for stale peers before a client
request comes. -/
def forgottenPeerActions : List (NodeId × Action Unit) :=
  [campaignActions 1, askActions 1 0 1, List.replicate 2 (2, .main),
    [(2, .event (.requestVote ⟨1, 1, 0, 0⟩ ⟨1, 1, false⟩))], List.replicate 9 (2, .main),
    [(1, .answerVote 1 ⟨0, true, 2, .ok⟩), (1, .recv 0 1)], List.replicate 3 (1, .task 0),
    [(1, .event .voteResult)], List.replicate 6 (1, .main), [(1, .task 3)],
    [(1, .event (.clientRequest () ⟨0, 0, false⟩))], List.replicate 3 (1, .main)].flatten

/-- Node 1 appends a client request, node 2 never gets it. -/
theorem peer_forgotten : Cluster.Initial pairMembers newCluster ∧
    ∃ c, Cluster.Runs pairMembers (fun _ _ => True) newCluster c ∧
      ((c 1).node.currentState = .leader ∧ (c 1).main.role = some (.leader 0) ∧
        (c 1).tasks.any (Task.hasLooked 0) ∧ (c 1).node.state.log ≠ []) ∧
      ¬ NoneForgotten (c 1) 0 := by
  refine ⟨newCluster_initial, ?_⟩
  obtain ⟨c, hRuns, hc⟩ := Cluster.exists_of_run
    (show (newCluster.run pairMembers (fun _ _ => True) forgottenPeerActions).map (fun c =>
      decide ((c 1).node.currentState = .leader ∧ (c 1).main.role = some (.leader 0) ∧
        (c 1).tasks.any (Task.hasLooked 0) ∧ (c 1).node.state.log ≠ [])) = some true by decide)
  have hLeads := of_decide_eq_true hc
  obtain ⟨hIdle, hIdentity⟩ := hRuns.idle newCluster_initial hLeads.1 hLeads.2.1
  refine ⟨c, hRuns, hLeads, fun hNone => ?_⟩
  exact absurd ((hIdle.noneForgotten_iff hIdentity).mp hNone) (by decide)

end Zeroraft
