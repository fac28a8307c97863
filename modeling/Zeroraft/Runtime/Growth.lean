import Zeroraft.Library.Growth
import Zeroraft.Runtime.Steps

/-!
# What no step takes back

Tasks keep their place and their identity until they end, sessions only gain
votes, the histories only get longer, and the node keeps its id and membership.
-/

namespace Zeroraft

open Growth

variable {S R : Type}

inductive Task.Later : Task R → Task R → Prop
  | same {task : Task R} : Later task task
  | round {i : Nat} {pc pc' : RoundPc} : Later (.round i pc) (.round i pc')
  | voteSend {i owner : Nat} {peer : NodeId} {pc pc' : VoteSendPc} :
      Later (.voteSend i owner peer pc) (.voteSend i owner peer pc')
  | heartbeat {i : Nat} {pc pc' : HeartbeatPc} : Later (.heartbeat i pc) (.heartbeat i pc')
  | heartbeatSend {owner : Nat} {peer : NodeId} {pc pc' : HeartbeatSendPc R} :
      Later (.heartbeatSend owner peer pc) (.heartbeatSend owner peer pc')
  | standby {i : Nat} {pc pc' : StandbyPc} : Later (.standby i pc) (.standby i pc')
  | peerLoop {i owner : Nat} {peer : NodeId} {pc pc' : PeerLoopPc R} :
      Later (.peerLoop i owner peer pc) (.peerLoop i owner peer pc')
  | ended {task : Task R} : Later task .ended

structure VoteSession.Later (session session' : VoteSession) : Prop where
  startTerm : session'.startTerm = session.startTerm
  grantedVotes : session.grantedVotes ≤ session'.grantedVotes
  grants : session.grants <+: session'.grants

structure Machine.Grows (m m' : Machine S R) : Prop where
  tasks : Growth.Grows Task.Later m.tasks m'.tasks
  voteSessions : Growth.Grows VoteSession.Later m.voteSessions m'.voteSessions
  outRpc : m.outRpc <+: m'.outRpc
  replies : m.replies <+: m'.replies
  answers : m.answers <+: m'.answers

theorem Task.Later.refl (task : Task R) : task.Later task := Task.Later.same

theorem VoteSession.Later.refl (session : VoteSession) : session.Later session :=
  ⟨rfl, Nat.le_refl _, List.prefix_rfl⟩

theorem Task.Later.trans {a b c : Task R} (hab : a.Later b) (hbc : b.Later c) : a.Later c := by
  cases hab with
  | same => exact hbc
  | ended => cases hbc <;> exact Task.Later.ended
  | round => cases hbc <;> first | exact Task.Later.round | exact Task.Later.ended
  | voteSend => cases hbc <;> first | exact Task.Later.voteSend | exact Task.Later.ended
  | heartbeat => cases hbc <;> first | exact Task.Later.heartbeat | exact Task.Later.ended
  | heartbeatSend => cases hbc <;> first | exact Task.Later.heartbeatSend | exact Task.Later.ended
  | standby => cases hbc <;> first | exact Task.Later.standby | exact Task.Later.ended
  | peerLoop => cases hbc <;> first | exact Task.Later.peerLoop | exact Task.Later.ended

theorem VoteSession.Later.trans {a b c : VoteSession} (hab : a.Later b) (hbc : b.Later c) :
    a.Later c :=
  ⟨hbc.startTerm.trans hab.startTerm, hab.grantedVotes.trans hbc.grantedVotes,
    hab.grants.trans hbc.grants⟩

theorem Task.Later.standby_inv {task : Task R} {i : Nat} {pc' : StandbyPc}
    (h : task.Later (.standby i pc')) : ∃ pc, task = .standby i pc := by
  cases h with
  | same | standby => exact ⟨_, rfl⟩

theorem Task.Later.peerLoop_inv {task : Task R} {i owner : Nat} {peer : NodeId}
    {pc' : PeerLoopPc R} (h : task.Later (.peerLoop i owner peer pc')) :
    ∃ pc, task = .peerLoop i owner peer pc := by
  cases h with
  | same | peerLoop => exact ⟨_, rfl⟩

theorem Task.stop_cases (i : Nat) (task : Task R) : task.stop i = task ∨ task.stop i = .ended := by
  unfold Task.stop
  split
  · split_ifs
    · exact Or.inr rfl
    · exact Or.inl rfl
  · exact Or.inl rfl

theorem Task.later_stop (i : Nat) (task : Task R) : task.Later (task.stop i) := by
  rcases Task.stop_cases i task with hStop | hStop <;> rw [hStop]
  · exact Task.Later.same
  · exact Task.Later.ended

theorem Task.Local.later {action : Action R} {k : Nat} {task task' : Task R}
    (h : task.Local action k task') : task.Later task' := by
  cases h.moved with
  | heartbeatAnswered => exact Task.Later.heartbeatSend
  | loopAnswered | elapsed => exact Task.Later.peerLoop
  | ended _ => exact Task.Later.ended

namespace Machine.Grows

theorem refl (m : Machine S R) : m.Grows m where
  tasks := Growth.Grows.refl Task.Later.refl m.tasks
  voteSessions := Growth.Grows.refl VoteSession.Later.refl m.voteSessions
  outRpc := List.prefix_rfl
  replies := List.prefix_rfl
  answers := List.prefix_rfl

theorem trans {a b c : Machine S R} (hab : a.Grows b) (hbc : b.Grows c) : a.Grows c where
  tasks := Growth.Grows.trans (fun _ _ _ h h' => h.trans h') hab.tasks hbc.tasks
  voteSessions :=
    Growth.Grows.trans (fun _ _ _ h h' => h.trans h') hab.voteSessions hbc.voteSessions
  outRpc := hab.outRpc.trans hbc.outRpc
  replies := hab.replies.trans hbc.replies
  answers := hab.answers.trans hbc.answers

theorem setTask {m m' : Machine S R} (h : m.Grows m') {k : Nat} {task task' : Task R}
    (hTask : m.tasks[k]? = some task) (hLater : task.Later task') :
    m.Grows (m'.setTask k task') :=
  { h with tasks := h.tasks.set hTask hLater }

theorem setVoteSession {m : Machine S R} {i : Nat} {session session' : VoteSession}
    (hSession : m.voteSessions[i]? = some session) (hLater : session.Later session') :
    m.Grows (m.setVoteSession i session') :=
  { refl m with
    voteSessions := (refl m).voteSessions.set hSession hLater }

end Machine.Grows

theorem StepDownStepped.later [State S R] {m m' : Machine S R} {pc : StepDownPc} {task' : Task R}
    {wrap : StepDownPc → Task R} (hWrap : ∀ pc', (wrap pc).Later (wrap pc'))
    (h : StepDownStepped wrap m pc task' m') : (wrap pc).Later task' ∧ m.Grows m' := by
  cases h with
  | stored | setTerm => exact ⟨hWrap _, { Machine.Grows.refl m with }⟩
  | failed | follower => exact ⟨Task.Later.ended, { Machine.Grows.refl m with }⟩

theorem VoteResultSent.grows {i : Nat} {result : VoteResult} {m m' : Machine S R}
    (h : VoteResultSent m i result m') : m.Grows m' := by
  cases h with
  | closed _ => exact Machine.Grows.refl m
  | queued _ hSession _ =>
    exact Machine.Grows.setVoteSession hSession ⟨rfl, Nat.le_refl _, List.prefix_rfl⟩

theorem RoundReceived.grows {i peersLen j : Nat} {answer : VoteAnswer} {m m' : Machine S R}
    {task' : Task R} (h : RoundReceived m i peersLen j answer task' m') :
    (Task.round i (.recv peersLen)).Later task' ∧ m.Grows m' := by
  cases h with
  | stepsDown _ => exact ⟨Task.Later.round, Machine.Grows.refl m⟩
  | granted hSession _ _ =>
    exact ⟨Task.Later.round,
      Machine.Grows.setVoteSession hSession ⟨rfl, Nat.le_refl _, List.prefix_append _ _⟩⟩
  | refused hSession =>
    exact ⟨Task.Later.round,
      Machine.Grows.setVoteSession hSession ⟨rfl, Nat.le_refl _, List.prefix_rfl⟩⟩

variable [State S R]

theorem VoteStepped.grows {m m' : Machine S R} {k : Nat} {task task' : Task R}
    (h : VoteStepped m k task task' m') : task.Later task' ∧ m.Grows m' := by
  have hRefl := Machine.Grows.refl m
  cases h with
  | peersLen | noPeers _ | peers _ | enough _ _ | notEnough => exact ⟨Task.Later.round, hRefl⟩
  | allAcked => exact ⟨Task.Later.ended, hRefl⟩
  | sentNoPeers h | sentGranted h => exact ⟨Task.Later.ended, h.grows⟩
  | asked _ => exact ⟨Task.Later.round, { hRefl with tasks := hRefl.tasks.append _ }⟩
  | stepDown h => exact h.later fun _ => Task.Later.round
  | incremented hSession =>
    exact ⟨Task.Later.round,
      Machine.Grows.setVoteSession hSession ⟨rfl, Nat.le_succ _, List.prefix_rfl⟩⟩
  | lastIndex | lastTerm => exact ⟨Task.Later.voteSend, hRefl⟩
  | requested =>
    exact ⟨Task.Later.voteSend, { hRefl with outRpc := List.prefix_append _ _ }⟩

theorem ReplicationStepped.grows {m m' : Machine S R} {k : Nat} {task task' : Task R}
    (h : ReplicationStepped m k task task' m') : task.Later task' ∧ m.Grows m' := by
  have hRefl := Machine.Grows.refl m
  cases h with
  | heartbeatStepDown h => exact h.later fun _ => Task.Later.heartbeat
  | standbyStepDown h => exact h.later fun _ => Task.Later.standby
  | heartbeatSpawn =>
    exact ⟨Task.Later.heartbeat, { hRefl with tasks := hRefl.tasks.append _ }⟩
  | stalePeers _ _ => exact ⟨Task.Later.standby, { hRefl with tasks := hRefl.tasks.append _ }⟩
  | heartbeatSent =>
    exact ⟨Task.Later.heartbeatSend, { hRefl with outRpc := List.prefix_append _ _ }⟩
  | entriesSent => exact ⟨Task.Later.peerLoop, { hRefl with outRpc := List.prefix_append _ _ }⟩
  | heartbeatCommit | heartbeatPeers _ _ | heartbeatSpawned | heartbeatRecv
  | heartbeatMismatch _ _ _ | heartbeatStale _ | heartbeatOk =>
    exact ⟨Task.Later.heartbeat, { hRefl with }⟩
  | standbyRecv | standbyMismatch _ _ _ | standbyAppended _ _ _ | standbyStale _ | standbyCommit
  | notNewer _ | newer _ _ _ _ | committed => exact ⟨Task.Later.standby, { hRefl with }⟩
  | peerBehind _ _ | nextIndex _ _ _ | prevEntry | entries | composed | forwarded =>
    exact ⟨Task.Later.peerLoop, { hRefl with }⟩
  | heartbeatPanicked | heartbeatForwarded | standbyPanicked | standbyOverflowed _ _ | commitFailed
  | peerMatched _ _ | peerMissing _ _ | prevMissing _ | forwardClosed _ =>
    exact ⟨Task.Later.ended, { hRefl with }⟩

theorem MainStepped.grows {m m' : Machine S R} (h : MainStepped m m') : m.Grows m' := by
  have hRefl := Machine.Grows.refl m
  cases h with
  | voteForSelf _ =>
    exact { hRefl with
      tasks := hRefl.tasks.append _
      voteSessions := hRefl.voteSessions.append _ }
  | readMembership _ => exact { hRefl with tasks := hRefl.tasks.append _ }
  | @leave role _ _ =>
    cases role with
    | leader i => exact { hRefl with tasks := Growth.Grows.map (Task.later_stop i) m.tasks }
    | follower | candidate _ => exact { hRefl with }
  | requestVoteSent _ | appendEntriesSent _ | redirected _ =>
    exact { hRefl with replies := List.prefix_append _ _ }
  | _ => exact { hRefl with }

omit [State S R] in
theorem SelectStepped.grows {m m' : Machine S R} {role : RoleLoop} {event : Event R}
    (h : SelectStepped m role event m') : m.Grows m' := by
  have hRefl := Machine.Grows.refl m
  cases h with
  | voteResult hSession _ =>
    exact { hRefl with
      voteSessions := hRefl.voteSessions.set hSession ⟨rfl, Nat.le_refl _, List.prefix_rfl⟩ }
  | retry | heartbeat => exact { hRefl with tasks := hRefl.tasks.append _ }
  | _ => exact { hRefl with }

theorem step_grows {m m' : Machine S R} {action : Action R} (hStep : m.step action = some m') :
    m.Grows m' := by
  cases step_cases hStep with
  | main h => exact h.grows
  | select _ h => exact h.grows
  | overrun h =>
    have hRefl := Machine.Grows.refl m
    rcases h.sessions with hSame | ⟨_, hNew⟩
    · exact { hRefl with voteSessions := hSame ▸ hRefl.voteSessions }
    · exact { hRefl with voteSessions := hNew ▸ hRefl.voteSessions.append _ }
  | vote hTask h | replicate hTask h => exact h.grows.2.setTask hTask h.grows.1
  | recv hRound hSource h =>
    exact (h.grows.2.setTask hRound h.grows.1).setTask hSource Task.Later.ended
  | answerVote hTask =>
    have hRefl := Machine.Grows.refl m
    exact { hRefl with
      tasks := hRefl.tasks.set hTask Task.Later.voteSend
      answers := List.prefix_append _ _ }
  | environment hTask h => exact (Machine.Grows.refl m).setTask hTask h.later

theorem Machine.Runs.grows {Allowed : Machine S R → Action R → Prop} {m m' : Machine S R}
    (h : Machine.Runs Allowed m m') : m.Grows m' :=
  h.invariant (Machine.Grows.refl m) fun _ _ _ _ hStep hGrows => hGrows.trans (step_grows hStep)

section Identity

/-- What the constructor of a node fixes for good. -/
def RaftNode.identity (node : RaftNode S) : NodeId × MembershipMap :=
  (node.id, State.getMembership node.state)

variable [FallibleState S R]

theorem StateStep.identity {node : RaftNode S} {state : S} (h : StateStep node.state state) :
    RaftNode.identity { node with state } = node.identity :=
  Prod.ext rfl h.membership

theorem TaskWrites.identity {task : Task R} {node node' : RaftNode S}
    (h : TaskWrites task node node') : node'.identity = node.identity := by
  cases h with
  | state hState h => rw [h, hState.identity]
  | term _ _ h | role _ h => rw [h]; rfl

theorem MainStepped.identity {m m' : Machine S R} (h : MainStepped m m') :
    m'.node.identity = m.node.identity := by
  cases h with
  | failed hState => exact hState.identity
  | @requestVote role request responseTx pc pc' _ _ =>
    obtain ⟨state, hState, hNode⟩ := RequestVotePc.step_node m.node.id responseTx m.node request pc
    rw [hNode]
    cases pc with
    | setCurrentTerm _ | setVotedFor _ | becomeFollower _ => rfl
    | _ => exact hState.identity
  | @appendEntries role request responseTx pc pc' _ _ =>
    obtain ⟨state, hState, hNode⟩ := AppendEntriesPc.step_node m.node.id responseTx m.node request pc
    rw [hNode]
    cases pc with
    | setCurrentTerm _ _ | setLeaderId _ _ | becomeFollower _ _ => rfl
    | _ => exact hState.identity
  | @appendEntry i entry _ => exact (StateStep.appendEntries [entry]).identity
  | leave _ _ => rw [RoleLoop.leave_node]
  | _ => rfl

theorem step_identity {m m' : Machine S R} {action : Action R} (hStep : m.step action = some m') :
    m'.node.identity = m.node.identity := by
  cases step_cases hStep with
  | main h => exact h.identity
  | select _ h => cases h <;> rfl
  | vote _ h | replicate _ h => exact h.frame.writes.identity
  | recv _ _ h =>
    obtain ⟨voteSessions, rfl⟩ := h.frame
    rfl
  | overrun h =>
    obtain ⟨votedFor, rfl⟩ := h.frame
    rfl
  | answerVote _ | environment _ _ => rfl

end Identity

section Kinds

def Task.votes : Task R → Bool
  | .round _ _ | .voteSend _ _ _ _ => true
  | _ => false

omit [State S R] in
theorem Task.Local.votes {action : Action R} {k : Nat} {task task' : Task R}
    (h : task.Local action k task') : task'.votes = false := by
  cases h.moved with
  | heartbeatAnswered | loopAnswered | ended _ | elapsed => rfl

/-- A replication task leaves the vote sessions and their tasks alone. -/
structure VotesFrame (m m' : Machine S R) (task' : Task R) : Prop where
  voteSessions : m'.voteSessions = m.voteSessions
  task : task'.votes = false
  spawned : ∃ spawned, m'.tasks = m.tasks ++ spawned ∧ ∀ t ∈ spawned, t.votes = false

omit [State S R] in
theorem VotesFrame.of_tasks_eq {m m' : Machine S R} {task' : Task R} (hTask : task'.votes = false)
    (hSessions : m'.voteSessions = m.voteSessions) (hTasks : m'.tasks = m.tasks) :
    VotesFrame m m' task' :=
  ⟨hSessions, hTask, [], by rw [hTasks, List.append_nil], fun _ h => by cases h⟩

theorem StepDownStepped.votesFrame {m m' : Machine S R} {pc : StepDownPc} {task' : Task R}
    {wrap : StepDownPc → Task R} (hWrap : ∀ pc', (wrap pc').votes = false)
    (h : StepDownStepped wrap m pc task' m') : VotesFrame m m' task' := by
  cases h with
  | stored | setTerm => exact VotesFrame.of_tasks_eq (hWrap _) rfl rfl
  | failed | follower => exact VotesFrame.of_tasks_eq rfl rfl rfl

theorem ReplicationStepped.votesFrame {m m' : Machine S R} {k : Nat} {task task' : Task R}
    (h : ReplicationStepped m k task task' m') : VotesFrame m m' task' := by
  cases h with
  | heartbeatStepDown h | standbyStepDown h => exact h.votesFrame fun _ => rfl
  | heartbeatSpawn => exact ⟨rfl, rfl, _, rfl, fun _ h => by cases List.mem_singleton.mp h; rfl⟩
  | stalePeers _ _ =>
    refine ⟨rfl, rfl, _, rfl, ?_⟩
    intro t ht
    obtain ⟨peer, _, rfl⟩ := List.mem_map.mp ht
    rfl
  | _ => exact VotesFrame.of_tasks_eq rfl rfl rfl

def Task.replicates : Task R → Bool
  | .heartbeat _ _ | .heartbeatSend _ _ _ | .standby _ _ | .peerLoop _ _ _ _ => true
  | .round _ _ | .voteSend _ _ _ _ | .ended => false

/-- A vote task leaves the replication sessions and their tasks alone. -/
structure ReplicationFrame (m m' : Machine S R) (task' : Task R) : Prop where
  replicationSessions : m'.replicationSessions = m.replicationSessions
  appendRx : m'.appendRx = m.appendRx
  task : task'.replicates = false
  spawned : ∃ spawned, m'.tasks = m.tasks ++ spawned ∧ ∀ t ∈ spawned, t.replicates = false

omit [State S R] in
theorem ReplicationFrame.of_tasks_eq {m m' : Machine S R} {task' : Task R}
    (hTask : task'.replicates = false) (hSessions : m'.replicationSessions = m.replicationSessions)
    (hRx : m'.appendRx = m.appendRx) (hTasks : m'.tasks = m.tasks) :
    ReplicationFrame m m' task' :=
  ⟨hSessions, hRx, hTask, [], by rw [hTasks, List.append_nil], fun _ h => by cases h⟩

theorem VoteStepped.replicationFrame {m m' : Machine S R} {k : Nat} {task task' : Task R}
    (h : VoteStepped m k task task' m') : ReplicationFrame m m' task' := by
  cases h with
  | stepDown h =>
    cases h <;> exact ReplicationFrame.of_tasks_eq rfl rfl rfl rfl
  | sentNoPeers h | sentGranted h =>
    obtain ⟨voteSessions, rfl⟩ := h.frame
    exact ReplicationFrame.of_tasks_eq rfl rfl rfl rfl
  | asked _ =>
    refine ⟨rfl, rfl, rfl, _, rfl, ?_⟩
    intro t ht
    obtain ⟨peer, _, rfl⟩ := List.mem_map.mp ht
    rfl
  | _ => exact ReplicationFrame.of_tasks_eq rfl rfl rfl rfl

end Kinds

section Sessions

/-- What a step does to a session, its count of votes and its result apart. -/
inductive SessionChange (m : Machine S R) (action : Action R) (i : Nat) (session' : VoteSession) :
    Prop
  | kept {session : VoteSession} (hSession : m.voteSessions[i]? = some session)
      (hTerm : session'.startTerm = session.startTerm)
      (hAcked : session.ackPeers ⊆ session'.ackPeers) (hGrants : session'.grants = session.grants)
  | new (hIndex : i = m.voteSessions.length)
      (hSession : session' = { startTerm := m.node.currentTerm })
  | granted {session : VoteSession} {k j source peersLen : Nat} {peer : NodeId}
      {answer : VoteAnswer} (hAction : action = .recv k j)
      (hSession : m.voteSessions[i]? = some session)
      (hRound : m.tasks[k]? = some (.round i (.recv peersLen)))
      (hSource : m.tasks[j]? = some (.voteSend source k peer (.forwarded answer)))
      (hReason : answer.response.reason.stepsDown = false)
      (hGranted : answer.response.voteGranted = true)
      (hSession' : session' = { session with
        ackPeers := session.ackPeers.insert answer.response.id
        grants := session.grants ++ [(j, answer)] })

omit [State S R] in
theorem SessionChange.same {m : Machine S R} {action : Action R} {i : Nat} {session : VoteSession}
    (h : m.voteSessions[i]? = some session) : SessionChange m action i session :=
  SessionChange.kept h rfl (List.Subset.refl _) rfl

omit [State S R] in
theorem SessionChange.of_set {m : Machine S R} {action : Action R} {i j : Nat}
    {session new session' : VoteSession} (hSession : m.voteSessions[i]? = some session)
    (h : (m.voteSessions.set i new)[j]? = some session')
    (hNew : new.startTerm = session.startTerm ∧ session.ackPeers ⊆ new.ackPeers ∧
      new.grants = session.grants) : SessionChange m action j session' := by
  rcases getElem?_set_cases h with ⟨rfl, rfl⟩ | ⟨_, hOld⟩
  · exact SessionChange.kept hSession hNew.1 hNew.2.1 hNew.2.2
  · exact SessionChange.same hOld

omit [State S R] in
theorem VoteResultSent.sessionChange {m m' : Machine S R} {action : Action R} {i j : Nat}
    {result : VoteResult} {session' : VoteSession} (h : VoteResultSent m i result m')
    (hSession' : m'.voteSessions[j]? = some session') : SessionChange m action j session' := by
  cases h with
  | closed _ => exact SessionChange.same hSession'
  | queued _ hSession _ =>
    exact SessionChange.of_set hSession hSession' ⟨rfl, List.Subset.refl _, rfl⟩

theorem VoteStepped.sessionChange {m m' : Machine S R} {k i : Nat} {task task' : Task R}
    {session' : VoteSession} (h : VoteStepped m k task task' m')
    (hSession' : m'.voteSessions[i]? = some session') :
    SessionChange m (.task k) i session' := by
  cases h with
  | sentNoPeers hSent | sentGranted hSent => exact hSent.sessionChange hSession'
  | incremented hSession =>
    exact SessionChange.of_set hSession hSession' ⟨rfl, List.Subset.refl _, rfl⟩
  | stepDown hDown =>
    obtain ⟨node, rfl⟩ := hDown.frame
    exact SessionChange.same hSession'
  | _ => exact SessionChange.same hSession'

omit [State S R] in
theorem SessionChange.of_append {m : Machine S R} {action : Action R} {i : Nat}
    {session' : VoteSession}
    (h : (m.voteSessions ++ [{ startTerm := m.node.currentTerm }])[i]? = some session') :
    SessionChange m action i session' := by
  rw [List.getElem?_append] at h
  split_ifs at h with hi
  · exact SessionChange.same h
  · rw [List.getElem?_singleton] at h
    split_ifs at h with hLast
    cases h
    exact SessionChange.new (by omega) rfl

theorem MainStepped.voteSessions {m m' : Machine S R} (h : MainStepped m m') :
    m'.voteSessions = m.voteSessions ∨ (m.main = .voteForSelf ∧
      m'.main = .checkRole (.candidate m.voteSessions.length) ∧
      m'.voteSessions = m.voteSessions ++ [{ startTerm := m.node.currentTerm }]) := by
  cases h with
  | voteForSelf hMain => exact Or.inr ⟨hMain, rfl, rfl⟩
  | @leave role _ _ => cases role <;> exact Or.inl rfl
  | _ => exact Or.inl rfl

omit [State S R] in
theorem VoteResultSent.sessionCount {m m' : Machine S R} {i : Nat} {result : VoteResult}
    (h : VoteResultSent m i result m') : m'.voteSessions.length = m.voteSessions.length := by
  cases h with
  | closed _ => rfl
  | queued _ _ _ => exact List.length_set

theorem VoteStepped.sessionCount {m m' : Machine S R} {k : Nat} {task task' : Task R}
    (h : VoteStepped m k task task' m') : m'.voteSessions.length = m.voteSessions.length := by
  cases h with
  | sentNoPeers h | sentGranted h => exact h.sessionCount
  | stepDown h =>
    obtain ⟨node, rfl⟩ := h.frame
    rfl
  | incremented _ => exact List.length_set
  | _ => rfl

theorem step_voteSessionCount {m m' : Machine S R} {action : Action R}
    (hStep : m.step action = some m') : m'.voteSessions.length = m.voteSessions.length ∨
      (m.main = .voteForSelf ∧
        (m'.main = .checkRole (.candidate m.voteSessions.length) ∨ m'.main = .failed) ∧
        m'.voteSessions.length = m.voteSessions.length + 1) := by
  cases step_cases hStep with
  | main h =>
    rcases h.voteSessions with hSame | ⟨hMain, hMain', hNew⟩
    · exact Or.inl (congrArg List.length hSame)
    · exact Or.inr ⟨hMain, Or.inl hMain', by rw [hNew, List.length_append]; rfl⟩
  | select _ h =>
    cases h with
    | voteResult _ _ => exact Or.inl List.length_set
    | _ => exact Or.inl rfl
  | vote _ h => exact Or.inl h.sessionCount
  | replicate _ h => exact Or.inl (congrArg List.length h.votesFrame.voteSessions)
  | recv _ _ h =>
    cases h with
    | stepsDown _ => exact Or.inl rfl
    | granted _ _ _ | refused _ => exact Or.inl List.length_set
  | overrun hOverrun =>
    rcases hOverrun.sessions with hSame | ⟨hMain, hNew⟩
    · exact Or.inl (congrArg List.length hSame)
    · exact Or.inr ⟨hMain, Or.inr rfl, (congrArg List.length hNew).trans List.length_append⟩
  | answerVote _ | environment _ _ => exact Or.inl rfl

theorem step_sessionChange {m m' : Machine S R} {action : Action R} {i : Nat}
    {session' : VoteSession} (hStep : m.step action = some m')
    (hSession' : m'.voteSessions[i]? = some session') : SessionChange m action i session' := by
  cases step_cases hStep with
  | main hMain =>
    rcases hMain.voteSessions with hSame | ⟨_, _, hNew⟩
    · exact SessionChange.same (hSame ▸ hSession')
    · exact SessionChange.of_append (hNew ▸ hSession')
  | select _ hSelect =>
    cases hSelect with
    | voteResult hSession _ =>
      exact SessionChange.of_set hSession hSession' ⟨rfl, List.Subset.refl _, rfl⟩
    | _ => exact SessionChange.same hSession'
  | vote _ hVote => exact hVote.sessionChange hSession'
  | replicate _ hReplicate =>
    exact SessionChange.same (hReplicate.votesFrame.voteSessions ▸ hSession')
  | recv hRound hSource hRecv =>
    cases hRecv with
    | stepsDown _ => exact SessionChange.same hSession'
    | refused hSession =>
      exact SessionChange.of_set hSession hSession' ⟨rfl, fun _ h => List.mem_insert_of_mem h, rfl⟩
    | granted hSession hReason hGranted =>
      rcases getElem?_set_cases hSession' with ⟨rfl, rfl⟩ | ⟨_, hOld⟩
      · exact SessionChange.granted rfl hSession hRound hSource hReason hGranted rfl
      · exact SessionChange.same hOld
  | overrun hOverrun =>
    rcases hOverrun.sessions with hSame | ⟨_, hNew⟩
    · exact SessionChange.same ((congrArg (·[i]?) hSame).symm.trans hSession')
    · exact SessionChange.of_append ((congrArg (·[i]?) hNew).symm.trans hSession')
  | answerVote _ | environment _ _ => exact SessionChange.same hSession'

end Sessions

section Requests

/-- What a step may put on `out_rpc_tx`. -/
inductive Sent (m : Machine S R) : Action R → OutRpc R → Prop
  | requestVote {k i owner lastLogIndex lastLogTerm : Nat} {peer : NodeId}
      (hTask : m.tasks[k]? = some (.voteSend i owner peer (.send lastLogIndex lastLogTerm))) :
      Sent m (.task k) ⟨peer, .requestVote (requestVoteRequest m.node lastLogIndex lastLogTerm), k⟩
  | heartbeat {k owner : Nat} {peer : NodeId} {request : AppendEntriesRequest R}
      (hTask : m.tasks[k]? = some (.heartbeatSend owner peer (.send request))) :
      Sent m (.task k) ⟨peer, .appendEntries request, k⟩
  | entries {k i owner : Nat} {peer : NodeId} {request : AppendEntriesRequest R}
      (hTask : m.tasks[k]? = some (.peerLoop i owner peer (.send request))) :
      Sent m (.task k) ⟨peer, .appendEntries request, k⟩

theorem VoteStepped.outRpc {m m' : Machine S R} {k : Nat} {task task' : Task R}
    (h : VoteStepped m k task task' m') (hTask : m.tasks[k]? = some task) :
    m'.outRpc = m.outRpc ∨ ∃ out, Sent m (.task k) out ∧ m'.outRpc = m.outRpc ++ [out] := by
  cases h with
  | requested => exact Or.inr ⟨_, Sent.requestVote hTask, rfl⟩
  | sentNoPeers h | sentGranted h =>
    obtain ⟨voteSessions, rfl⟩ := h.frame
    exact Or.inl rfl
  | stepDown h =>
    obtain ⟨node, rfl⟩ := h.frame
    exact Or.inl rfl
  | _ => exact Or.inl rfl

theorem ReplicationStepped.outRpc {m m' : Machine S R} {k : Nat} {task task' : Task R}
    (h : ReplicationStepped m k task task' m') (hTask : m.tasks[k]? = some task) :
    m'.outRpc = m.outRpc ∨ ∃ out, Sent m (.task k) out ∧ m'.outRpc = m.outRpc ++ [out] := by
  cases h with
  | heartbeatSent => exact Or.inr ⟨_, Sent.heartbeat hTask, rfl⟩
  | entriesSent => exact Or.inr ⟨_, Sent.entries hTask, rfl⟩
  | heartbeatStepDown h | standbyStepDown h =>
    obtain ⟨node, rfl⟩ := h.frame
    exact Or.inl rfl
  | _ => exact Or.inl rfl

theorem step_outRpc {m m' : Machine S R} {action : Action R} (hStep : m.step action = some m') :
    m'.outRpc = m.outRpc ∨ ∃ out, Sent m action out ∧ m'.outRpc = m.outRpc ++ [out] := by
  cases step_cases hStep with
  | main h =>
    left
    cases h with
    | @leave role _ _ => cases role <;> rfl
    | _ => rfl
  | select _ h =>
    left
    cases h <;> rfl
  | vote hTask h => exact h.outRpc hTask
  | replicate hTask h => exact h.outRpc hTask
  | recv _ _ h =>
    obtain ⟨voteSessions, rfl⟩ := h.frame
    exact Or.inl rfl
  | overrun _ | answerVote _ | environment _ _ => exact Or.inl rfl

theorem step_sent {m m' : Machine S R} {action : Action R} (hStep : m.step action = some m')
    {out : OutRpc R} (hSent : m'.outRpc = m.outRpc ++ [out]) : Sent m action out := by
  rcases step_outRpc hStep with hSame | ⟨out', hOut, hAppend⟩
  · have hLength := congrArg List.length (hSame.symm.trans hSent)
    rw [List.length_append] at hLength
    exact absurd hLength (Nat.ne_of_lt (Nat.lt_succ_self _))
  · obtain rfl : out' = out :=
      List.singleton_inj.mp (List.append_cancel_left (hAppend.symm.trans hSent))
    exact hOut

end Requests

end Zeroraft
