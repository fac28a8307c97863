import Zeroraft.Properties.Leadership
import Zeroraft.Runtime.Peers
import Zeroraft.Runtime.Roles
import Zeroraft.Runtime.Spawning

/-!
# Do only leaders replicate?

Between the moment at which a replication task sets out to send a request and the
moment at which it does, the node may lose its role or change its term, and only
the loops that wait for the stop signal receive it.
-/

namespace Zeroraft

open Growth

variable {S R : Type}

/-- The task sends a request, or starts one that does, unless something stops it. -/
def Task.aboutToSend : Task R → Bool
  | .heartbeat _ .readCommit | .heartbeat _ (.readPeers _) | .heartbeat _ (.spawn _ (_ :: _))
  | .heartbeatSend _ _ (.send _) | .standby _ .readStalePeers | .peerLoop _ _ _ .peerMatches
  | .peerLoop _ _ _ .readNextIndex | .peerLoop _ _ _ (.readPrevEntry _ _)
  | .peerLoop _ _ _ (.readEntries _ _ _) | .peerLoop _ _ _ (.loadTerm _ _ _ _)
  | .peerLoop _ _ _ (.send _) => true
  | _ => false

/-- The request that the task is about to put on `out_rpc_tx`. -/
def Task.loaded : Task R → Option (AppendEntriesRequest R)
  | .heartbeatSend _ _ (.send request) | .peerLoop _ _ _ (.send request) => some request
  | _ => none

def Task.loopOf : Task R → Option Nat
  | .peerLoop i _ _ _ => some i
  | _ => none

def Main.startsReplication : Main R → Bool
  | .readMembership _ => true
  | _ => false

/-- The main loop is about to write the term or the role. -/
def Main.writes : Main R → Bool
  | .incrementTerm | .requestVote _ _ _ (.setCurrentTerm _)
  | .requestVote _ _ _ (.becomeFollower _) | .appendEntries _ _ _ (.setCurrentTerm _ _)
  | .appendEntries _ _ _ (.becomeFollower _ _) | .becomeShutdown _ | .becomeCandidate
  | .becomeLeader _ _ => true
  | _ => false

def Machine.Quiet (m : Machine S R) : Prop := ∀ task ∈ m.tasks, task.aboutToSend = false

instance (m : Machine S R) : Decidable m.Quiet := inferInstanceAs (Decidable (∀ _ ∈ _, _))

/-- Replication starts and goes on only in the role of a leader, the loops only in the
leader loop of their session; nobody writes the term or the role while a task is about
to send. -/
def ReplicationSafe (m : Machine S R) : Action R → Prop
  | .main => (m.main.startsReplication = true → m.node.currentState = .leader) ∧
    (m.main.writes = true → m.Quiet)
  | .event .heartbeatTimeout => m.node.currentState = .leader
  | .task k => ∀ task ∈ m.tasks[k]?, ∀ pc ∈ task.stepDownPc, pc.writes = true → m.Quiet
  | .elapse k => ∀ task ∈ m.tasks[k]?, ∀ i ∈ task.loopOf,
    m.node.currentState = .leader ∧ m.main.role = some (.leader i)
  | _ => True

instance ReplicationSafe.instDecidable (m : Machine S R) (action : Action R) :
    Decidable (ReplicationSafe m action) :=
  match action with
  | .main => inferInstanceAs (Decidable (_ ∧ _))
  | .event .heartbeatTimeout => inferInstanceAs (Decidable (_ = _))
  | .task k => inferInstanceAs (Decidable (∀ task ∈ m.tasks[k]?, ∀ pc ∈ task.stepDownPc, _ → _))
  | .elapse k => inferInstanceAs (Decidable (∀ task ∈ m.tasks[k]?, ∀ i ∈ task.loopOf, _))
  | .event .shutdown | .event (.requestVote _ _) | .event (.appendEntries _ _)
  | .event .unimplementedRpc | .event (.clientRequest _ _) | .event .voteResult
  | .event .electionTimeout | .event .retryTimeout | .overrun | .recv _ _ | .answerVote _ _
  | .answerAppend _ _ | .lose _ | .cancel _ => isTrue trivial

structure OnlyLeader (m : Machine S R) : Prop where
  leader : ∀ task ∈ m.tasks, task.aboutToSend = true → m.node.currentState = .leader
  term : ∀ task ∈ m.tasks, ∀ request ∈ task.loaded, request.term = m.node.currentTerm

theorem Task.aboutToSend_of_loaded {task : Task R} {request : AppendEntriesRequest R}
    (h : task.loaded = some request) : task.aboutToSend = true := by
  unfold Task.loaded at h
  split at h
  · rfl
  · rfl
  · cases h

theorem Task.aboutToSend_of_not_replicates {task : Task R} (h : task.replicates = false) :
    task.aboutToSend = false := by
  cases task with
  | round _ _ | voteSend _ _ _ _ | ended => rfl
  | _ => cases h

theorem Task.loaded_of_not_replicates {task : Task R} (h : task.replicates = false) :
    task.loaded = none := by
  cases task with
  | round _ _ | voteSend _ _ _ _ | ended => rfl
  | _ => cases h

theorem Task.Local.aboutToSend {action : Action R} {k : Nat} {task task' : Task R}
    (h : task.Local action k task') : task'.loaded = none ∧ (task'.aboutToSend = false ∨
      ∃ i, action = .elapse k ∧ task.loopOf = some i ∧ task'.loopOf = some i) := by
  cases h.moved with
  | heartbeatAnswered | loopAnswered | ended _ => exact ⟨rfl, Or.inl rfl⟩
  | elapsed => exact ⟨rfl, Or.inr ⟨_, rfl, rfl, rfl⟩⟩

variable {m m' : Machine S R} [State S R]

/-- A step of `task` leaves it, and the tasks that it spawns, about to send only if it
was about to send itself, and what they load has the present term. -/
structure SendsFrame (m m' : Machine S R) (task task' : Task R) : Prop where
  sets : task'.aboutToSend = true → task.aboutToSend = true
  loaded : ∀ request ∈ task'.loaded, request.term = m.node.currentTerm
  spawned : ∃ spawned, m'.tasks = m.tasks ++ spawned ∧ ∀ t ∈ spawned,
    (t.aboutToSend = true → task.aboutToSend = true) ∧
      ∀ request ∈ t.loaded, request.term = m.node.currentTerm

omit [State S R] in
theorem SendsFrame.of_tasks_eq {task task' : Task R} (hTasks : m'.tasks = m.tasks)
    (hTask : task'.aboutToSend = true → task.aboutToSend = true) (hLoaded : task'.loaded = none) :
    SendsFrame m m' task task' :=
  ⟨hTask, fun _ h => (by rw [hLoaded] at h; cases h), [], by rw [hTasks, List.append_nil],
    fun _ h => by cases h⟩

theorem ReplicationStepped.sendsFrame {k : Nat} {task task' : Task R}
    (h : ReplicationStepped m k task task' m') : SendsFrame m m' task task' := by
  cases h with
  | heartbeatStepDown h | standbyStepDown h =>
    cases h <;> exact SendsFrame.of_tasks_eq rfl (fun h => by cases h) rfl
  | heartbeatSpawn =>
    refine ⟨fun _ => rfl, fun _ h => (by cases h), _, rfl, ?_⟩
    intro t ht
    obtain rfl := List.mem_singleton.mp ht
    refine ⟨fun _ => rfl, ?_⟩
    rintro _ ⟨⟩
    rfl
  | stalePeers _ _ =>
    refine ⟨fun _ => rfl, fun _ h => (by cases h), _, rfl, ?_⟩
    intro t ht
    obtain ⟨peer, _, rfl⟩ := List.mem_map.mp ht
    exact ⟨fun _ => rfl, fun _ h => by cases h⟩
  | composed =>
    refine ⟨fun _ => rfl, ?_, [], (List.append_nil _).symm, fun _ h => by cases h⟩
    rintro _ ⟨⟩
    rfl
  | heartbeatCommit | heartbeatPeers _ _ | peerBehind _ _ | nextIndex _ _ _ | prevEntry | entries =>
    exact SendsFrame.of_tasks_eq rfl (fun _ => rfl) rfl
  | _ => exact SendsFrame.of_tasks_eq rfl (fun h => by cases h) rfl

theorem MainStepped.same_or_writes (h : MainStepped m m') :
    (m'.node.currentTerm = m.node.currentTerm ∧ m'.node.currentState = m.node.currentState) ∨
      (m.main.writes = true ∧ m'.tasks = m.tasks) := by
  cases h with
  | incrementTerm hMain | becomeShutdown hMain | becomeCandidate hMain | becomeLeader hMain =>
    exact Or.inr ⟨by rw [hMain]; rfl, rfl⟩
  | @requestVote role request responseTx pc pc' hMain _ =>
    obtain ⟨state, _, hNode⟩ := RequestVotePc.step_node m.node.id responseTx m.node request pc
    rw [hNode]
    cases pc with
    | setCurrentTerm _ | becomeFollower _ => exact Or.inr ⟨by rw [hMain]; rfl, rfl⟩
    | _ => exact Or.inl ⟨rfl, rfl⟩
  | @appendEntries role request responseTx pc pc' hMain _ =>
    obtain ⟨state, _, hNode⟩ := AppendEntriesPc.step_node m.node.id responseTx m.node request pc
    rw [hNode]
    cases pc with
    | setCurrentTerm _ _ | becomeFollower _ _ => exact Or.inr ⟨by rw [hMain]; rfl, rfl⟩
    | _ => exact Or.inl ⟨rfl, rfl⟩
  | leave _ _ => exact Or.inl ⟨by rw [RoleLoop.leave_node], by rw [RoleLoop.leave_node]⟩
  | _ => exact Or.inl ⟨rfl, rfl⟩

theorem MainStepped.sends (h : MainStepped m m') (task : Task R) (hTask : task ∈ m'.tasks) :
    task ∈ m.tasks ∨ (task.loaded = none ∧
      (task.aboutToSend = true → m.main.startsReplication = true)) := by
  cases h with
  | voteForSelf _ =>
    refine (List.mem_append.mp hTask).imp_right fun hNew => ?_
    rw [List.mem_singleton.mp hNew]
    exact ⟨rfl, fun h => by cases h⟩
  | readMembership hMain =>
    refine (List.mem_append.mp hTask).imp_right fun hNew => ?_
    rcases List.mem_pair.mp hNew with rfl | rfl <;> exact ⟨rfl, fun _ => by rw [hMain]; rfl⟩
  | @leave role _ _ =>
    cases role with
    | leader i =>
      obtain ⟨old, hOld, rfl⟩ := List.mem_map.mp hTask
      rcases Task.stop_cases i old with hStop | hStop <;> rw [hStop]
      · exact Or.inl hOld
      · exact Or.inr ⟨rfl, fun h => by cases h⟩
    | follower | candidate _ => exact Or.inl hTask
  | _ => exact Or.inl hTask

omit [State S R] in
theorem OnlyLeader.of_step (h : OnlyLeader m)
    (hTerm : m'.node.currentTerm = m.node.currentTerm)
    (hState : m'.node.currentState = m.node.currentState)
    (hTasks : ∀ task ∈ m'.tasks, task ∈ m.tasks ∨
      ((task.aboutToSend = true → m.node.currentState = .leader) ∧
        ∀ request ∈ task.loaded, request.term = m.node.currentTerm)) : OnlyLeader m' := by
  constructor
  · intro task hTask hSends
    rw [hState]
    rcases hTasks task hTask with hOld | hNew
    · exact h.leader task hOld hSends
    · exact hNew.1 hSends
  · intro task hTask request hLoaded
    rw [hTerm]
    rcases hTasks task hTask with hOld | hNew
    · exact h.term task hOld request hLoaded
    · exact hNew.2 request hLoaded

omit [State S R] in
theorem OnlyLeader.of_quiet (h : m.Quiet) : OnlyLeader m := by
  constructor
  · intro task hTask hSends
    rw [h task hTask] at hSends
    cases hSends
  · intro task hTask request hLoaded
    have hSends := Task.aboutToSend_of_loaded hLoaded
    rw [h task hTask] at hSends
    cases hSends

theorem OnlyLeader.main (h : OnlyLeader m) (hSafe : ReplicationSafe m (.main : Action R))
    (hMain : MainStepped m m') : OnlyLeader m' := by
  rcases hMain.same_or_writes with ⟨hTerm, hState⟩ | ⟨hWrites, hTasks⟩
  · refine h.of_step hTerm hState fun task hTask => (hMain.sends task hTask).imp_right ?_
    rintro ⟨hLoaded, hStarts⟩
    refine ⟨fun hSends => hSafe.1 (hStarts hSends), fun request hRequest => ?_⟩
    rw [hLoaded] at hRequest
    cases hRequest
  · refine OnlyLeader.of_quiet fun task hTask => ?_
    rw [hTasks] at hTask
    exact hSafe.2 hWrites task hTask

omit [State S R] in
theorem OnlyLeader.select (h : OnlyLeader m) {role : RoleLoop} {event : Event R}
    (hSafe : ReplicationSafe m (.event event)) (hSelect : SelectStepped m role event m') :
    OnlyLeader m' := by
  refine h.of_step (by rw [hSelect.node]) (by rw [hSelect.node]) fun task hTask => ?_
  cases hSelect with
  | retry =>
    refine (List.mem_append.mp hTask).imp_right fun hNew => ?_
    rw [List.mem_singleton.mp hNew]
    exact ⟨fun h => (by cases h), fun _ h => by cases h⟩
  | heartbeat =>
    refine (List.mem_append.mp hTask).imp_right fun hNew => ?_
    rw [List.mem_singleton.mp hNew]
    exact ⟨fun _ => hSafe, fun _ h => by cases h⟩
  | _ => exact Or.inl hTask

omit [State S R] in
theorem mem_setTask_cases {k : Nat} {task' t : Task R} {spawned : List (Task R)}
    (hTasks : m'.tasks = m.tasks ++ spawned) (ht : t ∈ (m'.setTask k task').tasks) :
    t = task' ∨ t ∈ m.tasks ∨ t ∈ spawned := by
  rcases List.mem_or_eq_of_mem_set ht with hOld | rfl
  · rw [hTasks] at hOld
    exact Or.inr (List.mem_append.mp hOld)
  · exact Or.inl rfl

theorem OnlyLeader.of_task (h : OnlyLeader m) {k : Nat} {task task' : Task R}
    (hSafe : ReplicationSafe m (.task k : Action R)) (hTask : m.tasks[k]? = some task)
    (hFrame : TaskFrame task m m') (hSends : SendsFrame m m' task task') :
    OnlyLeader (m'.setTask k task') := by
  obtain ⟨hSets, hLoads, spawned, hTasks, hSpawned⟩ := hSends
  have hMem := List.mem_of_getElem? hTask
  have hOther : ∀ t ∈ (m'.setTask k task').tasks, t ∈ m.tasks ∨
      ((t.aboutToSend = true → task.aboutToSend = true) ∧
        ∀ request ∈ t.loaded, request.term = m.node.currentTerm) := by
    intro t ht
    rcases mem_setTask_cases hTasks ht with rfl | hOld | hNew
    · exact Or.inr ⟨hSets, hLoads⟩
    · exact Or.inl hOld
    · exact Or.inr (hSpawned t hNew)
  by_cases hWrites : ∃ pc, task.stepDownPc = some pc ∧ pc.writes = true
  · obtain ⟨pc, hPc, hWrites⟩ := hWrites
    have hQuiet := hSafe task hTask pc hPc hWrites
    refine OnlyLeader.of_quiet fun t ht => ?_
    rcases hOther t ht with hOld | ⟨hNew, _⟩
    · exact hQuiet t hOld
    · rw [← Bool.not_eq_true]
      intro hSends
      rw [hQuiet task hMem] at hNew
      cases hNew hSends
  · obtain ⟨hTerm, hState⟩ := hFrame.writes.same_of_not_writes
      fun pc hPc hpc => hWrites ⟨pc, hPc, hpc⟩
    refine h.of_step hTerm hState fun t ht => (hOther t ht).imp_right ?_
    rintro ⟨hNew, hLoaded⟩
    exact ⟨fun hSends => h.leader task hMem (hNew hSends), hLoaded⟩

theorem VoteStepped.sendsFrame {k : Nat} {task task' : Task R}
    (h : VoteStepped m k task task' m') : SendsFrame m m' task task' := by
  obtain ⟨_, _, hKind, spawned, hTasks, hSpawned⟩ := h.replicationFrame
  have hNone : ∀ t : Task R, t.replicates = false →
      (t.aboutToSend = true → task.aboutToSend = true) ∧
        ∀ request ∈ t.loaded, request.term = m.node.currentTerm := by
    intro t ht
    rw [Task.aboutToSend_of_not_replicates ht, Task.loaded_of_not_replicates ht]
    exact ⟨fun h => (by cases h), fun _ h => by cases h⟩
  exact ⟨(hNone task' hKind).1, (hNone task' hKind).2, spawned, hTasks,
    fun t ht => hNone t (hSpawned t ht)⟩

omit [State S R] in
theorem OnlyLeader.of_setTask (h : OnlyLeader m) {k : Nat} {task' : Task R}
    (hSends : task'.aboutToSend = true → m.node.currentState = .leader)
    (hLoaded : task'.loaded = none) : OnlyLeader (m.setTask k task') := by
  refine h.of_step rfl rfl fun t ht => ?_
  rcases List.mem_or_eq_of_mem_set ht with hOld | rfl
  · exact Or.inl hOld
  · exact Or.inr ⟨hSends, fun _ h => by rw [hLoaded] at h; cases h⟩

theorem step_onlyLeader {action : Action R} (hSafe : ReplicationSafe m action)
    (hStep : m.step action = some m') (h : OnlyLeader m) : OnlyLeader m' := by
  cases step_cases hStep with
  | main hMain => exact h.main hSafe hMain
  | select _ hSelect => exact h.select hSafe hSelect
  | overrun hOverrun =>
    obtain ⟨votedFor, rfl⟩ := hOverrun.frame
    exact ⟨h.leader, h.term⟩
  | vote hTask hVote => exact h.of_task hSafe hTask hVote.frame hVote.sendsFrame
  | replicate hTask hReplicate => exact h.of_task hSafe hTask hReplicate.frame hReplicate.sendsFrame
  | @recv k j i source peersLen peer answer task' m₁ _ _ hRecv =>
    obtain ⟨hSends, hLoaded⟩ : task'.aboutToSend = false ∧ task'.loaded = none := by
      cases hRecv <;> exact ⟨rfl, rfl⟩
    obtain ⟨voteSessions, rfl⟩ := hRecv.frame
    have hSessions : OnlyLeader { m with voteSessions } := ⟨h.leader, h.term⟩
    exact (hSessions.of_setTask (fun h => by rw [hSends] at h; cases h) hLoaded).of_setTask
      (fun h => by cases h) rfl
  | answerVote _ =>
    have hAnswers : ∀ answers, OnlyLeader { m with answers } := fun _ => ⟨h.leader, h.term⟩
    exact (hAnswers _).of_setTask (fun h => by cases h) rfl
  | environment hTask hLocal =>
    refine h.of_setTask (fun hSends => ?_) hLocal.aboutToSend.1
    rcases hLocal.aboutToSend.2 with hNot | ⟨i, rfl, hLoop, _⟩
    · rw [hNot] at hSends
      cases hSends
    · exact (hSafe _ hTask i hLoop).1

section Left

omit [State S R] in
theorem getElem?_setTask_cases {k j : Nat} {task task' t : Task R} {spawned : List (Task R)}
    (hTasks : m'.tasks = m.tasks ++ spawned) (hTask : m.tasks[k]? = some task)
    (h : (m'.setTask j t).tasks[k]? = some task') : (k = j ∧ task' = t) ∨ task' = task := by
  rcases getElem?_set_cases h with hSet | ⟨_, hOld⟩
  · exact Or.inl hSet
  · rw [hTasks, List.getElem?_append_left (List.getElem?_eq_some_iff.mp hTask).1, hTask] at hOld
    exact Or.inr (Option.some.inj hOld).symm

theorem MainStepped.task_cases (h : MainStepped m m') {k : Nat} {task task' : Task R}
    (hTask : m.tasks[k]? = some task) (hTask' : m'.tasks[k]? = some task') :
    task' = task ∨ task' = .ended := by
  have hLength := (List.getElem?_eq_some_iff.mp hTask).1
  cases h with
  | voteForSelf _ | readMembership _ =>
    rw [List.getElem?_append_left hLength, hTask] at hTask'
    exact Or.inl (Option.some.inj hTask').symm
  | @leave role _ _ =>
    cases role with
    | leader i =>
      change (m.tasks.map (Task.stop i))[k]? = some task' at hTask'
      rw [List.getElem?_map, hTask] at hTask'
      obtain rfl := Option.some.inj hTask'
      exact Task.stop_cases i task
    | follower | candidate _ => exact Or.inl (Option.some.inj (hTask.symm.trans hTask')).symm
  | _ => exact Or.inl (Option.some.inj (hTask.symm.trans hTask')).symm

omit [State S R] in
theorem SelectStepped.task_eq {role : RoleLoop} {event : Event R} (h : SelectStepped m role event m')
    {k : Nat} {task task' : Task R} (hTask : m.tasks[k]? = some task)
    (hTask' : m'.tasks[k]? = some task') : task' = task := by
  have hLength := (List.getElem?_eq_some_iff.mp hTask).1
  cases h with
  | retry | heartbeat =>
    change (m.tasks ++ _)[k]? = some task' at hTask'
    rw [List.getElem?_append_left hLength, hTask] at hTask'
    exact (Option.some.inj hTask').symm
  | _ => exact (Option.some.inj (hTask.symm.trans hTask')).symm

theorem step_aboutToSend {action : Action R} (hStep : m.step action = some m') {k : Nat}
    {task task' : Task R} (hTask : m.tasks[k]? = some task) (hTask' : m'.tasks[k]? = some task')
    (hSends : task'.aboutToSend = true) :
    task.aboutToSend = true ∨ ∃ i, action = .elapse k ∧ task.loopOf = some i := by
  have hKeep : task' = task → task.aboutToSend = true := fun hSame => hSame ▸ hSends
  cases step_cases hStep with
  | main hMain =>
    rcases hMain.task_cases hTask hTask' with hSame | rfl
    · exact Or.inl (hKeep hSame)
    · cases hSends
  | select _ hSelect => exact Or.inl (hKeep (hSelect.task_eq hTask hTask'))
  | overrun _ => exact Or.inl (hKeep (Option.some.inj (hTask.symm.trans hTask')).symm)
  | @vote j stepping _ _ hStepping hVote | @replicate j stepping _ _ hStepping hVote =>
    obtain ⟨hSets, _, spawned, hTasks, _⟩ := hVote.sendsFrame
    rcases getElem?_setTask_cases hTasks hTask hTask' with ⟨rfl, rfl⟩ | hSame
    · obtain rfl := Option.some.inj (hTask.symm.trans hStepping)
      exact Or.inl (hSets hSends)
    · exact Or.inl (hKeep hSame)
  | @recv k' j _ _ _ _ _ next m₁ _ _ hRecv =>
    have hNot : next.aboutToSend = false := by cases hRecv <;> rfl
    obtain ⟨voteSessions, rfl⟩ := hRecv.frame
    rcases getElem?_set_cases hTask' with ⟨_, rfl⟩ | ⟨_, hTask'⟩
    · cases hSends
    rcases getElem?_set_cases hTask' with ⟨_, rfl⟩ | ⟨_, hTask'⟩
    · rw [hNot] at hSends
      cases hSends
    · exact Or.inl (hKeep (Option.some.inj (hTask.symm.trans hTask')).symm)
  | answerVote _ =>
    rcases getElem?_set_cases hTask' with ⟨_, rfl⟩ | ⟨_, hTask'⟩
    · cases hSends
    · exact Or.inl (hKeep (Option.some.inj (hTask.symm.trans hTask')).symm)
  | environment hOld hLocal =>
    rcases getElem?_set_cases hTask' with ⟨rfl, rfl⟩ | ⟨_, hTask'⟩
    · obtain rfl := Option.some.inj (hTask.symm.trans hOld)
      rcases hLocal.aboutToSend.2 with hNot | ⟨i, hAction, hLoop, _⟩
      · rw [hNot] at hSends
        cases hSends
      · exact Or.inr ⟨i, hAction, hLoop⟩
    · exact Or.inl (hKeep (Option.some.inj (hTask.symm.trans hTask')).symm)

def Task.session : Task R → Option Nat
  | .heartbeat i _ | .standby i _ | .peerLoop i _ _ _ => some i
  | .round _ _ | .voteSend _ _ _ _ | .heartbeatSend _ _ _ | .ended => none

/-- Tasks and leader loops belong to sessions that have been started. -/
structure SessionsExist (m : Machine S R) : Prop where
  tasks : ∀ task ∈ m.tasks, ∀ i ∈ task.session, i < m.replicationSessions.length
  main : ∀ i, m.main.role = some (.leader i) → i < m.replicationSessions.length

omit [State S R] in
theorem Task.Later.session {task task' : Task R} (h : task.Later task') {i : Nat}
    (hSession : task'.session = some i) : task.session = some i := by
  cases h with
  | ended => cases hSession
  | _ => exact hSession

omit [State S R] in
theorem Task.Later.loopOf {task task' : Task R} (h : task.Later task') {i : Nat}
    (hLoop : task'.loopOf = some i) : task.loopOf = some i := by
  cases h with
  | ended => cases hLoop
  | _ => exact hLoop

omit [State S R] in
theorem Task.Later.loopOf_eq {task task' : Task R} (h : task.Later task') {i : Nat}
    (hLoop : task.loopOf = some i) (hSends : task'.aboutToSend = true) :
    task'.loopOf = some i := by
  cases h with
  | ended => cases hSends
  | same | peerLoop => exact hLoop
  | _ => cases hLoop

omit [State S R] in
theorem Task.session_of_loopOf {task : Task R} {i : Nat} (h : task.loopOf = some i) :
    task.session = some i := by
  cases task with
  | peerLoop _ _ _ _ => exact h
  | _ => cases h

theorem step_leaderLoop {action : Action R} (hStep : m.step action = some m') {i : Nat}
    (hRole : m'.main.role = some (.leader i)) : m.main.role = some (.leader i) ∨
      (i = m.replicationSessions.length ∧
        m'.replicationSessions.length = m.replicationSessions.length + 1) := by
  cases step_cases hStep with
  | main h =>
    rcases h.leader hRole with hOld | ⟨hNew, nextIndex, hMain⟩
    · exact Or.inl hOld
    · exact Or.inr ⟨hNew, step_sessionCount_started hMain hStep⟩
  | select hMain h =>
    left
    rw [hMain, Main.role, h.leader hRole]
  | vote _ h | replicate _ h =>
    left
    rw [← h.frame.main]
    exact hRole
  | recv _ _ h =>
    obtain ⟨voteSessions, rfl⟩ := h.frame
    exact Or.inl hRole
  | overrun _ => nomatch hRole
  | answerVote _ | environment _ _ => exact Or.inl hRole

theorem Spawned.session_lt {action : Action R} {task : Task R} (h : Spawned m action task)
    (hStep : m.step action = some m') (hExist : SessionsExist m) {i : Nat}
    (hSession : task.session = some i) : i < m'.replicationSessions.length := by
  have hGrown := step_sessionCount hStep
  cases h with
  | firstHeartbeat hMain | standby hMain =>
    cases hSession
    rw [step_sessionCount_started hMain hStep]
    exact Nat.lt_succ_self _
  | heartbeat hMain =>
    cases hSession
    exact Nat.lt_of_lt_of_le (hExist.main _ (by rw [hMain]; rfl)) hGrown
  | peerLoop hTask _ _ =>
    cases hSession
    exact Nat.lt_of_lt_of_le (hExist.tasks _ (List.mem_of_getElem? hTask) _ rfl) hGrown
  | firstRound _ | retry _ | voteSend _ _ _ | heartbeatSend _ => cases hSession

theorem step_sessionsExist {action : Action R} (hStep : m.step action = some m')
    (h : SessionsExist m) : SessionsExist m' := by
  have hGrown := step_sessionCount hStep
  constructor
  · intro task' hTask' i hSession
    obtain ⟨k, hk⟩ := List.mem_iff_getElem?.mp hTask'
    rcases step_task hStep hk with ⟨task, hTask, hLater⟩ | ⟨_, hNew⟩
    · have hOld := h.tasks task (List.mem_of_getElem? hTask) i (hLater.session hSession)
      exact Nat.lt_of_lt_of_le hOld hGrown
    · exact hNew.session_lt hStep h hSession
  · intro i hRole
    rcases step_leaderLoop hStep hRole with hOld | ⟨rfl, hLength⟩
    · exact Nat.lt_of_lt_of_le (h.main i hOld) hGrown
    · rw [hLength]
      exact Nat.lt_succ_self _

/-- The first `n` tasks and the first `l` sessions are left over from an earlier time in
the role of a leader. -/
structure Left (n l : Nat) (m : Machine S R) : Prop where
  tasks : n ≤ m.tasks.length
  sessions : l ≤ m.replicationSessions.length
  silent : ∀ k task i, k < n → m.tasks[k]? = some task → task.loopOf = some i →
    i < l ∧ task.aboutToSend = false
  main : ∀ i, m.main.role = some (.leader i) → m.node.currentState = .leader → l ≤ i

omit [State S R] in
theorem Left.start (hExist : SessionsExist m) (hOnly : OnlyLeader m)
    (hState : m.node.currentState ≠ .leader) :
    Left m.tasks.length m.replicationSessions.length m where
  tasks := Nat.le_refl _
  sessions := Nat.le_refl _
  silent k task i _ hTask hLoop := by
    have hMem := List.mem_of_getElem? hTask
    refine ⟨hExist.tasks task hMem i (Task.session_of_loopOf hLoop), ?_⟩
    rw [← Bool.not_eq_true]
    intro hSends
    exact hState (hOnly.leader task hMem hSends)
  main _ _ hLeader := absurd hLeader hState

theorem step_left {n l : Nat} {action : Action R} (hSafe : ReplicationSafe m action)
    (hStep : m.step action = some m') (h : Left n l m) : Left n l m' := by
  have hGrows := step_grows hStep
  have hSessions := step_sessionCount hStep
  refine ⟨h.tasks.trans hGrows.tasks.length_le, h.sessions.trans hSessions, ?_, ?_⟩
  · intro k task' i hk hTask' hLoop
    rcases step_task hStep hTask' with ⟨task, hTask, hLater⟩ | ⟨hNew, _⟩
    · obtain ⟨hi, hSilent⟩ := h.silent k task i hk hTask (hLater.loopOf hLoop)
      refine ⟨hi, ?_⟩
      rw [← Bool.not_eq_true]
      intro hSends
      rcases step_aboutToSend hStep hTask hTask' hSends with hBefore | ⟨j, rfl, hOwn⟩
      · rw [hSilent] at hBefore
        cases hBefore
      · -- A loop goes on only in the leader loop of its session, which is an older one.
        obtain ⟨hLeader, hRole⟩ := hSafe task hTask j hOwn
        have hj := h.main j hRole hLeader
        rw [hLater.loopOf hLoop] at hOwn
        cases hOwn
        omega
    · have hTasks := h.tasks
      omega
  · intro i hRole hLeader
    rcases step_leaderLoop hStep hRole with hOld | ⟨rfl, _⟩
    · rcases step_becomeLeader hStep hLeader with hBefore | ⟨_, j, _, _, hMain', _⟩
      · exact h.main i hOld hBefore
      · rw [hMain'] at hRole
        cases hRole
    · exact h.sessions

theorem Machine.Runs.onlyLeader {node : RaftNode S}
    (hRuns : Machine.Runs ReplicationSafe { node } m) : OnlyLeader m ∧ SessionsExist m := by
  refine @Machine.Runs.invariant S R _ ReplicationSafe (fun m => OnlyLeader m ∧ SessionsExist m)
    _ _ hRuns ?_ ?_
  · constructor
    · constructor <;> intro _ h <;> cases h
    · constructor <;> intro _ h <;> cases h
  · rintro m action m' hSafe hStep ⟨hOnly, hExist⟩
    exact ⟨step_onlyLeader hSafe hStep hOnly, step_sessionsExist hStep hExist⟩

omit [State S R] in
theorem Sent.loaded {action : Action R} {peer : NodeId} {request : AppendEntriesRequest R} {k : Nat}
    (h : Sent m action ⟨peer, .appendEntries request, k⟩) :
    ∃ task, m.tasks[k]? = some task ∧ task.loaded = some request := by
  cases h with
  | heartbeat hTask | entries hTask => exact ⟨_, hTask, rfl⟩

/-- Whatever a node sends to replicate, it sends as the leader of the term of the
request, and a loop from before a time in another role never sends again. -/
theorem sent_by_leader (node : RaftNode S) (m₀ m m' : Machine S R) (action : Action R)
    (peer : NodeId) (request : AppendEntriesRequest R) (k : Nat)
    (hBefore : Machine.Runs ReplicationSafe { node } m₀)
    (hAfter : Machine.Runs ReplicationSafe m₀ m) (hStep : m.step action = some m')
    (hSent : m'.outRpc = m.outRpc ++ [⟨peer, .appendEntries request, k⟩]) :
    m.node.currentState = .leader ∧ request.term = m.node.currentTerm ∧
      (m₀.node.currentState ≠ .leader → ∀ task ∈ m₀.tasks[k]?, task.loopOf = none) := by
  obtain ⟨hOnly₀, hExist₀⟩ := hBefore.onlyLeader
  obtain ⟨hOnly, _⟩ := Machine.Runs.onlyLeader (hBefore.trans hAfter)
  obtain ⟨task, hTask, hLoaded⟩ := (step_sent hStep hSent).loaded
  have hMem := List.mem_of_getElem? hTask
  have hSends := Task.aboutToSend_of_loaded hLoaded
  refine ⟨hOnly.leader task hMem hSends, hOnly.term task hMem request hLoaded, ?_⟩
  intro hState task₀ hTask₀
  rw [← Option.not_isSome_iff_eq_none, Option.isSome_iff_exists]
  rintro ⟨i, hLoop⟩
  have hLeft : Left m₀.tasks.length m₀.replicationSessions.length m :=
    hAfter.invariant (Left.start hExist₀ hOnly₀ hState) fun _ _ _ hSafe hStep h =>
      step_left hSafe hStep h
  have hLater : task₀.Later task := by
    obtain ⟨task', hTask', hLater⟩ := hAfter.grows.tasks k task₀ hTask₀
    rw [hTask, Option.some.injEq] at hTask'
    rwa [hTask']
  have hLoop' : task.loopOf = some i := hLater.loopOf_eq hLoop hSends
  have hSilent := (hLeft.silent k task i (List.getElem?_eq_some_iff.mp hTask₀).1 hTask hLoop').2
  rw [hSilent] at hSends
  cases hSends

/-- Node 1 as it is built from a state with one committed entry. -/
def committedNode : RaftNode (Stored Unit) where
  id := 1
  currentTerm := 1
  votedFor := none
  state := ⟨[⟨1, .clientRequest ()⟩], 1, ⟨[1, 2], nodup_pair⟩, none, 1⟩
  currentState := .follower
  leaderId := none

theorem sent_by_leader_heartbeat : ∃ m m' : Machine (Stored Unit) Unit,
    m'.outRpc = m.outRpc ++ [⟨2, .appendEntries ⟨2, 1, 1, 0, 0, []⟩, 4⟩] ∧
      m.node.currentState = .leader ∧ m.node.currentTerm = 2 := by
  obtain ⟨m, hRuns, hm⟩ := Machine.exists_of_run
    (show (Machine.run ReplicationSafe { node := committedNode }
      [electedActions, List.replicate 6 .main, List.replicate 3 (.task 2)].flatten).map
        (fun m => decide ((m.step (.task 4)).map (·.outRpc) =
          some (m.outRpc ++ [⟨2, .appendEntries ⟨2, 1, 1, 0, 0, []⟩, 4⟩]))) = some true by decide)
  obtain ⟨m', hStep, hSent⟩ := Option.map_eq_some_iff.mp (of_decide_eq_true hm)
  obtain ⟨hLeader, hTerm, _⟩ := sent_by_leader committedNode { node := committedNode } m m' (.task 4)
    2 ⟨2, 1, 1, 0, 0, []⟩ 4 Relation.ReflTransGen.refl hRuns hStep hSent
  exact ⟨m, m', hSent, hLeader, hTerm.symm⟩

/-- The leader of term 2 accepts an entry of a leader of term 3 before its standby
update looks for stale peers; the loop that this starts is about to send. -/
def deposedActions : List (Action Unit) :=
  [electedActions, List.replicate 6 .main,
    [.event (.appendEntries ⟨3, 2, 2, 1, 1, [⟨3, .clientRequest ()⟩]⟩ ⟨2, 0, false⟩)],
    List.replicate 12 .main, [.task 3], List.replicate 5 (.task 4)].flatten

/-- The node replicates as a follower, in the term of another leader. -/
theorem sent_by_follower : ∃ m m' : Machine (Stored Unit) Unit,
    Machine.Runs (fun _ _ => True) { node := committedNode } m ∧ m.step (.task 4) = some m' ∧
      m'.outRpc = m.outRpc ++
        [⟨2, .appendEntries ⟨3, 1, 2, 1, 1, [⟨3, .clientRequest ()⟩]⟩, 4⟩] ∧
      m.node.currentState = .follower ∧ m.node.leaderId = some 2 := by
  obtain ⟨m, hRuns, hm⟩ := Machine.exists_of_run
    (show (Machine.run (fun _ _ => True) { node := committedNode } deposedActions).map
      (fun m => decide ((m.step (.task 4)).map (·.outRpc) = some (m.outRpc ++
          [⟨2, .appendEntries ⟨3, 1, 2, 1, 1, [⟨3, .clientRequest ()⟩]⟩, 4⟩]) ∧
        m.node.currentState = .follower ∧ m.node.leaderId = some 2)) = some true by decide)
  obtain ⟨hOut, hState, hLeader⟩ := of_decide_eq_true hm
  obtain ⟨m', hStep, hSent⟩ := Option.map_eq_some_iff.mp hOut
  exact ⟨m, m', hRuns, hStep, hSent, hState, hLeader⟩

end Left

end Zeroraft
