import Zeroraft.Properties.LeaderLog
import Zeroraft.Runtime.Turns

/-!
# How a node ends

`RaftNode::start` returns when it finds the role `Shutdown`, and with the error of
any step of the main loop that fails. Tasks that step down overwrite the role
without looking at it, and an answer that nobody waits for is such an error.
-/

namespace Zeroraft

variable {S R : Type} [State S R] {m m' : Machine S R}

section Shutdown

/-- The task is stepping down, or holds a response on which it will. -/
def Task.stepsDown : Task R → Bool
  | .round _ (.stepDown _) | .heartbeat _ (.stepDown _) | .standby _ (.stepDown _) => true
  | .heartbeat _ (.lockPeers response) | .standby _ (.lockPeers response) =>
    response.reason == .staleTerm
  | _ => false

def Main.setsShutdown : Main R → Bool
  | .becomeShutdown _ => true
  | _ => false

omit [State S R] in
theorem Main.setsShutdown_iff {main : Main R} :
    main.setsShutdown = true ↔ ∃ role, main = .becomeShutdown role := by
  constructor
  · intro h
    unfold Main.setsShutdown at h
    split at h
    · exact ⟨_, rfl⟩
    · cases h
  · rintro ⟨role, rfl⟩
    rfl

/-- What task `k` takes from `append_entries_rx` with its next step. -/
def Machine.nextResponse (m : Machine S R) (k : Nat) : Option AppendEntriesResponse :=
  match m.tasks[k]? with
  | some (.heartbeat _ .recv) | some (.standby _ .recv) => (m.appendRx.find? (·.1 = k)).map (·.2)
  | _ => none

/-- When the main loop sets the role `Shutdown` no task is stepping down or about to, and
while the role is set none takes a response on which it would. -/
def ShutdownSafe (m : Machine S R) : Action R → Prop
  | .main => m.main.setsShutdown = true → ∀ task ∈ m.tasks, task.stepsDown = false
  | .recv k j => m.node.currentState = .shutdown →
    ∀ received ∈ m.received k j, received.2.response.reason.stepsDown = false
  | .task k => m.node.currentState = .shutdown →
    ∀ response ∈ m.nextResponse k, response.reason ≠ .staleTerm
  | _ => True

instance (m : Machine S R) (action : Action R) : Decidable (ShutdownSafe m action) :=
  match action with
  | .main => inferInstanceAs (Decidable (_ → ∀ task ∈ m.tasks, _))
  | .recv k j => inferInstanceAs (Decidable (_ → ∀ received ∈ m.received k j, _))
  | .task k => inferInstanceAs (Decidable (_ → ∀ response ∈ m.nextResponse k, _))
  | .event _ | .overrun | .answerVote _ _ | .answerAppend _ _ | .lose _ | .cancel _
  | .elapse _ => isTrue trivial

/-- The steps that the main loop takes before it returns, once the role is `Shutdown`. -/
def Main.beforeReturn : Main R → Option Nat
  | .checkRole _ => some 2
  | .start => some 1
  | .returned => some 0
  | _ => none

structure ShuttingDown (m : Machine S R) : Prop where
  state : m.node.currentState = .shutdown
  main : m.main.beforeReturn.isSome = true
  tasks : ∀ (k : Nat) (task : Task R), m.tasks[k]? = some task → task.stepsDown = false

theorem RoleLoop.taskState_ne_shutdown (role : RoleLoop) : TaskState.shutdown ≠ role.taskState := by
  cases role <;> exact nofun

theorem Task.stepDownPc_of_not_stepsDown {task : Task R} (h : task.stepsDown = false) :
    task.stepDownPc = none := by
  unfold Task.stepDownPc
  split
  · cases h
  · cases h
  · cases h
  · rfl

theorem Spawned.not_stepsDown {action : Action R} {task : Task R} (h : Spawned m action task) :
    task.stepsDown = false := by
  cases h <;> rfl

theorem Task.stop_not_stepsDown {task : Task R} (h : task.stepsDown = false) (i : Nat) :
    (task.stop i).stepsDown = false := by
  rcases Task.stop_cases i task with hSame | hEnded
  · rwa [hSame]
  · rw [hEnded]
    rfl

theorem VoteStepped.not_stepsDown {k : Nat} {task task' : Task R}
    (h : VoteStepped m k task task' m') (hTask : task.stepsDown = false) :
    task'.stepsDown = false := by
  cases h with
  | stepDown _ => cases hTask
  | _ => rfl

/-- A task comes to hold a response only by taking it from the channel. -/
theorem ReplicationStepped.not_stepsDown {k : Nat} {task task' : Task R}
    (h : ReplicationStepped m k task task' m') (hOwn : m.tasks[k]? = some task)
    (hSafe : ∀ response ∈ m.nextResponse k, response.reason ≠ .staleTerm)
    (hTask : task.stepsDown = false) : task'.stepsDown = false := by
  cases h with
  | heartbeatStepDown _ | standbyStepDown _ => cases hTask
  | heartbeatStale _ hReason | standbyStale _ hReason =>
    rw [Task.stepsDown, hReason] at hTask
    cases hTask
  | heartbeatRecv hRx | standbyRecv hRx =>
    refine beq_eq_false_iff_ne.mpr (hSafe _ ?_)
    rw [Machine.nextResponse, hOwn]
    simp only [hRx, Option.map_some, Option.mem_def]
  | _ => rfl

theorem Task.Local.not_stepsDown {action : Action R} {k : Nat} {task task' : Task R}
    (h : task.Local action k task') : task'.stepsDown = false := by
  cases h.moved <;> rfl

theorem step_not_stepsDown {action : Action R} (hSafe : ShutdownSafe m action)
    (hStep : m.step action = some m') (h : ShuttingDown m) (k : Nat) (task' : Task R)
    (hTask' : m'.tasks[k]? = some task') : task'.stepsDown = false := by
  rcases step_turned hStep hTask' with ⟨task, hTask, hTurn⟩ | ⟨_, hSpawned⟩
  · have hBefore := h.tasks k task hTask
    cases hTurn with
    | kept => exact hBefore
    | stopped _ => exact Task.stop_not_stepsDown hBefore _
    | vote hStepped => exact hStepped.not_stepsDown hBefore
    | replicate hStepped => exact hStepped.not_stepsDown hTask (hSafe h.state) hBefore
    | recv hSource hRecv =>
      cases hRecv with
      | stepsDown hReason =>
        have hReceived := hSafe h.state _ (by
          rw [Machine.received, hTask, hSource]
          rfl)
        rw [hReason] at hReceived
        cases hReceived
      | granted _ _ _ | refused _ => rfl
    | taken | answerVote => rfl
    | environment hLocal => exact hLocal.not_stepsDown
  · exact hSpawned.not_stepsDown

theorem ShuttingDown.main_step (h : ShuttingDown m) :
    ∃ n, m.main.beforeReturn = some n ∧
      ∀ n', n = n' + 1 → ∃ m', m.step .main = some m' ∧ m'.node.currentState = .shutdown ∧
        m'.main.beforeReturn = some n' := by
  obtain ⟨n, hn⟩ := Option.isSome_iff_exists.mp h.main
  refine ⟨n, hn, ?_⟩
  rintro n' rfl
  cases hMain : m.main with
  | checkRole role =>
    rw [hMain] at hn
    cases hn
    refine ⟨role.leave m, ?_, by rw [RoleLoop.leave_node, h.state], ?_⟩
    · simp only [Machine.step, mainStep, hMain]
      rw [if_neg (h.state ▸ role.taskState_ne_shutdown)]
    · rw [RoleLoop.leave_main]
      rfl
  | start =>
    rw [hMain] at hn
    cases hn
    refine ⟨m.goto .returned, ?_, h.state, rfl⟩
    simp only [Machine.step, mainStep, hMain, h.state]
  | _ =>
    rw [hMain] at hn
    cases hn

theorem step_shuttingDown {action : Action R} (hSafe : ShutdownSafe m action)
    (hStep : m.step action = some m') (h : ShuttingDown m) : ShuttingDown m' := by
  have hTasks := step_not_stepsDown hSafe hStep h
  obtain ⟨n, hn, hMainStep⟩ := h.main_step
  cases step_cases hStep with
  | main _ =>
    cases n with
    | zero =>
      cases hMain : m.main with
      | returned =>
        simp only [Machine.step, mainStep, hMain] at hStep
        cases hStep
      | _ =>
        rw [hMain] at hn
        cases hn
    | succ n' =>
      obtain ⟨m₁, hFirst, hState, hn'⟩ := hMainStep n' rfl
      obtain rfl := Option.some.inj (hFirst.symm.trans hStep)
      exact ⟨hState, by rw [hn']; rfl, hTasks⟩
  | select hMain _ =>
    rw [hMain] at hn
    cases hn
  | overrun hOverrun => cases hOverrun <;> rw [‹m.main = _›] at hn <;> cases hn
  | vote hTask hStepped | replicate hTask hStepped =>
    have hFrame := hStepped.frame
    have hNone := Task.stepDownPc_of_not_stepsDown (h.tasks _ _ hTask)
    refine ⟨?_, hFrame.main ▸ h.main, hTasks⟩
    cases hFrame.writes with
    | state _ hNode => exact hNode ▸ h.state
    | term _ hPc _ | role hPc _ =>
      rw [hNone] at hPc
      cases hPc
  | recv _ _ hRecv =>
    obtain ⟨voteSessions, rfl⟩ := hRecv.frame
    exact ⟨h.state, h.main, hTasks⟩
  | answerVote _ | environment _ _ => exact ⟨h.state, h.main, hTasks⟩

/-- Once the main loop has set the role `Shutdown` the role stays, and `RaftNode::start`
returns after two more steps without entering the loop of another role. -/
theorem shutdown_stays (m₀ m₁ m : Machine S R) (role : RoleLoop)
    (hMain : m₀.main = .becomeShutdown role) (hSafe : ShutdownSafe m₀ .main)
    (hShutdown : m₀.step .main = some m₁) (hRuns : Machine.Runs ShutdownSafe m₁ m) :
    m.node.currentState = .shutdown ∧ ∃ n ≤ 2, m.main.beforeReturn = some n ∧
      ∀ n', n = n' + 1 → ∃ m', m.step .main = some m' ∧ m'.node.currentState = .shutdown ∧
        m'.main.beforeReturn = some n' := by
  have hStart : ShuttingDown m₁ := by
    have hTasks := hSafe (by rw [hMain]; rfl)
    simp only [Machine.step, mainStep, hMain] at hShutdown
    cases hShutdown
    exact ⟨rfl, rfl, fun _ task hTask => hTasks task (List.mem_of_getElem? hTask)⟩
  have hDown : ShuttingDown m := hRuns.invariant hStart fun _ _ _ hSafe hStep h =>
    step_shuttingDown hSafe hStep h
  obtain ⟨n, hn, hMainStep⟩ := hDown.main_step
  refine ⟨hDown.state, n, ?_, hn, hMainStep⟩
  cases hMain : m.main with
  | checkRole _ | start | returned =>
    rw [hMain] at hn
    cases hn
    omega
  | _ =>
    rw [hMain] at hn
    cases hn

/-- A candidate waits for the vote of node 2 when the signal arrives. -/
def signalledActions : List (Action Unit) :=
  [candidateActions, List.replicate 3 (.task 1), [.event .shutdown]].flatten

/-- The round takes the vote while the main loop is on its way out. -/
theorem shutdown_stays_candidate : ∃ m₀ m₁ m : Machine (Stored Unit) Unit,
    Machine.Runs ShutdownSafe { node := emptyNode ⟨[1, 2], nodup_pair⟩ } m₀ ∧
      m₀.step .main = some m₁ ∧ Machine.Runs ShutdownSafe m₁ m ∧
      m₁.voteSessions.map (·.ackPeers) = [[]] ∧ m.voteSessions.map (·.ackPeers) = [[2]] ∧
      m.node.currentState = .shutdown ∧ m.main.beforeReturn = some 0 := by
  obtain ⟨m₀, hBefore, h⟩ := Option.bind_eq_some_iff.mp
    (show ((Machine.run ShutdownSafe { node := emptyNode ⟨[1, 2], nodup_pair⟩ }
      signalledActions).bind fun m₀ => (m₀.step .main).bind fun m₁ =>
        (m₁.run ShutdownSafe [.answerVote 1 ⟨1, true, 2, .ok⟩, .recv 0 1, .main, .main]).map
          fun m => decide (m₀.main.setsShutdown = true ∧ ShutdownSafe m₀ .main ∧
            m₁.voteSessions.map (·.ackPeers) = [[]] ∧ m.voteSessions.map (·.ackPeers) = [[2]] ∧
            m.main.beforeReturn = some 0)) = some true by decide)
  obtain ⟨m₁, hShutdown, h⟩ := Option.bind_eq_some_iff.mp h
  obtain ⟨m, hRest, hm⟩ := Option.map_eq_some_iff.mp h
  obtain ⟨hSets, hSafe, hUnheard, hHeard, hReturned⟩ := of_decide_eq_true hm
  obtain ⟨role, hMain⟩ := Main.setsShutdown_iff.mp hSets
  have hRuns := Machine.runs_of_run hRest
  obtain ⟨hState, _⟩ := shutdown_stays m₀ m₁ m role hMain hSafe hShutdown hRuns
  exact ⟨m₀, m₁, m, Machine.runs_of_run hBefore, hShutdown, hRuns, hUnheard, hHeard, hState,
    hReturned⟩

/-- Node 2 answers the candidate that it is in term 9; the round has stored the term and
not yet written its role when the signal arrives. -/
def shutdownActions : List (Action Unit) :=
  [candidateActions, List.replicate 3 (.task 1),
    [.answerVote 1 ⟨9, false, 2, .staleTerm⟩, .recv 0 1, .task 0, .task 0, .event .shutdown,
      .main]].flatten

/-- The main loop has set the role `Shutdown`, and later it is in the loop of a follower. -/
theorem shutdown_overwritten : ∃ m₁ m : Machine (Stored Unit) Unit,
    Machine.Runs (fun _ _ => True) { node := emptyNode ⟨[1, 2], by decide⟩ } m₁ ∧
      Machine.Runs (fun _ _ => True) m₁ m ∧ m₁.node.currentState = .shutdown ∧
      m.node.currentState = .follower ∧ m.main.role = some .follower := by
  obtain ⟨m₁, m, hRuns, hRest, hm⟩ := Machine.exists_of_runs
    (show ((Machine.run (fun _ _ => True) { node := emptyNode ⟨[1, 2], by decide⟩ }
      shutdownActions).bind fun m₁ => (m₁.run (fun _ _ => True) [.task 0, .main, .main]).map
        fun m => decide (m₁.node.currentState = .shutdown ∧ m.node.currentState = .follower ∧
          m.main.role = some .follower)) = some true by decide)
  obtain ⟨hShutdown, hFollower, hMain⟩ := of_decide_eq_true hm
  exact ⟨m₁, m, hRuns, hRest, hShutdown, hFollower, hMain⟩

end Shutdown

section Callers

/-- The messages are requests of peers and of clients, and whoever is answered still
waits; the leader loop does not answer its clients. -/
def CallersWait (m : Machine S R) : Action R → Prop
  | .event (.requestVote _ responseTx) => responseTx.closed = false
  | .event (.appendEntries _ responseTx) => responseTx.closed = false
  | .event (.clientRequest _ responseTx) => m.main.leads = false → responseTx.closed = false
  | .event .unimplementedRpc => False
  | _ => True

instance (m : Machine S R) (action : Action R) : Decidable (CallersWait m action) :=
  match action with
  | .event (.requestVote _ _) | .event (.appendEntries _ _) => inferInstanceAs (Decidable (_ = _))
  | .event (.clientRequest _ _) => inferInstanceAs (Decidable (_ → _))
  | .event .unimplementedRpc => isFalse id
  | .main | .event .shutdown | .event .voteResult | .event .electionTimeout
  | .event .retryTimeout | .event .heartbeatTimeout | .overrun | .task _ | .recv _ _
  | .answerVote _ _ | .answerAppend _ _ | .lose _ | .cancel _ | .elapse _ => isTrue trivial

/-- A timer is read after it has run out. -/
def Action.late : Action R → Bool
  | .overrun => true
  | _ => false

def SurvivalSafe (m : Machine S R) (action : Action R) : Prop :=
  CallersWait m action ∧ action.late = false

instance (m : Machine S R) (action : Action R) : Decidable (SurvivalSafe m action) :=
  inferInstanceAs (Decidable (_ ∧ _))

/-- The receiver of the answer that the main loop is working on. -/
def Main.responseTx : Main R → Option Sender
  | .requestVote _ _ responseTx _ | .appendEntries _ _ responseTx _
  | .readLeaderId _ responseTx => some responseTx
  | _ => none

/-- The main loop has not failed, and the answer that it works on is waited for. -/
structure Surviving (m : Machine S R) : Prop where
  main : m.main ≠ .failed
  state : m.node.currentState ≠ .nonVoter
  answered : ∀ responseTx ∈ m.main.responseTx, responseTx.closed = false

section Handlers

variable [ReliableState S R] {ourId : NodeId} {node : RaftNode S} {responseTx : Sender}

theorem RequestVotePc.step_ne_failed (hOpen : responseTx.closed = false)
    (request : RequestVoteRequest) (pc : RequestVotePc) (e : ZeroraftError) :
    (pc.step ourId request responseTx node).1 ≠ .failed e := by
  intro h
  cases pc with
  | storeCurrentTerm _ =>
    rw [RequestVotePc.step,
      atomically_modifyState (ReliableState.storeCurrentTerm_ok node.state request.term)] at h
    cases h
  | storeVotedFor _ =>
    rw [RequestVotePc.step,
      atomically_modifyState (ReliableState.storeVotedFor_ok node.state request.candidateId)] at h
    cases h
  | send _ =>
    rw [RequestVotePc.step, atomically_send, hOpen] at h
    cases h
  | loadTerm | readVotedFor _ | readLastTerm _ _ =>
    simp only [RequestVotePc.step] at h
    split_ifs at h
  | setCurrentTerm _ | setVotedFor _ | becomeFollower _ | readLastIndex _ => cases h

theorem AppendEntriesPc.step_ne_failed (hOpen : responseTx.closed = false)
    (request : AppendEntriesRequest R) (pc : AppendEntriesPc) (e : ZeroraftError) :
    (pc.step ourId request responseTx node).1 ≠ .failed e := by
  intro h
  cases pc with
  | storeCurrentTerm _ _ =>
    rw [AppendEntriesPc.step,
      atomically_modifyState (ReliableState.storeCurrentTerm_ok node.state request.term)] at h
    cases h
  | removeEntries _ =>
    rw [AppendEntriesPc.step,
      atomically_modifyState (ReliableState.removeEntriesAfter_ok node.state request.prevLogIndex)] at h
    cases h
  | appendEntries _ =>
    rw [AppendEntriesPc.step,
      atomically_modifyState (ReliableState.appendEntries_ok node.state request.entries)] at h
    cases h
  | setCommit _ index =>
    rw [AppendEntriesPc.step, atomically_modifyState (ReliableState.setLastCommitIndex_ok node.state
      (min request.lastCommitIndex index))] at h
    cases h
  | send _ =>
    rw [AppendEntriesPc.step, atomically_send, hOpen] at h
    cases h
  | readLastIndex _ | readEntry _ =>
    simp only [AppendEntriesPc.step] at h
    split_ifs at h
  | loadTerm | setCurrentTerm _ _ | setLeaderId _ _ | becomeFollower _ _ | readNewLastIndex _ =>
    cases h

end Handlers

theorem Surviving.not_mainFailure [ReliableState S R] (h : Surviving m) {state : S} :
    ¬ MainFailure m state := by
  intro hFailure
  cases hFailure with
  | nonVoter _ hState => exact h.state hState
  | requestVote hMain hFailed =>
    have hOpen := h.answered _ (by rw [hMain]; rfl)
    exact RequestVotePc.step_ne_failed hOpen _ _ _ (congrArg Prod.fst hFailed)
  | appendEntries hMain hFailed =>
    have hOpen := h.answered _ (by rw [hMain]; rfl)
    exact AppendEntriesPc.step_ne_failed hOpen _ _ _ (congrArg Prod.fst hFailed)
  | redirect hMain hClosed =>
    rw [h.answered _ (by rw [hMain]; rfl)] at hClosed
    cases hClosed
  | @appendEntry i entry e _ _ hFailed =>
    have hOk := ReliableState.appendEntries_ok m.node.state [entry]
    rw [hFailed] at hOk
    cases hOk

theorem step_state_ne_nonVoter {action : Action R} (hStep : m.step action = some m')
    (h : m.node.currentState ≠ .nonVoter) : m'.node.currentState ≠ .nonVoter := by
  cases step_roleChange hStep with
  | kept hKept => rwa [hKept]
  | main _ hNext =>
    intro hState
    rw [hState] at hNext
    rcases Main.nextState_cases hNext with hOther | ⟨hOther, _⟩ | ⟨hOther, _⟩ | ⟨hOther, _⟩ <;>
      cases hOther
  | stepDown _ _ _ hState =>
    rw [hState]
    exact nofun

theorem Surviving.main_step [ReliableState S R] (h : Surviving m) (hMain : MainStepped m m') :
    m'.main ≠ .failed ∧ ∀ responseTx ∈ m'.main.responseTx, responseTx.closed = false := by
  cases hMain with
  | failed _ hCause => exact absurd hCause h.not_mainFailure
  | requestVote hMain _ _ | appendEntries hMain _ _ =>
    refine ⟨nofun, ?_⟩
    rintro responseTx ⟨⟩
    exact h.answered _ (by rw [hMain]; rfl)
  | leave _ _ =>
    rw [RoleLoop.leave_main]
    exact ⟨nofun, nofun⟩
  | _ => exact ⟨nofun, nofun⟩

omit [State S R] in
theorem SelectStepped.surviving {role : RoleLoop} {event : Event R}
    (h : SelectStepped m role event m') (hMain : m.main = .select role)
    (hSafe : CallersWait m (.event event)) :
    m'.main ≠ .failed ∧ ∀ responseTx ∈ m'.main.responseTx, responseTx.closed = false := by
  cases h with
  | requestVote request responseTx | appendEntries request responseTx =>
    refine ⟨nofun, ?_⟩
    rintro _ ⟨⟩
    exact hSafe
  | redirect request responseTx hRole =>
    refine ⟨nofun, ?_⟩
    rintro _ ⟨⟩
    refine hSafe ?_
    rw [hMain]
    cases role with
    | leader i => exact absurd rfl (hRole i)
    | follower | candidate _ => rfl
  | unimplementedRpc => exact hSafe.elim
  | _ => exact ⟨nofun, nofun⟩

theorem step_surviving [ReliableState S R] {action : Action R} (hSafe : SurvivalSafe m action)
    (hStep : m.step action = some m') (h : Surviving m) : Surviving m' := by
  have hState := step_state_ne_nonVoter hStep h.state
  cases step_cases hStep with
  | main hMain =>
    obtain ⟨hAlive, hAnswered⟩ := h.main_step hMain
    exact ⟨hAlive, hState, hAnswered⟩
  | select hMain hSelect =>
    obtain ⟨hAlive, hAnswered⟩ := hSelect.surviving hMain hSafe.1
    exact ⟨hAlive, hState, hAnswered⟩
  | vote _ hStepped | replicate _ hStepped =>
    have hMain := hStepped.frame.main
    exact ⟨hMain ▸ h.main, hState, hMain ▸ h.answered⟩
  | recv _ _ hRecv =>
    obtain ⟨voteSessions, rfl⟩ := hRecv.frame
    exact ⟨h.main, hState, h.answered⟩
  | overrun _ => cases hSafe.2
  | answerVote _ | environment _ _ => exact ⟨h.main, hState, h.answered⟩

def Signalled (initial m : Machine S R) : Prop :=
  ∃ m₀ m₁, Machine.Runs SurvivalSafe initial m₀ ∧ m₀.step (.event .shutdown) = some m₁ ∧
    Machine.Runs SurvivalSafe m₁ m

/-- The main loop is about to set the role `Shutdown`, or has returned, or the role is set. -/
def Machine.Ending (m : Machine S R) : Prop :=
  m.node.currentState = .shutdown ∨ (∃ role, m.main = .becomeShutdown role) ∨ m.main = .returned

theorem MainStepped.ending (h : MainStepped m m') (hEnding : m'.Ending) : m.Ending := by
  rcases hEnding with hState | ⟨role, hMain'⟩ | hMain'
  · rcases h.currentState with hKept | hNext
    · exact Or.inl (hKept ▸ hState)
    · rw [hState] at hNext
      rcases Main.nextState_cases hNext with hOther | ⟨hOther, _⟩ | ⟨hOther, _⟩ | ⟨_, hShutdown⟩
      · cases hOther
      · cases hOther
      · cases hOther
      · exact Or.inr (Or.inl hShutdown)
  · cases h with
    | leave _ _ =>
      rw [RoleLoop.leave_main] at hMain'
      cases hMain'
    | _ => cases hMain'
  · cases h with
    | returned _ hState => exact Or.inl hState
    | leave _ _ =>
      rw [RoleLoop.leave_main] at hMain'
      cases hMain'
    | _ => cases hMain'

theorem step_ending {action : Action R} (hStep : m.step action = some m') (hEnding : m'.Ending) :
    m.Ending ∨ action = .event .shutdown := by
  cases step_cases hStep with
  | main hMain => exact Or.inl (hMain.ending hEnding)
  | select hMain hSelect =>
    rcases hEnding with hState | ⟨role, hMain'⟩ | hMain'
    · exact Or.inl (Or.inl (hSelect.node ▸ hState))
    · cases hSelect with
      | shutdown => exact Or.inr rfl
      | _ => cases hMain'
    · cases hSelect <;> cases hMain'
  | vote _ hStepped | replicate _ hStepped =>
    have hFrame := hStepped.frame
    rcases hEnding with hState | hMain'
    · cases step_roleChange hStep with
      | kept hKept => exact Or.inl (Or.inl (hKept ▸ hState))
      | main hAction _ => cases hAction
      | stepDown _ _ _ hFollower =>
        rw [hFollower] at hState
        cases hState
    · exact Or.inl (Or.inr (hFrame.main ▸ hMain'))
  | recv _ _ hRecv =>
    obtain ⟨voteSessions, rfl⟩ := hRecv.frame
    exact Or.inl hEnding
  | overrun hOverrun =>
    obtain ⟨votedFor, rfl⟩ := hOverrun.frame
    rcases hEnding with hState | ⟨_, hMain'⟩ | hMain'
    · exact Or.inl (Or.inl hState)
    · cases hMain'
    · cases hMain'
  | answerVote _ | environment _ _ => exact Or.inl hEnding

/-- As long as every answer is waited for and no timer is late, `RaftNode::start` neither
panics nor returns an error, and it returns only after the signal to shut down. -/
theorem survives_callers [ReliableState S R] (node : RaftNode S) (m : Machine S R)
    (hVoter : node.currentState ≠ .nonVoter) (hRuns : Machine.Runs SurvivalSafe { node } m) :
    m.main ≠ .failed ∧
      (node.currentState ≠ .shutdown → m.main = .returned → Signalled { node } m) := by
  have hSurviving : Surviving m := hRuns.invariant ⟨nofun, hVoter, nofun⟩
    fun _ _ _ hSafe hStep h => step_surviving hSafe hStep h
  refine ⟨hSurviving.main, fun hState hReturned => ?_⟩
  have hEnding : m.Ending → Signalled { node } m := by
    clear hSurviving hReturned
    induction hRuns with
    | refl =>
      rintro (hShutdown | ⟨_, hMain⟩ | hMain)
      · exact absurd hShutdown hState
      · cases hMain
      · cases hMain
    | tail hBefore hLast ih =>
      obtain ⟨action, hSafe, hStep⟩ := hLast
      intro hEnding
      rcases step_ending hStep hEnding with hOld | rfl
      · obtain ⟨m₀, m₁, hFirst, hSignal, hAfter⟩ := ih hOld
        exact ⟨m₀, m₁, hFirst, hSignal, hAfter.tail ⟨action, hSafe, hStep⟩⟩
      · exact ⟨_, _, hBefore, hStep, Relation.ReflTransGen.refl⟩
  exact hEnding (Or.inr (Or.inr hReturned))

def Main.hasFailed : Main R → Bool
  | .failed => true
  | _ => false

omit [State S R] in
theorem Main.hasFailed_iff {main : Main R} : main.hasFailed = true ↔ main = .failed := by
  cases main with
  | failed => exact ⟨fun _ => rfl, fun _ => rfl⟩
  | _ => exact ⟨nofun, nofun⟩

/-- A follower answers a client and the candidate of node 2. -/
def answeringActions : List (Action Unit) :=
  [[.main, .main, .event (.clientRequest () ⟨7, 0, false⟩), .main, .main,
    .event (.requestVote ⟨1, 2, 0, 0⟩ ⟨2, 0, false⟩)], List.replicate 10 .main].flatten

theorem survives_callers_follower : ∃ m : Machine (Stored Unit) Unit,
    m.replies.length = 2 ∧ m.main ≠ .failed := by
  obtain ⟨m, hRuns, hm⟩ := Machine.exists_of_run
    (show (Machine.run SurvivalSafe { node := emptyNode ⟨[1, 2], by decide⟩ }
      answeringActions).map (fun m => decide (m.replies.length = 2)) = some true by decide)
  obtain ⟨hAlive, _⟩ := survives_callers _ m (by decide) hRuns
  exact ⟨m, of_decide_eq_true hm, hAlive⟩

/-- The candidate of node 2 no longer waits for the answer when it is sent. -/
def abandonedActions : List (Action Unit) :=
  [[.main, .main, .event (.requestVote ⟨1, 2, 0, 0⟩ ⟨2, 0, true⟩)],
    List.replicate 9 .main].flatten

/-- The run takes only requests of peers and of clients, and no signal, and no timer is late. -/
def Action.fromCallers : Action R → Bool
  | .event .shutdown | .event .unimplementedRpc | .overrun => false
  | _ => true

theorem abandoned_request_fails : ∃ m : Machine (Stored Unit) Unit,
    Machine.Runs (fun _ action => action.fromCallers = true)
      { node := emptyNode ⟨[1, 2], by decide⟩ } m ∧ m.main = .failed := by
  obtain ⟨m, hRuns, hm⟩ := Machine.exists_of_run
    (show (Machine.run (fun _ action => action.fromCallers = true)
      { node := emptyNode ⟨[1, 2], by decide⟩ } abandonedActions).map (·.main.hasFailed) =
        some true by decide)
  exact ⟨m, hRuns, Main.hasFailed_iff.mp hm⟩

end Callers

end Zeroraft
