import Zeroraft.Runtime.ReplicationTasks
import Mathlib.Logic.Relation

/-!
# The main loop and the steps of a node

`RaftNode::start` with the loops of the three roles, and one step of the whole
node: of the main loop, of a task, or of the environment.
-/

namespace Zeroraft

open Routine

variable {S R : Type} [State S R]

def RoleLoop.taskState : RoleLoop → TaskState
  | .follower => .follower
  | .candidate _ => .candidate
  | .leader _ => .leader

/-- `stop_signal.notify_waiters()` reaches the loops that wait for it. -/
def Task.stop (session : Nat) : Task R → Task R
  | .peerLoop i owner peer .notified =>
    if i = session then .ended else .peerLoop i owner peer .notified
  | task => task

/-- Leaving the loop of a role; a leader stops its peer loops. -/
def RoleLoop.leave (role : RoleLoop) (m : Machine S R) : Machine S R :=
  match role with
  | .leader i => { m with main := .start, tasks := m.tasks.map (Task.stop i) }
  | .follower | .candidate _ => m.goto .start

/-- The answer of a node that is not the leader to a client. -/
def redirectResponse (leaderId : Option NodeId) : ClientResponse where
  success := false
  reason := if leaderId.isSome then .redirect else .noLeaderYet
  leaderId := leaderId

/-- The next step of the main loop, except for the choice of `select!`. -/
def mainStep (m : Machine S R) : Option (Machine S R) :=
  match m.main with
  | .start =>
    match m.node.currentState with
    | .follower => some (m.goto (.checkRole .follower))
    | .candidate => some (m.goto .incrementTerm)
    | .leader => some (m.goto .readCommit)
    | .nonVoter => some (m.goto .failed)
    | .shutdown => some (m.goto .returned)
  | .incrementTerm =>
    some { m with main := .voteForSelf, node := (incrementTerm.run m.node).2 }
  | .voteForSelf =>
    let i := m.voteSessions.length
    some { m with
      main := .checkRole (.candidate i)
      node := (voteForSelf.run m.node).2
      voteSessions := m.voteSessions ++ [{ startTerm := m.node.currentTerm }]
      tasks := m.tasks ++ [.round i .readPeersLen] }
  | .readCommit => some (m.goto (.readMembership (State.getLastCommitIndex m.node.state + 1)))
  | .readMembership nextIndex =>
    let i := m.replicationSessions.length
    let peers := initialPeers (State.getMembership m.node.state) m.node.id nextIndex
    some { m with
      main := .checkRole (.leader i)
      replicationSessions := m.replicationSessions ++ [peers]
      tasks := m.tasks ++ [.heartbeat i .readCommit, .standby i .readStalePeers] }
  | .checkRole role =>
    if m.node.currentState = role.taskState then some (m.goto (.select role))
    else some (role.leave m)
  | .select _ => none
  | .requestVote role request responseTx pc =>
    match pc.step m.node.id request responseTx m.node with
    | (.next pc', node) => some { m with node, main := .requestVote role request responseTx pc' }
    | (.done response, node) =>
      some { m with
        node, main := .checkRole role
        replies := m.replies ++ [.requestVote responseTx ⟨request, response⟩] }
    | (.failed _, node) => some { m with node, main := .failed }
  | .appendEntries role request responseTx pc =>
    match pc.step m.node.id request responseTx m.node with
    | (.next pc', node) => some { m with node, main := .appendEntries role request responseTx pc' }
    | (.done response, node) =>
      some { m with
        node, main := .checkRole role
        replies := m.replies ++ [.appendEntries responseTx request response] }
    | (.failed _, node) => some { m with node, main := .failed }
  | .becomeShutdown role =>
    some { m with main := .checkRole role, node := (changeToShutdownState.run m.node).2 }
  | .becomeCandidate =>
    some { m with main := .checkRole .follower, node := (changeToCandidateState.run m.node).2 }
  | .becomeLeader i _ =>
    some { m with main := .checkRole (.candidate i), node := (changeToLeaderState.run m.node).2 }
  | .readLeaderId role responseTx =>
    if responseTx.closed then some (m.goto .failed)
    else some { m with
      main := .checkRole role
      replies := m.replies ++ [.client responseTx (redirectResponse m.node.leaderId)] }
  | .loadEntryTerm i request =>
    some (m.goto (.appendEntry i ⟨m.node.currentTerm, .clientRequest request⟩))
  | .appendEntry i entry =>
    match State.appendEntries m.node.state [entry] with
    | (.ok (), state) => some { m with main := .checkRole (.leader i), node := { m.node with state } }
    | (.error _, state) => some { m with main := .failed, node := { m.node with state } }
  | .returned => none
  | .failed => none

/-- The branch of `select!` that is taken. -/
def selectStep (role : RoleLoop) (event : Event R) (m : Machine S R) : Option (Machine S R) :=
  match event, role with
  | .shutdown, role => some (m.goto (.becomeShutdown role))
  | .requestVote request responseTx, role =>
    some (m.goto (.requestVote role request responseTx .loadTerm))
  | .appendEntries request responseTx, role =>
    some (m.goto (.appendEntries role request responseTx .loadTerm))
  | .unimplementedRpc, _ => some (m.goto .failed)
  | .clientRequest request _, .leader i => some (m.goto (.loadEntryTerm i request))
  | .clientRequest _ responseTx, role => some (m.goto (.readLeaderId role responseTx))
  | .voteResult, .candidate i => do
    let session ← m.voteSessions[i]?
    let result ← session.voteResult
    some ((m.setVoteSession i { session with voteResult := none }).goto (.becomeLeader i result))
  | .electionTimeout, .follower => some (m.goto .becomeCandidate)
  | .electionTimeout, .candidate _ => some (m.goto .incrementTerm)
  | .retryTimeout, .candidate i =>
    some ((m.spawn [.round i .readPeersLen]).goto (.checkRole (.candidate i)))
  | .heartbeatTimeout, .leader i =>
    some ((m.spawn [.heartbeat i .readCommit]).goto (.checkRole (.leader i)))
  | _, _ => none

/-- Where a role reads a timer that has run out: in its `select!`, which reads all of them on
every turn, or when it spawns a round or the heartbeats. `get_remaining` panics there. -/
def overrunStep (m : Machine S R) : Option (Machine S R) :=
  match m.main with
  | .select _ => some (m.goto .failed)
  | .voteForSelf =>
    some { m with
      main := .failed
      node := (voteForSelf.run m.node).2
      voteSessions := m.voteSessions ++ [{ startTerm := m.node.currentTerm }] }
  | .readMembership _ => some (m.goto .failed)
  | _ => none

def taskStep (k : Nat) (task : Task R) (m : Machine S R) : Option (Task R × Machine S R) :=
  match task with
  | .round i pc => roundStep k i pc m
  | .voteSend i round peer pc => voteSendStep k i round peer pc m
  | .heartbeat i pc => heartbeatStep k i pc m
  | .heartbeatSend heartbeat peer pc => heartbeatSendStep k heartbeat peer pc m
  | .standby i pc => standbyStep k i pc m
  | .peerLoop i standby peer pc => peerLoopStep k i standby peer pc m
  | .ended => none

/-- The task after a response to its RequestVote has arrived from its peer. -/
def Task.answerVote (response : RequestVoteResponse) : Task R → Option (VoteAnswer × Task R)
  | .voteSend i owner peer (.wait request) =>
    if response.id = peer then
      some (⟨request, response⟩, .voteSend i owner peer (.forwarded ⟨request, response⟩))
    else none
  | _ => none

def Task.answerAppend (response : AppendEntriesResponse) : Task R → Option (Task R)
  | .heartbeatSend owner peer .wait =>
    if response.id = peer then some (.heartbeatSend owner peer (.forward response)) else none
  | .peerLoop i owner peer .wait =>
    if response.id = peer then some (.peerLoop i owner peer (.forward response)) else none
  | _ => none

/-- `response_rx.recv().await.unwrap()` panics on a task that waits for a response. -/
def Task.lose : Task R → Option (Task R)
  | .voteSend _ _ _ (.wait _) => some .ended
  | .heartbeatSend _ _ .wait => some .ended
  | .peerLoop _ _ _ .wait => some .ended
  | _ => none

/-- The tasks that run under a timeout; its end releases what they hold. A round that
reads the retry timer too late ends in the same way. -/
def Task.cancel : Task R → Option (Task R)
  | .round _ _ => some .ended
  | .voteSend _ _ _ _ => some .ended
  | .heartbeat _ _ => some .ended
  | _ => none

def Task.elapse : Task R → Option (Task R)
  | .peerLoop i owner peer .notified => some (.peerLoop i owner peer .peerMatches)
  | _ => none

namespace Machine

def step (m : Machine S R) : Action R → Option (Machine S R)
  | .main => mainStep m
  | .event event =>
    match m.main with
    | .select role => selectStep role event m
    | _ => none
  | .overrun => overrunStep m
  | .task k => do
    let task ← m.tasks[k]?
    let (task', m') ← taskStep k task m
    some (m'.setTask k task')
  | .recv k j =>
    match m.tasks[k]?, m.tasks[j]? with
    | some (.round i (.recv peersLen)), some (.voteSend _ round _ (.forwarded answer)) => do
      if round = k then
        let (task', m') ← roundRecv i peersLen j answer m
        some ((m'.setTask k task').setTask j .ended)
      else none
    | _, _ => none
  | .answerVote k response => do
    let task ← m.tasks[k]?
    let (answer, task') ← task.answerVote response
    some ({ m with answers := m.answers ++ [(k, answer)] }.setTask k task')
  | .answerAppend k response => do
    let task ← m.tasks[k]?
    let task' ← task.answerAppend response
    some (m.setTask k task')
  | .lose k => do
    let task ← m.tasks[k]?
    let task' ← task.lose
    some (m.setTask k task')
  | .cancel k => do
    let task ← m.tasks[k]?
    let task' ← task.cancel
    some (m.setTask k task')
  | .elapse k => do
    let task ← m.tasks[k]?
    let task' ← task.elapse
    some (m.setTask k task')

/-- The runs all of whose steps are allowed in the state before them. -/
def Runs (Allowed : Machine S R → Action R → Prop) : Machine S R → Machine S R → Prop :=
  Relation.ReflTransGen fun m m' => ∃ action, Allowed m action ∧ m.step action = some m'

def run (Allowed : Machine S R → Action R → Prop) [∀ m action, Decidable (Allowed m action)]
    (m : Machine S R) : List (Action R) → Option (Machine S R)
  | [] => some m
  | action :: rest =>
    if Allowed m action then (m.step action).bind fun m' => m'.run Allowed rest else none

theorem run_append (Allowed : Machine S R → Action R → Prop)
    [∀ m action, Decidable (Allowed m action)] (m : Machine S R) (first second : List (Action R)) :
    m.run Allowed (first ++ second) = (m.run Allowed first).bind (·.run Allowed second) := by
  induction first generalizing m with
  | nil => rfl
  | cons action rest ih =>
    rw [List.cons_append, run, run]
    split_ifs
    · rw [Option.bind_assoc]
      exact Option.bind_congr fun m' _ => ih m'
    · rfl

theorem run_eq_foldlM (Allowed : Machine S R → Action R → Prop)
    [∀ m action, Decidable (Allowed m action)] (m : Machine S R) (actions : List (Action R)) :
    m.run Allowed actions =
      actions.foldlM (fun m action => if Allowed m action then m.step action else none) m := by
  induction actions generalizing m with
  | nil => rfl
  | cons action rest ih =>
    rw [Machine.run, List.foldlM_cons]
    split_ifs
    · exact Option.bind_congr fun m' _ => ih m'
    · rfl

theorem runs_of_run {Allowed : Machine S R → Action R → Prop}
    [∀ m action, Decidable (Allowed m action)] {m m' : Machine S R} {actions : List (Action R)}
    (h : m.run Allowed actions = some m') : Runs Allowed m m' := by
  induction actions generalizing m with
  | nil =>
    cases h
    exact Relation.ReflTransGen.refl
  | cons action rest ih =>
    obtain ⟨hAllowed, h⟩ := Option.ite_none_right_eq_some.mp h
    obtain ⟨m₁, hFirst, hRest⟩ := Option.bind_eq_some_iff.mp h
    exact Relation.ReflTransGen.head ⟨action, hAllowed, hFirst⟩ (ih hRest)

/-- A run found by evaluation. -/
theorem exists_of_run {Allowed : Machine S R → Action R → Prop}
    [∀ m action, Decidable (Allowed m action)] {m : Machine S R} {actions : List (Action R)}
    {p : Machine S R → Bool} (h : (m.run Allowed actions).map p = some true) :
    ∃ m', Runs Allowed m m' ∧ p m' = true := by
  obtain ⟨m', hRun, hp⟩ := Option.map_eq_some_iff.mp h
  exact ⟨m', runs_of_run hRun, hp⟩

/-- A run and its continuation, found by evaluation. -/
theorem exists_of_runs {Allowed : Machine S R → Action R → Prop}
    [∀ m action, Decidable (Allowed m action)] {m : Machine S R} {actions rest : List (Action R)}
    {p : Machine S R → Machine S R → Bool}
    (h : ((m.run Allowed actions).bind fun m₁ => (m₁.run Allowed rest).map (p m₁)) = some true) :
    ∃ m₁ m₂, Runs Allowed m m₁ ∧ Runs Allowed m₁ m₂ ∧ p m₁ m₂ = true := by
  obtain ⟨m₁, hRun, h⟩ := Option.bind_eq_some_iff.mp h
  obtain ⟨m₂, hRest, hp⟩ := exists_of_run h
  exact ⟨m₁, m₂, runs_of_run hRun, hRest, hp⟩

variable {Allowed : Machine S R → Action R → Prop}

theorem Runs.mono {Allowed' : Machine S R → Action R → Prop} {m m' : Machine S R}
    (h : ∀ m action, Allowed m action → Allowed' m action) (hRuns : Runs Allowed m m') :
    Runs Allowed' m m' := by
  induction hRuns with
  | refl => exact Relation.ReflTransGen.refl
  | tail _ hLast ih =>
    obtain ⟨action, hAllowed, hStep⟩ := hLast
    exact Relation.ReflTransGen.tail ih ⟨action, h _ _ hAllowed, hStep⟩

theorem Runs.invariant {Inv : Machine S R → Prop} {m m' : Machine S R}
    (hRuns : Runs Allowed m m') (hInit : Inv m)
    (hStep : ∀ m action m', Allowed m action → m.step action = some m' → Inv m → Inv m') :
    Inv m' := by
  induction hRuns with
  | refl => exact hInit
  | tail _ hLast ih =>
    obtain ⟨action, hAllowed, hStepEq⟩ := hLast
    exact hStep _ action _ hAllowed hStepEq ih

end Machine

end Zeroraft
