import Zeroraft.Library.LogOrder
import Zeroraft.Properties.TermMonotonicity
import Zeroraft.Runtime.LogSteps
import Zeroraft.Runtime.TermSteps
import Zeroraft.Runtime.Turns

/-!
# Are the terms in a log ordered and bounded?

A leader appends entries of its term and sends what its log holds, so order and bound
rest on the term of a node never falling below what its log holds or is about to
hold. The tasks that step down write the term of a response without looking.
-/

namespace Zeroraft

open LogOrder Routine

variable {S R : Type} [State S R]

/-- The terms of the log do not decrease, and the last is at most the current term. -/
def RaftNode.OrderedLog (node : RaftNode S) : Prop :=
  Ordered LogEntry.term node.log ∧ (stored node.state).lastTerm ≤ node.currentTerm

omit [State S R] in
/-- The entries that the main loop is about to append, once their terms are settled. -/
def Main.carried : Main R → List (LogEntry R)
  | .appendEntries _ request _ (.setLeaderId _ _) => request.entries
  | .appendEntries _ request _ (.becomeFollower _ _) => request.entries
  | .appendEntries _ request _ (.readEntry _) => request.entries
  | .appendEntries _ request _ (.removeEntries _) => request.entries
  | .appendEntries _ request _ (.appendEntries _) => request.entries
  | .appendEntry _ entry => [entry]
  | _ => []

def NoneAbove (entries : List (LogEntry R)) (term : Nat) : Prop :=
  ∀ entry ∈ entries, entry.term ≤ term

def NoneBelow (entries : List (LogEntry R)) (term : Nat) : Prop :=
  ∀ entry ∈ entries, term ≤ entry.term

instance (entries : List (LogEntry R)) (term : Nat) : Decidable (NoneAbove entries term) :=
  inferInstanceAs (Decidable (∀ _ ∈ _, _))

instance (entries : List (LogEntry R)) (term : Nat) : Decidable (NoneBelow entries term) :=
  inferInstanceAs (Decidable (∀ _ ∈ _, _))

theorem noneAbove_nil (term : Nat) : NoneAbove ([] : List (LogEntry R)) term :=
  List.forall_mem_nil _

/-- The term that a task writes is not below what the log holds or is about to hold. -/
def StepDownPc.Covers (m : Machine S R) : StepDownPc → Prop
  | .setCurrentTerm term => NoneAbove (m.log ++ m.main.carried) term
  | _ => True

/-- The index and the previous term with which a loop is about to read entries. -/
def Task.reading : Task R → Option (Nat × Nat)
  | .peerLoop _ _ _ (.readEntries nextIndex _ prevLogTerm) => some (nextIndex, prevLogTerm)
  | _ => none

def Task.composing : Task R → Option (List (LogEntry R))
  | .peerLoop _ _ _ (.loadTerm _ _ _ entries) => some entries
  | _ => none

/-- A loop that composes a request finds entries and a term that go with what it has
read before. -/
def Task.ComposesOrdered (m : Machine S R) (task : Task R) : Prop :=
  (∀ read ∈ task.reading, NoneBelow (State.getEntries m.node.state read.1 none) read.2) ∧
    ∀ entries ∈ task.composing, NoneAbove entries m.node.currentTerm

/-- The term never falls below the log, and requests are composed of one log. -/
def LogTermSafe (m : Machine S R) : Action R → Prop
  | .task k => ∀ task ∈ m.tasks[k]?,
    (∀ pc ∈ task.stepDownPc, pc.Covers m) ∧ task.ComposesOrdered m
  | .main => m.main.startsSession → NoneAbove m.log ((m.node.currentTerm + 1) % u64Size)
  | _ => True

instance (m : Machine S R) (pc : StepDownPc) : Decidable (pc.Covers m) :=
  match pc with
  | .setCurrentTerm _ => inferInstanceAs (Decidable (NoneAbove _ _))
  | .storeCurrentTerm _ => isTrue trivial
  | .becomeFollower => isTrue trivial

instance (m : Machine S R) (task : Task R) : Decidable (task.ComposesOrdered m) :=
  inferInstanceAs (Decidable ((∀ read ∈ task.reading, _) ∧ ∀ entries ∈ task.composing, _))

instance LogTermSafe.instDecidable (m : Machine S R) (action : Action R) :
    Decidable (LogTermSafe m action) :=
  match action with
  | .task k => inferInstanceAs (Decidable (∀ task ∈ m.tasks[k]?, _ ∧ _))
  | .main => inferInstanceAs (Decidable (_ → NoneAbove _ _))
  | .event _ | .overrun | .recv _ _ | .answerVote _ _ | .answerAppend _ _ | .lose _ | .cancel _
  | .elapse _ => isTrue trivial

/-- Entries of one log, not newer than the term of the request. -/
structure AppendEntriesRequest.Ordered (request : AppendEntriesRequest R) : Prop where
  entries : LogOrder.Ordered LogEntry.term request.entries
  prev : NoneBelow request.entries request.prevLogTerm
  term : NoneAbove request.entries request.term

/-- What a request handler knows of the log. -/
def RequestVotePc.Fits (request : RequestVoteRequest) (log : List (LogEntry R)) :
    RequestVotePc → Prop
  | .readVotedFor _ | .storeCurrentTerm _ | .storeVotedFor _ | .setCurrentTerm _ =>
    NoneAbove log request.term
  | _ => True

def AppendEntriesPc.Fits (request : AppendEntriesRequest R) (log : List (LogEntry R)) :
    AppendEntriesPc → Prop
  | .readLastIndex ourTerm => NoneAbove log ourTerm
  | .storeCurrentTerm _ index | .setCurrentTerm _ index =>
    NoneAbove log request.term ∧ index = log.length
  | .setLeaderId _ index | .becomeFollower _ index => index = log.length
  | .readEntry _ => request.prevLogIndex ≤ log.length
  | .removeEntries _ => NoneAbove (log.take request.prevLogIndex) request.prevLogTerm
  | .appendEntries _ => NoneAbove log request.prevLogTerm
  | _ => True

def Main.OrderFits (log : List (LogEntry R)) : Main R → Prop
  | .requestVote _ request _ pc => pc.Fits request log
  | .appendEntries _ request _ pc => request.Ordered ∧ pc.Fits request log
  | .appendEntry _ entry => NoneAbove log entry.term
  | _ => True

def Task.OrderFits : Task R → Prop
  | .peerLoop _ _ _ (.readPrevEntry nextIndex _) => nextIndex ≠ 0
  | .peerLoop _ _ _ (.readEntries nextIndex _ _) => nextIndex ≠ 0
  | .peerLoop _ _ _ (.loadTerm _ _ prevLogTerm entries) =>
    Ordered LogEntry.term entries ∧ NoneBelow entries prevLogTerm
  | .peerLoop _ _ _ (.send request) => request.Ordered
  | .heartbeatSend _ _ (.send request) => request.Ordered
  | _ => True

/-- The log is ordered and bounded, and so is whatever is on its way into a log. -/
structure LogsOrdered (m : Machine S R) : Prop where
  ordered : Ordered LogEntry.term m.log
  bounded : NoneAbove (m.log ++ m.main.carried) m.node.currentTerm
  main : m.main.OrderFits m.log
  tasks : ∀ (k : Nat) (task : Task R), m.tasks[k]? = some task → task.OrderFits
  sent : ∀ out ∈ m.outRpc, ∀ request, out.rpc = .appendEntries request → request.Ordered

variable {m m' : Machine S R} {action : Action R}

/-- The request that an event delivers is ordered. -/
def Action.DeliversOrdered : Action R → Prop
  | .event (.appendEntries request _) => request.Ordered
  | _ => True

theorem NoneAbove.mono {entries : List (LogEntry R)} {term term' : Nat} (h : NoneAbove entries term)
    (hLe : term ≤ term') : NoneAbove entries term' :=
  fun entry hEntry => (h entry hEntry).trans hLe

omit [State S R] in
theorem Main.OrderFits.nextTerm {main : Main R} {log : List (LogEntry R)} {term : Nat}
    (h : main.OrderFits log) (hNext : main.nextTerm = some term) :
    NoneAbove (log ++ main.carried) term := by
  cases main with
  | requestVote _ request _ pc =>
    cases pc <;> cases hNext
    exact (List.append_nil log).symm ▸ h
  | appendEntries _ request _ pc =>
    cases pc <;> cases hNext
    exact (List.append_nil log).symm ▸ h.2.1
  | _ => cases hNext

variable [FallibleState S R]

theorem step_log_subset (hStep : m.step action = some m') :
    ∀ entry ∈ m'.log, entry ∈ m.log ++ m.main.carried := by
  intro entry hEntry
  cases step_logChange hStep with
  | kept h => exact List.mem_append_left _ (h ▸ hEntry)
  | removed _ _ _ h =>
    rw [h] at hEntry
    exact List.mem_append_left _ (List.mem_of_mem_take hEntry)
  | replicated _ hMain _ h | created _ hMain _ h =>
    rw [h] at hEntry
    rw [hMain]
    exact hEntry

omit [FallibleState S R] in
theorem LogsOrdered.step_term (h : LogsOrdered m) (hSafe : LogTermSafe m action)
    (hStep : m.step action = some m') : NoneAbove (m.log ++ m.main.carried) m'.node.currentTerm := by
  cases step_termChange hStep with
  | kept hKept => rw [hKept]; exact h.bounded
  | increment hAction hMain hTerm =>
    subst hAction
    have hLog := hSafe (by rw [hMain]; rfl)
    rw [hTerm, hMain]
    simpa [Main.carried] using hLog
  | accepted hAction hNext => exact h.main.nextTerm hNext
  | stepDown hAction hTask hPc =>
    subst hAction
    exact (hSafe _ hTask).1 _ hPc

omit [FallibleState S R] in
theorem RequestVotePc.Edge.orderFits {request : RequestVoteRequest} {pc pc' : RequestVotePc}
    (hEdge : pc.Edge m.node.id request m.node pc') (hBounded : NoneAbove m.log m.node.currentTerm)
    (h : pc.Fits request m.log) : pc'.Fits request m.log := by
  cases hEdge with
  | same hSame => exact hBounded.mono hSame.le
  | newer hNewer => exact hBounded.mono hNewer.le
  | notVoted _ | storedTerm | storedVote => exact h
  | _ => trivial

/-- The entries that stay are not newer than the one that the check has found. -/
theorem noneAbove_take_prev {prev prevTerm : Nat} (hOrdered : Ordered LogEntry.term m.log)
    (hLong : prev ≤ m.log.length)
    (hTerm : ¬ (State.getEntry m.node.state prev).any (·.term ≠ prevTerm)) :
    NoneAbove (m.log.take prev) prevTerm := by
  cases prev with
  | zero => exact nofun
  | succ n =>
    have hLast : m.log[n]? = some m.log[n] := List.getElem?_eq_getElem hLong
    have hEntry : State.getEntry m.node.state (n + 1) = some m.log[n] := by
      rw [FallibleState.getEntry_eq]
      exact Stored.entry_eq_some_iff.mpr ⟨Nat.le_add_left 1 n, hLast⟩
    have hSame : m.log[n].term = prevTerm := by simpa [hEntry] using hTerm
    exact fun entry hMem => hSame ▸ hOrdered.le_of_mem_take hLast hMem

theorem AppendEntriesPc.Edge.orderFits {request : AppendEntriesRequest R} {pc pc' : AppendEntriesPc}
    {log' : List (LogEntry R)} (hEdge : pc.Edge m.node.id request m.node pc')
    (hOrdered : Ordered LogEntry.term m.log) (hBounded : NoneAbove m.log m.node.currentTerm)
    (h : pc.Fits request m.log)
    (hLog : log' = pc.logAfter request m.log) : pc'.Fits request log' := by
  cases hEdge with
  | loaded => exact hLog ▸ hBounded
  | accepted hFresh =>
    subst hLog
    exact ⟨h.mono hFresh, FallibleState.getLastIndex_eq _⟩
  | storedTerm => exact hLog ▸ h
  | setTerm => exact hLog ▸ h.2
  | setLeader => exact hLog ▸ h
  | follower hLong =>
    subst hLog
    exact h ▸ hLong
  | same hTerm =>
    subst hLog
    exact noneAbove_take_prev hOrdered h hTerm
  | removed => exact hLog ▸ h
  | _ => trivial

omit [FallibleState S R] in
theorem LogsOrdered.of_main (h : LogsOrdered m) : NoneAbove m.log m.node.currentTerm :=
  fun entry hEntry => h.bounded entry (List.mem_append_left _ hEntry)

omit [FallibleState S R] in
theorem LogsOrdered.carried (h : LogsOrdered m) : NoneAbove m.main.carried m.node.currentTerm :=
  fun entry hEntry => h.bounded entry (List.mem_append_right _ hEntry)

theorem MainStepped.orderFits (hStepped : MainStepped m m') (h : LogsOrdered m) :
    m'.main.OrderFits m'.log ∧ NoneAbove m'.main.carried m'.node.currentTerm := by
  have hMain' := h.main
  cases hStepped with
  | @requestVote role request responseTx pc pc' hMain hEdge hNext =>
    rw [hMain] at hMain'
    have hLog : (pc.step m.node.id request responseTx m.node).2.log = m.node.log :=
      RequestVotePc.step_log request pc
    refine ⟨?_, noneAbove_nil _⟩
    have hFits := hEdge.orderFits h.of_main hMain'
    rw [Machine.log, ← hLog] at hFits
    exact hFits
  | @appendEntries role request responseTx pc pc' hMain hEdge hNext =>
    rw [hMain] at hMain'
    obtain ⟨hRequest, hPc⟩ := hMain'
    have hLog := AppendEntriesPc.step_log hNext
    refine ⟨⟨hRequest, hEdge.orderFits h.ordered h.of_main hPc hLog⟩, ?_⟩
    have hCarried := h.carried
    obtain ⟨state, _, hNode⟩ := AppendEntriesPc.step_node m.node.id responseTx m.node request pc
    rw [hMain] at hCarried
    dsimp only
    rw [hNode]
    cases hEdge with
    | setTerm => exact hRequest.term
    | setLeader | follower _ | same _ | removed => exact hCarried
    | _ => exact noneAbove_nil _
  | loadEntryTerm hMain =>
    refine ⟨h.of_main, fun entry hEntry => ?_⟩
    rw [List.mem_singleton.mp hEntry]
    exact Nat.le_refl _
  | @leave role hMain hRole =>
    rw [RoleLoop.leave_main]
    exact ⟨trivial, noneAbove_nil _⟩
  | _ => exact ⟨trivial, noneAbove_nil _⟩

omit [State S R] [FallibleState S R] in
theorem Task.Local.orderFits {k : Nat} {task task' : Task R} (h : task.Local action k task') :
    task'.OrderFits := by
  cases h.moved with
  | heartbeatAnswered | loopAnswered | ended _ | elapsed => trivial

theorem LogsOrdered.replicate_orderFits (h : LogsOrdered m) {k : Nat} {task task' : Task R}
    {m₁ : Machine S R} (hSafe : LogTermSafe m (.task k : Action R))
    (hTask : m.tasks[k]? = some task) (hStepped : ReplicationStepped m k task task' m₁) :
    task'.OrderFits := by
  have hFits := h.tasks k task hTask
  obtain ⟨_, hReading, hComposing⟩ := hSafe task hTask
  cases hStepped with
  | nextIndex _ _ hNext => exact hNext
  | prevEntry _ => exact hFits
  | entries =>
    have hEntries := FallibleState.getEntries_from m.node.state _ (Nat.one_le_iff_ne_zero.mpr hFits)
    refine ⟨?_, hReading _ rfl⟩
    rw [hEntries]
    exact h.ordered.drop _
  | composed => exact ⟨hFits.1, hFits.2, hComposing _ rfl⟩
  | heartbeatStepDown hDown | standbyStepDown hDown => cases hDown <;> trivial
  | _ => trivial

theorem LogsOrdered.step_tasks (h : LogsOrdered m) (hSafe : LogTermSafe m action)
    (hStep : m.step action = some m') {k : Nat} {task' : Task R}
    (hTask' : m'.tasks[k]? = some task') : task'.OrderFits := by
  rcases step_turned hStep hTask' with ⟨task, hTask, hTurn⟩ | ⟨_, hSpawned⟩
  · have hFits := h.tasks k task hTask
    cases hTurn with
    | kept => exact hFits
    | stopped _ =>
      rcases Task.stop_cases _ task with hStop | hStop <;> rw [hStop]
      · exact hFits
      · trivial
    | vote hVote =>
      cases hVote with
      | stepDown hDown => cases hDown <;> trivial
      | _ => trivial
    | replicate hReplicate => exact h.replicate_orderFits hSafe hTask hReplicate
    | recv _ hRecv => cases hRecv <;> trivial
    | taken | answerVote => trivial
    | environment hLocal => exact hLocal.orderFits
  · cases hSpawned with
    | heartbeatSend _ => exact ⟨List.Pairwise.nil, nofun, nofun⟩
    | _ => trivial

theorem LogsOrdered.step_main (h : LogsOrdered m) (hSafe : LogTermSafe m action)
    (hDelivers : action.DeliversOrdered) (hStep : m.step action = some m') :
    m'.main.OrderFits m'.log ∧ NoneAbove m'.main.carried m'.node.currentTerm := by
  have hTerm := h.step_term hSafe hStep
  have hSame : m'.main = m.main → m'.log = m.log →
      m'.main.OrderFits m'.log ∧ NoneAbove m'.main.carried m'.node.currentTerm := by
    intro hMain hLog
    rw [hMain, hLog]
    exact ⟨h.main, fun entry hEntry => hTerm entry (List.mem_append_right _ hEntry)⟩
  cases step_cases hStep with
  | main hStepped => exact hStepped.orderFits h
  | select _ hSelect =>
    cases hSelect with
    | appendEntries => exact ⟨⟨hDelivers, trivial⟩, nofun⟩
    | _ => exact ⟨trivial, nofun⟩
  | vote _ hStepped | replicate _ hStepped => exact hSame hStepped.frame.main hStepped.log
  | recv _ _ hRecv =>
    obtain ⟨voteSessions, rfl⟩ := hRecv.frame
    exact hSame rfl rfl
  | overrun _ => exact ⟨trivial, nofun⟩
  | answerVote _ | environment _ _ => exact hSame rfl rfl

theorem step_logsOrdered (hSafe : LogTermSafe m action) (hDelivers : action.DeliversOrdered)
    (hStep : m.step action = some m') (h : LogsOrdered m) : LogsOrdered m' where
  ordered := by
    cases step_logChange hStep with
    | kept hLog => exact hLog ▸ h.ordered
    | removed _ _ _ hLog => exact hLog ▸ h.ordered.take _
    | replicated _ hMain _ hLog =>
      have hFits := h.main
      rw [hMain] at hFits
      exact hLog ▸ h.ordered.append hFits.1.entries hFits.2 hFits.1.prev
    | created _ hMain _ hLog =>
      have hFits := h.main
      rw [hMain] at hFits
      refine hLog ▸ h.ordered.append (ordered_singleton _) hFits fun entry hEntry => ?_
      rw [List.mem_singleton.mp hEntry]
  bounded := by
    intro entry hEntry
    rcases List.mem_append.mp hEntry with hLog | hCarried
    · exact h.step_term hSafe hStep entry (step_log_subset hStep entry hLog)
    · exact (h.step_main hSafe hDelivers hStep).2 entry hCarried
  main := (h.step_main hSafe hDelivers hStep).1
  tasks := fun k task' hTask' => h.step_tasks hSafe hStep hTask'
  sent := by
    intro out hOut request hRequest
    rcases step_outRpc hStep with hSame | ⟨out', hSent, hNew⟩
    · exact h.sent out (hSame ▸ hOut) request hRequest
    · rw [hNew] at hOut
      rcases List.mem_append.mp hOut with hOld | hLast
      · exact h.sent out hOld request hRequest
      · obtain rfl := List.mem_singleton.mp hLast
        cases hSent with
        | requestVote _ => cases hRequest
        | heartbeat hTask | entries hTask =>
          cases hRequest
          exact h.tasks _ _ hTask

omit [FallibleState S R] in
theorem LogsOrdered.initial {node : RaftNode S} (h : node.OrderedLog) :
    LogsOrdered ({ node } : Machine S R) where
  ordered := h.1
  bounded := by
    intro entry hEntry
    have hMem : entry ∈ (stored node.state).log := by
      rcases List.mem_append.mp hEntry with hLog | hCarried
      · exact hLog
      · cases hCarried
    have hLast := List.getLast?_eq_getLast_of_ne_nil (List.ne_nil_of_mem hMem)
    have hLe := h.1.le_last hLast entry hMem
    have hBound := h.2
    rw [Stored.lastTerm, hLast] at hBound
    exact hLe.trans hBound
  main := trivial
  tasks := fun _ _ hTask => by cases hTask
  sent := fun _ hOut => by cases hOut

omit [FallibleState S R] in
theorem LogsOrdered.orderedLog (h : LogsOrdered m) : m.node.OrderedLog := by
  refine ⟨h.ordered, ?_⟩
  unfold Stored.lastTerm
  cases hLast : (stored m.node.state).log.getLast? with
  | none => exact Nat.zero_le _
  | some last => exact h.of_main last (List.mem_of_getLast? hLast)

omit [FallibleState S R] in
theorem Cluster.deliversOrdered [DecidableEq R] {c : Cluster S R} {i : NodeId}
    (hAll : ∀ j, LogsOrdered (c j)) (hDelivered : c.deliverable i action) :
    action.DeliversOrdered := by
  unfold Action.DeliversOrdered
  split
  · obtain ⟨out, hOut, hRequest⟩ := List.any_eq_true.mp hDelivered
    obtain rfl := of_decide_eq_true hRequest
    exact (hAll _).sent _ hOut _ rfl
  · trivial

/-- In every run of a cluster whose steps are safe, every log is ordered and bounded. -/
theorem logs_ordered [DecidableEq R] (members : MembershipMap) (initial c : Cluster S R)
    (hInitial : Cluster.Initial members initial)
    (hPersisted : ∀ i, (initial i).node.OrderedLog)
    (hRuns : Cluster.Runs members LogTermSafe initial c) (i : NodeId) : (c i).node.OrderedLog := by
  have hOrdered : ∀ i, LogsOrdered (c i) := by
    refine hRuns.invariant (fun i => ?_) fun c i action m' hAll hSafe hDelivered hStep =>
      step_logsOrdered hSafe (Cluster.deliversOrdered hAll hDelivered) hStep (hAll i)
    obtain ⟨_, _, node, _, _, hNode⟩ := hInitial i
    have hNodeOrdered := hPersisted i
    rw [hNode] at hNodeOrdered ⊢
    exact LogsOrdered.initial hNodeOrdered
  exact (hOrdered i).orderedLog

instance (node : RaftNode S) : Decidable node.OrderedLog :=
  inferInstanceAs (Decidable (List.Pairwise _ _ ∧ _))

theorem unevenCluster_orderedLog (i : NodeId) : (unevenCluster i).node.OrderedLog := by
  unfold unevenCluster
  split
  · exact ⟨List.Pairwise.nil, Nat.zero_le _⟩
  · exact ⟨ordered_singleton _, Nat.le_refl _⟩

/-- Node 2 enters term 6 before it refuses its vote. -/
theorem logs_ordered_uneven :
    ∃ c : Cluster (Stored Unit) Unit, (c 2).node.OrderedLog ∧ (c 2).node.currentTerm = 6 := by
  obtain ⟨c, hRun, hTerm⟩ := Option.map_eq_some_iff.mp
    (show (unevenCluster.run pairMembers LogTermSafe (incompleteLogActions.take 22)).map
      (fun c => decide ((c 2).node.currentTerm = 6)) = some true by decide)
  exact ⟨c, logs_ordered pairMembers unevenCluster c unevenCluster_initial
    unevenCluster_orderedLog (Cluster.runs_of_run hRun) 2, of_decide_eq_true hTerm⟩

/-- Node 2 has been in term 2 already, node 1 has not been in any. -/
def newcomerCluster : Cluster (Stored Unit) Unit := fun i =>
  { node :=
    { id := i
      currentTerm := if i = 1 then 0 else 2
      votedFor := none
      state := ⟨[], 0, pairMembers, none, if i = 1 then 0 else 2⟩
      currentState := .follower
      leaderId := none } }

theorem newcomerCluster_initial : Cluster.Initial pairMembers newcomerCluster :=
  fun i => ⟨(newcomerCluster i).node.state, .empty, _, rfl, rfl, rfl⟩

/-- The round of term 1 has been told of term 2 and stores it. Meanwhile node 1 is
elected in term 3 and appends an entry. -/
def lateStepDownActions : List (NodeId × Action Unit) :=
  [List.replicate 2 (1, .main), [(1, .event .electionTimeout)], List.replicate 6 (1, .main),
    List.replicate 3 (1, .task 0), List.replicate 3 (1, .task 1), List.replicate 2 (2, .main),
    [(2, .event (.requestVote ⟨1, 1, 0, 0⟩ ⟨1, 1, false⟩))], List.replicate 3 (2, .main),
    [(1, .answerVote 1 ⟨2, false, 2, .staleTerm⟩), (1, .recv 0 1), (1, .task 0)],
    [(1, .event .electionTimeout)], List.replicate 3 (1, .main),
    [(1, .event .electionTimeout)], List.replicate 3 (1, .main),
    List.replicate 3 (1, .task 3), List.replicate 3 (1, .task 4),
    [(2, .event (.requestVote ⟨3, 1, 0, 0⟩ ⟨1, 4, false⟩))], List.replicate 9 (2, .main),
    [(1, .answerVote 4 ⟨2, true, 2, .ok⟩), (1, .recv 3 4)], List.replicate 3 (1, .task 3),
    [(1, .event .voteResult)], List.replicate 6 (1, .main),
    [(1, .event (.clientRequest () ⟨0, 0, false⟩))], List.replicate 2 (1, .main),
    [(1, .task 0)]].flatten

/-- The entry of term 3 stays in the log of a node that is back in term 2. -/
theorem log_outgrows_term :
    Cluster.Initial pairMembers newcomerCluster ∧
    (∀ i, (newcomerCluster i).node.OrderedLog) ∧
    ∃ c, Cluster.Runs pairMembers (fun _ _ => True) newcomerCluster c ∧
      ¬ (c 1).node.OrderedLog := by
  refine ⟨newcomerCluster_initial, fun i => ⟨List.Pairwise.nil, Nat.zero_le _⟩, ?_⟩
  obtain ⟨c, hRun, hLog⟩ := Option.map_eq_some_iff.mp
    (show (newcomerCluster.run pairMembers (fun _ _ => True) lateStepDownActions).map
      (fun c => decide (¬ (c 1).node.OrderedLog)) = some true by decide)
  exact ⟨c, Cluster.runs_of_run hRun, of_decide_eq_true hLog⟩

end Zeroraft
