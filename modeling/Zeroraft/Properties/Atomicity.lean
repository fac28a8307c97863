import Zeroraft.Library.Simulation
import Zeroraft.Model.Inbound
import Zeroraft.Properties.Leadership

/-!
# Are the handlers atomic?

A handler gives up the node between any two accesses to it. As long as no task changes the
node in between, the node and its replies are those of a node that handles every request at
once, in the order in which the main loop takes them.
-/

namespace Zeroraft

open Routine

variable {S R : Type}

/-- The main loop is in the middle of a handler or of the start of a vote session. -/
def Main.busy : Main R → Bool
  | .requestVote _ _ _ _ | .appendEntries _ _ _ _ | .voteForSelf => true
  | _ => false

/-- What happens to a node at once. -/
inductive NodeEvent (R : Type) where
  | inbound (event : Inbound R)
  | changeState (state : TaskState)
  | append (entry : LogEntry R)
  | redirect (responseTx : Sender)
  | storeCurrentTerm (term : Nat)
  | setCurrentTerm (term : Nat)
  | setLastCommitIndex (index : Nat)

def StepDownPc.event : StepDownPc → NodeEvent R
  | .storeCurrentTerm term => .storeCurrentTerm term
  | .setCurrentTerm term => .setCurrentTerm term
  | .becomeFollower => .changeState .follower

/-- What the next access of the task does to the node, if anything. -/
def Task.event : Task R → Option (NodeEvent R)
  | .standby _ (.setCommit index) => some (.setLastCommitIndex index)
  | task => task.stepDownPc.map StepDownPc.event

/-- While the main loop is busy no task changes the node. -/
def Uninterrupted (m : Machine S R) : Action R → Prop
  | .task k => m.main.busy = true → ∀ task ∈ m.tasks[k]?, task.event = none
  | _ => True

instance Uninterrupted.instDecidable (m : Machine S R) (action : Action R) :
    Decidable (Uninterrupted m action) :=
  match action with
  | .task k => inferInstanceAs (Decidable (_ → ∀ task ∈ m.tasks[k]?, _))
  | .main | .event _ | .overrun | .recv _ _ | .answerVote _ _ | .answerAppend _ _ | .lose _
  | .cancel _ | .elapse _ => isTrue trivial

/-- A node that does everything at once, and what it has replied. -/
@[ext] structure AtomicNode (S R : Type) where
  node : RaftNode S
  replies : List (Reply R)

def voteReplies (request : RequestVoteRequest) (responseTx : Sender) :
    Result RequestVoteResponse → List (Reply R)
  | .ok response => [.requestVote responseTx ⟨request, response⟩]
  | .error _ => []

def appendReplies (request : AppendEntriesRequest R) (responseTx : Sender) :
    Result AppendEntriesResponse → List (Reply R)
  | .ok response => [.appendEntries responseTx request response]
  | .error _ => []

variable [State S R]

def Inbound.replies (node : RaftNode S) : Inbound R → List (Reply R)
  | .requestVote request responseTx =>
    voteReplies request responseTx ((respondToRequestVote request responseTx).run node).1
  | .appendEntries request responseTx =>
    appendReplies request responseTx ((respondToAppendEntries request responseTx).run node).1
  | .startSession => []

def AtomicNode.apply (a : AtomicNode S R) : NodeEvent R → AtomicNode S R
  | .inbound event => ⟨(event.handle a.node).1, a.replies ++ event.replies a.node⟩
  | .changeState state => { a with node := { a.node with currentState := state } }
  | .append entry =>
    { a with node := { a.node with state := (State.appendEntries a.node.state [entry]).2 } }
  | .redirect responseTx =>
    if responseTx.closed then a
    else { a with replies := a.replies ++ [.client responseTx (redirectResponse a.node.leaderId)] }
  | .storeCurrentTerm term =>
    { a with node := { a.node with state := (State.storeCurrentTerm a.node.state term).2 } }
  | .setCurrentTerm term => { a with node := { a.node with currentTerm := term } }
  | .setLastCommitIndex index =>
    { a with node := { a.node with state := (State.setLastCommitIndex a.node.state index).2 } }

section Emitted

omit [State S R]

def Main.emits : Main R → List (NodeEvent R)
  | .voteForSelf => [.inbound .startSession]
  | .becomeShutdown _ => [.changeState .shutdown]
  | .becomeCandidate => [.changeState .candidate]
  | .becomeLeader _ _ => [.changeState .leader]
  | .readLeaderId _ responseTx => [.redirect responseTx]
  | .appendEntry _ entry => [.append entry]
  | _ => []

/-- A request counts when it is taken, everything else when it is done. -/
def Machine.emits (m : Machine S R) : Action R → List (NodeEvent R)
  | .main | .overrun => m.main.emits
  | .event (.requestVote request responseTx) => [.inbound (.requestVote request responseTx)]
  | .event (.appendEntries request responseTx) => [.inbound (.appendEntries request responseTx)]
  | .task k => (m.tasks[k]?.bind Task.event).toList
  | _ => []

end Emitted

/-- The machine is in the middle of what the atomic node has already done. -/
def Matches (m : Machine S R) (a : AtomicNode S R) : Prop :=
  match m.main with
  | .requestVote _ request responseTx pc => ∃ result,
    Ends (RequestVotePc.step m.node.id request responseTx) pc m.node result a.node ∧
      a.replies = m.replies ++ voteReplies request responseTx result
  | .appendEntries _ request responseTx pc => ∃ result,
    Ends (AppendEntriesPc.step m.node.id request responseTx) pc m.node result a.node ∧
      a.replies = m.replies ++ appendReplies request responseTx result
  | .voteForSelf => m.node = (incrementTerm.run a.node).2 ∧ a.replies = m.replies
  | _ => a = ⟨m.node, m.replies⟩

variable {m m' m₁ : Machine S R} {a : AtomicNode S R} {action : Action R}

theorem matches_iff_of_not_busy (h : m.main.busy = false) :
    Matches m a ↔ a = ⟨m.node, m.replies⟩ := by
  unfold Matches
  cases hMain : m.main with
  | requestVote _ _ _ _ | appendEntries _ _ _ _ | voteForSelf =>
    rw [hMain] at h
    cases h
  | _ => exact Iff.rfl

theorem Matches.congr (h : Matches m a) (hMain : m'.main = m.main) (hNode : m'.node = m.node)
    (hReplies : m'.replies = m.replies) : Matches m' a := by
  unfold Matches at h ⊢
  rw [hMain, hNode, hReplies]
  exact h

section Main

theorem RequestVotePc.step_id (ourId : NodeId) (responseTx : Sender) (node : RaftNode S)
    (request : RequestVoteRequest) (pc : RequestVotePc) :
    (pc.step ourId request responseTx node).2.id = node.id := by
  obtain ⟨state, _, hNode⟩ := RequestVotePc.step_node ourId responseTx node request pc
  rw [hNode]
  cases pc <;> rfl

theorem AppendEntriesPc.step_id (ourId : NodeId) (responseTx : Sender) (node : RaftNode S)
    (request : AppendEntriesRequest R) (pc : AppendEntriesPc) :
    (pc.step ourId request responseTx node).2.id = node.id := by
  obtain ⟨state, _, hNode⟩ := AppendEntriesPc.step_node ourId responseTx node request pc
  rw [hNode]
  cases pc <;> rfl

theorem requestVote_matches {role : RoleLoop} {request : RequestVoteRequest} {responseTx : Sender}
    {pc : RequestVotePc} (hMain : m.main = .requestVote role request responseTx pc)
    (hStep : mainStep m = some m') (h : Matches m a) : Matches m' a := by
  unfold Matches at h
  simp only [hMain] at h
  obtain ⟨result, hEnds, hReplies⟩ := h
  simp only [mainStep, hMain] at hStep
  split at hStep <;> rename_i hPc <;> cases hStep
  · rename_i pc' node
    have hId : node.id = m.node.id := by
      rw [← RequestVotePc.step_id m.node.id responseTx m.node request pc, hPc]
    refine ⟨result, ?_, hReplies⟩
    rw [hId]
    exact (ends_next_iff hPc).mp hEnds
  · obtain ⟨rfl, hNode⟩ := (ends_done_iff hPc).mp hEnds
    exact (matches_iff_of_not_busy rfl).mpr (AtomicNode.ext hNode hReplies)
  · obtain ⟨rfl, hNode⟩ := (ends_failed_iff hPc).mp hEnds
    refine (matches_iff_of_not_busy rfl).mpr (AtomicNode.ext hNode ?_)
    exact hReplies.trans (List.append_nil _)

theorem appendEntries_matches {role : RoleLoop} {request : AppendEntriesRequest R}
    {responseTx : Sender} {pc : AppendEntriesPc}
    (hMain : m.main = .appendEntries role request responseTx pc)
    (hStep : mainStep m = some m') (h : Matches m a) : Matches m' a := by
  unfold Matches at h
  simp only [hMain] at h
  obtain ⟨result, hEnds, hReplies⟩ := h
  simp only [mainStep, hMain] at hStep
  split at hStep <;> rename_i hPc <;> cases hStep
  · rename_i pc' node
    have hId : node.id = m.node.id := by
      rw [← AppendEntriesPc.step_id m.node.id responseTx m.node request pc, hPc]
    refine ⟨result, ?_, hReplies⟩
    rw [hId]
    exact (ends_next_iff hPc).mp hEnds
  · obtain ⟨rfl, hNode⟩ := (ends_done_iff hPc).mp hEnds
    exact (matches_iff_of_not_busy rfl).mpr (AtomicNode.ext hNode hReplies)
  · obtain ⟨rfl, hNode⟩ := (ends_failed_iff hPc).mp hEnds
    refine (matches_iff_of_not_busy rfl).mpr (AtomicNode.ext hNode ?_)
    exact hReplies.trans (List.append_nil _)

/-- Between the handlers the main loop does one thing at a time. -/
theorem mainStep_matches (hStep : mainStep m = some m') (h : Matches m a) :
    Matches m' (m.main.emits.foldl AtomicNode.apply a) := by
  cases hMain : m.main with
  | requestVote role request responseTx pc => exact requestVote_matches hMain hStep h
  | appendEntries role request responseTx pc => exact appendEntries_matches hMain hStep h
  | voteForSelf =>
    unfold Matches at h
    simp only [hMain] at h
    obtain ⟨hNode, hReplies⟩ := h
    simp only [mainStep, hMain] at hStep
    cases hStep
    refine AtomicNode.ext ?_ ((List.append_nil _).trans hReplies)
    rw [hNode]
    rfl
  | start =>
    obtain rfl := (matches_iff_of_not_busy (by rw [hMain]; rfl)).mp h
    simp only [mainStep, hMain] at hStep
    split at hStep <;> cases hStep <;> exact rfl
  | checkRole role =>
    obtain rfl := (matches_iff_of_not_busy (by rw [hMain]; rfl)).mp h
    simp only [mainStep, hMain] at hStep
    split_ifs at hStep <;> cases hStep
    · exact rfl
    · cases role <;> exact rfl
  | readLeaderId role responseTx =>
    obtain rfl := (matches_iff_of_not_busy (by rw [hMain]; rfl)).mp h
    simp only [mainStep, hMain] at hStep
    split_ifs at hStep with hClosed <;> cases hStep
    · exact if_pos hClosed
    · exact if_neg hClosed
  | appendEntry i entry =>
    obtain rfl := (matches_iff_of_not_busy (by rw [hMain]; rfl)).mp h
    simp only [mainStep, hMain] at hStep
    split at hStep <;> rename_i state hAppend <;> cases hStep
    · obtain rfl : (State.appendEntries m.node.state [entry]).2 = state := by rw [hAppend]
      exact rfl
    · obtain rfl : (State.appendEntries m.node.state [entry]).2 = state := by rw [hAppend]
      exact rfl
  | select _ | returned | failed =>
    simp only [mainStep, hMain] at hStep
    cases hStep
  | incrementTerm =>
    obtain rfl := (matches_iff_of_not_busy (by rw [hMain]; rfl)).mp h
    simp only [mainStep, hMain] at hStep
    cases hStep
    exact ⟨rfl, rfl⟩
  | readCommit | readMembership _ | becomeShutdown _ | becomeCandidate | becomeLeader _ _
  | loadEntryTerm _ _ =>
    obtain rfl := (matches_iff_of_not_busy (by rw [hMain]; rfl)).mp h
    simp only [mainStep, hMain] at hStep
    cases hStep
    exact rfl

/-- A request that is taken is handled at once by the atomic node. -/
theorem select_matches {role : RoleLoop} {event : Event R} (hMain : m.main = .select role)
    (hSelect : SelectStepped m role event m') (h : Matches m a) :
    Matches m' ((m.emits (.event event)).foldl AtomicNode.apply a) := by
  obtain rfl := (matches_iff_of_not_busy (by rw [hMain]; rfl)).mp h
  cases hSelect with
  | requestVote request responseTx =>
    exact ⟨_, ⟨10, exec_requestVote request responseTx m.node⟩, rfl⟩
  | appendEntries request responseTx =>
    exact ⟨_, ⟨12, exec_appendEntries request responseTx m.node⟩, rfl⟩
  | _ => exact rfl

/-- A vote for oneself counts also where the spawning of the first round panics. -/
theorem overrun_matches {node : RaftNode S} {voteSessions : List VoteSession}
    (hOverrun : m.Overruns node voteSessions) (h : Matches m a) :
    Matches { m with node, voteSessions, main := .failed }
      (m.main.emits.foldl AtomicNode.apply a) := by
  cases hOverrun with
  | select hMain | readMembership hMain =>
    obtain rfl := (matches_iff_of_not_busy (by rw [hMain]; rfl)).mp h
    rw [hMain]
    exact rfl
  | voteForSelf hMain =>
    unfold Matches at h
    simp only [hMain] at h
    obtain ⟨hNode, hReplies⟩ := h
    rw [hMain]
    refine AtomicNode.ext ?_ ((List.append_nil _).trans hReplies)
    rw [hNode]
    rfl

end Main

section Tasks

theorem StepDownStepped.event {wrap : StepDownPc → Task R} {pc : StepDownPc} {task' : Task R}
    (h : StepDownStepped wrap m pc task' m') (replies : List (Reply R)) :
    AtomicNode.apply ⟨m.node, replies⟩ pc.event = ⟨m'.node, replies⟩ := by
  cases h <;> rfl

theorem VoteStepped.event {k : Nat} {task task' : Task R} (h : VoteStepped m k task task' m')
    (replies : List (Reply R)) :
    task.event.toList.foldl AtomicNode.apply ⟨m.node, replies⟩ = ⟨m'.node, replies⟩ := by
  cases h with
  | stepDown h => exact h.event replies
  | sentNoPeers h | sentGranted h =>
    obtain ⟨voteSessions, rfl⟩ := h.frame
    rfl
  | _ => rfl

theorem ReplicationStepped.event {k : Nat} {task task' : Task R}
    (h : ReplicationStepped m k task task' m') (replies : List (Reply R)) :
    task.event.toList.foldl AtomicNode.apply ⟨m.node, replies⟩ = ⟨m'.node, replies⟩ := by
  cases h with
  | heartbeatStepDown h | standbyStepDown h => exact h.event replies
  | _ => rfl

theorem task_matches {k : Nat} {task : Task R} (hTask : m.tasks[k]? = some task)
    (hFrame : TaskFrame task m m')
    (hEvent : ∀ replies, task.event.toList.foldl AtomicNode.apply ⟨m.node, replies⟩ =
      ⟨m'.node, replies⟩)
    (hSafe : Uninterrupted m (.task k)) (h : Matches m a) :
    Matches m' ((m.emits (.task k)).foldl AtomicNode.apply a) := by
  have hEmits : m.emits (.task k) = task.event.toList := by
    rw [Machine.emits, hTask, Option.bind_some]
  rw [hEmits]
  cases hBusy : m.main.busy with
  | true =>
    have hNone := hSafe hBusy task hTask
    rw [hNone] at hEvent ⊢
    have hNode : m.node = m'.node := congrArg AtomicNode.node (hEvent [])
    exact h.congr hFrame.main hNode.symm hFrame.replies
  | false =>
    obtain rfl := (matches_iff_of_not_busy hBusy).mp h
    rw [hEvent, matches_iff_of_not_busy (by rw [hFrame.main, hBusy]), hFrame.replies]

end Tasks

theorem step_matches (hStep : m.step action = some m') (hSafe : Uninterrupted m action)
    (h : Matches m a) : Matches m' ((m.emits action).foldl AtomicNode.apply a) := by
  cases step_cases hStep with
  | main _ => exact mainStep_matches hStep h
  | select hMain hSelect => exact select_matches hMain hSelect h
  | overrun hOverrun => exact overrun_matches hOverrun h
  | vote hTask hVote =>
    exact task_matches hTask (hVote.frame.setTask _ _) (fun replies => hVote.event replies) hSafe h
  | replicate hTask hReplicate =>
    exact task_matches hTask (hReplicate.frame.setTask _ _)
      (fun replies => hReplicate.event replies) hSafe h
  | recv _ _ hRecv =>
    obtain ⟨voteSessions, rfl⟩ := hRecv.frame
    exact h.congr rfl rfl rfl
  | answerVote _ => exact h.congr rfl rfl rfl
  | environment _ hLocal =>
    cases hLocal <;> exact h.congr rfl rfl rfl

/-- As long as nothing interrupts it, the machine does what the atomic node does. -/
theorem machine_simulates : Simulation.Simulates
    (fun (m : Machine S R) action => if Uninterrupted m action then m.step action else none)
    Machine.emits (fun (a : AtomicNode S R) event => some (a.apply event)) Matches := by
  intro m action m' a hStep h
  obtain ⟨hSafe, hStep⟩ := Option.ite_none_right_eq_some.mp hStep
  exact ⟨_, List.foldlM_pure, step_matches hStep hSafe h⟩

/-- What happens to the node in a run, in order. -/
def Machine.history (m : Machine S R) (actions : List (Action R)) : List (NodeEvent R) :=
  Simulation.trace (fun m action => if Uninterrupted m action then m.step action else none)
    Machine.emits m actions

/-- Whenever the main loop is not busy, the node and its replies are what a node makes of the
same history that handles every request at once. -/
theorem handlers_atomic (node : RaftNode S) (actions : List (Action R)) (m : Machine S R)
    (hRun : ({ node } : Machine S R).run Uninterrupted actions = some m)
    (hRest : m.main.busy = false) :
    (({ node } : Machine S R).history actions).foldl AtomicNode.apply ⟨node, []⟩ =
      ⟨m.node, m.replies⟩ := by
  rw [Machine.run_eq_foldlM] at hRun
  have hStart : Matches ({ node } : Machine S R) ⟨node, []⟩ := rfl
  obtain ⟨a, hHistory, hMatches⟩ := machine_simulates.run hRun hStart
  obtain rfl := (matches_iff_of_not_busy hRest).mp hMatches
  exact Option.some.inj (List.foldlM_pure.symm.trans hHistory)

/-- A follower takes a request for its vote and answers it. -/
def votingActions : List (Action Unit) :=
  [[.main, .main, .event (.requestVote ⟨1, 2, 0, 0⟩ ⟨2, 1, false⟩)],
    List.replicate 10 .main].flatten

theorem handlers_atomic_follower : ∃ m : Machine (Stored Unit) Unit,
    m.replies.length = 1 ∧
      (({ node := emptyNode ⟨[1, 2], nodup_pair⟩ } : Machine (Stored Unit) Unit).history
        votingActions).foldl AtomicNode.apply ⟨emptyNode ⟨[1, 2], nodup_pair⟩, []⟩ =
          ⟨m.node, m.replies⟩ := by
  obtain ⟨m, hRun, hm⟩ := Option.map_eq_some_iff.mp
    (show (Machine.run Uninterrupted { node := emptyNode ⟨[1, 2], nodup_pair⟩ }
      votingActions).map (fun m => decide (m.replies.length = 1 ∧ m.main.busy = false)) =
        some true by decide)
  obtain ⟨hReplies, hRest⟩ := of_decide_eq_true hm
  exact ⟨m, hReplies, handlers_atomic _ _ m hRun hRest⟩

end Zeroraft
