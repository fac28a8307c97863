import Zeroraft.Runtime.Steps

/-!
# Who writes the log and the commit index

Only the main loop writes the log: it removes and appends entries in the last part of
`respond_to_append_entries`, and appends the entry of a client in the leader loop.
A step that fails leaves the log as it was. The commit index is written at the end of
the handler and by the standby updates.
-/

namespace Zeroraft

open Routine

variable {S R : Type} [State S R]

def RaftNode.log (node : RaftNode S) : List (LogEntry R) := (stored node.state).log

def Machine.log (m : Machine S R) : List (LogEntry R) := m.node.log

section Operations

variable {P β : Type} {f : S → Result Unit × S} {next : Unit → Outcome P ZeroraftError β}
  {node : RaftNode S}

omit [State S R] in
theorem atomically_modifyState_ok {pc' : P}
    (h : (atomically (NodeM.modifyState f) next node).1 = .next pc') :
    (f node.state).1 = .ok () := by
  cases hOutcome : (f node.state).1 with
  | ok _ => rfl
  | error e =>
    simp only [atomically, NodeM.modifyState, NodeM.run, hOutcome] at h
    cases h

omit [State S R] in
theorem atomically_modifyState_error {e : ZeroraftError} (hNext : ∀ e, next () ≠ .failed e)
    (h : (atomically (NodeM.modifyState f) next node).1 = .failed e) :
    (f node.state).1 = .error e := by
  cases hOutcome : (f node.state).1 with
  | ok _ =>
    simp only [atomically, NodeM.modifyState, NodeM.run, hOutcome] at h
    exact absurd h (hNext e)
  | error e' =>
    simp only [atomically, NodeM.modifyState, NodeM.run, hOutcome] at h
    cases h
    rfl

end Operations

variable [FallibleState S R] {m m' : Machine S R}

section Handlers

variable {ourId : NodeId} {responseTx : Sender} {node : RaftNode S}

/-- `respond_to_request_vote` stores the term and the vote and nothing else. -/
theorem RequestVotePc.step_keeps {α : Type} (f : Stored R → α)
    (hVote : ∀ (s : Stored R) vote, f { s with votedFor := vote } = f s)
    (hTerm : ∀ (s : Stored R) term, f { s with currentTerm := term } = f s)
    (request : RequestVoteRequest) (pc : RequestVotePc) :
    f (stored (pc.step ourId request responseTx node).2.state) = f (stored node.state) := by
  cases pc with
  | storeCurrentTerm _ =>
    rw [RequestVotePc.step, atomically_modifyState_snd]
    exact (FallibleState.storeCurrentTerm _ _).keeps f (hTerm _ _)
  | storeVotedFor _ =>
    rw [RequestVotePc.step, atomically_modifyState_snd]
    exact (FallibleState.storeVotedFor _ _).keeps f (hVote _ _)
  | loadTerm | readVotedFor _ | readLastTerm _ _ =>
    simp only [RequestVotePc.step]
    split_ifs <;> rfl
  | send _ => rw [RequestVotePc.step, atomically_send_snd]
  | setCurrentTerm _ | setVotedFor _ | becomeFollower _ | readLastIndex _ => rfl

theorem RequestVotePc.step_log (request : RequestVoteRequest) (pc : RequestVotePc) :
    (pc.step ourId request responseTx node).2.log = node.log :=
  RequestVotePc.step_keeps Stored.log (fun _ _ => rfl) (fun _ _ => rfl) request pc

/-- What `respond_to_append_entries` makes of the log at a program point. -/
def AppendEntriesPc.logAfter (request : AppendEntriesRequest R) (log : List (LogEntry R)) :
    AppendEntriesPc → List (LogEntry R)
  | .removeEntries _ => log.take request.prevLogIndex
  | .appendEntries _ => log ++ request.entries
  | _ => log

theorem AppendEntriesPc.step_log {request : AppendEntriesRequest R} {pc pc' : AppendEntriesPc}
    (h : (pc.step ourId request responseTx node).1 = .next pc') :
    (pc.step ourId request responseTx node).2.log = pc.logAfter request node.log := by
  cases pc with
  | storeCurrentTerm _ _ =>
    rw [AppendEntriesPc.step, atomically_modifyState_snd]
    exact (FallibleState.storeCurrentTerm _ _).keeps Stored.log rfl
  | removeEntries _ =>
    have hOk : (State.removeEntriesAfter node.state request.prevLogIndex).1 = .ok () :=
      atomically_modifyState_ok h
    rw [AppendEntriesPc.step, atomically_modifyState_snd]
    exact congrArg Stored.log ((FallibleState.removeEntriesAfter _ _).ok hOk)
  | appendEntries _ =>
    have hOk : (State.appendEntries node.state request.entries).1 = .ok () :=
      atomically_modifyState_ok h
    rw [AppendEntriesPc.step, atomically_modifyState_snd]
    exact congrArg Stored.log ((FallibleState.appendEntries _ _).ok hOk)
  | setCommit _ _ =>
    rw [AppendEntriesPc.step, atomically_modifyState_snd]
    exact (FallibleState.setLastCommitIndex _ _).keeps Stored.log rfl
  | readLastIndex _ | readEntry _ =>
    simp only [AppendEntriesPc.step]
    split_ifs <;> rfl
  | send _ =>
    rw [AppendEntriesPc.step, atomically_send_snd]
    rfl
  | loadTerm | setCurrentTerm _ _ | setLeaderId _ _ | becomeFollower _ _ | readNewLastIndex _ => rfl

theorem AppendEntriesPc.step_log_failed {request : AppendEntriesRequest R} {pc : AppendEntriesPc}
    {e : ZeroraftError} (h : (pc.step ourId request responseTx node).1 = .failed e) :
    (pc.step ourId request responseTx node).2.log = node.log := by
  cases pc with
  | storeCurrentTerm _ _ =>
    rw [AppendEntriesPc.step, atomically_modifyState_snd]
    exact (FallibleState.storeCurrentTerm _ _).keeps Stored.log rfl
  | removeEntries _ =>
    have hError : (State.removeEntriesAfter node.state request.prevLogIndex).1 = .error e :=
      atomically_modifyState_error (fun _ hNext => by cases hNext) h
    rw [AppendEntriesPc.step, atomically_modifyState_snd]
    exact congrArg Stored.log ((FallibleState.removeEntriesAfter _ _).error hError)
  | appendEntries _ =>
    have hError : (State.appendEntries node.state request.entries).1 = .error e :=
      atomically_modifyState_error (fun _ hNext => by cases hNext) h
    rw [AppendEntriesPc.step, atomically_modifyState_snd]
    exact congrArg Stored.log ((FallibleState.appendEntries _ _).error hError)
  | setCommit _ _ =>
    rw [AppendEntriesPc.step, atomically_modifyState_snd]
    exact (FallibleState.setLastCommitIndex _ _).keeps Stored.log rfl
  | readLastIndex _ | readEntry _ =>
    simp only [AppendEntriesPc.step]
    split_ifs <;> rfl
  | send _ => rw [AppendEntriesPc.step, atomically_send_snd]
  | loadTerm | setCurrentTerm _ _ | setLeaderId _ _ | becomeFollower _ _ | readNewLastIndex _ => rfl

end Handlers

inductive LogChange (m : Machine S R) (action : Action R) (m' : Machine S R) : Prop
  | kept (h : m'.log = m.log)
  | removed {role : RoleLoop} {request : AppendEntriesRequest R} {responseTx : Sender}
      {ourTerm : Nat} (hAction : action = .main)
      (hMain : m.main = .appendEntries role request responseTx (.removeEntries ourTerm))
      (hMain' : m'.main = .appendEntries role request responseTx (.appendEntries ourTerm))
      (h : m'.log = m.log.take request.prevLogIndex)
  | replicated {role : RoleLoop} {request : AppendEntriesRequest R} {responseTx : Sender}
      {ourTerm : Nat} (hAction : action = .main)
      (hMain : m.main = .appendEntries role request responseTx (.appendEntries ourTerm))
      (hMain' : m'.main = .appendEntries role request responseTx (.readNewLastIndex ourTerm))
      (h : m'.log = m.log ++ request.entries)
  | created {i : Nat} {entry : LogEntry R} (hAction : action = .main)
      (hMain : m.main = .appendEntry i entry) (hMain' : m'.main = .checkRole (.leader i))
      (h : m'.log = m.log ++ [entry])

theorem MainFailure.log {state : S} (h : MainFailure m state) :
    RaftNode.log { m.node with state } = m.node.log := by
  cases h with
  | nonVoter _ _ | redirect _ _ => rfl
  | @requestVote role request responseTx pc e _ _ hFailed =>
    have hLog : (pc.step m.node.id request responseTx m.node).2.log = m.node.log :=
      RequestVotePc.step_log request pc
    rwa [hFailed] at hLog
  | appendEntries _ hFailed =>
    have hLog := AppendEntriesPc.step_log_failed (congrArg Prod.fst hFailed)
    rwa [hFailed] at hLog
  | appendEntry _ hFailed =>
    have hEffect := (FallibleState.appendEntries _ _).error (congrArg Prod.fst hFailed)
    rw [hFailed] at hEffect
    exact congrArg Stored.log hEffect

theorem MainStepped.logChange (h : MainStepped m m') : LogChange m (.main : Action R) m' := by
  cases h with
  | failed _ hCause => exact LogChange.kept hCause.log
  | requestVote _ _ _ => exact LogChange.kept (RequestVotePc.step_log _ _)
  | appendEntries hMain hEdge hNext =>
    have hLog := AppendEntriesPc.step_log hNext
    cases hEdge with
    | removed => exact LogChange.removed rfl hMain rfl hLog
    | appended => exact LogChange.replicated rfl hMain rfl hLog
    | _ => exact LogChange.kept hLog
  | appendEntry hMain hOk =>
    exact LogChange.created rfl hMain rfl
      (congrArg Stored.log ((FallibleState.appendEntries _ _).ok hOk))
  | leave _ _ => exact LogChange.kept (by rw [Machine.log, RoleLoop.leave_node, Machine.log])
  | _ => exact LogChange.kept rfl

theorem StepDownStepped.log {wrap : StepDownPc → Task R} {pc : StepDownPc} {task' : Task R}
    (h : StepDownStepped wrap m pc task' m') : m'.log = m.log := by
  cases h with
  | stored | failed => exact (FallibleState.storeCurrentTerm _ _).keeps Stored.log rfl
  | setTerm | follower => rfl

theorem VoteStepped.log {k : Nat} {task task' : Task R} (h : VoteStepped m k task task' m') :
    m'.log = m.log := by
  cases h with
  | stepDown h => exact h.log
  | sentNoPeers h | sentGranted h =>
    obtain ⟨voteSessions, rfl⟩ := h.frame
    rfl
  | _ => rfl

theorem ReplicationStepped.log {k : Nat} {task task' : Task R}
    (h : ReplicationStepped m k task task' m') : m'.log = m.log := by
  cases h with
  | heartbeatStepDown h | standbyStepDown h => exact h.log
  | committed _ | commitFailed _ => exact (FallibleState.setLastCommitIndex _ _).keeps Stored.log rfl
  | _ => rfl

theorem step_logChange {action : Action R} (hStep : m.step action = some m') :
    LogChange m action m' := by
  cases step_cases hStep with
  | main h => exact h.logChange
  | select _ h => exact LogChange.kept (by rw [Machine.log, h.node, Machine.log])
  | vote _ h | replicate _ h => exact LogChange.kept h.log
  | recv _ _ h =>
    obtain ⟨voteSessions, rfl⟩ := h.frame
    exact LogChange.kept rfl
  | overrun hOverrun =>
    obtain ⟨votedFor, rfl⟩ := hOverrun.frame
    exact LogChange.kept rfl
  | answerVote _ | environment _ _ => exact LogChange.kept rfl

section Commit

def Machine.commitIndex (m : Machine S R) : Nat := State.getLastCommitIndex m.node.state

def Main.setsCommit : Main R → Bool
  | .appendEntries _ _ _ (.setCommit _ _) => true
  | _ => false

theorem AppendEntriesPc.step_commit {ourId : NodeId} {responseTx : Sender} {node : RaftNode S}
    {request : AppendEntriesRequest R} {pc : AppendEntriesPc}
    (h : ∀ term index, pc ≠ .setCommit term index) :
    State.getLastCommitIndex (pc.step ourId request responseTx node).2.state =
      State.getLastCommitIndex node.state := by
  cases pc with
  | storeCurrentTerm _ _ =>
    rw [AppendEntriesPc.step, atomically_modifyState_snd]
    exact (FallibleState.storeCurrentTerm _ _).keeps Stored.commit rfl
  | removeEntries _ =>
    rw [AppendEntriesPc.step, atomically_modifyState_snd]
    exact (FallibleState.removeEntriesAfter _ _).keeps Stored.commit rfl
  | appendEntries _ =>
    rw [AppendEntriesPc.step, atomically_modifyState_snd]
    exact (FallibleState.appendEntries _ _).keeps Stored.commit rfl
  | setCommit term index => exact absurd rfl (h term index)
  | readLastIndex _ | readEntry _ =>
    simp only [AppendEntriesPc.step]
    split_ifs <;> rfl
  | send _ => rw [AppendEntriesPc.step, atomically_send_snd]
  | loadTerm | setCurrentTerm _ _ | setLeaderId _ _ | becomeFollower _ _ | readNewLastIndex _ => rfl

inductive CommitChange (m : Machine S R) (m' : Machine S R) : Prop
  | kept (h : m'.commitIndex = m.commitIndex)
  | handler (hMain : m.main.setsCommit = true)
  | standby {k i index : Nat} (hTask : m.tasks[k]? = some (.standby i (.setCommit index)))

theorem AppendEntriesPc.commitChange {role : RoleLoop} {request : AppendEntriesRequest R}
    {responseTx : Sender} {pc : AppendEntriesPc}
    (hMain : m.main = .appendEntries role request responseTx pc)
    (hNode : m'.node = (pc.step m.node.id request responseTx m.node).2) : CommitChange m m' := by
  by_cases hSets : m.main.setsCommit = true
  · exact CommitChange.handler hSets
  · refine CommitChange.kept ?_
    rw [Machine.commitIndex, hNode]
    refine AppendEntriesPc.step_commit ?_
    rintro term index rfl
    exact hSets (by rw [hMain]; rfl)

theorem MainFailure.commitChange {state : S} (h : MainFailure m state)
    (hNode : m'.node = { m.node with state }) : CommitChange m m' := by
  cases h with
  | nonVoter _ _ | redirect _ _ => exact CommitChange.kept (by rw [Machine.commitIndex, hNode]; rfl)
  | @requestVote role request responseTx pc e _ _ hFailed =>
    have hKept : State.getLastCommitIndex (pc.step m.node.id request responseTx m.node).2.state =
        State.getLastCommitIndex m.node.state :=
      RequestVotePc.step_keeps Stored.commit (fun _ _ => rfl) (fun _ _ => rfl) request pc
    rw [hFailed] at hKept
    exact CommitChange.kept (by rw [Machine.commitIndex, hNode]; exact hKept)
  | appendEntries hMain hFailed =>
    exact AppendEntriesPc.commitChange hMain (hNode.trans (by rw [hFailed]))
  | @appendEntry i entry e _ _ hFailed =>
    have hEffect := FallibleState.appendEntries m.node.state [entry]
    rw [hFailed] at hEffect
    exact CommitChange.kept (by rw [Machine.commitIndex, hNode]; exact hEffect.keeps Stored.commit rfl)

theorem MainStepped.commitChange (h : MainStepped m m') : CommitChange m m' := by
  cases h with
  | failed _ hCause => exact hCause.commitChange rfl
  | requestVote _ _ _ =>
    exact CommitChange.kept
      (RequestVotePc.step_keeps Stored.commit (fun _ _ => rfl) (fun _ _ => rfl) _ _)
  | appendEntries hMain _ _ => exact AppendEntriesPc.commitChange hMain rfl
  | appendEntry _ _ =>
    exact CommitChange.kept ((FallibleState.appendEntries _ _).keeps Stored.commit rfl)
  | leave _ _ =>
    exact CommitChange.kept (by rw [Machine.commitIndex, RoleLoop.leave_node, Machine.commitIndex])
  | _ => exact CommitChange.kept rfl

theorem StepDownStepped.commit {wrap : StepDownPc → Task R} {pc : StepDownPc} {task' : Task R}
    (h : StepDownStepped wrap m pc task' m') : m'.commitIndex = m.commitIndex := by
  cases h with
  | stored | failed => exact (FallibleState.storeCurrentTerm _ _).keeps Stored.commit rfl
  | setTerm | follower => rfl

theorem step_commitChange {action : Action R} (hStep : m.step action = some m') :
    CommitChange m m' := by
  cases step_cases hStep with
  | main h => exact h.commitChange
  | select _ h => exact CommitChange.kept (by rw [Machine.commitIndex, h.node, Machine.commitIndex])
  | vote _ h =>
    cases h with
    | stepDown h => exact CommitChange.kept h.commit
    | sentNoPeers h | sentGranted h =>
      obtain ⟨voteSessions, rfl⟩ := h.frame
      exact CommitChange.kept rfl
    | _ => exact CommitChange.kept rfl
  | replicate hTask h =>
    cases h with
    | heartbeatStepDown h | standbyStepDown h => exact CommitChange.kept h.commit
    | committed _ | commitFailed _ => exact CommitChange.standby hTask
    | _ => exact CommitChange.kept rfl
  | recv _ _ h =>
    obtain ⟨voteSessions, rfl⟩ := h.frame
    exact CommitChange.kept rfl
  | overrun hOverrun =>
    obtain ⟨votedFor, rfl⟩ := hOverrun.frame
    exact CommitChange.kept rfl
  | answerVote _ | environment _ _ => exact CommitChange.kept rfl

end Commit

end Zeroraft
