import Zeroraft.Library.Routine
import Zeroraft.Model.Common

/-!
# The request handlers, one access at a time

Each handler is `async` and may be interleaved with other tasks of the node
between any two accesses to it. The program points name the next access; the
local variables still needed are their arguments.
-/

namespace Zeroraft

open Routine

variable {S R P α β : Type}

/-- An operation of the node at which an error leaves the routine. -/
def atomically (operation : NodeM S α) (next : α → Outcome P ZeroraftError β) (node : RaftNode S) :
    Outcome P ZeroraftError β × RaftNode S :=
  match operation.run node with
  | (.ok a, node') => (next a, node')
  | (.error e, node') => (.failed e, node')

inductive RequestVotePc where
  | loadTerm
  | readVotedFor (ourTerm : Nat)
  | storeCurrentTerm (ourTerm : Nat)
  | storeVotedFor (ourTerm : Nat)
  | setCurrentTerm (ourTerm : Nat)
  | setVotedFor (ourTerm : Nat)
  | becomeFollower (ourTerm : Nat)
  | readLastIndex (ourTerm : Nat)
  | readLastTerm (ourTerm ourLastLogIndex : Nat)
  | send (response : RequestVoteResponse)
  deriving DecidableEq, Repr

inductive AppendEntriesPc where
  | loadTerm
  | readLastIndex (ourTerm : Nat)
  | storeCurrentTerm (ourTerm ourLastLogIndex : Nat)
  | setCurrentTerm (ourTerm ourLastLogIndex : Nat)
  | setLeaderId (ourTerm ourLastLogIndex : Nat)
  | becomeFollower (ourTerm ourLastLogIndex : Nat)
  | readEntry (ourTerm : Nat)
  | removeEntries (ourTerm : Nat)
  | appendEntries (ourTerm : Nat)
  | readNewLastIndex (ourTerm : Nat)
  | setCommit (ourTerm ourLastLogIndex : Nat)
  | send (response : AppendEntriesResponse)
  deriving DecidableEq, Repr

variable [State S R]

section Atomically

@[simp] theorem atomically_modify (f : RaftNode S → RaftNode S)
    (next : Unit → Outcome P ZeroraftError β) (node : RaftNode S) :
    atomically (NodeM.modify f) next node = (next (), f node) := rfl

theorem atomically_modifyState {f : S → Result Unit × S} {node : RaftNode S}
    (h : (f node.state).1 = .ok ()) (next : Unit → Outcome P ZeroraftError β) :
    atomically (NodeM.modifyState f) next node =
      (next (), { node with state := (f node.state).2 }) := by
  unfold atomically NodeM.modifyState NodeM.run
  simp only [h]

variable [LawfulState S R] (next : Unit → Outcome P ZeroraftError β) (node : RaftNode S)

@[simp] theorem atomically_storeCurrentTerm (term : Nat) :
    atomically (NodeM.modifyState (State.storeCurrentTerm · term)) next node =
      (next (), { node with state := (State.storeCurrentTerm node.state term).2 }) :=
  atomically_modifyState (LawfulState.storeCurrentTerm_ok node.state term) next

@[simp] theorem atomically_storeVotedFor (candidateId : NodeId) :
    atomically (NodeM.modifyState (State.storeVotedFor · candidateId)) next node =
      (next (), { node with state := (State.storeVotedFor node.state candidateId).2 }) :=
  atomically_modifyState (LawfulState.storeVotedFor_ok node.state candidateId) next

@[simp] theorem atomically_removeEntriesAfter (index : Nat) :
    atomically (NodeM.modifyState (State.removeEntriesAfter · index)) next node =
      (next (), { node with state := (State.removeEntriesAfter node.state index).2 }) :=
  atomically_modifyState (LawfulState.removeEntriesAfter_ok node.state index) next

@[simp] theorem atomically_appendEntries (entries : List (LogEntry R)) :
    atomically (NodeM.modifyState (State.appendEntries · entries)) next node =
      (next (), { node with state := (State.appendEntries node.state entries).2 }) :=
  atomically_modifyState (LawfulState.appendEntries_ok node.state entries) next

@[simp] theorem atomically_setLastCommitIndex (index : Nat) :
    atomically (NodeM.modifyState (State.setLastCommitIndex · index)) next node =
      (next (), { node with state := (State.setLastCommitIndex node.state index).2 }) :=
  atomically_modifyState (LawfulState.setLastCommitIndex_ok node.state index) next

omit [LawfulState S R] in
theorem atomically_send {responseTx : Sender} {response : β} {node : RaftNode S} :
    atomically (P := P) (responseTx.send response) .done node =
      (if responseTx.closed then .failed (.tokioSendError "channel closed") else .done response,
        node) := by
  unfold atomically NodeM.run Sender.send
  cases responseTx.closed <;> rfl

end Atomically

def RequestVotePc.step (ourId : NodeId) (request : RequestVoteRequest) (responseTx : Sender)
    (pc : RequestVotePc) (node : RaftNode S) :
    Outcome RequestVotePc ZeroraftError RequestVoteResponse × RaftNode S :=
  match pc with
  | .loadTerm =>
    let ourTerm := node.currentTerm
    if ourTerm = request.term then (.next (.readVotedFor ourTerm), node)
    else if ourTerm > request.term then
      (.next (.send ⟨ourTerm, false, ourId, .staleTerm⟩), node)
    else (.next (.storeCurrentTerm ourTerm), node)
  | .readVotedFor ourTerm =>
    if node.votedFor.isSome then (.next (.send ⟨ourTerm, false, ourId, .alreadyVoted⟩), node)
    else (.next (.storeCurrentTerm ourTerm), node)
  | .storeCurrentTerm ourTerm =>
    atomically (NodeM.modifyState (State.storeCurrentTerm · request.term))
      (fun _ => .next (.storeVotedFor ourTerm)) node
  | .storeVotedFor ourTerm =>
    atomically (NodeM.modifyState (State.storeVotedFor · request.candidateId))
      (fun _ => .next (.setCurrentTerm ourTerm)) node
  | .setCurrentTerm ourTerm =>
    atomically (Zeroraft.setCurrentTerm request.term) (fun _ => .next (.setVotedFor ourTerm)) node
  | .setVotedFor ourTerm =>
    atomically (Zeroraft.setVotedFor request.candidateId)
      (fun _ => .next (.becomeFollower ourTerm)) node
  | .becomeFollower ourTerm =>
    atomically changeToFollowerState (fun _ => .next (.readLastIndex ourTerm)) node
  | .readLastIndex ourTerm => (.next (.readLastTerm ourTerm (State.getLastIndex node.state)), node)
  | .readLastTerm ourTerm ourLastLogIndex =>
    if IncompleteLog (State.getLastTerm node.state) ourLastLogIndex request then
      (.next (.send ⟨ourTerm, false, ourId, .incompleteLog⟩), node)
    else (.next (.send ⟨ourTerm, true, ourId, .ok⟩), node)
  | .send response => atomically (responseTx.send response) .done node

def AppendEntriesPc.step (ourId : NodeId) (request : AppendEntriesRequest R) (responseTx : Sender)
    (pc : AppendEntriesPc) (node : RaftNode S) :
    Outcome AppendEntriesPc ZeroraftError AppendEntriesResponse × RaftNode S :=
  match pc with
  | .loadTerm => (.next (.readLastIndex node.currentTerm), node)
  | .readLastIndex ourTerm =>
    if ourTerm > request.term then
      (.next (.send ⟨ourTerm, false, ourId, 0, .staleTerm⟩), node)
    else (.next (.storeCurrentTerm ourTerm (State.getLastIndex node.state)), node)
  | .storeCurrentTerm ourTerm ourLastLogIndex =>
    atomically (NodeM.modifyState (State.storeCurrentTerm · request.term))
      (fun _ => .next (.setCurrentTerm ourTerm ourLastLogIndex)) node
  | .setCurrentTerm ourTerm ourLastLogIndex =>
    atomically (Zeroraft.setCurrentTerm request.term)
      (fun _ => .next (.setLeaderId ourTerm ourLastLogIndex)) node
  | .setLeaderId ourTerm ourLastLogIndex =>
    atomically (updateLeaderId request.leaderId)
      (fun _ => .next (.becomeFollower ourTerm ourLastLogIndex)) node
  | .becomeFollower ourTerm ourLastLogIndex =>
    atomically changeToFollowerState (fun _ => .next
      (if ourLastLogIndex < request.prevLogIndex then
        .send ⟨ourTerm, false, ourId, 0, .logMismatch⟩
      else .readEntry ourTerm)) node
  | .readEntry ourTerm =>
    if (State.getEntry node.state request.prevLogIndex).any (·.term ≠ request.prevLogTerm) then
      (.next (.send ⟨ourTerm, false, ourId, 0, .logMismatch⟩), node)
    else (.next (.removeEntries ourTerm), node)
  | .removeEntries ourTerm =>
    atomically (NodeM.modifyState (State.removeEntriesAfter · request.prevLogIndex))
      (fun _ => .next (.appendEntries ourTerm)) node
  | .appendEntries ourTerm =>
    atomically (NodeM.modifyState (State.appendEntries · request.entries))
      (fun _ => .next (.readNewLastIndex ourTerm)) node
  | .readNewLastIndex ourTerm => (.next (.setCommit ourTerm (State.getLastIndex node.state)), node)
  | .setCommit ourTerm ourLastLogIndex =>
    atomically (NodeM.modifyState
        (State.setLastCommitIndex · (min request.lastCommitIndex ourLastLogIndex)))
      (fun _ => .next (.send ⟨ourTerm, true, ourId, request.entries.length, .ok⟩)) node
  | .send response => atomically (responseTx.send response) .done node

theorem exec_bind {step : P → RaftNode S → Outcome P ZeroraftError β × RaftNode S} {n : Nat}
    {pc : P} {node : RaftNode S} {operation : NodeM S α} {rest : α → NodeM S β} (next : α → P)
    (hStep : step pc node = atomically operation (fun a => .next (next a)) node)
    (hRest : ∀ a node', exec step n (next a) node' = some ((rest a).run node')) :
    exec step (n + 1) pc node = some ((operation >>= rest).run node) := by
  rw [exec, hStep, NodeM.run_bind]
  unfold atomically
  rcases operation.run node with ⟨⟨_⟩ | ⟨_⟩, node'⟩
  · rfl
  · exact hRest _ node'

theorem exec_send {step : P → RaftNode S → Outcome P ZeroraftError β × RaftNode S} {n : Nat}
    {pc : P} {node : RaftNode S} {operation : NodeM S β}
    (hStep : step pc node = atomically operation .done node) :
    exec step (n + 1) pc node = some (operation.run node) := by
  rw [exec, hStep]
  unfold atomically
  rcases operation.run node with ⟨⟨_⟩ | ⟨_⟩, node'⟩ <;> rfl

/-- From the first store on, nothing but an error or the log decides what happens. -/
theorem exec_storeVote (request : RequestVoteRequest) (responseTx : Sender) (ourId : NodeId)
    (ourTerm n : Nat) (node : RaftNode S) :
    exec (RequestVotePc.step ourId request responseTx) (n + 8) (.storeCurrentTerm ourTerm) node =
      some (NodeM.run (do
        updateCurrentTermAndVotedFor request.term request.candidateId
        changeToFollowerState
        let ourLastLogIndex ← NodeM.read (State.getLastIndex ·.state)
        let ourLastLogTerm ← NodeM.read (State.getLastTerm ·.state)
        if IncompleteLog ourLastLogTerm ourLastLogIndex request then
          responseTx.send ⟨ourTerm, false, ourId, .incompleteLog⟩
        else responseTx.send ⟨ourTerm, true, ourId, .ok⟩) node) := by
  simp only [updateCurrentTermAndVotedFor, NodeM.run_bind_assoc]
  refine exec_bind (fun _ => .storeVotedFor ourTerm) rfl fun _ _ => ?_
  rw [NodeM.run_bind_assoc]
  refine exec_bind (fun _ => .setCurrentTerm ourTerm) rfl fun _ _ => ?_
  rw [NodeM.run_bind_assoc]
  refine exec_bind (fun _ => .setVotedFor ourTerm) rfl fun _ _ => ?_
  refine exec_bind (fun _ => .becomeFollower ourTerm) rfl fun _ _ => ?_
  refine exec_bind (fun _ => .readLastIndex ourTerm) rfl fun _ node' => ?_
  rw [NodeM.run_read_bind, NodeM.run_read_bind, NodeM.run_ite, exec_next rfl]
  by_cases hLog : IncompleteLog (State.getLastTerm node'.state) (State.getLastIndex node'.state) request
  · rw [exec_next (if_pos hLog), if_pos hLog]
    exact exec_send rfl
  · rw [exec_next (if_neg hLog), if_neg hLog]
    exact exec_send rfl

/-- Without interruption the accesses add up to the handler. -/
theorem exec_requestVote (request : RequestVoteRequest) (responseTx : Sender)
    (node : RaftNode S) :
    exec (RequestVotePc.step node.id request responseTx) 10 .loadTerm node =
      some ((respondToRequestVote request responseTx).run node) := by
  simp only [respondToRequestVote, getCurrentTerm, getId, getVotedFor, NodeM.run_read_bind,
    NodeM.run_ite]
  by_cases hEq : node.currentTerm = request.term
  · rw [exec_next (if_pos hEq)]
    by_cases hVoted : node.votedFor.isSome
    · rw [exec_next (if_pos hVoted), if_pos ⟨hEq, hVoted⟩]
      exact exec_send rfl
    · rw [exec_next (if_neg hVoted), if_neg (fun h => hVoted h.2), if_neg (by omega)]
      exact exec_storeVote request responseTx node.id node.currentTerm 0 node
  rw [if_neg (fun h => hEq h.1)]
  by_cases hStale : node.currentTerm > request.term
  · rw [exec_next ((if_neg hEq).trans (if_pos hStale)), if_pos hStale]
    exact exec_send rfl
  · rw [exec_next ((if_neg hEq).trans (if_neg hStale)), if_neg hStale]
    exact exec_storeVote request responseTx node.id node.currentTerm 1 node

theorem exec_appendEntries (request : AppendEntriesRequest R) (responseTx : Sender)
    (node : RaftNode S) :
    exec (AppendEntriesPc.step node.id request responseTx) 12 .loadTerm node =
      some ((respondToAppendEntries request responseTx).run node) := by
  simp only [respondToAppendEntries, getCurrentTerm, getId, NodeM.run_read_bind, NodeM.run_ite]
  rw [exec_next rfl]
  by_cases hStale : node.currentTerm > request.term
  · rw [exec_next (if_pos hStale), if_pos hStale]
    exact exec_send rfl
  rw [exec_next (if_neg hStale), if_neg hStale, updateCurrentTerm, NodeM.run_bind_assoc]
  refine exec_bind (fun _ => .setCurrentTerm _ _) rfl fun _ _ => ?_
  refine exec_bind (fun _ => .setLeaderId _ _) rfl fun _ _ => ?_
  refine exec_bind (fun _ => .becomeFollower _ _) rfl fun _ node' => ?_
  rw [exec_next rfl, changeToFollowerState, NodeM.run_modify_bind, NodeM.run_ite]
  by_cases hShort : State.getLastIndex node.state < request.prevLogIndex
  · rw [if_pos hShort, if_pos hShort]
    exact exec_send rfl
  rw [if_neg hShort, if_neg hShort, NodeM.run_read_bind, NodeM.run_ite]
  by_cases hTerm : (State.getEntry node'.state request.prevLogIndex).any (·.term ≠ request.prevLogTerm)
  · rw [exec_next (if_pos hTerm), if_pos hTerm]
    exact exec_send rfl
  rw [exec_next (if_neg hTerm), if_neg hTerm]
  refine exec_bind (fun _ => .appendEntries _) rfl fun _ _ => ?_
  refine exec_bind (fun _ => .readNewLastIndex _) rfl fun _ _ => ?_
  rw [exec_next rfl, NodeM.run_read_bind]
  refine exec_bind (fun _ => .send _) rfl fun _ _ => ?_
  exact exec_send rfl

end Zeroraft
