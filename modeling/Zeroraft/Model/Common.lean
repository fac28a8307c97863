import Zeroraft.Model.Node

/-!
# The two request handlers

`respondToRequestVote` and `respondToAppendEntries` of `role/common.rs`, run
without interruption. The result is the response sent, or the error with which
the handler returned. Both responses carry the term read on entry.
-/

namespace Zeroraft

variable {S R : Type} [State S R]

/-- The candidate's log is behind the voter's. -/
def IncompleteLog (ourLastLogTerm ourLastLogIndex : Nat) (request : RequestVoteRequest) : Prop :=
  ourLastLogTerm > request.lastLogTerm ∨
    (ourLastLogTerm = request.lastLogTerm ∧ ourLastLogIndex > request.lastLogIndex)

instance (ourLastLogTerm ourLastLogIndex : Nat) (request : RequestVoteRequest) :
    Decidable (IncompleteLog ourLastLogTerm ourLastLogIndex request) :=
  inferInstanceAs (Decidable (_ ∨ _))

def respondToRequestVote (request : RequestVoteRequest) (responseTx : Sender) :
    NodeM S RequestVoteResponse := do
  let ourTerm ← getCurrentTerm
  let ourId ← getId
  let votedFor ← getVotedFor
  -- Already voted in this term.
  if ourTerm = request.term ∧ votedFor.isSome then
    responseTx.send { term := ourTerm, voteGranted := false, id := ourId, reason := .alreadyVoted }
  else if ourTerm > request.term then
    responseTx.send { term := ourTerm, voteGranted := false, id := ourId, reason := .staleTerm }
  else do
    updateCurrentTermAndVotedFor request.term request.candidateId
    changeToFollowerState
    let ourLastLogIndex ← NodeM.read (State.getLastIndex ·.state)
    let ourLastLogTerm ← NodeM.read (State.getLastTerm ·.state)
    if IncompleteLog ourLastLogTerm ourLastLogIndex request then
      responseTx.send
        { term := ourTerm, voteGranted := false, id := ourId, reason := .incompleteLog }
    else
      responseTx.send { term := ourTerm, voteGranted := true, id := ourId, reason := .ok }

def respondToAppendEntries (request : AppendEntriesRequest R) (responseTx : Sender) :
    NodeM S AppendEntriesResponse := do
  let ourTerm ← getCurrentTerm
  let ourId ← getId
  let ourLastLogIndex ← NodeM.read (State.getLastIndex ·.state)
  if ourTerm > request.term then
    responseTx.send { term := ourTerm, success := false, id := ourId, len := 0, reason := .staleTerm }
  else do
    updateCurrentTerm request.term
    updateLeaderId request.leaderId
    changeToFollowerState
    -- The entry before the new ones is missing.
    if ourLastLogIndex < request.prevLogIndex then
      responseTx.send
        { term := ourTerm, success := false, id := ourId, len := 0, reason := .logMismatch }
    else do
      let entry ← NodeM.read (State.getEntry ·.state request.prevLogIndex)
      -- It is there, but from another term.
      if entry.any (·.term ≠ request.prevLogTerm) then
        responseTx.send
          { term := ourTerm, success := false, id := ourId, len := 0, reason := .logMismatch }
      else do
        NodeM.modifyState (State.removeEntriesAfter · request.prevLogIndex)
        NodeM.modifyState (State.appendEntries · request.entries)
        let ourLastLogIndex ← NodeM.read (State.getLastIndex ·.state)
        NodeM.modifyState
          (State.setLastCommitIndex · (min request.lastCommitIndex ourLastLogIndex))
        responseTx.send
          { term := ourTerm, success := true, id := ourId, len := request.entries.length,
            reason := .ok }

end Zeroraft
