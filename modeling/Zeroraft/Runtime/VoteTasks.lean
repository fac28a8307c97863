import Zeroraft.Runtime.Machine

/-!
# The tasks of a vote session

One step of a round of requests and of the tasks that send them. The result is
the task at its next point and the rest of the machine; a step that has to wait
is `none`.
-/

namespace Zeroraft

open Routine

variable {S R : Type} [State S R]

def StepDownPc.step (pc : StepDownPc) (node : RaftNode S) :
    Outcome StepDownPc ZeroraftError Unit × RaftNode S :=
  match pc with
  | .storeCurrentTerm term =>
    atomically (NodeM.modifyState (State.storeCurrentTerm · term))
      (fun _ => .next (.setCurrentTerm term)) node
  | .setCurrentTerm term =>
    atomically (Zeroraft.setCurrentTerm term) (fun _ => .next .becomeFollower) node
  | .becomeFollower => atomically changeToFollowerState .done node

/-- A step of the step-down section of a task, which ends after it. -/
def stepDown (wrap : StepDownPc → Task R) (pc : StepDownPc) (m : Machine S R) :
    Task R × Machine S R :=
  match pc.step m.node with
  | (.next pc', node) => (wrap pc', { m with node })
  | (.done _, node) => (.ended, { m with node })
  | (.failed _, node) => (.ended, { m with node })

/-- `vote_result_tx.send(..)` waits while the channel is full, and fails when the
candidate loop of the session is over. -/
def sendVoteResult (i : Nat) (result : VoteResult) (m : Machine S R) : Option (Machine S R) := do
  let session ← m.voteSessions[i]?
  if m.main.role ≠ some (.candidate i) then some m
  else if session.voteResult.isSome then none
  else some (m.setVoteSession i { session with voteResult := some result })

def roundStep (k i : Nat) (pc : RoundPc) (m : Machine S R) : Option (Task R × Machine S R) :=
  match pc with
  | .readPeersLen =>
    some (.round i (.readPeers (State.getMembership m.node.state).ids.length), m)
  | .readPeers peersLen =>
    let peers := (State.getMembership m.node.state).peers m.node.id
    some (.round i (if peers = [] then .sendNoPeers else .readAckPeers peersLen peers), m)
  | .sendNoPeers => do
    let m' ← sendVoteResult i .noPeers m
    some (.ended, m')
  | .readAckPeers peersLen peers => do
    let session ← m.voteSessions[i]?
    let unack := unackPeers peers session.ackPeers
    if unack = [] then some (.ended, m)
    else some (.round i (.recv peersLen),
      m.spawn (unack.map fun peer => .voteSend i k peer .readLastIndex))
  | .recv _ => none
  | .stepDown pc => some (stepDown (fun pc' => .round i (.stepDown pc')) pc m)
  | .increment peersLen => do
    let session ← m.voteSessions[i]?
    some (.round i (.compare peersLen),
      m.setVoteSession i { session with grantedVotes := session.grantedVotes + 1 })
  | .compare peersLen => do
    let session ← m.voteSessions[i]?
    some (.round i (if EnoughVotes peersLen session.grantedVotes then .sendGranted
      else .recv peersLen), m)
  | .sendGranted => do
    let m' ← sendVoteResult i .granted m
    some (.ended, m')

/-- The round takes the response that task `j` has forwarded. Nobody else sees the
channel, so this is one step with the acknowledgement. -/
def roundRecv (i peersLen j : Nat) (answer : VoteAnswer) (m : Machine S R) :
    Option (Task R × Machine S R) := do
  let response := answer.response
  let session ← m.voteSessions[i]?
  if response.reason.stepsDown then
    some (.round i (.stepDown (.storeCurrentTerm response.term)), m)
  else
    let acknowledged := { session with ackPeers := session.ackPeers.insert response.id }
    if response.voteGranted then
      some (.round i (.increment peersLen),
        m.setVoteSession i { acknowledged with grants := session.grants ++ [(j, answer)] })
    else some (.round i (.recv peersLen), m.setVoteSession i acknowledged)

def voteSendStep (k i round : Nat) (peer : NodeId) (pc : VoteSendPc) (m : Machine S R) :
    Option (Task R × Machine S R) :=
  match pc with
  | .readLastIndex =>
    some (.voteSend i round peer (.readLastTerm (State.getLastIndex m.node.state)), m)
  | .readLastTerm lastLogIndex =>
    some (.voteSend i round peer (.send lastLogIndex (State.getLastTerm m.node.state)), m)
  | .send lastLogIndex lastLogTerm =>
    let request := requestVoteRequest m.node lastLogIndex lastLogTerm
    some (.voteSend i round peer (.wait request),
      { m with outRpc := m.outRpc ++ [⟨peer, .requestVote request, k⟩] })
  | .wait _ => none
  | .forwarded _ => none

end Zeroraft
