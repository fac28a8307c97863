import Zeroraft.Model.Builder
import Zeroraft.Model.Leader
import Zeroraft.Runtime.Handlers

/-!
# The state of a running node

A node runs one main loop and the tasks that vote and replication sessions spawn.
Each of them is at a program point that names its next access to something
shared: the fields of the node, a session, a channel or the lock of a peers map.
Tasks are numbered in the order in which they were spawned.
-/

namespace Zeroraft

/-- `update_current_term(term)` followed by `change_to_follower_state()`. -/
inductive StepDownPc where
  | storeCurrentTerm (term : Nat)
  | setCurrentTerm (term : Nat)
  | becomeFollower
  deriving DecidableEq

/-- A response together with the request that it answers. -/
structure VoteAnswer where
  request : RequestVoteRequest
  response : RequestVoteResponse
  deriving DecidableEq

/-- `VoteSession::request_votes`. -/
inductive RoundPc where
  | readPeersLen
  | readPeers (peersLen : Nat)
  | sendNoPeers
  | readAckPeers (peersLen : Nat) (peers : List NodeId)
  | recv (peersLen : Nat)
  | stepDown (pc : StepDownPc)
  | increment (peersLen : Nat)
  | compare (peersLen : Nat)
  | sendGranted
  deriving DecidableEq

/-- `send_request_vote_rpc`. A response that has been forwarded stays with the
task until the round takes it from the channel. -/
inductive VoteSendPc where
  | readLastIndex
  | readLastTerm (lastLogIndex : Nat)
  | send (lastLogIndex lastLogTerm : Nat)
  | wait (request : RequestVoteRequest)
  | forwarded (answer : VoteAnswer)
  deriving DecidableEq

/-- `ReplicationSession::send_heartbeats`. -/
inductive HeartbeatPc where
  | readCommit
  | readPeers (lastCommitIndex : Nat)
  | spawn (lastCommitIndex : Nat) (peers : List NodeId)
  | recv
  | lockPeers (response : AppendEntriesResponse)
  | stepDown (pc : StepDownPc)
  deriving DecidableEq

/-- `send_append_entries_rpc` of a heartbeat. -/
inductive HeartbeatSendPc (R : Type) where
  | send (request : AppendEntriesRequest R)
  | wait
  | forward (response : AppendEntriesResponse)
  deriving DecidableEq

/-- `ReplicationSession::start_standby_update`. -/
inductive StandbyPc where
  | readStalePeers
  | recv
  | lockPeers (response : AppendEntriesResponse)
  | readCommit
  | calculate (ourLastCommitIndex : Nat)
  | setCommit (lastCommitIndex : Nat)
  | stepDown (pc : StepDownPc)
  deriving DecidableEq

/-- The loop of one peer in `start_standby_update_for_peers`. -/
inductive PeerLoopPc (R : Type) where
  | peerMatches
  | readNextIndex
  | readPrevEntry (nextIndex lastCommitIndex : Nat)
  | readEntries (nextIndex lastCommitIndex prevLogTerm : Nat)
  | loadTerm (nextIndex lastCommitIndex prevLogTerm : Nat) (entries : List (LogEntry R))
  | send (request : AppendEntriesRequest R)
  | wait
  | forward (response : AppendEntriesResponse)
  | notified
  deriving DecidableEq

/-- A spawned task, with the sessions and tasks that it has handles of. A task
that has returned, panicked or been cancelled is `ended`. -/
inductive Task (R : Type) where
  | round (session : Nat) (pc : RoundPc)
  | voteSend (session round : Nat) (peer : NodeId) (pc : VoteSendPc)
  | heartbeat (session : Nat) (pc : HeartbeatPc)
  | heartbeatSend (heartbeat : Nat) (peer : NodeId) (pc : HeartbeatSendPc R)
  | standby (session : Nat) (pc : StandbyPc)
  | peerLoop (session standby : Nat) (peer : NodeId) (pc : PeerLoopPc R)
  | ended

/-- The role whose `start` the main loop is in, with its session. -/
inductive RoleLoop where
  | follower
  | candidate (session : Nat)
  | leader (session : Nat)
  deriving DecidableEq

inductive Main (R : Type) where
  | start
  | incrementTerm
  | voteForSelf
  | readCommit
  | readMembership (nextIndex : Nat)
  | checkRole (role : RoleLoop)
  | select (role : RoleLoop)
  | requestVote (role : RoleLoop) (request : RequestVoteRequest) (responseTx : Sender)
      (pc : RequestVotePc)
  | appendEntries (role : RoleLoop) (request : AppendEntriesRequest R) (responseTx : Sender)
      (pc : AppendEntriesPc)
  | becomeShutdown (role : RoleLoop)
  | becomeCandidate
  | becomeLeader (session : Nat) (result : VoteResult)
  | readLeaderId (role : RoleLoop) (responseTx : Sender)
  | loadEntryTerm (session : Nat) (request : R)
  | appendEntry (session : Nat) (entry : LogEntry R)
  | returned
  | failed

def Main.role {R : Type} : Main R → Option RoleLoop
  | .checkRole role | .select role | .requestVote role _ _ _ | .appendEntries role _ _ _
  | .becomeShutdown role | .readLeaderId role _ => some role
  | .becomeCandidate => some .follower
  | .becomeLeader i _ => some (.candidate i)
  | .loadEntryTerm i _ | .appendEntry i _ => some (.leader i)
  | .start | .incrementTerm | .voteForSelf | .readCommit | .readMembership _ | .returned
  | .failed => none

/-- `VoteSessionInner`. The channel for the result holds one value. The term in
which the session was started and the grants that its rounds have taken, with the
tasks that brought them, are not in the source and nothing reads them. -/
structure VoteSession where
  ackPeers : List NodeId := []
  grantedVotes : Nat := 1
  voteResult : Option VoteResult := none
  startTerm : Nat
  grants : List (Nat × VoteAnswer) := []
  deriving DecidableEq

inductive PeerRpc (R : Type) where
  | requestVote (request : RequestVoteRequest)
  | appendEntries (request : AppendEntriesRequest R)
  deriving DecidableEq

/-- What a task puts on `out_rpc_tx`. -/
structure OutRpc (R : Type) where
  peer : NodeId
  rpc : PeerRpc R
  task : Nat
  deriving DecidableEq

inductive Reply (R : Type) where
  | requestVote (responseTx : Sender) (answer : VoteAnswer)
  | appendEntries (responseTx : Sender) (request : AppendEntriesRequest R)
      (response : AppendEntriesResponse)
  | client (responseTx : Sender) (response : ClientResponse)
  deriving DecidableEq

/-- A running node. `outRpc`, `replies` and `answers` (the vote responses that have
arrived, with the task that waited) keep everything since the start, oldest first. -/
structure Machine (S R : Type) where
  node : RaftNode S
  main : Main R := .start
  voteSessions : List VoteSession := []
  replicationSessions : List PeerMap := []
  tasks : List (Task R) := []
  appendRx : List (Nat × AppendEntriesResponse) := []
  outRpc : List (OutRpc R) := []
  replies : List (Reply R) := []
  answers : List (Nat × VoteAnswer) := []

/-- The inputs of the `select!` of a role's loop. -/
inductive Event (R : Type) where
  | shutdown
  | requestVote (request : RequestVoteRequest) (responseTx : Sender)
  | appendEntries (request : AppendEntriesRequest R) (responseTx : Sender)
  | unimplementedRpc
  | clientRequest (request : R) (responseTx : Sender)
  | voteResult
  | electionTimeout
  | retryTimeout
  | heartbeatTimeout

inductive Action (R : Type) where
  | main
  | event (event : Event R)
  /-- The main loop reads one of its timers too late. -/
  | overrun
  | task (k : Nat)
  /-- Task `k` takes what task `j` has forwarded. -/
  | recv (k j : Nat)
  /-- The network delivers a response to task `k`. -/
  | answerVote (k : Nat) (response : RequestVoteResponse)
  | answerAppend (k : Nat) (response : AppendEntriesResponse)
  /-- The sender of the response that task `k` waits for is dropped. -/
  | lose (k : Nat)
  /-- The timeouts around task `k` elapse. -/
  | cancel (k : Nat)
  /-- The millisecond elapses in which task `k` waits for the stop signal. -/
  | elapse (k : Nat)

variable {S R : Type}

namespace Machine

def goto (m : Machine S R) (main : Main R) : Machine S R := { m with main }

def setTask (m : Machine S R) (k : Nat) (task : Task R) : Machine S R :=
  { m with tasks := m.tasks.set k task }

def spawn (m : Machine S R) (tasks : List (Task R)) : Machine S R :=
  { m with tasks := m.tasks ++ tasks }

def setVoteSession (m : Machine S R) (i : Nat) (session : VoteSession) : Machine S R :=
  { m with voteSessions := m.voteSessions.set i session }

def setPeers (m : Machine S R) (i : Nat) (peers : PeerMap) : Machine S R :=
  { m with replicationSessions := m.replicationSessions.set i peers }

end Machine

/-- The task holds the peers map of the session for writing. -/
def Task.writesPeers (session : Nat) : Task R → Bool
  | .heartbeat i (.stepDown _) => i == session
  | .standby i (.stepDown _) => i == session
  | .standby i .readCommit => i == session
  | .standby i (.calculate _) => i == session
  | .standby i (.setCommit _) => i == session
  | _ => false

/-- The task holds the peers map of the session for reading. -/
def Task.readsPeers (session : Nat) : Task R → Bool
  | .heartbeat i (.spawn _ _) => i == session
  | .peerLoop i _ _ (.readPrevEntry _ _) => i == session
  | .peerLoop i _ _ (.readEntries _ _ _) => i == session
  | .peerLoop i _ _ (.loadTerm _ _ _ _) => i == session
  | _ => false

/-- `peers.read()` succeeds at once. -/
def Machine.CanRead (m : Machine S R) (session : Nat) : Prop :=
  ∀ task ∈ m.tasks, task.writesPeers session = false

/-- `peers.write()` succeeds at once. -/
def Machine.CanWrite (m : Machine S R) (session : Nat) : Prop :=
  ∀ task ∈ m.tasks, task.writesPeers session = false ∧ task.readsPeers session = false

instance (m : Machine S R) (session : Nat) : Decidable (m.CanRead session) :=
  inferInstanceAs (Decidable (∀ _ ∈ _, _))

instance (m : Machine S R) (session : Nat) : Decidable (m.CanWrite session) :=
  inferInstanceAs (Decidable (∀ _ ∈ _, _))

end Zeroraft
