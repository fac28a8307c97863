import Zeroraft.Model.CommonSpec
import Zeroraft.Runtime.Peers

/-!
# The peers map of one session

What a replication session does to its peers map, apart from the scheduling: the leader
appends to its log, heartbeats and composed requests go out, followers answer them, and
the two handlers process the answers in any order, any number of times or never.
-/

namespace Zeroraft

variable {S R : Type}

inductive Handler where
  | heartbeat
  | standby
  deriving DecidableEq

/-- The peers map that a handler leaves, be it with a panic. -/
def Handler.update (handler : Handler) (peers : PeerMap) (response : AppendEntriesResponse) :
    PeerMap :=
  match response.reason, handler with
  | .logMismatch, _ => (decrementNextIndex peers response.id).getD peers
  | .ok, .heartbeat => peers
  | .ok, .standby =>
    match recordAppended peers response.id response.len with
    | .ok peers' | .error peers' => peers'
  | .staleTerm, _ => peers

theorem Handler.update_logMismatch {handler : Handler} {peers peers' : PeerMap}
    {response : AppendEntriesResponse} (h : response.reason = .logMismatch)
    (hNext : decrementNextIndex peers response.id = some peers') :
    handler.update peers response = peers' := by
  simp only [Handler.update, h, hNext, Option.getD_some]

theorem Handler.update_ok {peers peers' : PeerMap} {response : AppendEntriesResponse}
    (h : response.reason = .ok)
    (hNext : recordAppended peers response.id response.len = .ok peers' ∨
      recordAppended peers response.id response.len = .error peers') :
    Handler.standby.update peers response = peers' := by
  rcases hNext with hNext | hNext <;> simp only [Handler.update, h, hNext]

structure SentRequest (R : Type) where
  handler : Handler
  peer : NodeId
  request : AppendEntriesRequest R

/-- A response, and what it answers. The handler learns only the response. -/
structure Answer (R : Type) where
  sent : SentRequest R
  response : AppendEntriesResponse

/-- The place of a request that a follower has answered `Ok`, and the follower then. -/
structure Accepted (S : Type) where
  position : Nat
  after : RaftNode S

/-- A session. `accepted` is the last composed request that each follower has
answered `Ok`; it is not in the source and nothing reads it. -/
structure Replication (S R : Type) where
  leader : RaftNode S
  peers : PeerMap
  sent : List (SentRequest R) := []
  answers : List (Answer R) := []
  accepted : NodeId → Option (Accepted S) := fun _ => none

/-- What can happen next in a session. The term and the commit index of a request are
read at other moments than its entries. -/
inductive Replication.Event (S R : Type) where
  | append (entry : LogEntry R)
  | heartbeat (peer : NodeId) (term lastCommitIndex : Nat)
  | compose (peer : NodeId) (term lastCommitIndex : Nat)
  | answer (j : Nat) (follower : RaftNode S) (responseTx : Sender)
  | process (j : Nat)

namespace Replication

def send (s : Replication S R) (sent : SentRequest R) : Replication S R :=
  { s with sent := s.sent ++ [sent] }

def answered (s : Replication S R) (j : Nat) (answer : Answer R) (after : RaftNode S) :
    Replication S R :=
  { s with
    answers := s.answers ++ [answer]
    accepted := if answer.sent.handler = .standby ∧ answer.response.reason = .ok then
      Function.update s.accepted answer.sent.peer (some ⟨j, after⟩) else s.accepted }

variable [State S R]

/-- `ReplicationSession::initialize`. -/
def start (leader : RaftNode S) : Replication S R where
  leader := leader
  peers := initialPeers (State.getMembership leader.state) leader.id
    (State.getLastCommitIndex leader.state + 1)

def step (s : Replication S R) : Event S R → Option (Replication S R)
  | .append entry =>
    match State.appendEntries s.leader.state [entry] with
    | (.ok (), state) => some { s with leader := { s.leader with state } }
    | (.error _, _) => none
  | .heartbeat peer term lastCommitIndex =>
    if peer ∈ s.peers then
      some (s.send ⟨.heartbeat, peer, { heartbeatRequest s.leader lastCommitIndex with term }⟩)
    else none
  | .compose peer term lastCommitIndex =>
    (composeAppendEntriesRequest s.leader s.peers peer).map fun request =>
      s.send ⟨.standby, peer, { request with term, lastCommitIndex }⟩
  | .answer j follower responseTx => do
    let sent ← s.sent[j]?
    if follower.id = sent.peer then
      match (respondToAppendEntries sent.request responseTx).run follower with
      | (.ok response, after) => some (s.answered j ⟨sent, response⟩ after)
      | (.error _, _) => none
    else none
  | .process j => do
    let answer ← s.answers[j]?
    some { s with peers := answer.sent.handler.update s.peers answer.response }

def run (s : Replication S R) : List (Event S R) → Option (Replication S R)
  | [] => some s
  | event :: rest => (s.step event).bind fun s' => s'.run rest

inductive Stepped (s : Replication S R) : Event S R → Replication S R → Prop
  | append {entry : LogEntry R} (hOk : (State.appendEntries s.leader.state [entry]).1 = .ok ()) :
      Stepped s (.append entry) { s with
        leader := { s.leader with state := (State.appendEntries s.leader.state [entry]).2 } }
  | heartbeat {peer : NodeId} {term lastCommitIndex : Nat} :
      Stepped s (.heartbeat peer term lastCommitIndex)
        (s.send ⟨.heartbeat, peer, { heartbeatRequest s.leader lastCommitIndex with term }⟩)
  | compose {peer : NodeId} {term lastCommitIndex : Nat} {request : AppendEntriesRequest R}
      (h : composeAppendEntriesRequest s.leader s.peers peer = some request) :
      Stepped s (.compose peer term lastCommitIndex)
        (s.send ⟨.standby, peer, { request with term, lastCommitIndex }⟩)
  | answer {j : Nat} {sent : SentRequest R} {follower after : RaftNode S} {responseTx : Sender}
      {response : AppendEntriesResponse} (hSent : s.sent[j]? = some sent)
      (hPeer : follower.id = sent.peer)
      (hRun : (respondToAppendEntries sent.request responseTx).run follower = (.ok response, after)) :
      Stepped s (.answer j follower responseTx) (s.answered j ⟨sent, response⟩ after)
  | process {j : Nat} {answer : Answer R} (hAnswer : s.answers[j]? = some answer) :
      Stepped s (.process j)
        { s with peers := answer.sent.handler.update s.peers answer.response }

theorem step_cases {s s' : Replication S R} {event : Event S R} (h : s.step event = some s') :
    Stepped s event s' := by
  cases event with
  | append entry =>
    simp only [step] at h
    split at h
    · rename_i state hAppend
      cases h
      have hState : state = (State.appendEntries s.leader.state [entry]).2 := by rw [hAppend]
      subst hState
      exact Stepped.append (by rw [hAppend])
    · cases h
  | heartbeat peer term lastCommitIndex =>
    simp only [step] at h
    split_ifs at h
    cases h
    exact Stepped.heartbeat
  | compose peer term lastCommitIndex =>
    obtain ⟨request, hRequest, rfl⟩ := Option.map_eq_some_iff.mp h
    exact Stepped.compose hRequest
  | answer j follower responseTx =>
    simp only [step, Option.bind_eq_bind, Option.bind_eq_some_iff] at h
    obtain ⟨sent, hSent, h⟩ := h
    split_ifs at h with hPeer
    split at h
    · rename_i hRun
      cases h
      exact Stepped.answer hSent hPeer hRun
    · cases h
  | process j =>
    simp only [step, Option.bind_eq_bind, Option.bind_eq_some_iff] at h
    obtain ⟨answer, hAnswer, h⟩ := h
    cases h
    exact Stepped.process hAnswer

end Replication

/-- The task in which a handler is about to change the peers map. -/
def Handler.task (handler : Handler) (i : Nat) (response : AppendEntriesResponse) : Task R :=
  match handler with
  | .heartbeat => .heartbeat i (.lockPeers response)
  | .standby => .standby i (.lockPeers response)

variable [State S R]

/-- The map of a session of the running node changes only as its handlers do it. -/
theorem step_handlerUpdate {m m' : Machine S R} {action : Action R}
    (hStep : m.step action = some m') {i : Nat} {peers : PeerMap}
    (hPeers : m.replicationSessions[i]? = some peers) :
    m'.replicationSessions[i]? = some peers ∨
      ∃ k handler response, action = .task k ∧
        m.tasks[k]? = some (Handler.task handler i response) ∧
        m'.replicationSessions[i]? = some (handler.update peers response) := by
  have hi : i < m.replicationSessions.length := (List.getElem?_eq_some_iff.mp hPeers).1
  cases step_peersChange hStep with
  | kept h => exact Or.inl (h ▸ hPeers)
  | started _ _ h =>
    rw [h, List.getElem?_append_left hi]
    exact Or.inl hPeers
  | @mismatch k j task response peers₁ peers' hAction hTask hLock hReason hPeers₁ hNext h =>
    by_cases hij : i = j
    · subst hij
      obtain rfl := Option.some.inj (hPeers.symm.trans hPeers₁)
      rw [h, List.getElem?_set_self hi]
      right
      rcases hLock with rfl | rfl
      · exact ⟨k, .heartbeat, response, hAction, hTask,
          congrArg some (Handler.update_logMismatch hReason hNext).symm⟩
      · exact ⟨k, .standby, response, hAction, hTask,
          congrArg some (Handler.update_logMismatch hReason hNext).symm⟩
    · rw [h, List.getElem?_set_ne (Ne.symm hij)]
      exact Or.inl hPeers
  | @appended k j response peers₁ peers' hAction hTask hReason hPeers₁ hNext h =>
    by_cases hij : i = j
    · subst hij
      obtain rfl := Option.some.inj (hPeers.symm.trans hPeers₁)
      rw [h, List.getElem?_set_self hi]
      exact Or.inr ⟨k, .standby, response, hAction, hTask,
        congrArg some (Handler.update_ok hReason hNext).symm⟩
    · rw [h, List.getElem?_set_ne (Ne.symm hij)]
      exact Or.inl hPeers

/-- A run takes the map of a session through updates of the handlers. -/
theorem Machine.Runs.handlerUpdates {Allowed : Machine S R → Action R → Prop}
    {m m' : Machine S R} (hRuns : Machine.Runs Allowed m m') {i : Nat} {peers : PeerMap}
    (hPeers : m.replicationSessions[i]? = some peers) :
    ∃ updates : List (Handler × AppendEntriesResponse), m'.replicationSessions[i]? =
      some (updates.foldl (fun peers update => update.1.update peers update.2) peers) := by
  induction hRuns with
  | refl => exact ⟨[], hPeers⟩
  | tail _ hLast ih =>
    obtain ⟨action, _, hStep⟩ := hLast
    obtain ⟨updates, hBefore⟩ := ih
    rcases step_handlerUpdate hStep hBefore with hKept | ⟨_, handler, response, _, _, hUpdated⟩
    · exact ⟨updates, hKept⟩
    · refine ⟨updates ++ [(handler, response)], ?_⟩
      rw [List.foldl_append]
      exact hUpdated

end Zeroraft
