import Zeroraft.Runtime.VoteTasks

/-!
# The tasks of a replication session

One step of the heartbeats, of the standby update and of its loops, one for each
stale peer. The guards `CanRead` and `CanWrite` are the lock of the peers map.
-/

namespace Zeroraft

variable {S R : Type} [State S R]

/-- `peers.get_mut(&id).unwrap().0 -= 1`; panics without an entry and at 0. -/
def decrementNextIndex (peers : PeerMap) (id : NodeId) : Option PeerMap := do
  let peer ← peers.lookup id
  if peer.nextIndex = 0 then none
  else some (peers.insert id { peer with nextIndex := peer.nextIndex - 1 })

/-- The peer's entry after an `Ok` response: the match index is the sum of its
next index and the length, less one, and that sum is added to the next index. Where
the arithmetic of `u64` leaves its range a debug build panics, and the error is the
map that the panic leaves: the second sum is formed after the match index is set. -/
def recordAppended (peers : PeerMap) (id : NodeId) (len : Nat) : Except PeerMap PeerMap :=
  match peers.lookup id with
  | none => .error peers
  | some peer =>
    let nextIndex := peer.nextIndex + len
    if u64Size ≤ nextIndex ∨ nextIndex = 0 then .error peers
    else if u64Size ≤ peer.nextIndex + nextIndex then
      .error (peers.insert id { peer with matchIndex := some (nextIndex - 1) })
    else .ok (peers.insert id ⟨peer.nextIndex + nextIndex, some (nextIndex - 1)⟩)

def heartbeatStep (k i : Nat) (pc : HeartbeatPc) (m : Machine S R) :
    Option (Task R × Machine S R) :=
  match pc with
  | .readCommit => some (.heartbeat i (.readPeers (State.getLastCommitIndex m.node.state)), m)
  | .readPeers lastCommitIndex => do
    let peers ← m.replicationSessions[i]?
    if m.CanRead i then some (.heartbeat i (.spawn lastCommitIndex (peers.entries.map (·.1))), m)
    else none
  | .spawn _ [] => some (.heartbeat i .recv, m)
  | .spawn lastCommitIndex (peer :: rest) =>
    some (.heartbeat i (.spawn lastCommitIndex rest),
      m.spawn [.heartbeatSend k peer (.send (heartbeatRequest m.node lastCommitIndex))])
  | .recv => do
    let (_, response) ← m.appendRx.find? (·.1 = k)
    some (.heartbeat i (.lockPeers response),
      { m with appendRx := m.appendRx.eraseP (·.1 = k) })
  | .lockPeers response => do
    let peers ← m.replicationSessions[i]?
    if m.CanWrite i then
      match response.reason with
      | .logMismatch =>
        match decrementNextIndex peers response.id with
        | none => some (.ended, m)
        | some peers' => some (.heartbeat i .recv, m.setPeers i peers')
      | .staleTerm => some (.heartbeat i (.stepDown (.storeCurrentTerm response.term)), m)
      | .ok => some (.heartbeat i .recv, m)
    else none
  | .stepDown pc => some (stepDown (fun pc' => .heartbeat i (.stepDown pc')) pc m)

def sendAppendEntries (k : Nat) (peer : NodeId) (request : AppendEntriesRequest R)
    (m : Machine S R) : Machine S R :=
  { m with outRpc := m.outRpc ++ [⟨peer, .appendEntries request, k⟩] }

def heartbeatSendStep (k heartbeat : Nat) (peer : NodeId) (pc : HeartbeatSendPc R)
    (m : Machine S R) : Option (Task R × Machine S R) :=
  match pc with
  | .send request => some (.heartbeatSend heartbeat peer .wait, sendAppendEntries k peer request m)
  | .wait => none
  | .forward response =>
    some (.ended, { m with appendRx := m.appendRx ++ [(heartbeat, response)] })

def standbyStep (k i : Nat) (pc : StandbyPc) (m : Machine S R) : Option (Task R × Machine S R) :=
  match pc with
  | .readStalePeers => do
    let peers ← m.replicationSessions[i]?
    if m.CanRead i then
      some (.standby i .recv,
        m.spawn ((getStalePeers m.node peers).map fun peer => .peerLoop i k peer .peerMatches))
    else none
  | .recv => do
    let (_, response) ← m.appendRx.find? (·.1 = k)
    some (.standby i (.lockPeers response),
      { m with appendRx := m.appendRx.eraseP (·.1 = k) })
  | .lockPeers response => do
    let peers ← m.replicationSessions[i]?
    if m.CanWrite i then
      match response.reason with
      | .logMismatch =>
        match decrementNextIndex peers response.id with
        | none => some (.ended, m)
        | some peers' => some (.standby i .recv, m.setPeers i peers')
      | .ok =>
        match recordAppended peers response.id response.len with
        | .error peers' => some (.ended, m.setPeers i peers')
        | .ok peers' => some (.standby i .readCommit, m.setPeers i peers')
      | .staleTerm => some (.standby i (.stepDown (.storeCurrentTerm response.term)), m)
    else none
  | .readCommit => some (.standby i (.calculate (State.getLastCommitIndex m.node.state)), m)
  -- The guard of the peers map is still alive, and `calculate_last_commit_index` reads the map.
  | .calculate ourLastCommitIndex => do
    let peers ← m.replicationSessions[i]?
    if m.CanRead i then
      match calculateLastCommitIndex m.node peers with
      | none => some (.standby i .recv, m)
      | some lastCommitIndex =>
        some (.standby i (if ourLastCommitIndex < lastCommitIndex then .setCommit lastCommitIndex
          else .recv), m)
    else none
  | .setCommit lastCommitIndex =>
    match State.setLastCommitIndex m.node.state lastCommitIndex with
    | (.ok (), state) => some (.standby i .recv, { m with node := { m.node with state } })
    | (.error _, state) => some (.ended, { m with node := { m.node with state } })
  | .stepDown pc => some (stepDown (fun pc' => .standby i (.stepDown pc')) pc m)

def peerLoopStep (k i standby : Nat) (peer : NodeId) (pc : PeerLoopPc R) (m : Machine S R) :
    Option (Task R × Machine S R) :=
  match pc with
  | .peerMatches => do
    let peers ← m.replicationSessions[i]?
    if m.CanRead i then
      match peerMatches m.node peers peer with
      | some false => some (.peerLoop i standby peer .readNextIndex, m)
      | _ => some (.ended, m)
    else none
  | .readNextIndex => do
    let peers ← m.replicationSessions[i]?
    if m.CanRead i then
      match peers.lookup peer with
      | none => some (.ended, m)
      | some ⟨nextIndex, _⟩ =>
        if nextIndex = 0 then some (.ended, m)
        else some (.peerLoop i standby peer
          (.readPrevEntry nextIndex (State.getLastCommitIndex m.node.state)), m)
    else none
  | .readPrevEntry nextIndex lastCommitIndex =>
    match State.getEntry m.node.state (nextIndex - 1) with
    | none => some (.ended, m)
    | some entry =>
      some (.peerLoop i standby peer (.readEntries nextIndex lastCommitIndex entry.term), m)
  | .readEntries nextIndex lastCommitIndex prevLogTerm =>
    some (.peerLoop i standby peer (.loadTerm nextIndex lastCommitIndex prevLogTerm
      (State.getEntries m.node.state nextIndex none)), m)
  | .loadTerm nextIndex lastCommitIndex prevLogTerm entries =>
    some (.peerLoop i standby peer (.send {
      term := m.node.currentTerm
      leaderId := m.node.id
      lastCommitIndex
      prevLogIndex := nextIndex - 1
      prevLogTerm, entries }), m)
  | .send request => some (.peerLoop i standby peer .wait, sendAppendEntries k peer request m)
  | .wait => none
  | .forward response => do
    let receiver ← m.tasks[standby]?
    match receiver with
    | .ended => some (.ended, m)
    | _ => some (.peerLoop i standby peer .notified,
        { m with appendRx := m.appendRx ++ [(standby, response)] })
  | .notified => none

end Zeroraft
