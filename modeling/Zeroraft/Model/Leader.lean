import Mathlib.Data.List.AList
import Mathlib.Data.List.Sort
import Zeroraft.Model.Candidate

/-!
# Replication sessions

The functions of `role_leader.rs` on the peers map and the leader's node. A
panic (an `unwrap` of `None`, an index that would drop below zero) is `none`.
-/

namespace Zeroraft

variable {S R : Type}

structure Peer where
  nextIndex : Nat
  matchIndex : Option Nat
  deriving DecidableEq, Repr

/-- The peers map; the order of its entries carries no meaning. -/
abbrev PeerMap := AList fun _ : NodeId => Peer

/-- `ReplicationSession::initialize`: every other member, one past the commit index. -/
def initialPeers (membership : MembershipMap) (id : NodeId) (nextIndex : Nat) : PeerMap where
  entries := (membership.peers id).map fun peer => ⟨peer, ⟨nextIndex, none⟩⟩
  nodupKeys := by
    rw [List.NodupKeys, List.keys, List.map_map]
    exact (membership.nodup.filter _).map fun _ _ h => h

/-- The empty request of `send_heartbeat_to_peers`. -/
def heartbeatRequest (node : RaftNode S) (lastCommitIndex : Nat) : AppendEntriesRequest R where
  term := node.currentTerm
  leaderId := node.id
  lastCommitIndex := lastCommitIndex
  prevLogIndex := 0
  prevLogTerm := 0
  entries := []

variable [State S R]

/-- The request for the entries from the peer's next index on. -/
def composeAppendEntriesRequest (node : RaftNode S) (peers : PeerMap) (peer : NodeId) :
    Option (AppendEntriesRequest R) := do
  let ⟨nextIndex, _⟩ ← peers.lookup peer
  let lastCommitIndex := State.getLastCommitIndex node.state
  if nextIndex = 0 then none
  else do
    let prevLogIndex := nextIndex - 1
    let prevLogEntry ← State.getEntry node.state prevLogIndex
    return {
      term := node.currentTerm
      leaderId := node.id
      lastCommitIndex, prevLogIndex
      prevLogTerm := prevLogEntry.term
      entries := State.getEntries node.state nextIndex none }

/-- Peers whose next index is within the committed part of the log. -/
def getStalePeers (node : RaftNode S) (peers : PeerMap) : List NodeId :=
  let ourLastLogIndex := State.getLastCommitIndex node.state
  peers.entries.filterMap fun ⟨id, peer⟩ =>
    if peer.nextIndex ≤ ourLastLogIndex then some id else none

/-- The peer's match index is the commit index. -/
def peerMatches (node : RaftNode S) (peers : PeerMap) (peer : NodeId) : Option Bool :=
  (peers.lookup peer).map fun entry =>
    (entry.matchIndex.map (· == State.getLastCommitIndex node.state)).getD false

/-- The match indices of the peers that have answered. -/
def matchIndices (peers : PeerMap) : List Nat := peers.entries.filterMap (·.2.matchIndex)

/-- The upper median of the known match indices, if there is one and its entry
has the current term. -/
def calculateLastCommitIndex (node : RaftNode S) (peers : PeerMap) : Option Nat :=
  let sorted := (matchIndices peers).insertionSort (· ≤ ·)
  match sorted[sorted.length / 2]? with
  | none => none
  | some medianIndex =>
    let medianIndexTerm := (State.getEntry node.state medianIndex).map (·.term)
    if medianIndexTerm = some node.currentTerm then some medianIndex else none

end Zeroraft
