import Zeroraft.Runtime.HandlerSteps

/-!
# The steps of the tasks

Inversions of the step functions of the vote tasks and of the replication tasks.
The last two arguments are the task after the step and the rest of the machine.
-/

namespace Zeroraft

open Routine

variable {S R : Type} [State S R]

/-- Stepping down; a state that cannot store the term ends the task. -/
inductive StepDownStepped (wrap : StepDownPc → Task R) (m : Machine S R) :
    StepDownPc → Task R → Machine S R → Prop
  | stored {term : Nat} : StepDownStepped wrap m (.storeCurrentTerm term)
      (wrap (.setCurrentTerm term))
      { m with node := { m.node with state := (State.storeCurrentTerm m.node.state term).2 } }
  | failed {term : Nat} : StepDownStepped wrap m (.storeCurrentTerm term) .ended
      { m with node := { m.node with state := (State.storeCurrentTerm m.node.state term).2 } }
  | setTerm {term : Nat} : StepDownStepped wrap m (.setCurrentTerm term) (wrap .becomeFollower)
      { m with node := { m.node with currentTerm := term } }
  | follower : StepDownStepped wrap m .becomeFollower .ended
      { m with node := { m.node with currentState := .follower } }

theorem stepDown_cases (wrap : StepDownPc → Task R) (m : Machine S R) (pc : StepDownPc) :
    StepDownStepped wrap m pc (stepDown wrap pc m).1 (stepDown wrap pc m).2 := by
  cases pc with
  | storeCurrentTerm term =>
    simp only [stepDown, StepDownPc.step, atomically, NodeM.modifyState, NodeM.run]
    cases (State.storeCurrentTerm m.node.state term).1 with
    | ok _ => exact StepDownStepped.stored
    | error _ => exact StepDownStepped.failed
  | setCurrentTerm _ => exact StepDownStepped.setTerm
  | becomeFollower => exact StepDownStepped.follower

/-- Sending the result of a session to its candidate loop. -/
inductive VoteResultSent (m : Machine S R) (i : Nat) (result : VoteResult) : Machine S R → Prop
  | closed (h : m.main.role ≠ some (.candidate i)) : VoteResultSent m i result m
  | queued {session : VoteSession} (h : m.main.role = some (.candidate i))
      (hSession : m.voteSessions[i]? = some session) (hEmpty : session.voteResult = none) :
      VoteResultSent m i result (m.setVoteSession i { session with voteResult := some result })

omit [State S R] in
theorem sendVoteResult_cases {i : Nat} {result : VoteResult} {m m' : Machine S R}
    (h : sendVoteResult i result m = some m') : VoteResultSent m i result m' := by
  simp only [sendVoteResult, Option.bind_eq_bind, Option.bind_eq_some_iff] at h
  obtain ⟨session, hSession, h⟩ := h
  split_ifs at h with hClosed hFull <;> cases h
  · exact VoteResultSent.closed hClosed
  · exact VoteResultSent.queued (not_not.mp hClosed) hSession (Option.not_isSome_iff_eq_none.mp hFull)

/-- The steps of rounds and of the tasks that send their requests. -/
inductive VoteStepped (m : Machine S R) (k : Nat) : Task R → Task R → Machine S R → Prop
  | peersLen {i : Nat} : VoteStepped m k (.round i .readPeersLen)
      (.round i (.readPeers (State.getMembership m.node.state).ids.length)) m
  | noPeers {i peersLen : Nat} (h : (State.getMembership m.node.state).peers m.node.id = []) :
      VoteStepped m k (.round i (.readPeers peersLen)) (.round i .sendNoPeers) m
  | peers {i peersLen : Nat} (h : (State.getMembership m.node.state).peers m.node.id ≠ []) :
      VoteStepped m k (.round i (.readPeers peersLen)) (.round i (.readAckPeers peersLen
        ((State.getMembership m.node.state).peers m.node.id))) m
  | sentNoPeers {i : Nat} {m' : Machine S R} (h : VoteResultSent m i .noPeers m') :
      VoteStepped m k (.round i .sendNoPeers) .ended m'
  | allAcked {i peersLen : Nat} {peers : List NodeId} :
      VoteStepped m k (.round i (.readAckPeers peersLen peers)) .ended m
  | asked {i peersLen : Nat} {peers : List NodeId} {session : VoteSession}
      (hSession : m.voteSessions[i]? = some session) :
      VoteStepped m k (.round i (.readAckPeers peersLen peers)) (.round i (.recv peersLen))
        (m.spawn ((unackPeers peers session.ackPeers).map fun peer =>
          .voteSend i k peer .readLastIndex))
  | stepDown {i : Nat} {pc : StepDownPc} {task' : Task R} {m' : Machine S R}
      (h : StepDownStepped (fun pc' => .round i (.stepDown pc')) m pc task' m') :
      VoteStepped m k (.round i (.stepDown pc)) task' m'
  | incremented {i peersLen : Nat} {session : VoteSession}
      (hSession : m.voteSessions[i]? = some session) :
      VoteStepped m k (.round i (.increment peersLen)) (.round i (.compare peersLen))
        (m.setVoteSession i { session with grantedVotes := session.grantedVotes + 1 })
  | enough {i peersLen : Nat} {session : VoteSession}
      (hSession : m.voteSessions[i]? = some session) (h : EnoughVotes peersLen session.grantedVotes) :
      VoteStepped m k (.round i (.compare peersLen)) (.round i .sendGranted) m
  | notEnough {i peersLen : Nat} :
      VoteStepped m k (.round i (.compare peersLen)) (.round i (.recv peersLen)) m
  | sentGranted {i : Nat} {m' : Machine S R} (h : VoteResultSent m i .granted m') :
      VoteStepped m k (.round i .sendGranted) .ended m'
  | lastIndex {i owner : Nat} {peer : NodeId} : VoteStepped m k
      (.voteSend i owner peer .readLastIndex)
      (.voteSend i owner peer (.readLastTerm (State.getLastIndex m.node.state))) m
  | lastTerm {i owner lastLogIndex : Nat} {peer : NodeId} : VoteStepped m k
      (.voteSend i owner peer (.readLastTerm lastLogIndex))
      (.voteSend i owner peer (.send lastLogIndex (State.getLastTerm m.node.state))) m
  | requested {i owner lastLogIndex lastLogTerm : Nat} {peer : NodeId} : VoteStepped m k
      (.voteSend i owner peer (.send lastLogIndex lastLogTerm))
      (.voteSend i owner peer (.wait (requestVoteRequest m.node lastLogIndex lastLogTerm)))
      { m with outRpc := m.outRpc ++
        [⟨peer, .requestVote (requestVoteRequest m.node lastLogIndex lastLogTerm), k⟩] }

theorem roundStep_cases {k i : Nat} {pc : RoundPc} {m m' : Machine S R} {task' : Task R}
    (h : roundStep k i pc m = some (task', m')) : VoteStepped m k (.round i pc) task' m' := by
  cases pc with
  | readPeersLen =>
    cases h
    exact VoteStepped.peersLen
  | readPeers peersLen =>
    cases h
    split_ifs with hPeers
    · exact VoteStepped.noPeers hPeers
    · exact VoteStepped.peers hPeers
  | sendNoPeers =>
    simp only [roundStep, Option.bind_eq_bind, Option.bind_eq_some_iff] at h
    obtain ⟨m₁, hSend, h⟩ := h
    cases h
    exact VoteStepped.sentNoPeers (sendVoteResult_cases hSend)
  | readAckPeers peersLen peers =>
    simp only [roundStep, Option.bind_eq_bind, Option.bind_eq_some_iff] at h
    obtain ⟨session, hSession, h⟩ := h
    split_ifs at h <;> cases h
    · exact VoteStepped.allAcked
    · exact VoteStepped.asked hSession
  | recv _ => cases h
  | stepDown pc =>
    have hResult := Option.some.inj h
    have hStepped := stepDown_cases (fun pc' => Task.round i (.stepDown pc')) m pc
    rw [hResult] at hStepped
    exact VoteStepped.stepDown hStepped
  | increment peersLen =>
    simp only [roundStep, Option.bind_eq_bind, Option.bind_eq_some_iff] at h
    obtain ⟨session, hSession, h⟩ := h
    cases h
    exact VoteStepped.incremented hSession
  | compare peersLen =>
    simp only [roundStep, Option.bind_eq_bind, Option.bind_eq_some_iff] at h
    obtain ⟨session, hSession, h⟩ := h
    cases h
    split_ifs with hEnough
    · exact VoteStepped.enough hSession hEnough
    · exact VoteStepped.notEnough
  | sendGranted =>
    simp only [roundStep, Option.bind_eq_bind, Option.bind_eq_some_iff] at h
    obtain ⟨m₁, hSend, h⟩ := h
    cases h
    exact VoteStepped.sentGranted (sendVoteResult_cases hSend)

theorem voteSendStep_cases {k i owner : Nat} {peer : NodeId} {pc : VoteSendPc}
    {m m' : Machine S R} {task' : Task R} (h : voteSendStep k i owner peer pc m = some (task', m')) :
    VoteStepped m k (.voteSend i owner peer pc) task' m' := by
  cases pc with
  | readLastIndex =>
    cases h
    exact VoteStepped.lastIndex
  | readLastTerm _ =>
    cases h
    exact VoteStepped.lastTerm
  | send _ _ =>
    cases h
    exact VoteStepped.requested
  | wait _ | forwarded _ => cases h

/-- What a round does with a response that task `j` has forwarded. -/
inductive RoundReceived (m : Machine S R) (i peersLen j : Nat) (answer : VoteAnswer) :
    Task R → Machine S R → Prop
  | stepsDown (hReason : answer.response.reason.stepsDown = true) : RoundReceived m i peersLen j answer
      (.round i (.stepDown (.storeCurrentTerm answer.response.term))) m
  | granted {session : VoteSession} (hSession : m.voteSessions[i]? = some session)
      (hReason : answer.response.reason.stepsDown = false)
      (hGranted : answer.response.voteGranted = true) :
      RoundReceived m i peersLen j answer (.round i (.increment peersLen))
        (m.setVoteSession i { session with
          ackPeers := session.ackPeers.insert answer.response.id
          grants := session.grants ++ [(j, answer)] })
  | refused {session : VoteSession} (hSession : m.voteSessions[i]? = some session) :
      RoundReceived m i peersLen j answer (.round i (.recv peersLen))
        (m.setVoteSession i { session with
          ackPeers := session.ackPeers.insert answer.response.id })

omit [State S R] in
theorem roundRecv_cases {i peersLen j : Nat} {answer : VoteAnswer} {m m' : Machine S R}
    {task' : Task R} (h : roundRecv i peersLen j answer m = some (task', m')) :
    RoundReceived m i peersLen j answer task' m' := by
  simp only [roundRecv, Option.bind_eq_bind, Option.bind_eq_some_iff] at h
  obtain ⟨session, hSession, h⟩ := h
  split_ifs at h with hReason hGranted <;> cases h
  · exact RoundReceived.stepsDown hReason
  · exact RoundReceived.granted hSession (Bool.not_eq_true _ ▸ hReason) hGranted
  · exact RoundReceived.refused hSession

/-- The steps of heartbeats, of standby updates and of what they spawn. -/
inductive ReplicationStepped (m : Machine S R) (k : Nat) : Task R → Task R → Machine S R → Prop
  | heartbeatCommit {i : Nat} : ReplicationStepped m k (.heartbeat i .readCommit)
      (.heartbeat i (.readPeers (State.getLastCommitIndex m.node.state))) m
  | heartbeatPeers {i lastCommitIndex : Nat} {peers : PeerMap}
      (hPeers : m.replicationSessions[i]? = some peers) (hRead : m.CanRead i) :
      ReplicationStepped m k (.heartbeat i (.readPeers lastCommitIndex))
        (.heartbeat i (.spawn lastCommitIndex (peers.entries.map (·.1)))) m
  | heartbeatSpawned {i lastCommitIndex : Nat} : ReplicationStepped m k
      (.heartbeat i (.spawn lastCommitIndex [])) (.heartbeat i .recv) m
  | heartbeatSpawn {i lastCommitIndex : Nat} {peer : NodeId} {rest : List NodeId} :
      ReplicationStepped m k (.heartbeat i (.spawn lastCommitIndex (peer :: rest)))
        (.heartbeat i (.spawn lastCommitIndex rest))
        (m.spawn [.heartbeatSend k peer (.send (heartbeatRequest m.node lastCommitIndex))])
  | heartbeatRecv {i owner : Nat} {response : AppendEntriesResponse}
      (hRx : m.appendRx.find? (·.1 = k) = some (owner, response)) :
      ReplicationStepped m k (.heartbeat i .recv) (.heartbeat i (.lockPeers response))
        { m with appendRx := m.appendRx.eraseP (·.1 = k) }
  | heartbeatMismatch {i : Nat} {response : AppendEntriesResponse} {peers peers' : PeerMap}
      (hPeers : m.replicationSessions[i]? = some peers) (hWrite : m.CanWrite i)
      (hReason : response.reason = .logMismatch)
      (hNext : decrementNextIndex peers response.id = some peers') :
      ReplicationStepped m k (.heartbeat i (.lockPeers response)) (.heartbeat i .recv)
        (m.setPeers i peers')
  | heartbeatPanicked {i : Nat} {response : AppendEntriesResponse} {peers : PeerMap}
      (hPeers : m.replicationSessions[i]? = some peers) (hReason : response.reason = .logMismatch)
      (hNext : decrementNextIndex peers response.id = none) :
      ReplicationStepped m k (.heartbeat i (.lockPeers response)) .ended m
  | heartbeatStale {i : Nat} {response : AppendEntriesResponse} (hWrite : m.CanWrite i)
      (hReason : response.reason = .staleTerm) :
      ReplicationStepped m k (.heartbeat i (.lockPeers response))
        (.heartbeat i (.stepDown (.storeCurrentTerm response.term))) m
  | heartbeatOk {i : Nat} {response : AppendEntriesResponse} (hReason : response.reason = .ok) :
      ReplicationStepped m k (.heartbeat i (.lockPeers response)) (.heartbeat i .recv) m
  | heartbeatStepDown {i : Nat} {pc : StepDownPc} {task' : Task R} {m' : Machine S R}
      (h : StepDownStepped (fun pc' => .heartbeat i (.stepDown pc')) m pc task' m') :
      ReplicationStepped m k (.heartbeat i (.stepDown pc)) task' m'
  | heartbeatSent {owner : Nat} {peer : NodeId} {request : AppendEntriesRequest R} :
      ReplicationStepped m k (.heartbeatSend owner peer (.send request))
        (.heartbeatSend owner peer .wait) (sendAppendEntries k peer request m)
  | heartbeatForwarded {owner : Nat} {peer : NodeId} {response : AppendEntriesResponse} :
      ReplicationStepped m k (.heartbeatSend owner peer (.forward response)) .ended
        { m with appendRx := m.appendRx ++ [(owner, response)] }
  | stalePeers {i : Nat} {peers : PeerMap} (hPeers : m.replicationSessions[i]? = some peers)
      (hRead : m.CanRead i) : ReplicationStepped m k (.standby i .readStalePeers) (.standby i .recv)
        (m.spawn ((getStalePeers m.node peers).map fun peer => .peerLoop i k peer .peerMatches))
  | standbyRecv {i owner : Nat} {response : AppendEntriesResponse}
      (hRx : m.appendRx.find? (·.1 = k) = some (owner, response)) :
      ReplicationStepped m k (.standby i .recv) (.standby i (.lockPeers response))
        { m with appendRx := m.appendRx.eraseP (·.1 = k) }
  | standbyMismatch {i : Nat} {response : AppendEntriesResponse} {peers peers' : PeerMap}
      (hPeers : m.replicationSessions[i]? = some peers) (hWrite : m.CanWrite i)
      (hReason : response.reason = .logMismatch)
      (hNext : decrementNextIndex peers response.id = some peers') :
      ReplicationStepped m k (.standby i (.lockPeers response)) (.standby i .recv)
        (m.setPeers i peers')
  | standbyPanicked {i : Nat} {response : AppendEntriesResponse} {peers : PeerMap}
      (hPeers : m.replicationSessions[i]? = some peers) (hReason : response.reason = .logMismatch)
      (hNext : decrementNextIndex peers response.id = none) :
      ReplicationStepped m k (.standby i (.lockPeers response)) .ended m
  | standbyOverflowed {i : Nat} {response : AppendEntriesResponse} {peers peers' : PeerMap}
      (hPeers : m.replicationSessions[i]? = some peers) (hReason : response.reason = .ok)
      (hNext : recordAppended peers response.id response.len = .error peers') :
      ReplicationStepped m k (.standby i (.lockPeers response)) .ended (m.setPeers i peers')
  | standbyAppended {i : Nat} {response : AppendEntriesResponse} {peers peers' : PeerMap}
      (hPeers : m.replicationSessions[i]? = some peers) (hWrite : m.CanWrite i)
      (hReason : response.reason = .ok)
      (hNext : recordAppended peers response.id response.len = .ok peers') :
      ReplicationStepped m k (.standby i (.lockPeers response)) (.standby i .readCommit)
        (m.setPeers i peers')
  | standbyStale {i : Nat} {response : AppendEntriesResponse} (hWrite : m.CanWrite i)
      (hReason : response.reason = .staleTerm) :
      ReplicationStepped m k (.standby i (.lockPeers response))
        (.standby i (.stepDown (.storeCurrentTerm response.term))) m
  | standbyCommit {i : Nat} : ReplicationStepped m k (.standby i .readCommit)
      (.standby i (.calculate (State.getLastCommitIndex m.node.state))) m
  | notNewer {i ourLastCommitIndex : Nat} (hRead : m.CanRead i) :
      ReplicationStepped m k (.standby i (.calculate ourLastCommitIndex)) (.standby i .recv) m
  | newer {i ourLastCommitIndex index : Nat} {peers : PeerMap}
      (hPeers : m.replicationSessions[i]? = some peers) (hRead : m.CanRead i)
      (hIndex : calculateLastCommitIndex m.node peers = some index)
      (hNew : ourLastCommitIndex < index) :
      ReplicationStepped m k (.standby i (.calculate ourLastCommitIndex))
        (.standby i (.setCommit index)) m
  | committed {i index : Nat} (hOk : (State.setLastCommitIndex m.node.state index).1 = .ok ()) :
      ReplicationStepped m k (.standby i (.setCommit index)) (.standby i .recv)
      { m with node := { m.node with state := (State.setLastCommitIndex m.node.state index).2 } }
  | commitFailed {i index : Nat} {e : ZeroraftError}
      (hError : (State.setLastCommitIndex m.node.state index).1 = .error e) :
      ReplicationStepped m k (.standby i (.setCommit index)) .ended
      { m with node := { m.node with state := (State.setLastCommitIndex m.node.state index).2 } }
  | standbyStepDown {i : Nat} {pc : StepDownPc} {task' : Task R} {m' : Machine S R}
      (h : StepDownStepped (fun pc' => .standby i (.stepDown pc')) m pc task' m') :
      ReplicationStepped m k (.standby i (.stepDown pc)) task' m'
  | peerMatched {i owner : Nat} {peer : NodeId} {peers : PeerMap}
      (hPeers : m.replicationSessions[i]? = some peers)
      (hMatches : peerMatches m.node peers peer ≠ some false) :
      ReplicationStepped m k (.peerLoop i owner peer .peerMatches) .ended m
  | peerBehind {i owner : Nat} {peer : NodeId} {peers : PeerMap}
      (hPeers : m.replicationSessions[i]? = some peers)
      (hMatches : peerMatches m.node peers peer = some false) :
      ReplicationStepped m k (.peerLoop i owner peer .peerMatches)
        (.peerLoop i owner peer .readNextIndex) m
  | peerMissing {i owner : Nat} {peer : NodeId} {peers : PeerMap}
      (hPeers : m.replicationSessions[i]? = some peers)
      (hMissing : ∀ entry ∈ peers.lookup peer, entry.nextIndex = 0) :
      ReplicationStepped m k (.peerLoop i owner peer .readNextIndex) .ended m
  | nextIndex {i owner : Nat} {peer : NodeId} {peers : PeerMap} {entry : Peer}
      (hPeers : m.replicationSessions[i]? = some peers)
      (hEntry : peers.lookup peer = some entry) (hNext : entry.nextIndex ≠ 0) :
      ReplicationStepped m k (.peerLoop i owner peer .readNextIndex)
        (.peerLoop i owner peer
          (.readPrevEntry entry.nextIndex (State.getLastCommitIndex m.node.state))) m
  | prevMissing {i owner nextIndex lastCommitIndex : Nat} {peer : NodeId}
      (h : State.getEntry m.node.state (nextIndex - 1) = none) :
      ReplicationStepped m k (.peerLoop i owner peer (.readPrevEntry nextIndex lastCommitIndex))
        .ended m
  | prevEntry {i owner nextIndex lastCommitIndex : Nat} {peer : NodeId} {entry : LogEntry R}
      (hEntry : State.getEntry m.node.state (nextIndex - 1) = some entry) :
      ReplicationStepped m k (.peerLoop i owner peer (.readPrevEntry nextIndex lastCommitIndex))
        (.peerLoop i owner peer (.readEntries nextIndex lastCommitIndex entry.term)) m
  | entries {i owner nextIndex lastCommitIndex prevLogTerm : Nat} {peer : NodeId} :
      ReplicationStepped m k
        (.peerLoop i owner peer (.readEntries nextIndex lastCommitIndex prevLogTerm))
        (.peerLoop i owner peer (.loadTerm nextIndex lastCommitIndex prevLogTerm
          (State.getEntries m.node.state nextIndex none))) m
  | composed {i owner nextIndex lastCommitIndex prevLogTerm : Nat} {peer : NodeId}
      {entries : List (LogEntry R)} : ReplicationStepped m k
        (.peerLoop i owner peer (.loadTerm nextIndex lastCommitIndex prevLogTerm entries))
        (.peerLoop i owner peer (.send ⟨m.node.currentTerm, m.node.id, lastCommitIndex,
          nextIndex - 1, prevLogTerm, entries⟩)) m
  | entriesSent {i owner : Nat} {peer : NodeId} {request : AppendEntriesRequest R} :
      ReplicationStepped m k (.peerLoop i owner peer (.send request))
        (.peerLoop i owner peer .wait) (sendAppendEntries k peer request m)
  | forwardClosed {i owner : Nat} {peer : NodeId} {response : AppendEntriesResponse}
      (hOwner : m.tasks[owner]? = some .ended) :
      ReplicationStepped m k (.peerLoop i owner peer (.forward response)) .ended m
  | forwarded {i owner : Nat} {peer : NodeId} {response : AppendEntriesResponse} :
      ReplicationStepped m k (.peerLoop i owner peer (.forward response))
        (.peerLoop i owner peer .notified) { m with appendRx := m.appendRx ++ [(owner, response)] }

theorem heartbeatStep_cases {k i : Nat} {pc : HeartbeatPc} {m m' : Machine S R} {task' : Task R}
    (h : heartbeatStep k i pc m = some (task', m')) :
    ReplicationStepped m k (.heartbeat i pc) task' m' := by
  cases pc with
  | readCommit =>
    cases h
    exact ReplicationStepped.heartbeatCommit
  | readPeers _ =>
    simp only [heartbeatStep, Option.bind_eq_bind, Option.bind_eq_some_iff] at h
    obtain ⟨peers, hPeers, h⟩ := h
    split at h <;> rename_i hRead <;> cases h
    exact ReplicationStepped.heartbeatPeers hPeers hRead
  | spawn _ peers =>
    cases peers <;> cases h
    · exact ReplicationStepped.heartbeatSpawned
    · exact ReplicationStepped.heartbeatSpawn
  | recv =>
    simp only [heartbeatStep, Option.bind_eq_bind, Option.bind_eq_some_iff] at h
    obtain ⟨⟨_, response⟩, hRx, h⟩ := h
    cases h
    exact ReplicationStepped.heartbeatRecv hRx
  | lockPeers response =>
    simp only [heartbeatStep, Option.bind_eq_bind, Option.bind_eq_some_iff] at h
    obtain ⟨peers, hPeers, h⟩ := h
    split at h
    · rename_i hWrite
      split at h <;> rename_i hReason
      · split at h <;> rename_i hNext <;> cases h
        · exact ReplicationStepped.heartbeatPanicked hPeers hReason hNext
        · exact ReplicationStepped.heartbeatMismatch hPeers hWrite hReason hNext
      · cases h
        exact ReplicationStepped.heartbeatStale hWrite hReason
      · cases h
        exact ReplicationStepped.heartbeatOk hReason
    · cases h
  | stepDown pc =>
    have hResult := Option.some.inj h
    have hStepped := stepDown_cases (fun pc' => Task.heartbeat i (.stepDown pc')) m pc
    rw [hResult] at hStepped
    exact ReplicationStepped.heartbeatStepDown hStepped

theorem heartbeatSendStep_cases {k owner : Nat} {peer : NodeId} {pc : HeartbeatSendPc R}
    {m m' : Machine S R} {task' : Task R}
    (h : heartbeatSendStep k owner peer pc m = some (task', m')) :
    ReplicationStepped m k (.heartbeatSend owner peer pc) task' m' := by
  cases pc with
  | send _ =>
    cases h
    exact ReplicationStepped.heartbeatSent
  | wait => cases h
  | forward _ =>
    cases h
    exact ReplicationStepped.heartbeatForwarded

theorem standbyStep_cases {k i : Nat} {pc : StandbyPc} {m m' : Machine S R} {task' : Task R}
    (h : standbyStep k i pc m = some (task', m')) :
    ReplicationStepped m k (.standby i pc) task' m' := by
  cases pc with
  | readStalePeers =>
    simp only [standbyStep, Option.bind_eq_bind, Option.bind_eq_some_iff] at h
    obtain ⟨peers, hPeers, h⟩ := h
    split at h <;> rename_i hRead <;> cases h
    exact ReplicationStepped.stalePeers hPeers hRead
  | recv =>
    simp only [standbyStep, Option.bind_eq_bind, Option.bind_eq_some_iff] at h
    obtain ⟨⟨_, response⟩, hRx, h⟩ := h
    cases h
    exact ReplicationStepped.standbyRecv hRx
  | lockPeers response =>
    simp only [standbyStep, Option.bind_eq_bind, Option.bind_eq_some_iff] at h
    obtain ⟨peers, hPeers, h⟩ := h
    split at h
    · rename_i hWrite
      split at h <;> rename_i hReason
      · split at h <;> rename_i hNext <;> cases h
        · exact ReplicationStepped.standbyPanicked hPeers hReason hNext
        · exact ReplicationStepped.standbyMismatch hPeers hWrite hReason hNext
      · split at h <;> rename_i hNext <;> cases h
        · exact ReplicationStepped.standbyOverflowed hPeers hReason hNext
        · exact ReplicationStepped.standbyAppended hPeers hWrite hReason hNext
      · cases h
        exact ReplicationStepped.standbyStale hWrite hReason
    · cases h
  | readCommit =>
    cases h
    exact ReplicationStepped.standbyCommit
  | calculate _ =>
    simp only [standbyStep, Option.bind_eq_bind, Option.bind_eq_some_iff] at h
    obtain ⟨peers, hPeers, h⟩ := h
    split at h
    · rename_i hRead
      split at h
      · cases h
        exact ReplicationStepped.notNewer hRead
      · rename_i index hIndex
        cases h
        split_ifs with hNew
        · exact ReplicationStepped.newer hPeers hRead hIndex hNew
        · exact ReplicationStepped.notNewer hRead
    · cases h
  | setCommit index =>
    simp only [standbyStep] at h
    split at h <;> rename_i state hSet <;> cases h <;>
      obtain rfl : (State.setLastCommitIndex m.node.state index).2 = state := by rw [hSet]
    · exact ReplicationStepped.committed (by rw [hSet])
    · exact ReplicationStepped.commitFailed (by rw [hSet])
  | stepDown pc =>
    have hResult := Option.some.inj h
    have hStepped := stepDown_cases (fun pc' => Task.standby i (.stepDown pc')) m pc
    rw [hResult] at hStepped
    exact ReplicationStepped.standbyStepDown hStepped

theorem peerLoopStep_cases {k i owner : Nat} {peer : NodeId} {pc : PeerLoopPc R}
    {m m' : Machine S R} {task' : Task R} (h : peerLoopStep k i owner peer pc m = some (task', m')) :
    ReplicationStepped m k (.peerLoop i owner peer pc) task' m' := by
  cases pc with
  | peerMatches =>
    simp only [peerLoopStep, Option.bind_eq_bind, Option.bind_eq_some_iff] at h
    obtain ⟨peers, hPeers, h⟩ := h
    split_ifs at h
    split at h <;> rename_i hMatches <;> cases h
    · exact ReplicationStepped.peerBehind hPeers hMatches
    · exact ReplicationStepped.peerMatched hPeers hMatches
  | readNextIndex =>
    simp only [peerLoopStep, Option.bind_eq_bind, Option.bind_eq_some_iff] at h
    obtain ⟨peers, hPeers, h⟩ := h
    split_ifs at h
    split at h <;> rename_i hEntry
    · cases h
      exact ReplicationStepped.peerMissing hPeers (by rw [hEntry]; rintro _ ⟨⟩)
    · split_ifs at h with hNext <;> cases h
      · exact ReplicationStepped.peerMissing hPeers (by rw [hEntry]; rintro _ ⟨⟩; exact hNext)
      · exact ReplicationStepped.nextIndex hPeers hEntry hNext
  | readPrevEntry _ _ =>
    simp only [peerLoopStep] at h
    split at h <;> rename_i hEntry <;> cases h
    · exact ReplicationStepped.prevMissing hEntry
    · exact ReplicationStepped.prevEntry hEntry
  | readEntries _ _ _ =>
    cases h
    exact ReplicationStepped.entries
  | loadTerm _ _ _ _ =>
    cases h
    exact ReplicationStepped.composed
  | send _ =>
    cases h
    exact ReplicationStepped.entriesSent
  | forward _ =>
    simp only [peerLoopStep, Option.bind_eq_bind, Option.bind_eq_some_iff] at h
    obtain ⟨receiver, hOwner, h⟩ := h
    split at h <;> cases h
    · exact ReplicationStepped.forwardClosed hOwner
    · exact ReplicationStepped.forwarded
  | wait | notified => cases h

theorem taskStep_cases {k : Nat} {task task' : Task R} {m m' : Machine S R}
    (h : taskStep k task m = some (task', m')) :
    VoteStepped m k task task' m' ∨ ReplicationStepped m k task task' m' := by
  cases task with
  | round i pc => exact Or.inl (roundStep_cases h)
  | voteSend i owner peer pc => exact Or.inl (voteSendStep_cases h)
  | heartbeat i pc => exact Or.inr (heartbeatStep_cases h)
  | heartbeatSend owner peer pc => exact Or.inr (heartbeatSendStep_cases h)
  | standby i pc => exact Or.inr (standbyStep_cases h)
  | peerLoop i owner peer pc => exact Or.inr (peerLoopStep_cases h)
  | ended => cases h

end Zeroraft
