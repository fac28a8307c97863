import Zeroraft.Runtime.HandlerSteps

/-!
# The steps of the main loop

Inversions of `mainStep` and `selectStep`.
-/

namespace Zeroraft

open Routine

variable {S R : Type} [State S R]

/-- How the main loop ends with an error or a panic, and the state that it leaves. -/
inductive MainFailure (m : Machine S R) : S → Prop
  | nonVoter (hMain : m.main = .start) (hState : m.node.currentState = .nonVoter) :
      MainFailure m m.node.state
  | requestVote {role : RoleLoop} {request : RequestVoteRequest} {responseTx : Sender}
      {pc : RequestVotePc} {e : ZeroraftError} {state : S}
      (hMain : m.main = .requestVote role request responseTx pc)
      (hFailed : pc.step m.node.id request responseTx m.node = (.failed e, { m.node with state })) :
      MainFailure m state
  | appendEntries {role : RoleLoop} {request : AppendEntriesRequest R} {responseTx : Sender}
      {pc : AppendEntriesPc} {e : ZeroraftError} {state : S}
      (hMain : m.main = .appendEntries role request responseTx pc)
      (hFailed : pc.step m.node.id request responseTx m.node = (.failed e, { m.node with state })) :
      MainFailure m state
  | redirect {role : RoleLoop} {responseTx : Sender} (hMain : m.main = .readLeaderId role responseTx)
      (hClosed : responseTx.closed = true) : MainFailure m m.node.state
  | appendEntry {i : Nat} {entry : LogEntry R} {e : ZeroraftError} {state : S}
      (hMain : m.main = .appendEntry i entry)
      (hFailed : State.appendEntries m.node.state [entry] = (.error e, state)) :
      MainFailure m state

inductive MainStepped (m : Machine S R) : Machine S R → Prop
  | startFollower (hMain : m.main = .start) (hState : m.node.currentState = .follower) :
      MainStepped m (m.goto (.checkRole .follower))
  | startCandidate (hMain : m.main = .start) (hState : m.node.currentState = .candidate) :
      MainStepped m (m.goto .incrementTerm)
  | startLeader (hMain : m.main = .start) (hState : m.node.currentState = .leader) :
      MainStepped m (m.goto .readCommit)
  | returned (hMain : m.main = .start) (hState : m.node.currentState = .shutdown) :
      MainStepped m (m.goto .returned)
  | failed {state : S} (hState : StateStep m.node.state state) (hCause : MainFailure m state) :
      MainStepped m { m with main := .failed, node := { m.node with state } }
  | incrementTerm (hMain : m.main = .incrementTerm) :
      MainStepped m { m with
        main := .voteForSelf
        node := { m.node with currentTerm := (m.node.currentTerm + 1) % u64Size } }
  | voteForSelf (hMain : m.main = .voteForSelf) :
      MainStepped m { m with
        main := .checkRole (.candidate m.voteSessions.length)
        node := { m.node with votedFor := some m.node.id }
        voteSessions := m.voteSessions ++ [{ startTerm := m.node.currentTerm }]
        tasks := m.tasks ++ [.round m.voteSessions.length .readPeersLen] }
  | readCommit (hMain : m.main = .readCommit) :
      MainStepped m (m.goto (.readMembership (State.getLastCommitIndex m.node.state + 1)))
  | readMembership {nextIndex : Nat} (hMain : m.main = .readMembership nextIndex) :
      MainStepped m { m with
        main := .checkRole (.leader m.replicationSessions.length)
        replicationSessions := m.replicationSessions ++
          [initialPeers (State.getMembership m.node.state) m.node.id nextIndex]
        tasks := m.tasks ++ [.heartbeat m.replicationSessions.length .readCommit,
          .standby m.replicationSessions.length .readStalePeers] }
  | stay {role : RoleLoop} (hMain : m.main = .checkRole role)
      (hRole : m.node.currentState = role.taskState) : MainStepped m (m.goto (.select role))
  | leave {role : RoleLoop} (hMain : m.main = .checkRole role)
      (hRole : m.node.currentState ≠ role.taskState) : MainStepped m (role.leave m)
  | requestVote {role : RoleLoop} {request : RequestVoteRequest} {responseTx : Sender}
      {pc pc' : RequestVotePc} (hMain : m.main = .requestVote role request responseTx pc)
      (hEdge : pc.Edge m.node.id request m.node pc')
      (hNext : (pc.step m.node.id request responseTx m.node).1 = .next pc') :
      MainStepped m { m with
        main := .requestVote role request responseTx pc'
        node := (pc.step m.node.id request responseTx m.node).2 }
  | requestVoteSent {role : RoleLoop} {request : RequestVoteRequest} {responseTx : Sender}
      {response : RequestVoteResponse}
      (hMain : m.main = .requestVote role request responseTx (.send response)) :
      MainStepped m { m with
        main := .checkRole role
        replies := m.replies ++ [.requestVote responseTx ⟨request, response⟩] }
  | appendEntries {role : RoleLoop} {request : AppendEntriesRequest R} {responseTx : Sender}
      {pc pc' : AppendEntriesPc} (hMain : m.main = .appendEntries role request responseTx pc)
      (hEdge : pc.Edge m.node.id request m.node pc')
      (hNext : (pc.step m.node.id request responseTx m.node).1 = .next pc') :
      MainStepped m { m with
        main := .appendEntries role request responseTx pc'
        node := (pc.step m.node.id request responseTx m.node).2 }
  | appendEntriesSent {role : RoleLoop} {request : AppendEntriesRequest R} {responseTx : Sender}
      {response : AppendEntriesResponse}
      (hMain : m.main = .appendEntries role request responseTx (.send response)) :
      MainStepped m { m with
        main := .checkRole role
        replies := m.replies ++ [.appendEntries responseTx request response] }
  | becomeShutdown {role : RoleLoop} (hMain : m.main = .becomeShutdown role) :
      MainStepped m { m with
        main := .checkRole role, node := { m.node with currentState := .shutdown } }
  | becomeCandidate (hMain : m.main = .becomeCandidate) :
      MainStepped m { m with
        main := .checkRole .follower, node := { m.node with currentState := .candidate } }
  | becomeLeader {i : Nat} {result : VoteResult} (hMain : m.main = .becomeLeader i result) :
      MainStepped m { m with
        main := .checkRole (.candidate i), node := { m.node with currentState := .leader } }
  | redirected {role : RoleLoop} {responseTx : Sender}
      (hMain : m.main = .readLeaderId role responseTx) (hOpen : responseTx.closed = false) :
      MainStepped m { m with
        main := .checkRole role
        replies := m.replies ++ [.client responseTx (redirectResponse m.node.leaderId)] }
  | loadEntryTerm {i : Nat} {request : R} (hMain : m.main = .loadEntryTerm i request) :
      MainStepped m (m.goto (.appendEntry i ⟨m.node.currentTerm, .clientRequest request⟩))
  | appendEntry {i : Nat} {entry : LogEntry R} (hMain : m.main = .appendEntry i entry)
      (hOk : (State.appendEntries m.node.state [entry]).1 = .ok ()) :
      MainStepped m { m with
        main := .checkRole (.leader i)
        node := { m.node with state := (State.appendEntries m.node.state [entry]).2 } }

/-- The node and the vote sessions in which a panicking timer leaves the main loop. -/
inductive Machine.Overruns (m : Machine S R) : RaftNode S → List VoteSession → Prop
  | select {role : RoleLoop} (hMain : m.main = .select role) : m.Overruns m.node m.voteSessions
  | voteForSelf (hMain : m.main = .voteForSelf) :
      m.Overruns { m.node with votedFor := some m.node.id }
        (m.voteSessions ++ [{ startTerm := m.node.currentTerm }])
  | readMembership {nextIndex : Nat} (hMain : m.main = .readMembership nextIndex) :
      m.Overruns m.node m.voteSessions

section Overruns

variable {m : Machine S R} {node : RaftNode S} {voteSessions : List VoteSession}

omit [State S R] in
theorem Machine.Overruns.frame (h : m.Overruns node voteSessions) :
    ∃ votedFor, node = { m.node with votedFor } := by
  cases h with
  | select _ | readMembership _ => exact ⟨m.node.votedFor, rfl⟩
  | voteForSelf _ => exact ⟨some m.node.id, rfl⟩

omit [State S R] in
theorem Machine.Overruns.sessions (h : m.Overruns node voteSessions) :
    voteSessions = m.voteSessions ∨
      m.main = .voteForSelf ∧
        voteSessions = m.voteSessions ++ [{ startTerm := m.node.currentTerm }] := by
  cases h with
  | select _ | readMembership _ => exact Or.inl rfl
  | voteForSelf hMain => exact Or.inr ⟨hMain, rfl⟩

end Overruns

theorem requestVote_cases {m m' : Machine S R} {role : RoleLoop} {responseTx : Sender}
    {request : RequestVoteRequest} {pc : RequestVotePc}
    (hMain : m.main = .requestVote role request responseTx pc) (h : mainStep m = some m') :
    MainStepped m m' := by
  simp only [mainStep, hMain] at h
  split at h
  · rename_i pc' node hStep
    obtain rfl : (pc.step m.node.id request responseTx m.node).2 = node := by rw [hStep]
    rw [← Option.some.inj h]
    exact MainStepped.requestVote hMain
      (RequestVotePc.edge_of_next _ _ _ (congrArg Prod.fst hStep)) (congrArg Prod.fst hStep)
  · rename_i response node hStep
    obtain rfl := RequestVotePc.step_done _ _ _ (congrArg Prod.fst hStep)
    obtain rfl : m.node = node := by
      rw [← atomically_send_snd (P := RequestVotePc) responseTx response .done m.node]
      exact congrArg Prod.snd hStep
    rw [← Option.some.inj h]
    exact MainStepped.requestVoteSent hMain
  · rename_i e node hStep
    obtain ⟨state, hState, hNode⟩ := RequestVotePc.step_failed _ _ _ (congrArg Prod.fst hStep)
    obtain rfl : node = { m.node with state } := by rw [← hNode, hStep]
    rw [← Option.some.inj h]
    exact MainStepped.failed hState (MainFailure.requestVote hMain hStep)

theorem appendEntries_cases {m m' : Machine S R} {role : RoleLoop} {responseTx : Sender}
    {request : AppendEntriesRequest R} {pc : AppendEntriesPc}
    (hMain : m.main = .appendEntries role request responseTx pc) (h : mainStep m = some m') :
    MainStepped m m' := by
  simp only [mainStep, hMain] at h
  split at h
  · rename_i pc' node hStep
    obtain rfl : (pc.step m.node.id request responseTx m.node).2 = node := by rw [hStep]
    rw [← Option.some.inj h]
    exact MainStepped.appendEntries hMain
      (AppendEntriesPc.edge_of_next _ _ _ (congrArg Prod.fst hStep)) (congrArg Prod.fst hStep)
  · rename_i response node hStep
    obtain rfl := AppendEntriesPc.step_done _ _ _ (congrArg Prod.fst hStep)
    obtain rfl : m.node = node := by
      rw [← atomically_send_snd (P := AppendEntriesPc) responseTx response .done m.node]
      exact congrArg Prod.snd hStep
    rw [← Option.some.inj h]
    exact MainStepped.appendEntriesSent hMain
  · rename_i e node hStep
    obtain ⟨state, hState, hNode⟩ := AppendEntriesPc.step_failed _ _ _ (congrArg Prod.fst hStep)
    obtain rfl : node = { m.node with state } := by rw [← hNode, hStep]
    rw [← Option.some.inj h]
    exact MainStepped.failed hState (MainFailure.appendEntries hMain hStep)

theorem mainStep_cases {m m' : Machine S R} (h : mainStep m = some m') : MainStepped m m' := by
  cases hMain : m.main with
  | requestVote role request responseTx pc => exact requestVote_cases hMain h
  | appendEntries role request responseTx pc => exact appendEntries_cases hMain h
  | start =>
    simp only [mainStep, hMain] at h
    split at h <;> rename_i hState <;> cases h
    · exact MainStepped.startFollower hMain hState
    · exact MainStepped.startCandidate hMain hState
    · exact MainStepped.startLeader hMain hState
    · exact MainStepped.failed StateStep.none (MainFailure.nonVoter hMain hState)
    · exact MainStepped.returned hMain hState
  | incrementTerm =>
    simp only [mainStep, hMain] at h
    cases h
    exact MainStepped.incrementTerm hMain
  | voteForSelf =>
    simp only [mainStep, hMain] at h
    cases h
    exact MainStepped.voteForSelf hMain
  | readCommit =>
    simp only [mainStep, hMain] at h
    cases h
    exact MainStepped.readCommit hMain
  | readMembership nextIndex =>
    simp only [mainStep, hMain] at h
    cases h
    exact MainStepped.readMembership hMain
  | checkRole role =>
    simp only [mainStep, hMain] at h
    split_ifs at h with hRole <;> cases h
    · exact MainStepped.stay hMain hRole
    · exact MainStepped.leave hMain hRole
  | becomeShutdown role =>
    simp only [mainStep, hMain] at h
    cases h
    exact MainStepped.becomeShutdown hMain
  | becomeCandidate =>
    simp only [mainStep, hMain] at h
    cases h
    exact MainStepped.becomeCandidate hMain
  | becomeLeader i result =>
    simp only [mainStep, hMain] at h
    cases h
    exact MainStepped.becomeLeader hMain
  | readLeaderId role responseTx =>
    simp only [mainStep, hMain] at h
    split_ifs at h with hClosed <;> cases h
    · exact MainStepped.failed StateStep.none (MainFailure.redirect hMain hClosed)
    · exact MainStepped.redirected hMain (Bool.not_eq_true _ ▸ hClosed)
  | loadEntryTerm i request =>
    simp only [mainStep, hMain] at h
    cases h
    exact MainStepped.loadEntryTerm hMain
  | appendEntry i entry =>
    simp only [mainStep, hMain] at h
    split at h <;> rename_i state hAppend <;> cases h
    · obtain rfl : (State.appendEntries m.node.state [entry]).2 = state := by rw [hAppend]
      exact MainStepped.appendEntry hMain (by rw [hAppend])
    · obtain rfl : (State.appendEntries m.node.state [entry]).2 = state := by rw [hAppend]
      exact MainStepped.failed (StateStep.appendEntries [entry])
        (MainFailure.appendEntry hMain hAppend)
  | select role =>
    simp only [mainStep, hMain] at h
    cases h
  | returned =>
    simp only [mainStep, hMain] at h
    cases h
  | failed =>
    simp only [mainStep, hMain] at h
    cases h

omit [State S R] in
@[simp] theorem RoleLoop.leave_main (role : RoleLoop) (m : Machine S R) :
    (role.leave m).main = .start := by
  cases role <;> rfl

omit [State S R] in
@[simp] theorem RoleLoop.leave_node (role : RoleLoop) (m : Machine S R) :
    (role.leave m).node = m.node := by
  cases role <;> rfl

theorem MainStepped.role {m m' : Machine S R} (h : MainStepped m m') {role : RoleLoop}
    (hRole : m'.main.role = some role) :
    m.main.role = some role ∨ role = .follower ∨
      (role = .candidate m.voteSessions.length ∧
        m'.voteSessions = m.voteSessions ++ [{ startTerm := m.node.currentTerm }] ∧
        m'.node = { m.node with votedFor := some m.node.id }) ∨
      (role = .leader m.replicationSessions.length ∧
        ∃ nextIndex, m.main = .readMembership nextIndex) := by
  cases h with
  | startFollower _ _ =>
    cases hRole
    exact Or.inr (Or.inl rfl)
  | voteForSelf _ =>
    cases hRole
    exact Or.inr (Or.inr (Or.inl ⟨rfl, rfl, rfl⟩))
  | readMembership hMain =>
    cases hRole
    exact Or.inr (Or.inr (Or.inr ⟨rfl, _, hMain⟩))
  | leave _ _ =>
    rw [RoleLoop.leave_main] at hRole
    cases hRole
  | startCandidate _ _ | startLeader _ _ | returned _ _ | failed _ _ | incrementTerm _
  | readCommit _ => cases hRole
  | stay hMain _ | requestVote hMain _ | requestVoteSent hMain | appendEntries hMain _
  | appendEntriesSent hMain | becomeShutdown hMain | becomeCandidate hMain | becomeLeader hMain
  | redirected hMain | loadEntryTerm hMain | appendEntry hMain =>
    rw [hMain]
    exact Or.inl hRole

theorem MainStepped.candidate {m m' : Machine S R} (h : MainStepped m m') {i : Nat}
    (hRole : m'.main.role = some (.candidate i)) :
    m.main.role = some (.candidate i) ∨ (i = m.voteSessions.length ∧
      m'.voteSessions = m.voteSessions ++ [{ startTerm := m.node.currentTerm }] ∧
      m'.node = { m.node with votedFor := some m.node.id }) := by
  rcases h.role hRole with hOld | hFollower | ⟨hNew, hStarted⟩ | ⟨hLeader, _⟩
  · exact Or.inl hOld
  · cases hFollower
  · exact Or.inr ⟨RoleLoop.candidate.inj hNew, hStarted⟩
  · cases hLeader

theorem MainStepped.leader {m m' : Machine S R} (h : MainStepped m m') {i : Nat}
    (hRole : m'.main.role = some (.leader i)) :
    m.main.role = some (.leader i) ∨ (i = m.replicationSessions.length ∧
      ∃ nextIndex, m.main = .readMembership nextIndex) := by
  rcases h.role hRole with hOld | hFollower | ⟨hCandidate, _⟩ | ⟨hNew, hStarted⟩
  · exact Or.inl hOld
  · cases hFollower
  · cases hCandidate
  · exact Or.inr ⟨RoleLoop.leader.inj hNew, hStarted⟩

theorem MainStepped.replicationSessions {m m' : Machine S R} (h : MainStepped m m') :
    m'.replicationSessions = m.replicationSessions ∨ ∃ nextIndex,
      m.main = .readMembership nextIndex ∧ m'.replicationSessions = m.replicationSessions ++
        [initialPeers (State.getMembership m.node.state) m.node.id nextIndex] := by
  cases h with
  | readMembership hMain => exact Or.inr ⟨_, hMain, rfl⟩
  | @leave role _ _ => cases role <;> exact Or.inl rfl
  | _ => exact Or.inl rfl

/-- The branches of `select!`. -/
inductive SelectStepped (m : Machine S R) : RoleLoop → Event R → Machine S R → Prop
  | shutdown {role : RoleLoop} : SelectStepped m role .shutdown (m.goto (.becomeShutdown role))
  | requestVote {role : RoleLoop} (request : RequestVoteRequest) (responseTx : Sender) :
      SelectStepped m role (.requestVote request responseTx)
        (m.goto (.requestVote role request responseTx .loadTerm))
  | appendEntries {role : RoleLoop} (request : AppendEntriesRequest R) (responseTx : Sender) :
      SelectStepped m role (.appendEntries request responseTx)
        (m.goto (.appendEntries role request responseTx .loadTerm))
  | unimplementedRpc {role : RoleLoop} : SelectStepped m role .unimplementedRpc (m.goto .failed)
  | append {i : Nat} (request : R) (responseTx : Sender) :
      SelectStepped m (.leader i) (.clientRequest request responseTx)
        (m.goto (.loadEntryTerm i request))
  | redirect {role : RoleLoop} (request : R) (responseTx : Sender) (hRole : ∀ i, role ≠ .leader i) :
      SelectStepped m role (.clientRequest request responseTx)
        (m.goto (.readLeaderId role responseTx))
  | voteResult {i : Nat} {session : VoteSession} {result : VoteResult}
      (hSession : m.voteSessions[i]? = some session) (hResult : session.voteResult = some result) :
      SelectStepped m (.candidate i) .voteResult
        ((m.setVoteSession i { session with voteResult := none }).goto (.becomeLeader i result))
  | becomeCandidate : SelectStepped m .follower .electionTimeout (m.goto .becomeCandidate)
  | restart {i : Nat} : SelectStepped m (.candidate i) .electionTimeout (m.goto .incrementTerm)
  | retry {i : Nat} : SelectStepped m (.candidate i) .retryTimeout
      ((m.spawn [.round i .readPeersLen]).goto (.checkRole (.candidate i)))
  | heartbeat {i : Nat} : SelectStepped m (.leader i) .heartbeatTimeout
      ((m.spawn [.heartbeat i .readCommit]).goto (.checkRole (.leader i)))

omit [State S R] in
theorem selectStep_cases {role : RoleLoop} {event : Event R} {m m' : Machine S R}
    (h : selectStep role event m = some m') : SelectStepped m role event m' := by
  unfold selectStep at h
  split at h
  · cases h
    exact SelectStepped.shutdown
  · cases h
    exact SelectStepped.requestVote _ _
  · cases h
    exact SelectStepped.appendEntries _ _
  · cases h
    exact SelectStepped.unimplementedRpc
  · cases h
    exact SelectStepped.append _ _
  · rename_i hRole
    cases h
    exact SelectStepped.redirect _ _ fun i hLeader => hRole i hLeader
  · simp only [Option.bind_eq_bind, Option.bind_eq_some_iff] at h
    obtain ⟨session, hSession, result, hResult, h⟩ := h
    cases h
    exact SelectStepped.voteResult hSession hResult
  · cases h
    exact SelectStepped.becomeCandidate
  · cases h
    exact SelectStepped.restart
  · cases h
    exact SelectStepped.retry
  · cases h
    exact SelectStepped.heartbeat
  · cases h

omit [State S R] in
theorem SelectStepped.node {m m' : Machine S R} {role : RoleLoop} {event : Event R}
    (h : SelectStepped m role event m') : m'.node = m.node := by
  cases h <;> rfl

omit [State S R] in
theorem SelectStepped.leader {m m' : Machine S R} {role : RoleLoop} {event : Event R}
    (h : SelectStepped m role event m') {i : Nat} (hRole : m'.main.role = some (.leader i)) :
    role = .leader i := by
  cases h <;> first | exact Option.some.inj hRole | cases hRole

omit [State S R] in
theorem SelectStepped.replicationSessions {m m' : Machine S R} {role : RoleLoop} {event : Event R}
    (h : SelectStepped m role event m') : m'.replicationSessions = m.replicationSessions := by
  cases h <;> rfl

omit [State S R] in
theorem SelectStepped.candidate {m m' : Machine S R} {role : RoleLoop} {event : Event R}
    (h : SelectStepped m role event m') {i : Nat} (hRole : m'.main.role = some (.candidate i)) :
    role = .candidate i := by
  cases h <;> first | exact Option.some.inj hRole | cases hRole

end Zeroraft
