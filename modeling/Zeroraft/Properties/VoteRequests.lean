import Zeroraft.Properties.Ballots
import Zeroraft.Properties.Leadership
import Zeroraft.Runtime.TermSteps

/-!
# Do vote requests belong to their session?

The tasks of a session read the term when they send, whatever has become of the term since
the session was started. They ask in its term as long as nobody writes another one while
they are on their way.
-/

namespace Zeroraft

variable {S R : Type}

/-- The round has not spawned the tasks that send its requests. -/
def RoundPc.asks : RoundPc → Bool
  | .readPeersLen | .readPeers _ | .readAckPeers _ _ => true
  | _ => false

/-- The task has not sent its request. -/
def VoteSendPc.asks : VoteSendPc → Bool
  | .readLastIndex | .readLastTerm _ | .send _ _ => true
  | .wait _ | .forwarded _ => false

/-- A request of the task's session has not been sent. -/
def Task.asks : Task R → Bool
  | .round _ pc => pc.asks
  | .voteSend _ _ _ pc => pc.asks
  | _ => false

def Machine.writtenTerm (m : Machine S R) : Action R → Option Nat
  | .main =>
    if m.main.startsSession then some ((m.node.currentTerm + 1) % u64Size) else m.main.nextTerm
  | .task k =>
    match m.tasks[k]?.bind Task.stepDownPc with
    | some (.setCurrentTerm term) => some term
    | _ => none
  | _ => none

def Machine.retried (m : Machine S R) : Action R → Option Nat
  | .event .retryTimeout => m.main.candidateSession
  | _ => none

/-- No step writes another term while a request is on its way to be sent, and a session is
retried only in its own term. -/
def AsksInTerm (m : Machine S R) (action : Action R) : Prop :=
  (∀ term ∈ m.writtenTerm action, term ≠ m.node.currentTerm →
    ∀ task ∈ m.tasks, task.asks = false) ∧
  (∀ i ∈ m.retried action, ∀ session ∈ m.voteSessions[i]?, session.startTerm = m.node.currentTerm)

instance (m : Machine S R) (action : Action R) : Decidable (AsksInTerm m action) :=
  inferInstanceAs (Decidable (_ ∧ _))

/-- Session `i` has been started in this term. -/
def Machine.StartedIn (m : Machine S R) (i term : Nat) : Prop :=
  ∃ session, m.voteSessions[i]? = some session ∧ session.startTerm = term

/-- The term of the request, which is the present one until it is sent. -/
def VoteSendPc.requestTerm (currentTerm : Nat) : VoteSendPc → Nat
  | .wait request => request.term
  | .forwarded answer => answer.request.term
  | .readLastIndex | .readLastTerm _ | .send _ _ => currentTerm

def Task.AskFits (m : Machine S R) : Task R → Prop
  | .round i pc => pc.asks → m.StartedIn i m.node.currentTerm
  | .voteSend i _ _ pc => m.StartedIn i (pc.requestTerm m.node.currentTerm)
  | _ => True

/-- The requests that are sent, or will be, have the term of their session. -/
structure Asking (m : Machine S R) : Prop where
  tasks : ∀ (k : Nat) (task : Task R), m.tasks[k]? = some task → task.AskFits m
  grants : ∀ (i : Nat) (session : VoteSession), m.voteSessions[i]? = some session →
    ∀ grant ∈ session.grants, grant.2.request.term = session.startTerm
  sent : ∀ out ∈ m.outRpc, ∀ request, out.rpc = .requestVote request →
    ∃ i, m.StartedIn i request.term

section Steps

variable {m m' : Machine S R} {action : Action R}

theorem Machine.StartedIn.mono {i term : Nat} (h : m.StartedIn i term) (hGrows : m.Grows m') :
    m'.StartedIn i term := by
  obtain ⟨session, hSession, hTerm⟩ := h
  obtain ⟨session', hSession', hLater⟩ := hGrows.voteSessions i session hSession
  exact ⟨session', hSession', hLater.startTerm.trans hTerm⟩

theorem VoteSendPc.requestTerm_of_not_asks {pc : VoteSendPc} (h : pc.asks = false) (term term' : Nat) :
    pc.requestTerm term = pc.requestTerm term' := by
  cases pc with
  | wait _ | forwarded _ => rfl
  | readLastIndex | readLastTerm _ | send _ _ => cases h

theorem Task.AskFits.mono {task : Task R} (h : task.AskFits m) (hGrows : m.Grows m')
    (hTerm : task.asks = true → m'.node.currentTerm = m.node.currentTerm) : task.AskFits m' := by
  cases task with
  | round i pc =>
    intro hAsks
    rw [hTerm hAsks]
    exact (h hAsks).mono hGrows
  | voteSend i owner peer pc =>
    have hSame : pc.requestTerm m'.node.currentTerm = pc.requestTerm m.node.currentTerm := by
      cases hAsks : pc.asks with
      | true => rw [hTerm hAsks]
      | false => exact VoteSendPc.requestTerm_of_not_asks hAsks _ _
    rw [AskFits, hSame]
    exact Machine.StartedIn.mono h hGrows
  | _ => trivial

theorem Task.askFits_of_not_votes {task : Task R} (h : task.votes = false) : task.AskFits m := by
  cases task with
  | round _ _ | voteSend _ _ _ _ => cases h
  | _ => trivial

variable [State S R]

theorem step_writtenTerm (hStep : m.step action = some m') :
    m'.node.currentTerm = m.node.currentTerm ∨
      m.writtenTerm action = some m'.node.currentTerm := by
  cases step_termChange hStep with
  | kept h => exact Or.inl h
  | increment hAction hMain h =>
    subst hAction
    rw [Machine.writtenTerm, hMain, h]
    exact Or.inr (if_pos rfl)
  | accepted hAction hNext =>
    subst hAction
    have hStarts : m.main.startsSession = false := by
      cases hMain : m.main with
      | incrementTerm => rw [hMain] at hNext; cases hNext
      | _ => rfl
    rw [Machine.writtenTerm, if_neg (by rw [hStarts]; exact Bool.false_ne_true)]
    exact Or.inr hNext
  | stepDown hAction hTask hPc =>
    subst hAction
    right
    simp only [Machine.writtenTerm, hTask, Option.bind_some, hPc]

theorem AsksInTerm.currentTerm (hSafe : AsksInTerm m action) (hStep : m.step action = some m')
    {k : Nat} {task : Task R} (hTask : m.tasks[k]? = some task) (hAsks : task.asks = true) :
    m'.node.currentTerm = m.node.currentTerm := by
  rcases step_writtenTerm hStep with hSame | hWritten
  · exact hSame
  · by_contra hOther
    have hNone := hSafe.1 _ hWritten hOther task (List.mem_of_getElem? hTask)
    exact Bool.false_ne_true (hNone.symm.trans hAsks)

omit [State S R] in
theorem Task.asks_of_not_votes {task : Task R} (h : task.votes = false) : task.asks = false := by
  cases task with
  | round _ _ | voteSend _ _ _ _ => cases h
  | _ => rfl

theorem VoteStepped.askFits {k : Nat} {task task' : Task R} (h : VoteStepped m k task task' m')
    (hFits : task.AskFits m) : task'.AskFits m ∧ (task'.asks = true → task.asks = true) := by
  cases h with
  | peersLen | peers _ => exact ⟨fun _ => hFits rfl, fun _ => rfl⟩
  | lastIndex | lastTerm => exact ⟨hFits, fun _ => rfl⟩
  | requested => exact ⟨hFits, nofun⟩
  | sentNoPeers _ | allAcked | sentGranted _ => exact ⟨trivial, nofun⟩
  | noPeers _ | asked _ | incremented _ | enough _ _ | notEnough => exact ⟨nofun, nofun⟩
  | stepDown h =>
    cases h with
    | stored | setTerm => exact ⟨nofun, nofun⟩
    | failed | follower => exact ⟨trivial, nofun⟩

theorem TaskTurn.askFits {k : Nat} {task task' : Task R} (h : TaskTurn m k action task task' m')
    (hFits : task.AskFits m) : task'.AskFits m ∧ (task'.asks = true → task.asks = true) := by
  have hQuiet (hVotes : task'.votes = false) :
      task'.AskFits m ∧ (task'.asks = true → task.asks = true) :=
    ⟨Task.askFits_of_not_votes hVotes, fun hAsks =>
      absurd ((Task.asks_of_not_votes hVotes).symm.trans hAsks) Bool.false_ne_true⟩
  cases h with
  | kept => exact ⟨hFits, id⟩
  | @stopped i _ _ _ =>
    rcases Task.stop_cases i task with hStop | hStop
    · rw [hStop]
      exact ⟨hFits, id⟩
    · exact hQuiet (by rw [hStop]; rfl)
  | vote h => exact h.askFits hFits
  | replicate h => exact hQuiet h.votesFrame.task
  | recv _ h => cases h <;> exact ⟨nofun, nofun⟩
  | taken => exact ⟨trivial, nofun⟩
  | answerVote => exact ⟨hFits, nofun⟩
  | environment h => exact hQuiet h.votes

theorem Spawned.askFits {members : MembershipMap} {id : NodeId} {task : Task R}
    (h : Spawned m action task) (hTally : Tally members id m) (hSafe : AsksInTerm m action)
    (hStep : m.step action = some m') (hAsking : Asking m) : task.AskFits m' := by
  have hGrows := step_grows hStep
  cases h with
  | firstRound hMain =>
    intro _
    simp only [Machine.step, mainStep, hMain] at hStep
    cases hStep
    exact ⟨_, List.getElem?_concat_length, rfl⟩
  | @retry i hMain =>
    intro _
    have hRole : m.main.role = some (.candidate i) := by rw [hMain]; rfl
    have hSession := List.getElem?_eq_getElem (hTally.current i hRole)
    have hTerm := hSafe.2 i (Main.candidateSession_eq_some.mpr hRole) _ hSession
    simp only [Machine.step, hMain, selectStep] at hStep
    cases hStep
    exact ⟨_, hSession, hTerm⟩
  | voteSend hTask _ _ =>
    have hStarted := hAsking.tasks _ _ hTask rfl
    have hTerm : m'.node.currentTerm = m.node.currentTerm := hSafe.currentTerm hStep hTask rfl
    show m'.StartedIn _ m'.node.currentTerm
    rw [hTerm]
    exact hStarted.mono hGrows
  | firstHeartbeat _ | heartbeat _ | standby _ | heartbeatSend _ | peerLoop _ _ _ => trivial

theorem Tally.source_session {members : MembershipMap} {id : NodeId} (h : Tally members id m)
    {k j i source : Nat} {pc : RoundPc} {peer : NodeId} {pc' : VoteSendPc}
    (hRound : m.tasks[k]? = some (.round i pc))
    (hSource : m.tasks[j]? = some (.voteSend source k peer pc')) : source = i := by
  obtain ⟨_, ⟨round, hOwner, hLater⟩, _⟩ := h.tasks j _ hSource
  obtain rfl := Option.some.inj (hRound.symm.trans hOwner)
  cases hLater <;> rfl

theorem step_asking {members : MembershipMap} {id : NodeId} (hStep : m.step action = some m')
    (hSafe : AsksInTerm m action) (hTally : Tally members id m) (h : Asking m) : Asking m' where
  tasks := by
    intro k task' hTask'
    rcases step_turned hStep hTask' with ⟨task, hTask, hTurn⟩ | ⟨_, hSpawned⟩
    · obtain ⟨hFits, hAsks⟩ := hTurn.askFits (h.tasks k task hTask)
      exact hFits.mono (step_grows hStep) fun hNow => hSafe.currentTerm hStep hTask (hAsks hNow)
    · exact hSpawned.askFits hTally hSafe hStep h
  grants := by
    intro i session' hSession'
    cases step_sessionChange hStep hSession' with
    | kept hSession hTerm _ hGrants =>
      rw [hGrants, hTerm]
      exact h.grants i _ hSession
    | new _ hNew =>
      subst hNew
      exact nofun
    | granted _ hSession hRound hSource _ _ hNew =>
      subst hNew
      intro grant hGrant
      rcases List.mem_append.mp hGrant with hOld | hLast
      · exact h.grants i _ hSession grant hOld
      · obtain rfl := hTally.source_session hRound hSource
        obtain ⟨started, hStarted, hTerm⟩ := h.tasks _ _ hSource
        obtain rfl := Option.some.inj (hSession.symm.trans hStarted)
        rw [List.mem_singleton.mp hLast]
        exact hTerm.symm
  sent := by
    intro out hOut request hRequest
    have hStarted : ∃ i, m.StartedIn i request.term := by
      rcases step_outRpc hStep with hSame | ⟨out', hSent, hNew⟩
      · exact h.sent out (hSame ▸ hOut) request hRequest
      · rw [hNew] at hOut
        rcases List.mem_append.mp hOut with hOld | hLast
        · exact h.sent out hOld request hRequest
        · rw [List.mem_singleton.mp hLast] at hRequest
          cases hSent with
          | requestVote hTask =>
            cases hRequest
            exact ⟨_, h.tasks _ _ hTask⟩
          | heartbeat _ | entries _ => cases hRequest
    obtain ⟨i, hStarted⟩ := hStarted
    exact ⟨i, hStarted.mono (step_grows hStep)⟩

omit [State S R] in
theorem Asking.initial (node : RaftNode S) : Asking ({ node } : Machine S R) where
  tasks := fun _ _ hTask => by cases hTask
  grants := fun _ _ hSession => by cases hSession
  sent := fun _ hOut => by cases hOut

/-- Every session is started in a later term than this one. -/
structure StartsAfter (first : Nat) (m : Machine S R) : Prop where
  term : first ≤ m.node.currentTerm
  next : m.main = .voteForSelf → first < m.node.currentTerm
  sessions : ∀ session ∈ m.voteSessions, first < session.startTerm

theorem step_voteForSelf (hStep : m.step action = some m') (hMain : m'.main = .voteForSelf) :
    m.main = .voteForSelf ∨ (action = .main ∧ m.main = .incrementTerm) := by
  cases step_cases hStep with
  | main h =>
    cases h with
    | incrementTerm hOld => exact Or.inr ⟨rfl, hOld⟩
    | leave _ _ =>
      rw [RoleLoop.leave_main] at hMain
      cases hMain
    | _ => cases hMain
  | select _ h => cases h <;> cases hMain
  | vote _ h | replicate _ h => exact Or.inl (h.frame.main ▸ hMain)
  | recv _ _ h =>
    obtain ⟨voteSessions, rfl⟩ := h.frame
    exact Or.inl hMain
  | overrun _ => cases hMain
  | answerVote _ | environment _ _ => exact Or.inl hMain

theorem step_startsAfter {first : Nat} (hStep : m.step action = some m') (hSafe : TermSafe m action)
    (hAhead : AcceptedAhead m) (h : StartsAfter first m) : StartsAfter first m' := by
  have hLe := (step_currentTerm_le hSafe hStep hAhead).2
  refine ⟨h.term.trans hLe, fun hMain => ?_, fun session' hSession' => ?_⟩
  · rcases step_voteForSelf hStep hMain with hOld | ⟨rfl, hOld⟩
    · exact (h.next hOld).trans_le hLe
    · have hBelow : m.node.currentTerm + 1 < u64Size := hSafe (by rw [hOld]; rfl)
      simp only [Machine.step, mainStep, hOld] at hStep
      cases hStep
      show first < (m.node.currentTerm + 1) % u64Size
      rw [Nat.mod_eq_of_lt hBelow]
      exact Nat.lt_succ_of_le h.term
  · rcases step_startTerms hStep hSession' with ⟨session, hSession, hTerm⟩ | ⟨hMain, _, hTerm⟩
    · rw [hTerm]
      exact h.sessions session hSession
    · rw [hTerm]
      exact h.next hMain

/-- Nothing is written to the term that takes a vote request out of its session, and terms
do not go back. -/
def RequestsSafe (m : Machine S R) (action : Action R) : Prop :=
  TermSafe m action ∧ AsksInTerm m action

instance (m : Machine S R) (action : Action R) : Decidable (RequestsSafe m action) :=
  inferInstanceAs (Decidable (_ ∧ _))

variable [FallibleState S R]

theorem Machine.Runs.asking {node : RaftNode S} (hRuns : Machine.Runs RequestsSafe { node } m) :
    Asking m := by
  have hBoth : Tally (State.getMembership node.state) node.id m ∧ Asking m := by
    refine @Machine.Runs.invariant S R _ RequestsSafe
      (fun m => Tally (State.getMembership node.state) node.id m ∧ Asking m) _ _ hRuns
      ⟨Tally.initial rfl, Asking.initial node⟩ ?_
    exact fun _ _ _ hSafe hStep h => ⟨step_tally hStep h.1, step_asking hStep hSafe.2 h.1 h.2⟩
  exact hBoth.2

omit [FallibleState S R] in
theorem Machine.Runs.startsAfter {node : RaftNode S}
    (hRuns : Machine.Runs RequestsSafe { node } m) : StartsAfter node.currentTerm m := by
  have hBoth : AcceptedAhead m ∧ StartsAfter node.currentTerm m := by
    refine @Machine.Runs.invariant S R _ RequestsSafe
      (fun m => AcceptedAhead m ∧ StartsAfter node.currentTerm m) _ _ hRuns
      ⟨AcceptedAhead.of_none rfl, Nat.le_refl _, nofun, nofun⟩ ?_
    exact fun _ _ _ hSafe hStep h => ⟨(step_currentTerm_le hSafe.1 hStep h.1).1,
      step_startsAfter hStep hSafe.1 h.1 h.2⟩
  exact hBoth.2

/-- The node has voted for this candidate in this term, in the run or before it. -/
def VotedFor (node : RaftNode S) (m : Machine S R) (term : Nat) (candidate : NodeId) : Prop :=
  (node.currentTerm = term ∧ node.votedFor = some candidate) ∨
    ∃ responseTx answer, Reply.requestVote responseTx answer ∈ m.replies ∧
      answer.response.voteGranted = true ∧ answer.request.term = term ∧
      answer.request.candidateId = candidate

/-- As long as no step writes another term under a session that is about to ask, and terms
do not go back: a vote request that a task sends carries the term of its session, the
grants that a session has taken were cast in its term, and the node has asked for no vote
in a term in which it has voted for a candidate. -/
theorem voteRequests_in_session (node : RaftNode S) (m : Machine S R)
    (hRuns : Machine.Runs RequestsSafe { node } m) :
    (∀ (k : Nat) (m' : Machine S R) (out : OutRpc R) (request : RequestVoteRequest),
      m.step (.task k) = some m' → m'.outRpc = m.outRpc ++ [out] → out.rpc = .requestVote request →
      ∃ i owner peer pc, m.tasks[k]? = some (.voteSend i owner peer pc) ∧
        m.StartedIn i request.term) ∧
    (∀ (i : Nat) (session : VoteSession), m.voteSessions[i]? = some session →
      ∀ grant ∈ session.grants, grant ∈ m.answers ∧ grant.2.request.term = session.startTerm) ∧
    ∀ out ∈ m.outRpc, ∀ request, out.rpc = .requestVote request →
      ∀ candidate, ¬ VotedFor node m request.term candidate := by
  have hAsking := hRuns.asking
  refine ⟨?_, ?_, ?_⟩
  · intro k m' out request hStep hSent hRequest
    cases step_sent hStep hSent with
    | requestVote hTask =>
      cases hRequest
      exact ⟨_, _, _, _, hTask, hAsking.tasks _ _ hTask⟩
    | heartbeat _ | entries _ => cases hRequest
  · intro i session hSession grant hGrant
    exact ⟨(hRuns.tally.grants i session hSession).answered grant hGrant,
      hAsking.grants i session hSession grant hGrant⟩
  · intro out hOut request hRequest candidate hVoted
    obtain ⟨i, session, hSession, hTerm⟩ := hAsking.sent out hOut request hRequest
    have hMem := List.mem_of_getElem? hSession
    rcases hVoted with ⟨hFirst, _⟩ | ⟨responseTx, answer, hReply, hGranted, hSame, _⟩
    · have hLater := hRuns.startsAfter.sessions session hMem
      rw [hTerm, hFirst] at hLater
      exact Nat.lt_irrefl _ hLater
    · obtain ⟨b, hBallot⟩ := (hRuns.mono fun _ _ hSafe => hSafe.1).ballot
      have hOwn := hBallot.sessions session hMem
      have hOther := hBallot.replies responseTx answer hReply hGranted
      rw [hTerm] at hOwn
      rw [hSame] at hOther
      exact nomatch hBallot.valid.cast_unique hOwn hOther

end Steps

def Task.sendsFor : Task R → Option Nat
  | .voteSend i _ _ _ => some i
  | _ => none

theorem voteRequests_in_session_pair : ∃ m : Machine (Stored Unit) Unit,
    m.outRpc = [⟨2, .requestVote ⟨1, 1, 0, 0⟩, 1⟩] ∧
      ∀ candidate, ¬ VotedFor (emptyNode ⟨[1, 2], by decide⟩) m 1 candidate := by
  obtain ⟨m, hRuns, hSent⟩ := Machine.exists_of_run
    (show (Machine.run RequestsSafe { node := emptyNode ⟨[1, 2], by decide⟩ } electedActions).map
      (fun m => decide (m.outRpc = [⟨2, .requestVote ⟨1, 1, 0, 0⟩, 1⟩])) = some true by decide)
  have hSent := of_decide_eq_true hSent
  obtain ⟨_, _, hNotVoted⟩ := voteRequests_in_session (emptyNode ⟨[1, 2], by decide⟩) m hRuns
  exact ⟨m, hSent, hNotVoted ⟨2, .requestVote ⟨1, 1, 0, 0⟩, 1⟩ (hSent ▸ List.mem_singleton_self _)
    ⟨1, 1, 0, 0⟩ rfl⟩

/-- In a cluster of three the first round of node 1 has spawned its tasks when a request of
node 3 for term 5 arrives, and is granted. -/
def overtakenActions : List (Action Unit) :=
  [candidateActions, [.event (.requestVote ⟨5, 3, 0, 0⟩ ⟨3, 0, false⟩)], List.replicate 9 .main,
    List.replicate 3 (.task 1)].flatten

/-- A task of the session of term 1 asks for votes in term 5, in which the node has voted
for node 3, and the session counts the vote that it gets. -/
theorem voteRequest_of_later_term : ∃ m₁ m₂ : Machine (Stored Unit) Unit,
    Machine.Runs (fun _ _ => True) { node := emptyNode ⟨[1, 2, 3], by decide⟩ } m₁ ∧
    Machine.Runs (fun _ _ => True) m₁ m₂ ∧
    m₁.outRpc = [⟨2, .requestVote ⟨5, 1, 0, 0⟩, 1⟩] ∧
    m₁.tasks[1]?.bind Task.sendsFor = some 0 ∧ ¬ m₁.StartedIn 0 5 ∧
    VotedFor (emptyNode ⟨[1, 2, 3], by decide⟩) m₁ 5 3 ∧
    ∃ session ∈ m₂.voteSessions[0]?, session.startTerm = 1 ∧ session.grantedVotes = 2 ∧
      session.grants = [(1, ⟨⟨5, 1, 0, 0⟩, ⟨0, true, 2, .ok⟩⟩)] := by
  obtain ⟨m₁, m₂, hRuns, hRest, hSent⟩ := Machine.exists_of_runs
    (show ((Machine.run (fun _ _ => True) { node := emptyNode ⟨[1, 2, 3], by decide⟩ }
      overtakenActions).bind fun m₁ => (m₁.run (fun _ _ => True)
        [.answerVote 1 ⟨0, true, 2, .ok⟩, .recv 0 1, .task 0]).map fun m₂ =>
      decide ((m₁.outRpc = [⟨2, .requestVote ⟨5, 1, 0, 0⟩, 1⟩] ∧
        m₁.tasks[1]?.bind Task.sendsFor = some 0 ∧
        m₁.voteSessions = [{ startTerm := 1 }] ∧
        .requestVote ⟨3, 0, false⟩ ⟨⟨5, 3, 0, 0⟩, ⟨1, true, 1, .ok⟩⟩ ∈ m₁.replies) ∧
        ∃ session ∈ m₂.voteSessions[0]?, session.startTerm = 1 ∧ session.grantedVotes = 2 ∧
          session.grants = [(1, ⟨⟨5, 1, 0, 0⟩, ⟨0, true, 2, .ok⟩⟩)])) = some true by decide)
  obtain ⟨⟨hOut, hTask, hSessions, hReply⟩, hCounted⟩ := of_decide_eq_true hSent
  refine ⟨m₁, m₂, hRuns, hRest, hOut, hTask, ?_, Or.inr ⟨_, _, hReply, rfl, rfl, rfl⟩, hCounted⟩
  rintro ⟨session, hSession, hTerm⟩
  rw [hSessions] at hSession
  cases hSession
  cases hTerm

end Zeroraft
