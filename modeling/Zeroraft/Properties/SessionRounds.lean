import Zeroraft.Properties.Electability

/-!
# Sessions as the machine runs them

`VoteSession.rounds` says what the rounds of a session come to if nothing else happens in
between. The machine can do the same, from any state in which it waits in the session.
-/

namespace Zeroraft

variable {S R : Type} [State S R] {m m' : Machine S R} {i k : Nat} {session : VoteSession}
  {members : MembershipMap} {id : NodeId}

theorem Machine.RunsBeside.of_internal (hRuns : Machine.Runs Internally m m')
    (hMain : m'.main = m.main) (hNode : m'.node = m.node) : m.RunsBeside m' :=
  ⟨hRuns.mono fun _ _ _ => trivial, hMain, hNode⟩

section Answers

/-- The task of the peer asks it, and passes the response on. -/
theorem Machine.runs_forward {j : Nat} {response : RequestVoteResponse}
    (hTask : m.tasks[j]? = some (.voteSend i k response.id .readLastIndex)) :
    ∃ m' answer, answer.response = response ∧ m.RunsBeside m' ∧
      m'.voteSessions = m.voteSessions ∧
      m'.tasks = m.tasks.set j (.voteSend i k response.id (.forwarded answer)) := by
  have hAsked : (m.asked i k j response.id).tasks[j]? = _ := Machine.setTask_self hTask _
  refine ⟨_, ⟨m.node.ballot, response⟩, rfl,
    (Machine.RunsBeside.of_internal (Machine.runs_asked hTask) rfl rfl).trans
      (Machine.RunsBeside.step (Machine.step_answerVote rfl hAsked) rfl rfl), rfl, ?_⟩
  exact List.set_set _

/-- Every task that has passed on one of the answers had not begun before. -/
structure Forwarded (i k : Nat) (answers : List (Nat × VoteAnswer)) (m m' : Machine S R) :
    Prop where
  runs : m.RunsBeside m'
  sessions : m'.voteSessions = m.voteSessions
  once : (answers.map Prod.fst).Nodup
  before : ∀ answer ∈ answers,
    m.tasks[answer.1]? = some (.voteSend i k answer.2.response.id .readLastIndex)
  after : ∀ answer ∈ answers, ∃ source peer,
    m'.tasks[answer.1]? = some (.voteSend source k peer (.forwarded answer.2))
  others : ∀ other, other ∉ answers.map Prod.fst → m'.tasks[other]? = m.tasks[other]?

theorem Forwarded.cons {m₁ : Machine S R} {j : Nat} {answer : VoteAnswer}
    {answers : List (Nat × VoteAnswer)} (hRuns : m.RunsBeside m₁)
    (hSessions : m₁.voteSessions = m.voteSessions)
    (hTask : m.tasks[j]? = some (.voteSend i k answer.response.id .readLastIndex))
    (hTasks : m₁.tasks = m.tasks.set j (.voteSend i k answer.response.id (.forwarded answer)))
    (h : Forwarded i k answers m₁ m') : Forwarded i k ((j, answer) :: answers) m m' := by
  have hOwn : m₁.tasks[j]? = some (.voteSend i k answer.response.id (.forwarded answer)) := by
    rw [hTasks]
    exact List.getElem?_set_self (List.getElem?_eq_some_iff.mp hTask).1
  have hOther : ∀ other, other ≠ j → m₁.tasks[other]? = m.tasks[other]? := fun other hNe => by
    rw [hTasks]
    exact List.getElem?_set_ne hNe.symm
  have hNew : ∀ later ∈ answers, later.1 ≠ j := by
    intro later hLater hSame
    have hBefore := h.before later hLater
    rw [hSame, hOwn] at hBefore
    obtain ⟨_, _, _, hPc⟩ := Task.voteSend.inj (Option.some.inj hBefore)
    cases hPc
  have hFresh : j ∉ answers.map Prod.fst := fun hMem =>
    have ⟨later, hLater, hSame⟩ := List.mem_map.mp hMem
    hNew later hLater hSame
  refine ⟨hRuns.trans h.runs, h.sessions.trans hSessions, List.nodup_cons.mpr ⟨hFresh, h.once⟩,
    ?_, ?_, ?_⟩
  · intro later hLater
    rcases List.mem_cons.mp hLater with rfl | hLater
    · exact hTask
    · exact (hOther _ (hNew later hLater)).symm.trans (h.before later hLater)
  · intro later hLater
    rcases List.mem_cons.mp hLater with rfl | hLater
    · exact ⟨i, answer.response.id, (h.others j hFresh).trans hOwn⟩
    · exact h.after later hLater
  · intro other hMem
    obtain ⟨hNe, hRest⟩ := not_or.mp fun h => hMem (List.mem_cons.mpr h)
    exact (h.others other hRest).trans (hOther other hNe)

theorem Machine.runs_forwardAll {responses : List RequestVoteResponse}
    (hOnce : (responses.map (·.id)).Nodup) (hAsked : ∀ response ∈ responses, ∃ j : Nat,
      m.tasks[j]? = some (.voteSend i k response.id .readLastIndex)) :
    ∃ m' answers, answers.map (·.2.response) = responses ∧ Forwarded i k answers m m' := by
  induction responses generalizing m with
  | nil =>
    exact ⟨m, [], rfl, Machine.RunsBeside.refl m, rfl, List.nodup_nil, nofun, nofun,
      fun _ _ => rfl⟩
  | cons response rest ih =>
    obtain ⟨hFresh, hRest⟩ := List.nodup_cons.mp hOnce
    obtain ⟨j, hTask⟩ := hAsked response List.mem_cons_self
    obtain ⟨m₁, answer, rfl, hRuns, hSessions, hTasks⟩ := Machine.runs_forward hTask
    have hAsked₁ : ∀ response ∈ rest, ∃ j : Nat,
        m₁.tasks[j]? = some (.voteSend i k response.id .readLastIndex) := by
      intro later hLater
      obtain ⟨j', hTask'⟩ := hAsked later (List.mem_cons_of_mem _ hLater)
      have hNe : j ≠ j' := by
        rintro rfl
        obtain ⟨-, -, hId, -⟩ := Task.voteSend.inj (Option.some.inj (hTask.symm.trans hTask'))
        exact hFresh (List.mem_map.mpr ⟨later, hLater, hId.symm⟩)
      exact ⟨j', by rw [hTasks, List.getElem?_set_ne hNe, hTask']⟩
    obtain ⟨m', answers, hResponses, hForwarded⟩ := ih hRest hAsked₁
    refine ⟨m', (j, answer) :: answers, ?_, hForwarded.cons hRuns hSessions hTask hTasks⟩
    rw [List.map_cons, hResponses]

end Answers

section Rounds

theorem VoteSession.takeAll_voteResult (peersLen : Nat) (answers : List (Nat × VoteAnswer)) :
    (session.takeAll peersLen answers).2.voteResult = session.voteResult := by
  have hTake (session : VoteSession) (j : Nat) (answer : VoteAnswer) :
      (session.take peersLen j answer).2.voteResult = session.voteResult := by
    unfold VoteSession.take
    dsimp only
    split_ifs <;> rfl
  induction answers generalizing session with
  | nil => rfl
  | cons first rest ih =>
    rw [VoteSession.takeAll_cons]
    split_ifs
    · rw [ih, hTake]
    · exact hTake _ _ _

/-- A round that waits takes the answers that have been forwarded to it, and sends `Granted`
if they are enough. -/
theorem Machine.runs_answers {peersLen : Nat} {answers : List (Nat × VoteAnswer)}
    (hRound : m.tasks[k]? = some (.round i (.recv peersLen)))
    (hSession : m.voteSessions[i]? = some session) (hRole : m.main.role = some (.candidate i))
    (hNone : session.voteResult = none) (hOnce : (answers.map Prod.fst).Nodup)
    (hForwarded : ∀ answer ∈ answers, ∃ source peer,
      m.tasks[answer.1]? = some (.voteSend source k peer (.forwarded answer.2))) :
    ∃ m', m.RunsBeside m' ∧ m'.voteSessions[i]? = some
      (if (session.takeAll peersLen answers).1 = .sendGranted
        then { (session.takeAll peersLen answers).2 with voteResult := some .granted }
        else (session.takeAll peersLen answers).2) := by
  obtain ⟨m₁, hTakes, hRound₁, hSession₁⟩ :=
    Machine.runs_takeAll hRound hSession hOnce hForwarded
  split_ifs with hEnough
  · rw [hEnough] at hRound₁
    obtain ⟨m', hSend, hSent⟩ := Machine.runs_send (List.mem_pair.mpr (.inl rfl)) hRound₁ hSession₁
      (hTakes.main ▸ hRole) ((VoteSession.takeAll_voteResult _ _).trans hNone)
    exact ⟨m', hTakes.trans hSend, hSent⟩
  · exact ⟨m₁, hTakes, hSession₁⟩

/-- A round of the session that the main loop is in does what `VoteSession.round` says. -/
theorem Machine.runs_round {responses : List RequestVoteResponse}
    (hIdentity : m.node.identity = (id, members)) (hRole : m.main.role = some (.candidate i))
    (hRound : m.tasks[k]? = some (.round i .readPeersLen))
    (hSession : m.voteSessions[i]? = some session) (hNone : session.voteResult = none)
    (hOnce : (responses.map (·.id)).Nodup) (hFresh : ∀ response ∈ responses,
      response.id ∈ unackPeers (members.peers id) session.ackPeers) :
    ∃ m' answers, answers.map (·.2.response) = responses ∧ m.RunsBeside m' ∧
      m'.voteSessions[i]? = some (session.round members id answers) := by
  have hNobody : unackPeers (members.peers id) session.ackPeers = [] → responses = [] := by
    intro hUnack
    refine List.eq_nil_iff_forall_not_mem.mpr fun response hResponse => ?_
    have hMem := hFresh response hResponse
    rw [hUnack] at hMem
    cases hMem
  have hRead := Machine.RunsBeside.of_internal (Machine.runs_readPeers hIdentity hRound) rfl rfl
  by_cases hPeers : members.peers id = []
  · rw [if_pos hPeers] at hRead
    obtain ⟨m', hSend, hSent⟩ := Machine.runs_send (List.mem_pair.mpr (.inr rfl))
      (Machine.setTask_self hRound (.round i .sendNoPeers)) hSession hRole hNone
    refine ⟨m', [], ?_, hRead.trans hSend, ?_⟩
    · rw [hNobody (by rw [hPeers]; rfl), List.map_nil]
    · rw [hSent, VoteSession.round, if_pos hPeers]
  rw [if_neg hPeers] at hRead
  let asking : RoundPc := .readAckPeers members.ids.length (members.peers id)
  have hRound₁ := Machine.setTask_self hRound (.round i asking)
  by_cases hUnack : unackPeers (members.peers id) session.ackPeers = []
  · have hEnds : (m.setTask k (.round i asking)).step (.task k) =
        some ((m.setTask k (.round i asking)).setTask k .ended) := by
      have hSame : (m.setTask k (.round i asking)).voteSessions[i]? = some session := hSession
      simp only [Machine.step, hRound₁, taskStep, roundStep, asking, hSame, Option.bind_eq_bind,
        Option.bind_some, if_pos hUnack]
    refine ⟨_, [], ?_, hRead.trans (Machine.RunsBeside.step hEnds rfl rfl), ?_⟩
    · rw [hNobody hUnack, List.map_nil]
    · rw [VoteSession.round, if_neg hPeers, if_pos hUnack]
      exact hSession
  obtain ⟨m₁, hAsks⟩ := Machine.asks hRound₁ hSession hUnack
  obtain ⟨m₂, answers, rfl, hForwarded⟩ := Machine.runs_forwardAll hOnce fun response hResponse =>
    hAsks.waiting response.id (hFresh response hResponse)
  have hOwn : k ∉ answers.map Prod.fst := fun hMem => by
    obtain ⟨answer, hAnswer, rfl⟩ := List.mem_map.mp hMem
    cases hAsks.round.symm.trans (hForwarded.before answer hAnswer)
  have hRound₂ := (hForwarded.others k hOwn).trans hAsks.round
  have hSession₂ : m₂.voteSessions[i]? = some session := by
    rw [hForwarded.sessions, hAsks.sessions]
    exact hSession
  have hBeside := (hRead.trans (Machine.RunsBeside.step hAsks.step hAsks.main hAsks.node)).trans
    hForwarded.runs
  obtain ⟨m', hAnswers, hSession'⟩ := Machine.runs_answers hRound₂ hSession₂
    (hBeside.main ▸ hRole) hNone hForwarded.once hForwarded.after
  refine ⟨m', answers, rfl, hBeside.trans hAnswers, ?_⟩
  rw [hSession', VoteSession.round, if_neg hPeers, if_neg hUnack]

/-- The retry timer starts another round of the session. -/
theorem Machine.runs_retry (hMain : m.main = .select (.candidate i))
    (hState : m.node.currentState = .candidate) :
    m.RunsBeside (m.spawn [.round i .readPeersLen]) := by
  let m₁ := (m.spawn [.round i .readPeersLen]).goto (.checkRole (.candidate i))
  have hRetry : m.step (.event .retryTimeout) = some m₁ := by
    simp only [Machine.step, hMain, selectStep]
    rfl
  have hStays : m₁.step .main = some (m.spawn [.round i .readPeersLen]) := by
    have hSame : m₁.goto (.select (.candidate i)) = m.spawn [.round i .readPeersLen] := by
      rw [← hMain]
      rfl
    rw [← hSame]
    exact if_pos hState
  exact ⟨(Relation.ReflTransGen.single ⟨_, trivial, hRetry⟩).tail ⟨_, trivial, hStays⟩, rfl, rfl⟩

theorem Unheard.congr {answers answers' : List (Nat × VoteAnswer)}
    (h : Unheard members id session answers)
    (hSame : answers'.map (·.2.response) = answers.map (·.2.response)) :
    Unheard members id session answers' := by
  have hAll (P : RequestVoteResponse → Prop) (hOld : ∀ heard ∈ answers, P heard.2.response) :
      ∀ heard ∈ answers', P heard.2.response := by
    intro heard hHeard
    have hMem := List.mem_map_of_mem (f := (·.2.response)) hHeard
    rw [hSame] at hMem
    obtain ⟨old, hOldMem, hResponse⟩ := List.mem_map.mp hMem
    exact hResponse ▸ hOld old hOldMem
  refine ⟨?_, hAll (·.id ∈ members.peers id) h.peer, hAll (·.reason.stepsDown = false) h.reason,
    hAll (·.id ∉ session.ackPeers) h.fresh⟩
  have hIds := congrArg (List.map (·.id)) hSame
  rw [List.map_map, List.map_map] at hIds
  exact (hIds :) ▸ h.once

def responsesOf (rounds : List (List (Nat × VoteAnswer))) : List (List RequestVoteResponse) :=
  rounds.map (List.map (·.2.response))

/-- The rounds of a session do what `VoteSession.rounds` says. -/
theorem Machine.runs_rounds {rounds : List (List (Nat × VoteAnswer))}
    (hIdentity : m.node.identity = (id, members)) (hMain : m.main = .select (.candidate i))
    (hState : m.node.currentState = .candidate) (hSession : m.voteSessions[i]? = some session)
    (hNone : session.voteResult = none)
    (hWaiting : members.peers id ≠ [] → Waiting members session)
    (hUnheard : Unheard members id session rounds.flatten) :
    ∃ m' heard, m.RunsBeside m' ∧ responsesOf heard = responsesOf rounds ∧
      m'.voteSessions[i]? = some (VoteSession.rounds members id heard session) := by
  induction rounds generalizing m session with
  | nil => exact ⟨m, [], Machine.RunsBeside.refl m, rfl, hSession⟩
  | cons answers rest ih =>
    rw [List.flatten_cons] at hUnheard
    have hRetry := Machine.runs_retry hMain hState
    have hNow := hUnheard.of_append
    have hOnce : ((answers.map (·.2.response)).map (·.id)).Nodup := by
      rw [List.map_map]
      exact hNow.once
    have hFresh : ∀ response ∈ answers.map (·.2.response),
        response.id ∈ unackPeers (members.peers id) session.ackPeers := by
      intro response hResponse
      obtain ⟨answer, hAnswer, rfl⟩ := List.mem_map.mp hResponse
      exact List.mem_filter.mpr
        ⟨hNow.peer answer hAnswer, decide_eq_true (hNow.fresh answer hAnswer)⟩
    obtain ⟨m₁, heard, hSame, hBeside, hSession₁⟩ := Machine.runs_round (m := m.spawn _)
      hIdentity (by rw [hRetry.main, hMain]; rfl) List.getElem?_concat_length hSession hNone
      hOnce hFresh
    have hBefore := hRetry.trans hBeside
    cases hResult : (session.round members id heard).voteResult with
    | some result =>
      refine ⟨m₁, heard :: rest, hBefore, congrArg (· :: _) hSame, ?_⟩
      simp only [VoteSession.rounds, hSession₁, hResult, Option.isSome_some, if_true]
    | none =>
      have hPeers : members.peers id ≠ [] := fun hPeers => by
        rw [VoteSession.round, if_pos hPeers] at hResult
        cases hResult
      have hCase := round_cases hPeers (hWaiting hPeers) (hNow.congr hSame)
      rw [hResult] at hCase
      split_ifs at hCase with hVotes
      have hOthers : (heard ++ rest.flatten).map (·.2.response) =
          (answers ++ rest.flatten).map (·.2.response) := by
        rw [List.map_append, hSame, List.map_append]
      have hLater := (hUnheard.congr hOthers).later hCase
      obtain ⟨m', heard', hAfter, hRest, hSession'⟩ := ih (hBefore.node ▸ hIdentity)
        (hBefore.main.trans hMain) (hBefore.node ▸ hState) hSession₁ hResult
        (fun _ => ⟨hCase.grantedVotes ▸ hVotes, hResult⟩) hLater
      refine ⟨m', heard :: heard', hBefore.trans hAfter, ?_, ?_⟩
      · rw [responsesOf, List.map_cons, hSame]
        exact congrArg (_ :: ·) hRest
      · simp only [VoteSession.rounds, hSession', hResult, Option.isSome_none, Bool.false_eq_true,
          if_false]

theorem grantCount_eq (answers : List (Nat × VoteAnswer)) :
    grantCount answers = (answers.map (·.2.response)).countP (·.voteGranted) := by
  rw [List.countP_map]
  rfl

theorem Heard.congr {rounds rounds' : List (List (Nat × VoteAnswer))}
    (h : Heard members id rounds) (hSame : responsesOf rounds' = responsesOf rounds) :
    Heard members id rounds' ∧ grantCount rounds'.flatten = grantCount rounds.flatten := by
  have hFlat : rounds'.flatten.map (·.2.response) = rounds.flatten.map (·.2.response) := by
    rw [List.map_flatten, List.map_flatten]
    exact congrArg List.flatten hSame
  have hUnheard : Unheard members id { startTerm := 0 } rounds.flatten :=
    ⟨h.once, h.peer, h.reason, fun _ _ hAcked => by cases hAcked⟩
  have hOther := hUnheard.congr hFlat
  exact ⟨⟨hOther.once, hOther.peer, hOther.reason⟩, by rw [grantCount_eq, hFlat, grantCount_eq]⟩

theorem SendsGranted.congr {startTerm : Nat} {rounds rounds' : List (List (Nat × VoteAnswer))}
    (hHeard : Heard members id rounds) (hSame : responsesOf rounds' = responsesOf rounds) :
    SendsGranted members id startTerm rounds' ↔ SendsGranted members id startTerm rounds := by
  obtain ⟨hHeard', hCount⟩ := hHeard.congr hSame
  by_cases hPeers : members.peers id = []
  · exact iff_of_false (rounds_noPeers hPeers rfl) (rounds_noPeers hPeers rfl)
  · rw [sendsGranted_iff hPeers hHeard', sendsGranted_iff hPeers hHeard, hCount]

/-- A candidate that waits in a new session can hear any rounds of it, and has a `Granted` in
the channel of the session after that if `SendsGranted` says so. -/
theorem session_hears (m : Machine S R) (i startTerm : Nat)
    (rounds : List (List (Nat × VoteAnswer))) (hMain : m.main = .select (.candidate i))
    (hState : m.node.currentState = .candidate)
    (hSession : m.voteSessions[i]? = some { startTerm })
    (hHeard : Heard (State.getMembership m.node.state) m.node.id rounds) :
    ∃ m' heard session', Machine.Runs Unrestricted m m' ∧ responsesOf heard = responsesOf rounds ∧
      m'.voteSessions[i]? = some session' ∧
      session' = VoteSession.rounds (State.getMembership m.node.state) m.node.id heard
        { startTerm } ∧
      (session'.voteResult = some .granted ↔
        SendsGranted (State.getMembership m.node.state) m.node.id startTerm rounds) := by
  have hUnheard : Unheard (State.getMembership m.node.state) m.node.id { startTerm }
      rounds.flatten :=
    ⟨hHeard.once, hHeard.peer, hHeard.reason, fun _ _ hAcked => by cases hAcked⟩
  obtain ⟨m', heard, hBeside, hSame, hSession'⟩ := Machine.runs_rounds (m := m) rfl hMain hState
    hSession rfl (fun hPeers => waiting_initial hPeers) hUnheard
  exact ⟨m', heard, _, hBeside.runs, hSame, hSession', rfl, SendsGranted.congr hHeard hSame⟩

end Rounds

end Zeroraft
