import Zeroraft.Model.MemoryState
import Zeroraft.Properties.ElectionSafety
import Zeroraft.Properties.ServedCluster
import Zeroraft.Properties.VoteThreshold
import Zeroraft.Runtime.Exchanges

/-!
# Can a node be elected?

A node at rest asks the others one after the other. Every one that is at rest, has a lower
term and a log that is not ahead votes for it, and when there are enough of them it leads.
-/

namespace Zeroraft

open Routine

variable {S R : Type} [State S R]

/-- The node is in the follower loop, with nothing in hand. -/
structure Machine.AtRest (m : Machine S R) : Prop where
  follower : m.node.currentState = .follower
  main : m.main = .start ∨ m.main = .checkRole .follower ∨ m.main = .select .follower

/-- What the node asks for in the session that it would start next. -/
def RaftNode.candidacy (node : RaftNode S) : RequestVoteRequest :=
  ⟨(node.currentTerm + 1) % u64Size, node.id, State.getLastIndex node.state,
    State.getLastTerm node.state⟩

/-- The server passes on everything that it has, and its node has no reason to refuse. -/
structure Server.WouldVote (s : Server S R) (request : RequestVoteRequest) : Prop where
  rest : s.machine.AtRest
  taken : s.taken = s.inRpc.length
  term : s.machine.node.currentTerm < request.term
  log : ¬ IncompleteLog (State.getLastTerm s.machine.node.state)
    (State.getLastIndex s.machine.node.state) request

variable {m m' : Machine S R}

theorem Machine.runs_of_step {action : Action R} (hStep : m.step action = some m')
    (hInternal : action.internal = true) : Machine.Runs Internally m m' :=
  Relation.ReflTransGen.single ⟨action, hInternal, hStep⟩

section Voter

theorem Machine.AtRest.select (h : m.AtRest) :
    Machine.Runs Internally m (m.goto (.select .follower)) := by
  have hCheck : m.main = .checkRole .follower →
      Machine.Runs Internally m (m.goto (.select .follower)) := by
    intro hMain
    have hNext : m.step .main = some (m.goto (.select .follower)) := by
      simp only [Machine.step, mainStep, hMain]
      exact if_pos h.follower
    exact Machine.runs_of_step hNext rfl
  rcases h.main with hMain | hMain | hMain
  · have hStart : m.step .main = some (m.goto (.checkRole .follower)) := by
      simp only [Machine.step, mainStep, hMain, h.follower]
    have hNext : (m.goto (.checkRole .follower)).step .main =
        some (m.goto (.select .follower)) := by
      simp only [Machine.step, mainStep, Machine.goto]
      exact if_pos h.follower
    exact (Machine.runs_of_step hStart rfl).trans (Machine.runs_of_step hNext rfl)
  · exact hCheck hMain
  · rw [← hMain]
    exact Relation.ReflTransGen.refl

/-- A handler that is left alone gets to its reply. -/
theorem Machine.runs_requestVote {role : RoleLoop} {request : RequestVoteRequest}
    {responseTx : Sender} {response : RequestVoteResponse} {node : RaftNode S} {n : Nat}
    {pc : RequestVotePc} (hMain : m.main = .requestVote role request responseTx pc)
    (hExec : exec (RequestVotePc.step m.node.id request responseTx) n pc m.node =
      some (.ok response, node)) :
    ∃ m₁, Machine.Runs Internally m m₁ ∧ m₁.replies = m.replies ∧
      m₁.step .main = some { m with
        node, main := .checkRole role
        replies := m.replies ++ [.requestVote responseTx ⟨request, response⟩] } := by
  induction n generalizing m pc with
  | zero => cases hExec
  | succ n ih =>
    rw [exec] at hExec
    cases hPc : pc.step m.node.id request responseTx m.node with
    | mk outcome node₁ =>
      rw [hPc] at hExec
      cases outcome with
      | next pc' =>
        let m₁ : Machine S R :=
          { m with node := node₁, main := .requestVote role request responseTx pc' }
        have hNext : m.step .main = some m₁ := by
          simp only [Machine.step, mainStep, hMain, hPc]
          rfl
        have hId : m₁.node.id = m.node.id := step_id hNext
        obtain ⟨m₂, hRuns, hQuiet, hReply⟩ := ih (m := m₁) rfl (by rw [hId]; exact hExec)
        exact ⟨m₂, (Machine.runs_of_step hNext rfl).trans hRuns, hQuiet, hReply⟩
      | done response' =>
        cases hExec
        refine ⟨m, Relation.ReflTransGen.refl, rfl, ?_⟩
        simp only [Machine.step, mainStep, hMain, hPc]
      | failed e => cases hExec

/-- A voter with no reason to refuse grants its vote. -/
theorem respondToRequestVote_grants [RecordsVotes S R] {node : RaftNode S}
    {request : RequestVoteRequest} {responseTx : Sender} (hOpen : responseTx.closed = false)
    (hTerm : node.currentTerm < request.term) (hLog : ¬ IncompleteLog
      (State.getLastTerm node.state) (State.getLastIndex node.state) request) :
    ∃ node', (respondToRequestVote request responseTx).run node =
      (.ok ⟨node.currentTerm, true, node.id, .ok⟩, node') := by
  simp only [respondToRequestVote, getCurrentTerm, getId, getVotedFor, NodeM.run_read_bind,
    NodeM.run_ite]
  rw [if_neg (by omega), if_neg (by omega)]
  simp only [updateCurrentTermAndVotedFor, setCurrentTerm, setVotedFor, changeToFollowerState,
    NodeM.run_bind_assoc]
  rw [NodeM.run_modifyState_bind (RecordsVotes.storeCurrentTerm_ok node.state request.term),
    NodeM.run_bind_assoc,
    NodeM.run_modifyState_bind (RecordsVotes.storeVotedFor_ok _ request.candidateId)]
  simp only [NodeM.run_bind_assoc, NodeM.run_modify_bind, NodeM.run_read_bind, NodeM.run_ite,
    RecordsVotes.getLastIndex_storeVotedFor, RecordsVotes.getLastIndex_storeCurrentTerm,
    RecordsVotes.getLastTerm_storeVotedFor, RecordsVotes.getLastTerm_storeCurrentTerm]
  rw [if_neg hLog]
  exact ⟨_, Sender.run_send_eq_ok_iff.mpr ⟨hOpen, rfl, rfl⟩⟩

theorem Machine.AtRest.grants [RecordsVotes S R] (h : m.AtRest) {request : RequestVoteRequest}
    {responseTx : Sender} (hOpen : responseTx.closed = false)
    (hTerm : m.node.currentTerm < request.term) (hLog : ¬ IncompleteLog
      (State.getLastTerm m.node.state) (State.getLastIndex m.node.state) request) :
    m.Answers (.requestVote request, responseTx)
      (.requestVote responseTx ⟨request, ⟨m.node.currentTerm, true, m.node.id, .ok⟩⟩) := by
  obtain ⟨node, hRespond⟩ := respondToRequestVote_grants hOpen hTerm hLog
  let m₂ := m.goto (.requestVote .follower request responseTx .loadTerm)
  have hExec : exec (RequestVotePc.step m₂.node.id request responseTx) 10 .loadTerm m₂.node =
      some (.ok ⟨m.node.currentTerm, true, m.node.id, .ok⟩, node) :=
    (exec_requestVote request responseTx m.node).trans (congrArg some hRespond)
  obtain ⟨m₃, hHandled, hQuiet, hReply⟩ := Machine.runs_requestVote rfl hExec
  exact Machine.Answers.mk h.select rfl rfl hHandled hQuiet hReply rfl

end Voter

section Candidate

variable {members : MembershipMap} {id : NodeId} {term i k votes : Nat} {rest : List NodeId}

/-- The node has started a session, and its first round. -/
def Machine.campaigning (m : Machine S R) : Machine S R :=
  { m with
    main := .select (.candidate m.voteSessions.length)
    node := { m.node with
      currentState := .candidate
      currentTerm := (m.node.currentTerm + 1) % u64Size
      votedFor := some m.node.id }
    voteSessions := m.voteSessions ++ [{ startTerm := (m.node.currentTerm + 1) % u64Size }]
    tasks := m.tasks ++ [.round m.voteSessions.length .readPeersLen] }

theorem Machine.AtRest.campaigns (h : m.AtRest) : Machine.Runs Internally m m.campaigning := by
  have hRun : (m.goto (.select .follower)).run Internally
      (.event .electionTimeout :: List.replicate 6 .main) = some m.campaigning := rfl
  exact h.select.trans (Machine.runs_of_run hRun)

/-- Round `k` of session `i` waits for the votes of the rest, whose tasks have not begun. -/
structure Canvassing (members : MembershipMap) (id : NodeId) (term i k votes : Nat)
    (rest : List NodeId) (m : Machine S R) : Prop where
  main : m.main = .select (.candidate i)
  identity : m.node.identity = (id, members)
  term : m.node.currentTerm = term
  round : m.tasks[k]? = some (.round i (.recv members.ids.length))
  session : ∃ session, m.voteSessions[i]? = some session ∧ session.grantedVotes = votes ∧
    session.voteResult = none
  waiting : ∀ peer ∈ rest, ∃ j : Nat, m.tasks[j]? = some (.voteSend i k peer .readLastIndex)

/-- A result that has been sent makes the node the leader. -/
theorem Machine.runs_leads {session : VoteSession} {result : VoteResult}
    (hMain : m.main = .select (.candidate i)) (hSession : m.voteSessions[i]? = some session)
    (hResult : session.voteResult = some result) :
    ∃ m', Machine.Runs Internally m m' ∧ m'.replies = m.replies ∧
      m'.Leads m.node.currentTerm := by
  let m₁ := (m.setVoteSession i { session with voteResult := none }).goto (.becomeLeader i result)
  have hTaken : m.step (.event .voteResult) = some m₁ := by
    simp only [Machine.step, hMain, selectStep, hSession, hResult, Option.bind_eq_bind,
      Option.bind_some]
    rfl
  obtain ⟨m', hLeads⟩ : ∃ m', m₁.step .main = some m' ∧ m'.replies = m.replies ∧
      m'.Leads m.node.currentTerm := ⟨_, rfl, rfl, rfl, rfl⟩
  exact ⟨m', (Machine.runs_of_step hTaken rfl).trans (Machine.runs_of_step hLeads.1 rfl), hLeads.2⟩

/-- The round sends its result, which makes the node the leader. -/
theorem Machine.runs_wins {session : VoteSession} {result : VoteResult} {pc : RoundPc}
    (hPc : (pc, result) ∈ [(RoundPc.sendGranted, VoteResult.granted), (.sendNoPeers, .noPeers)])
    (hMain : m.main = .select (.candidate i)) (hRound : m.tasks[k]? = some (.round i pc))
    (hSession : m.voteSessions[i]? = some session) (hResult : session.voteResult = none) :
    ∃ m', Machine.Runs Internally m m' ∧ m'.replies = m.replies ∧
      m'.Leads m.node.currentTerm := by
  let sent : VoteSession := { session with voteResult := some result }
  have hSend : sendVoteResult i result m = some (m.setVoteSession i sent) := by
    simp only [sendVoteResult, hSession, hMain, Main.role, hResult, Option.bind_eq_bind,
      Option.bind_some, ne_eq, not_true_eq_false, Option.isSome_none, Bool.false_eq_true, if_false]
    rfl
  have hNext : roundStep k i pc m = some (.ended, m.setVoteSession i sent) := by
    rcases List.mem_pair.mp hPc with hPc | hPc
    all_goals
      obtain ⟨rfl, rfl⟩ := Prod.mk.inj hPc
      simp only [roundStep, hSend, Option.bind_eq_bind, Option.bind_some]
  let m₁ := (m.setVoteSession i sent).setTask k .ended
  have hStep : m.step (.task k) = some m₁ := by
    simp only [Machine.step, hRound, taskStep, hNext, Option.bind_eq_bind, Option.bind_some]
    rfl
  have hSent : m₁.voteSessions[i]? = some sent :=
    List.getElem?_set_self (List.getElem?_eq_some_iff.mp hSession).1
  obtain ⟨m', hRuns, hQuiet, hLeads⟩ := Machine.runs_leads (m := m₁) hMain hSent rfl
  exact ⟨m', (Machine.runs_of_step hStep rfl).trans hRuns, hQuiet, hLeads⟩

def RaftNode.ballot (node : RaftNode S) : RequestVoteRequest :=
  requestVoteRequest node (State.getLastIndex node.state) (State.getLastTerm node.state)

/-- The task of the peer has put its request on `out_rpc_tx`. -/
def Machine.asked (m : Machine S R) (i k j : Nat) (peer : NodeId) : Machine S R :=
  Machine.setTask { m with outRpc := m.outRpc ++ [⟨peer, .requestVote m.node.ballot, j⟩] } j
    (.voteSend i k peer (.wait m.node.ballot))

theorem Machine.step_voteSend {j : Nat} {peer : NodeId} {pc pc' : VoteSendPc}
    (hTask : m.tasks[j]? = some (.voteSend i k peer pc))
    (hStep : voteSendStep j i k peer pc m = some (.voteSend i k peer pc', m')) :
    m.step (.task j) = some (m'.setTask j (.voteSend i k peer pc')) := by
  simp only [Machine.step, hTask, taskStep, hStep, Option.bind_eq_bind, Option.bind_some]

theorem Machine.runs_asked {j : Nat} {peer : NodeId}
    (hTask : m.tasks[j]? = some (.voteSend i k peer .readLastIndex)) :
    Machine.Runs Internally m (m.asked i k j peer) := by
  let lastLogIndex := State.getLastIndex m.node.state
  let lastLogTerm := State.getLastTerm m.node.state
  let m₁ := m.setTask j (.voteSend i k peer (.readLastTerm lastLogIndex))
  let m₂ := m₁.setTask j (.voteSend i k peer (.send lastLogIndex lastLogTerm))
  have hTask₁ : m₁.tasks[j]? = _ := Machine.setTask_self hTask _
  have hTask₂ : m₂.tasks[j]? = _ := Machine.setTask_self hTask₁ _
  have hFirst : m.step (.task j) = some m₁ := Machine.step_voteSend hTask rfl
  have hSecond : m₁.step (.task j) = some m₂ := Machine.step_voteSend hTask₁ rfl
  have hThird : m₂.step (.task j) = some (m.asked i k j peer) := by
    rw [Machine.step_voteSend hTask₂ rfl]
    simp only [Machine.asked, Machine.setTask, m₂, m₁, List.set_set]
    rfl
  exact (Machine.runs_of_step hFirst rfl).trans
    ((Machine.runs_of_step hSecond rfl).trans (Machine.runs_of_step hThird rfl))

/-- The round has counted one vote more, which task `j` has brought. -/
structure Counted (peersLen i k j votes : Nat) (m m' : Machine S R) : Prop where
  main : m'.main = m.main
  node : m'.node = m.node
  replies : m'.replies = m.replies
  outRpc : m'.outRpc = m.outRpc
  round : m'.tasks[k]? = some (.round i
    (if EnoughVotes peersLen (votes + 1) then .sendGranted else .recv peersLen))
  session : ∃ session, m'.voteSessions[i]? = some session ∧ session.grantedVotes = votes + 1 ∧
    session.voteResult = none
  others : ∀ other, other ≠ k → other ≠ j → m'.tasks[other]? = m.tasks[other]?

theorem Machine.runs_counted {session : VoteSession} {answer : VoteAnswer} {peer : NodeId}
    {peersLen j : Nat} (hRound : m.tasks[k]? = some (.round i (.recv peersLen)))
    (hTask : m.tasks[j]? = some (.voteSend i k peer (.forwarded answer)))
    (hSession : m.voteSessions[i]? = some session) (hResult : session.voteResult = none)
    (hGranted : answer.response.voteGranted = true) (hReason : answer.response.reason = .ok) :
    ∃ m', Machine.Runs Internally m m' ∧ Counted peersLen i k j session.grantedVotes m m' := by
  have hNe : j ≠ k := by
    rintro rfl
    cases hRound.symm.trans hTask
  have hPlace := (List.getElem?_eq_some_iff.mp hSession).1
  let taken : VoteSession := { session with
    ackPeers := session.ackPeers.insert answer.response.id
    grants := session.grants ++ [(j, answer)] }
  let counted : VoteSession := { taken with grantedVotes := session.grantedVotes + 1 }
  let m₁ := ((m.setVoteSession i taken).setTask k (.round i (.increment peersLen))).setTask j .ended
  let m₂ := (m₁.setVoteSession i counted).setTask k (.round i (.compare peersLen))
  let pc : RoundPc := if EnoughVotes peersLen (session.grantedVotes + 1) then .sendGranted
    else .recv peersLen
  let m₃ := m₂.setTask k (.round i pc)
  have hRecv : m.step (.recv k j) = some m₁ := by
    refine Machine.step_recv hRound hTask ?_
    simp only [roundRecv, hSession, hReason, hGranted, RequestVoteResponseReason.stepsDown,
      Option.bind_eq_bind, Option.bind_some, Bool.false_eq_true, if_true, if_false]
    rfl
  have hRound₁ : m₁.tasks[k]? = some (.round i (.increment peersLen)) :=
    (Machine.setTask_of_ne hNe _).trans
      (Machine.setTask_self (m := m.setVoteSession i taken) hRound _)
  have hSession₁ : m₁.voteSessions[i]? = some taken := List.getElem?_set_self hPlace
  have hIncrement : m₁.step (.task k) = some m₂ := by
    refine Machine.step_round hRound₁ ?_
    simp only [roundStep, hSession₁, Option.bind_eq_bind, Option.bind_some]
    rfl
  have hRound₂ : m₂.tasks[k]? = some (.round i (.compare peersLen)) :=
    Machine.setTask_self (m := m₁.setVoteSession i counted) hRound₁ _
  have hSession₂ : m₂.voteSessions[i]? = some counted :=
    List.getElem?_set_self (List.getElem?_eq_some_iff.mp hSession₁).1
  have hCompare : m₂.step (.task k) = some m₃ := by
    refine Machine.step_round hRound₂ ?_
    simp only [roundStep, hSession₂, Option.bind_eq_bind, Option.bind_some]
    rfl
  refine ⟨m₃, (Machine.runs_of_step hRecv rfl).trans ((Machine.runs_of_step hIncrement rfl).trans
    (Machine.runs_of_step hCompare rfl)), rfl, rfl, rfl, rfl, Machine.setTask_self hRound₂ _,
    ⟨counted, hSession₂, rfl, hResult⟩, fun other hk hj => ?_⟩
  have hFirst : m₁.tasks[other]? = m.tasks[other]? :=
    (Machine.setTask_of_ne hj.symm _).trans (Machine.setTask_of_ne hk.symm _)
  exact (Machine.setTask_of_ne hk.symm _).trans ((Machine.setTask_of_ne hk.symm _).trans hFirst)

/-- A task that has asked takes the response of its peer. -/
theorem Machine.step_answerVote {j : Nat} {peer : NodeId} {request : RequestVoteRequest}
    {response : RequestVoteResponse} (hId : response.id = peer)
    (hTask : m.tasks[j]? = some (.voteSend i k peer (.wait request))) :
    m.step (.answerVote j response) =
      some (Machine.setTask { m with answers := m.answers ++ [(j, ⟨request, response⟩)] } j
        (.voteSend i k peer (.forwarded ⟨request, response⟩))) := by
  simp only [Machine.step, hTask, Task.answerVote, hId, if_true, Option.bind_eq_bind,
    Option.bind_some]

/-- The vote of the peer is counted once its response has arrived. -/
theorem Canvassing.counts (h : Canvassing members id term i k votes rest m) {j : Nat}
    {peer : NodeId} (hTask : m.tasks[j]? = some (.voteSend i k peer .readLastIndex))
    {response : RequestVoteResponse} (hId : response.id = peer)
    (hGranted : response.voteGranted = true) (hReason : response.reason = .ok) :
    ∃ m₁ m', (m.asked i k j peer).step (.answerVote j response) = some m₁ ∧
      Machine.Runs Internally m₁ m' ∧ m₁.replies = m.replies ∧
      Counted members.ids.length i k j votes (m.asked i k j peer) m' := by
  obtain ⟨session, hSession, rfl, hResult⟩ := h.session
  have hNe : j ≠ k := by
    rintro rfl
    cases hTask.symm.trans h.round
  let answer : VoteAnswer := ⟨m.node.ballot, response⟩
  let answered : Machine S R :=
    { m.asked i k j peer with answers := (m.asked i k j peer).answers ++ [(j, answer)] }
  have hAsked : (m.asked i k j peer).tasks[j]? = _ := Machine.setTask_self hTask _
  have hRound : answered.tasks[k]? = some (.round i (.recv members.ids.length)) :=
    (Machine.setTask_of_ne hNe _).trans h.round
  let forwarded : Task R := .voteSend i k peer (.forwarded answer)
  have hRound₁ := (Machine.setTask_of_ne hNe forwarded).trans hRound
  have hTask₁ := Machine.setTask_self (m := answered) hAsked forwarded
  obtain ⟨m', hRuns, hCounted⟩ :=
    Machine.runs_counted hRound₁ hTask₁ hSession hResult hGranted hReason
  refine ⟨_, m', Machine.step_answerVote hId hAsked, hRuns, rfl, hCounted.main, hCounted.node,
    hCounted.replies, hCounted.outRpc, hCounted.round, hCounted.session, fun other hk hj => ?_⟩
  exact (hCounted.others other hk hj).trans (Machine.setTask_of_ne hj.symm _)

omit [State S R] in
theorem Machine.setTask_setTask (m : Machine S R) (k : Nat) (task task' : Task R) :
    (m.setTask k task).setTask k task' = m.setTask k task' :=
  congrArg (fun tasks => { m with tasks }) (List.set_set ..)

/-- The round of a new session looks for the peers to ask. -/
theorem Machine.runs_readPeers (hIdentity : m.node.identity = (id, members))
    (hRound : m.tasks[k]? = some (.round i .readPeersLen)) :
    Machine.Runs Internally m (m.setTask k (.round i
      (if members.peers id = [] then .sendNoPeers
        else .readAckPeers members.ids.length (members.peers id)))) := by
  obtain ⟨rfl, rfl⟩ := Prod.mk.inj hIdentity
  let peersLen := (State.getMembership m.node.state).ids.length
  have hFirst : m.step (.task k) = some (m.setTask k (.round i (.readPeers peersLen))) :=
    Machine.step_round hRound rfl
  have hSecond :=
    Machine.step_round (Machine.setTask_self hRound (.round i (.readPeers peersLen))) rfl
  rw [Machine.setTask_setTask] at hSecond
  exact (Machine.runs_of_step hFirst rfl).trans (Machine.runs_of_step hSecond rfl)

omit [State S R] in
theorem Machine.campaigning_round : m.campaigning.tasks[m.tasks.length]? =
    some (.round m.voteSessions.length .readPeersLen) := List.getElem?_concat_length

theorem Machine.campaigning_session : m.campaigning.voteSessions[m.voteSessions.length]? =
    some { startTerm := m.node.candidacy.term } := List.getElem?_concat_length

/-- A node at rest that has no peers elects itself. -/
theorem Machine.AtRest.leads (h : m.AtRest) (hIdentity : m.node.identity = (id, members))
    (hPeers : members.peers id = []) :
    ∃ m', Machine.Runs Internally m m' ∧ m'.replies = m.replies ∧
      m'.Leads m.node.candidacy.term := by
  have hRead := Machine.runs_readPeers (m := m.campaigning) hIdentity Machine.campaigning_round
  rw [if_pos hPeers] at hRead
  let m₁ := m.campaigning.setTask m.tasks.length (.round m.voteSessions.length .sendNoPeers)
  have hRound₁ : m₁.tasks[m.tasks.length]? = some (.round m.voteSessions.length .sendNoPeers) :=
    Machine.setTask_self Machine.campaigning_round _
  obtain ⟨m', hRuns, hQuiet, hLeads⟩ := Machine.runs_wins (List.mem_pair.mpr (.inr rfl)) rfl hRound₁
    Machine.campaigning_session rfl
  exact ⟨m', (h.campaigns.trans hRead).trans hRuns, hQuiet, hLeads⟩

/-- The round has spawned a task for every peer that has not acknowledged the session. -/
structure Asks (peersLen i k : Nat) (peers : List NodeId) (m m' : Machine S R) : Prop where
  step : m.step (.task k) = some m'
  main : m'.main = m.main
  node : m'.node = m.node
  replies : m'.replies = m.replies
  outRpc : m'.outRpc = m.outRpc
  sessions : m'.voteSessions = m.voteSessions
  round : m'.tasks[k]? = some (.round i (.recv peersLen))
  waiting : ∀ peer ∈ peers, ∃ j : Nat, m'.tasks[j]? = some (.voteSend i k peer .readLastIndex)

theorem Machine.asks {peersLen : Nat} {peers : List NodeId} {session : VoteSession}
    (hRound : m.tasks[k]? = some (.round i (.readAckPeers peersLen peers)))
    (hSession : m.voteSessions[i]? = some session)
    (hUnack : unackPeers peers session.ackPeers ≠ []) :
    ∃ m', Asks peersLen i k (unackPeers peers session.ackPeers) m m' := by
  let sends : List (Task R) :=
    (unackPeers peers session.ackPeers).map fun peer => .voteSend i k peer .readLastIndex
  have hStep : m.step (.task k) = some ((m.spawn sends).setTask k (.round i (.recv peersLen))) :=
    Machine.step_round hRound (by
      simp only [roundStep, hSession, Option.bind_eq_bind, Option.bind_some, if_neg hUnack]
      rfl)
  have hLength := (List.getElem?_eq_some_iff.mp hRound).1
  have hRound₁ : (m.spawn sends).tasks[k]? = _ := tasks_of_append hRound ⟨sends, rfl⟩
  refine ⟨_, hStep, rfl, rfl, rfl, rfl, rfl, Machine.setTask_self hRound₁ _, ?_⟩
  intro peer hPeer
  obtain ⟨n, hn, hAt⟩ := List.getElem_of_mem
    (List.mem_map_of_mem (f := fun peer => (.voteSend i k peer .readLastIndex : Task R)) hPeer)
  refine ⟨m.tasks.length + n, (Machine.setTask_of_ne (by omega) _).trans ?_⟩
  have hRight : (m.tasks ++ sends)[m.tasks.length + n]? = sends[n]? := by
    rw [List.getElem?_append_right (by omega), Nat.add_sub_cancel_left]
  exact hRight.trans (List.getElem?_eq_some_iff.mpr ⟨hn, hAt⟩)

/-- A node at rest that has peers starts to ask them all. -/
theorem Machine.AtRest.canvasses (h : m.AtRest) (hIdentity : m.node.identity = (id, members))
    (hPeers : members.peers id ≠ []) :
    ∃ m', Machine.Runs Internally m m' ∧ m'.replies = m.replies ∧ m'.outRpc = m.outRpc ∧
      m'.node.ballot = m.node.candidacy ∧ Canvassing members id m.node.candidacy.term
        m.voteSessions.length m.tasks.length 1 (members.peers id) m' := by
  let i := m.voteSessions.length
  let k := m.tasks.length
  let peers := members.peers id
  have hRead := Machine.runs_readPeers (m := m.campaigning) hIdentity Machine.campaigning_round
  rw [if_neg hPeers] at hRead
  let m₁ := m.campaigning.setTask k (.round i (.readAckPeers members.ids.length peers))
  have hRound₁ : m₁.tasks[k]? = some (.round i (.readAckPeers members.ids.length peers)) :=
    Machine.setTask_self Machine.campaigning_round _
  have hSession₁ : m₁.voteSessions[i]? = some { startTerm := m.node.candidacy.term } :=
    Machine.campaigning_session
  have hUnack : unackPeers peers [] = peers := List.filter_eq_self.mpr fun _ _ => rfl
  obtain ⟨m', hAsks⟩ := Machine.asks hRound₁ hSession₁ (hUnack.symm ▸ hPeers)
  refine ⟨m', (h.campaigns.trans hRead).trans (Machine.runs_of_step hAsks.step rfl),
    hAsks.replies, hAsks.outRpc, ?_, hAsks.main, ?_, ?_, hAsks.round,
    ⟨_, by rw [hAsks.sessions]; exact hSession₁, rfl, rfl⟩, ?_⟩
  · rw [hAsks.node]
    rfl
  · rw [hAsks.node]
    exact hIdentity
  · rw [hAsks.node]
    rfl
  · intro peer hPeer
    exact hAsks.waiting peer (hUnack.symm ▸ hPeer)

end Candidate

section Election

variable [DecidableEq R] {members : MembershipMap} {c : ServedCluster S R} {i peer : NodeId}
  {term session k votes : Nat} {request : RequestVoteRequest}

/-- The server has nothing to forward. -/
def Server.Forwarded (s : Server S R) : Prop :=
  s.forwarder = .idle ∧ s.forwarded = s.machine.outRpc.length

/-- One exchange brings the vote of a peer that would vote. -/
theorem Canvassing.exchange [RecordsVotes S R] {rest : List NodeId} (hMember : i ∈ members.ids)
    (h : Canvassing members i term session k votes rest (c i).machine)
    (hBallot : (c i).machine.node.ballot = request) (hForwarded : (c i).Forwarded)
    (hRest : peer ∈ rest) (hPeer : peer ∈ members.peers i)
    (hId : (c peer).machine.node.id = peer) (hVote : (c peer).WouldVote request) :
    ∃ c' j, ServedCluster.Runs members (fun _ _ => True) c c' ∧ (c' i).Forwarded ∧
      (c i).machine.tasks[j]? = some (.voteSend session k peer .readLastIndex) ∧
      Counted members.ids.length session k j votes ((c i).machine.asked session k j peer)
        (c' i).machine ∧ ∀ other, other ≠ i → other ≠ peer → c' other = c other := by
  subst hBallot
  obtain ⟨hKnown, hNe⟩ := MembershipMap.mem_peers.mp hPeer
  obtain ⟨j, hTask⟩ := h.waiting peer hRest
  let asked := (c i).machine.asked session k j peer
  let c₀ := c.set i { c i with machine := asked }
  have hOwn₀ : c₀ i = { c i with machine := asked } := ServedCluster.set_self c i _
  have hPeer₀ : c₀ peer = c peer := ServedCluster.set_of_ne c _ hNe
  let out : OutRpc R := ⟨peer, .requestVote (c i).machine.node.ballot, j⟩
  have hAsk : ServedCluster.Runs members (fun _ _ => True) c c₀ :=
    ServedCluster.runs_of_internal hMember (Machine.runs_asked hTask) rfl
  let response : RequestVoteResponse :=
    ⟨(c peer).machine.node.currentTerm, true, (c peer).machine.node.id, .ok⟩
  have hGrants : (c₀ out.peer).machine.Answers (out.received i)
      (.requestVote ⟨i, j, false⟩ ⟨(c i).machine.node.ballot, response⟩) := by
    rw [show c₀ out.peer = c peer from hPeer₀]
    exact hVote.rest.grants rfl hVote.term hVote.log
  obtain ⟨m₁, m', hArrives, hRuns, hQuiet, hCounted⟩ :=
    h.counts hTask (show response.id = peer from hId) rfl rfl
  have hOut : (c₀ i).machine.outRpc[(c₀ i).forwarded]? = some out := by
    rw [hOwn₀, hForwarded.2]
    exact List.getElem?_concat_length
  have hMembers : State.getMembership (c₀ i).machine.node.state = members := by
    rw [hOwn₀]
    exact congrArg Prod.snd h.identity
  obtain ⟨c₁, hExchange, hOwn₁, hOther₁⟩ := ServedCluster.exchange hMember hKnown hNe
    (by rw [hOwn₀]; exact hForwarded.1) hOut (hMembers ▸ hKnown) (by rw [hPeer₀]; exact hVote.taken)
    hGrants rfl rfl (by rw [hOwn₀]; exact hArrives)
  have hRuns₁ : Machine.Runs Internally (c₁ i).machine m' := by
    rw [hOwn₁]
    exact hRuns
  have hQuiet₁ : m'.replies = (c₁ i).machine.replies := by
    rw [hOwn₁]
    exact hCounted.replies.trans hQuiet.symm
  have hCount := ServedCluster.runs_of_internal hMember hRuns₁ hQuiet₁
  refine ⟨_, j, (hAsk.trans hExchange).trans hCount, ?_, hTask, ?_, fun other hi hOther => ?_⟩
  · rw [ServedCluster.set_self, hOwn₁, hOwn₀]
    refine ⟨rfl, ?_⟩
    rw [hCounted.outRpc, Machine.asked, Machine.setTask, List.length_append]
    exact congrArg (· + 1) hForwarded.2
  · rw [ServedCluster.set_self]
    exact hCounted
  · rw [ServedCluster.set_of_ne _ _ hi, hOther₁ other hi hOther]
    exact ServedCluster.set_of_ne c _ hi

omit [DecidableEq R] in
/-- The round goes on with the votes that are missing, when there are not enough yet. -/
theorem Canvassing.next {rest : List NodeId} {m m' : Machine S R} {j : Nat}
    (h : Canvassing members i term session k votes (peer :: rest) m)
    (hTask : m.tasks[j]? = some (.voteSend session k peer .readLastIndex))
    (hCounted : Counted members.ids.length session k j votes (m.asked session k j peer) m')
    (hFew : ¬ EnoughVotes members.ids.length (votes + 1)) (hFresh : peer ∉ rest) :
    Canvassing members i term session k (votes + 1) rest m' := by
  have hRound := hCounted.round
  rw [if_neg hFew] at hRound
  refine ⟨hCounted.main.trans h.main, ?_, ?_, hRound, hCounted.session, fun other hOther => ?_⟩
  · rw [hCounted.node]
    exact h.identity
  · rw [hCounted.node]
    exact h.term
  · obtain ⟨n, hn⟩ := h.waiting other (List.mem_cons_of_mem _ hOther)
    have hRoundTask : n ≠ k := by
      rintro rfl
      cases hn.symm.trans h.round
    have hOtherTask : n ≠ j := by
      rintro rfl
      cases hn.symm.trans hTask
      exact hFresh hOther
    exact ⟨n, ((hCounted.others n hRoundTask hOtherTask).trans
      (Machine.setTask_of_ne hOtherTask.symm _)).trans hn⟩

/-- The voters are asked one after the other, until there are enough votes. -/
theorem Canvassing.elects [RecordsVotes S R] {voters : List NodeId} (hMember : i ∈ members.ids)
    (h : Canvassing members i term session k votes voters (c i).machine)
    (hBallot : (c i).machine.node.ballot = request) (hForwarded : (c i).Forwarded)
    (hVoters : voters.Nodup) (hPeers : voters ⊆ members.peers i)
    (hId : ∀ peer ∈ voters, (c peer).machine.node.id = peer)
    (hVote : ∀ peer ∈ voters, (c peer).WouldVote request)
    (hFew : ¬ EnoughVotes members.ids.length votes)
    (hEnough : EnoughVotes members.ids.length (votes + voters.length)) :
    ∃ c', ServedCluster.Runs members (fun _ _ => True) c c' ∧ (c' i).machine.Leads term := by
  induction voters generalizing c votes with
  | nil => exact absurd hEnough hFew
  | cons peer rest ih =>
    obtain ⟨hFresh, hDistinct⟩ := List.nodup_cons.mp hVoters
    obtain ⟨c₁, j, hRuns, hForwarded₁, hTask, hCounted, hOther⟩ := h.exchange hMember hBallot
      hForwarded List.mem_cons_self (hPeers List.mem_cons_self) (hId peer List.mem_cons_self)
      (hVote peer List.mem_cons_self)
    by_cases hNow : EnoughVotes members.ids.length (votes + 1)
    · have hRound := hCounted.round
      rw [if_pos hNow] at hRound
      obtain ⟨result, hSession, -, hResult⟩ := hCounted.session
      obtain ⟨m', hWins, hQuiet, hLeads⟩ := Machine.runs_wins (List.mem_pair.mpr (.inl rfl))
        (hCounted.main.trans h.main) hRound hSession hResult
      refine ⟨_, hRuns.trans (ServedCluster.runs_of_internal hMember hWins hQuiet), ?_⟩
      rw [ServedCluster.set_self]
      rw [hCounted.node] at hLeads
      exact h.term ▸ hLeads
    · have hSame : ∀ other ∈ rest, c₁ other = c other := by
        intro other hMem
        obtain ⟨-, hNe⟩ := MembershipMap.mem_peers.mp (hPeers (List.mem_cons_of_mem _ hMem))
        exact hOther other hNe fun hSame => hFresh (hSame ▸ hMem)
      obtain ⟨c', hLater, hLeads⟩ := ih (h.next hTask hCounted hNow hFresh)
        ((congrArg RaftNode.ballot hCounted.node).trans hBallot) hForwarded₁ hDistinct
        (fun _ hMem => hPeers (List.mem_cons_of_mem _ hMem))
        (fun other hMem => hSame other hMem ▸ hId other (List.mem_cons_of_mem _ hMem))
        (fun other hMem => hSame other hMem ▸ hVote other (List.mem_cons_of_mem _ hMem)) hNow
        (by rwa [List.length_cons, Nat.add_comm rest.length, ← Nat.add_assoc] at hEnough)
      exact ⟨c', hRuns.trans hLater, hLeads⟩

/-- A node at rest becomes the leader of the next term in some run when enough of its peers
would vote for it, and when it has no peers. -/
theorem electable [RecordsVotes S R] (members : MembershipMap) (c : ServedCluster S R) (i : NodeId)
    (voters : List NodeId) (hMember : i ∈ members.ids) (hRest : (c i).machine.AtRest)
    (hForwarded : (c i).Forwarded)
    (hIdentity : ∀ j ∈ members.ids, (c j).machine.node.identity = (j, members))
    (hVoters : voters.Nodup) (hPeers : voters ⊆ members.peers i)
    (hVote : ∀ peer ∈ voters, (c peer).WouldVote (c i).machine.node.candidacy)
    (hEnough : members.peers i = [] ∨ EnoughVotes members.ids.length (1 + voters.length)) :
    ∃ c', ServedCluster.Runs members (fun _ _ => True) c c' ∧
      (c' i).machine.Leads (c i).machine.node.candidacy.term := by
  by_cases hAlone : members.peers i = []
  · obtain ⟨m, hRuns, hQuiet, hLeads⟩ := hRest.leads (hIdentity i hMember) hAlone
    refine ⟨_, ServedCluster.runs_of_internal hMember hRuns hQuiet, ?_⟩
    rw [ServedCluster.set_self]
    exact hLeads
  · obtain ⟨m, hRuns, hQuiet, hOut, hBallot, hCanvassing⟩ :=
      hRest.canvasses (hIdentity i hMember) hAlone
    let c₁ := c.set i { c i with machine := m }
    have hOwn : c₁ i = { c i with machine := m } := ServedCluster.set_self c i _
    have hSame : ∀ peer ∈ voters, c₁ peer = c peer := fun peer hMem =>
      ServedCluster.set_of_ne c _ (MembershipMap.mem_peers.mp (hPeers hMem)).2
    have hWaiting := fun peer hMem => hCanvassing.waiting peer (hPeers (a := peer) hMem)
    have hAsks : Canvassing members i (c i).machine.node.candidacy.term
        (c i).machine.voteSessions.length (c i).machine.tasks.length 1 voters (c₁ i).machine := by
      rw [hOwn]
      exact { hCanvassing with waiting := hWaiting }
    have hAsked : (c₁ i).machine.node.ballot = (c i).machine.node.candidacy := by
      rw [hOwn]
      exact hBallot
    have hForwarded₁ : (c₁ i).Forwarded := by
      rw [hOwn]
      exact ⟨hForwarded.1, hForwarded.2.trans (congrArg List.length hOut).symm⟩
    have hFew : ¬ EnoughVotes members.ids.length 1 := by
      have hSome := List.length_pos_of_mem hMember
      unfold EnoughVotes
      omega
    have hIds : ∀ peer ∈ voters, (c₁ peer).machine.node.id = peer := by
      intro peer hMem
      rw [hSame peer hMem]
      exact congrArg Prod.fst (hIdentity peer (MembershipMap.mem_peers.mp (hPeers hMem)).1)
    obtain ⟨c', hLater, hLeads⟩ := hAsks.elects hMember hAsked hForwarded₁ hVoters hPeers hIds
      (fun peer hMem => by rw [hSame peer hMem]; exact hVote peer hMem) hFew
      (hEnough.resolve_left hAlone)
    exact ⟨c', (ServedCluster.runs_of_internal hMember hRuns hQuiet).trans hLater, hLeads⟩

/-- Three nodes that have just been started on the `State` of the tests. -/
def servedThree : ServedCluster (MemoryState Unit) Unit := fun i =>
  let state : MemoryState Unit := { MemoryState.default with membership := threeNodes }
  { machine := { node := ⟨i, 0, none, state, .follower, none⟩ } }

theorem electable_three : ∃ c, ServedCluster.Runs threeNodes (fun _ _ => True) servedThree c ∧
    (c 1).machine.Leads 1 := by
  have hRest : ∀ i, (servedThree i).machine.AtRest := fun i => ⟨rfl, .inl rfl⟩
  refine electable threeNodes servedThree 1 [2, 3] (by decide) (hRest 1) ⟨rfl, rfl⟩ (fun _ _ => rfl)
    (by decide) (by decide) (fun peer _ => ⟨hRest peer, rfl, ?_, ?_⟩) (.inr (by decide))
  · exact Nat.zero_lt_one
  · show ¬ IncompleteLog 0 0 ⟨1, 1, 0, 0⟩
    decide

end Election

end Zeroraft
