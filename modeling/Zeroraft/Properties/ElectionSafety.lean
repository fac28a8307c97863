import Zeroraft.Properties.Ballots
import Zeroraft.Properties.LeaderLog
import Zeroraft.Properties.Quorum
import Zeroraft.Runtime.TermSteps

/-!
# Can two nodes lead in one term?

A leader has the votes of a majority for the term in which its session was started, and
no node votes twice in a term as long as its terms do not fall. The term of the leader is
that of its session unless a task has moved the node to another one in between.
-/

namespace Zeroraft

variable {S R : Type}

def Machine.Leads (m : Machine S R) (term : Nat) : Prop :=
  m.node.currentState = .leader ∧ m.node.currentTerm = term

/-- The node has written the term of a message and is about to write that it follows. -/
def Machine.StepsDown (m : Machine S R) : Prop :=
  m.main.updating = true ∨ ∃ task ∈ m.tasks, task.stepDownPc = some .becomeFollower

def Main.electedBy : Main R → Option Nat
  | .becomeLeader i _ => some i
  | _ => none

/-- A node becomes the leader in the term of its session only, and no timeout comes
between the two writes of a task that steps down. -/
def TakesRole (m : Machine S R) : Action R → Prop
  | .main => ∀ i ∈ m.main.electedBy, ∀ session ∈ m.voteSessions[i]?,
    session.startTerm = m.node.currentTerm
  | .cancel k => ∀ task ∈ m.tasks[k]?, task.stepDownPc ≠ some .becomeFollower
  | _ => True

def ElectionSafe (m : Machine S R) (action : Action R) : Prop :=
  TermSafe m action ∧ TakesRole m action

instance TakesRole.instDecidable (m : Machine S R) (action : Action R) :
    Decidable (TakesRole m action) :=
  match action with
  | .main => inferInstanceAs (Decidable (∀ i ∈ m.main.electedBy, ∀ session ∈ m.voteSessions[i]?, _))
  | .cancel k => inferInstanceAs (Decidable (∀ task ∈ m.tasks[k]?, _))
  | .task _ | .event _ | .overrun | .recv _ _ | .answerVote _ _ | .answerAppend _ _ | .lose _
  | .elapse _ => isTrue trivial

instance (m : Machine S R) (action : Action R) : Decidable (ElectionSafe m action) :=
  inferInstanceAs (Decidable (_ ∧ _))

variable [State S R] {m m' : Machine S R} {action : Action R}

section Terms

def VoteSendPc.request : VoteSendPc → Option RequestVoteRequest
  | .wait request => some request
  | .forwarded answer => some answer.request
  | .readLastIndex | .readLastTerm _ | .send _ _ => none

/-- The request is of a term that the node has had since the session was started. -/
def VoteSession.Covers (session : VoteSession) (currentTerm : Nat)
    (request : RequestVoteRequest) : Prop :=
  session.startTerm ≤ request.term ∧ request.term ≤ currentTerm

def Task.TermFits (m : Machine S R) : Task R → Prop
  | .voteSend i _ _ pc => i < m.voteSessions.length ∧ ∀ request ∈ pc.request,
    ∀ session ∈ m.voteSessions[i]?, session.Covers m.node.currentTerm request
  | _ => True

structure TermsFit (m : Machine S R) : Prop where
  started : ∀ session ∈ m.voteSessions, session.startTerm ≤ m.node.currentTerm
  asked : ∀ (k : Nat) (task : Task R), m.tasks[k]? = some task → task.TermFits m
  granted : ∀ session ∈ m.voteSessions, ∀ grant ∈ session.grants,
    session.Covers m.node.currentTerm grant.2.request

omit [State S R] in
theorem Task.TermFits.mono {task : Task R} (h : task.TermFits m) (hGrows : m.Grows m')
    (hLe : m.node.currentTerm ≤ m'.node.currentTerm) : task.TermFits m' := by
  cases task with
  | voteSend i _ _ pc =>
    obtain ⟨hLength, hCovers⟩ := h
    refine ⟨hLength.trans_le hGrows.voteSessions.length_le, fun request hRequest session' hSession' => ?_⟩
    obtain ⟨session, hSession, hLater⟩ :=
      hGrows.voteSessions i _ (List.getElem?_eq_getElem hLength)
    obtain rfl := Option.some.inj (hSession.symm.trans hSession')
    obtain ⟨hStart, hTerm⟩ := hCovers request hRequest _ (List.getElem?_eq_getElem hLength)
    exact ⟨hLater.startTerm.symm ▸ hStart, hTerm.trans hLe⟩
  | _ => trivial

omit [State S R] in
theorem Task.termFits_of_not_votes {task : Task R} (h : task.votes = false) : task.TermFits m := by
  cases task with
  | round _ _ | voteSend _ _ _ _ => cases h
  | _ => trivial

theorem TaskTurn.termFits {k : Nat} {task task' : Task R} (h : TaskTurn m k action task task' m')
    (hTerms : TermsFit m) (hFits : task.TermFits m) : task'.TermFits m := by
  cases h with
  | kept => exact hFits
  | stopped _ =>
    rcases Task.stop_cases _ task with hStop | hStop <;> rw [hStop]
    · exact hFits
    · trivial
  | vote hVote =>
    cases hVote with
    | lastIndex | lastTerm => exact ⟨hFits.1, nofun⟩
    | requested =>
      refine ⟨hFits.1, ?_⟩
      rintro _ ⟨⟩ session hSession
      exact ⟨hTerms.started session (List.mem_of_getElem? hSession), Nat.le_refl _⟩
    | stepDown hDown => cases hDown <;> trivial
    | _ => trivial
  | replicate hReplicate => exact Task.termFits_of_not_votes hReplicate.votesFrame.task
  | recv _ hRecv => cases hRecv <;> trivial
  | taken => trivial
  | answerVote => exact hFits
  | environment hLocal => exact Task.termFits_of_not_votes hLocal.votes

theorem Tally.source_eq {members : MembershipMap} {id : NodeId} (h : Tally members id m)
    {k j i source peersLen : Nat} {peer : NodeId} {answer : VoteAnswer}
    (hRound : m.tasks[k]? = some (.round i (.recv peersLen)))
    (hSource : m.tasks[j]? = some (.voteSend source k peer (.forwarded answer))) : source = i := by
  obtain ⟨task, hTask, hLater⟩ := (h.tasks j _ hSource).2.1
  obtain rfl := Option.some.inj (hTask.symm.trans hRound)
  cases hLater with
  | round => rfl

theorem step_termsFit {members : MembershipMap} {id : NodeId} (hStep : m.step action = some m')
    (hLe : m.node.currentTerm ≤ m'.node.currentTerm) (hTally : Tally members id m)
    (h : TermsFit m) : TermsFit m' where
  started := by
    intro session' hSession'
    rcases step_startTerms hStep hSession' with ⟨session, hSession, hTerm⟩ | ⟨_, _, hTerm⟩
    · exact hTerm.trans_le ((h.started session hSession).trans hLe)
    · exact hTerm.trans_le hLe
  asked := by
    intro k task' hTask'
    rcases step_turned hStep hTask' with ⟨task, hTask, hTurn⟩ | ⟨_, hSpawned⟩
    · exact (hTurn.termFits h (h.asked k task hTask)).mono (step_grows hStep) hLe
    · cases hSpawned with
      | voteSend _ hSession _ =>
        refine ⟨?_, nofun⟩
        exact (List.getElem?_eq_some_iff.mp hSession).1.trans_le
          (step_grows hStep).voteSessions.length_le
      | _ => trivial
  granted := by
    intro session' hSession' grant hGrant
    obtain ⟨i, hi⟩ := List.mem_iff_getElem?.mp hSession'
    suffices hCovers : session'.Covers m.node.currentTerm grant.2.request from
      ⟨hCovers.1, hCovers.2.trans hLe⟩
    cases step_sessionChange hStep hi with
    | kept hSession hTerm _ hGrants =>
      rw [VoteSession.Covers, hTerm]
      exact h.granted _ (List.mem_of_getElem? hSession) grant (hGrants ▸ hGrant)
    | new _ hNew =>
      rw [hNew] at hGrant
      cases hGrant
    | @granted session _ _ _ _ _ _ _ hSession hRound hSource _ _ hNew =>
      rw [hNew] at hGrant ⊢
      show session.Covers m.node.currentTerm grant.2.request
      rcases List.mem_append.mp hGrant with hOld | hLast
      · exact h.granted session (List.mem_of_getElem? hSession) grant hOld
      · obtain rfl := List.mem_singleton.mp hLast
        obtain rfl := hTally.source_eq hRound hSource
        exact (h.asked _ _ hSource).2 _ rfl session hSession

theorem Machine.Runs.termsFit [FallibleState S R] {node : RaftNode S}
    (hRuns : Machine.Runs TermSafe { node } m) :
    Tally (State.getMembership node.state) node.id m ∧ TermsFit m := by
  have hAll : AcceptedAhead m ∧
      Tally (State.getMembership node.state) node.id m ∧ TermsFit m := by
    refine @Machine.Runs.invariant S R _ TermSafe (fun m => AcceptedAhead m ∧
      Tally (State.getMembership node.state) node.id m ∧ TermsFit m) _ _ hRuns ?_ ?_
    · exact ⟨AcceptedAhead.of_none rfl, Tally.initial rfl, nofun, nofun, nofun⟩
    · rintro m action m' hSafe hStep ⟨hAhead, hTally, hTerms⟩
      obtain ⟨hAhead', hLe⟩ := step_currentTerm_le hSafe hStep hAhead
      exact ⟨hAhead', step_tally hStep hTally, step_termsFit hStep hLe hTally hTerms⟩
  exact hAll.2

end Terms

section Quorum

def Recipient.node (voter : NodeId) : Recipient → NodeId
  | .own => voter
  | .granted responseTx _ => responseTx.node

def Machine.Voted (m : Machine S R) (term : Nat) : Recipient → Prop
  | .own => ∃ session ∈ m.voteSessions, session.startTerm = term
  | .granted responseTx candidate => ∃ answer, .requestVote responseTx answer ∈ m.replies ∧
    answer.response.voteGranted = true ∧ answer.request.term = term ∧
    answer.request.candidateId = candidate

/-- More than half of the members have voted for the node in the term. -/
def Cluster.Elected (members : MembershipMap) (c : Cluster S R) (candidate : NodeId) (term : Nat) :
    Prop :=
  ∃ votes ⊆ members.ids.toFinset, members.ids.toFinset.card < 2 * votes.card ∧
    ∀ voter ∈ votes, ∃ recipient, (c voter).Voted term recipient ∧
      recipient.node voter = candidate

omit [State S R] in
theorem Machine.Voted.mono {term : Nat} {recipient : Recipient} (hGrows : m.Grows m')
    (h : m.Voted term recipient) : m'.Voted term recipient := by
  cases recipient with
  | own =>
    obtain ⟨session, hSession, rfl⟩ := h
    obtain ⟨i, hi⟩ := List.mem_iff_getElem?.mp hSession
    obtain ⟨session', hSession', hLater⟩ := hGrows.voteSessions i session hi
    exact ⟨session', List.mem_of_getElem? hSession', hLater.startTerm⟩
  | granted responseTx candidate =>
    obtain ⟨answer, hReply, hGranted⟩ := h
    exact ⟨answer, hGrows.replies.subset hReply, hGranted⟩

omit [State S R] in
theorem BallotFits.mem_of_voted {b : Ballot Recipient} (h : BallotFits b m) {term : Nat}
    {recipient : Recipient} (hVoted : m.Voted term recipient) : (term, recipient) ∈ b.cast := by
  cases recipient with
  | own =>
    obtain ⟨session, hSession, rfl⟩ := hVoted
    exact h.sessions session hSession
  | granted responseTx candidate =>
    obtain ⟨answer, hReply, hGranted, rfl, rfl⟩ := hVoted
    exact h.replies responseTx answer hReply hGranted

omit [State S R] in
theorem Machine.Voted.unique {term : Nat} {recipient recipient' : Recipient}
    (hBallot : ∃ b, BallotFits b m) (h : m.Voted term recipient) (h' : m.Voted term recipient') :
    recipient = recipient' := by
  obtain ⟨b, hFits⟩ := hBallot
  exact hFits.valid.cast_unique (hFits.mem_of_voted h) (hFits.mem_of_voted h')

variable {members : MembershipMap} {c c' : Cluster S R}

omit [State S R] in
theorem Cluster.Elected.mono {candidate : NodeId} {term : Nat} (hGrows : ∀ i, (c i).Grows (c' i))
    (h : c.Elected members candidate term) : c'.Elected members candidate term := by
  obtain ⟨votes, hSubset, hMajority, hVoted⟩ := h
  refine ⟨votes, hSubset, hMajority, fun voter hVoter => ?_⟩
  obtain ⟨recipient, hVote, hCandidate⟩ := hVoted voter hVoter
  exact ⟨recipient, hVote.mono (hGrows voter), hCandidate⟩

omit [State S R] in
/-- Two majorities of one term have a voter in common, who has voted once. -/
theorem Cluster.Elected.unique {candidate rival : NodeId} {term : Nat}
    (hBallots : ∀ i, ∃ b, BallotFits b (c i)) (h : c.Elected members candidate term)
    (h' : c.Elected members rival term) : candidate = rival := by
  obtain ⟨votes, hSubset, hMajority, hVoted⟩ := h
  obtain ⟨votes', hSubset', hMajority', hVoted'⟩ := h'
  obtain ⟨voter, hVoter⟩ : (votes ∩ votes').Nonempty :=
    Finset.inter_nonempty_of_card_lt_card_add_card hSubset hSubset' (by omega)
  obtain ⟨hFirst, hSecond⟩ := Finset.mem_inter.mp hVoter
  obtain ⟨recipient, hVote, rfl⟩ := hVoted voter hFirst
  obtain ⟨recipient', hVote', rfl⟩ := hVoted' voter hSecond
  rw [hVote.unique (hBallots voter) hVote']

variable [FallibleState S R] [DecidableEq R] {initial : Cluster S R}

omit [FallibleState S R] in
theorem Cluster.Runs.granted {Allowed : Machine S R → Action R → Prop}
    (hInitial : Cluster.Initial members initial) (hRuns : Cluster.Runs members Allowed initial c)
    {i : NodeId} {session : VoteSession} (hGrants : GrantsFit members i (c i) session)
    {grant : Nat × VoteAnswer} (hGrant : grant ∈ session.grants) :
    ∃ responseTx : Sender, responseTx.node = i ∧ responseTx.task = grant.1 ∧
      (c grant.2.response.id).Voted grant.2.request.term
        (.granted responseTx grant.2.request.candidateId) := by
  obtain ⟨responseTx, hNode, hTask, hReply⟩ :=
    hRuns.replied hInitial (hGrants.answered grant hGrant)
  exact ⟨responseTx, hNode, hTask, grant.2, hReply, hGrants.granted grant hGrant, rfl, rfl⟩

omit [FallibleState S R] in
theorem Cluster.Runs.ballots (hRuns : Cluster.Runs members TermSafe initial c)
    (hInitial : Cluster.Initial members initial) (i : NodeId) : ∃ b, BallotFits b (c i) := by
  obtain ⟨node, hNode, _, _⟩ := hInitial.machine i
  have hMachine := hRuns.machine i
  rw [hNode] at hMachine
  exact hMachine.ballot

omit [FallibleState S R] in
theorem Cluster.Runs.voters_nodup (hInitial : Cluster.Initial members initial)
    (hRuns : Cluster.Runs members TermSafe initial c) {i : NodeId} {session : VoteSession}
    (hGrants : GrantsFit members i (c i) session)
    (hTerm : ∀ grant ∈ session.grants, grant.2.request.term = session.startTerm) :
    (session.grants.map fun grant => grant.2.response.id).Nodup := by
  refine List.pairwise_map.mpr ((List.pairwise_map.mp hGrants.distinct).imp_of_mem ?_)
  intro grant grant' hGrant hGrant' hNe hSame
  obtain ⟨responseTx, _, hTask, hVoted⟩ := hRuns.granted hInitial hGrants hGrant
  obtain ⟨responseTx', _, hTask', hVoted'⟩ := hRuns.granted hInitial hGrants hGrant'
  rw [hTerm grant hGrant] at hVoted
  rw [hTerm grant' hGrant', ← hSame] at hVoted'
  obtain ⟨rfl, _⟩ := Recipient.granted.inj (hVoted.unique (hRuns.ballots hInitial _) hVoted')
  exact hNe (hTask.symm.trans hTask')

theorem Cluster.Runs.elected (hInitial : Cluster.Initial members initial)
    (hRuns : Cluster.Runs members TermSafe initial c) {i : NodeId} (hMember : i ∈ members.ids)
    {s : Nat} {result : VoteResult} (hMain : (c i).main = .becomeLeader s result)
    {session : VoteSession} (hSession : (c i).voteSessions[s]? = some session)
    (hTerm : session.startTerm = (c i).node.currentTerm) :
    c.Elected members i session.startTerm := by
  obtain ⟨node, hNode, hIdentity, _⟩ := hInitial.machine i
  have hMachine := hRuns.machine i
  rw [hNode] at hMachine
  obtain ⟨hTally, hTerms⟩ := hMachine.termsFit
  obtain ⟨hId, hMembers⟩ := Prod.mk.inj hIdentity
  rw [hId, hMembers] at hTally
  have hOwn : (c i).Voted session.startTerm .own := ⟨session, List.mem_of_getElem? hSession, rfl⟩
  have hGrants := hTally.grants s session hSession
  cases result with
  | noPeers =>
    have hNone : members.peers i = [] := hTally.taken s _ hMain
    refine ⟨{i}, ?_, ?_, ?_⟩
    · exact Finset.singleton_subset_iff.mpr (List.mem_toFinset.mpr hMember)
    · have hAlone : members.ids.toFinset ⊆ {i} := by
        intro id hId
        by_contra hOther
        have hPeer := MembershipMap.mem_peers.mpr
          ⟨List.mem_toFinset.mp hId, fun h => hOther (Finset.mem_singleton.mpr h)⟩
        rw [hNone] at hPeer
        cases hPeer
      have hCard := Finset.card_le_card hAlone
      rw [Finset.card_singleton] at hCard ⊢
      omega
    · intro voter hVoter
      obtain rfl := Finset.mem_singleton.mp hVoter
      exact ⟨.own, hOwn, rfl⟩
  | granted =>
    have hSame : ∀ grant ∈ session.grants, grant.2.request.term = session.startTerm := by
      intro grant hGrant
      obtain ⟨hStart, hNow⟩ := hTerms.granted session (List.mem_of_getElem? hSession) grant hGrant
      exact Nat.le_antisymm (hTerm ▸ hNow) hStart
    have hNodup := hRuns.voters_nodup hInitial hGrants hSame
    have hQuorum := hTally.voteQuorum hSession (hTally.taken s _ hMain) hNodup
    have hShared : Shared members.ids.toFinset fun _ => members := Shared.all members rfl
    have hCandidate : i ∈ members.ids.toFinset := List.mem_toFinset.mpr hMember
    refine ⟨_, hQuorum.subset hShared hCandidate, hQuorum.majority hShared hCandidate, ?_⟩
    intro voter hVoter
    rcases Finset.mem_insert.mp hVoter with rfl | hGranted
    · exact ⟨.own, hOwn, rfl⟩
    · obtain ⟨grant, hGrant, rfl⟩ := List.mem_map.mp (List.mem_toFinset.mp hGranted)
      obtain ⟨responseTx, hNode, _, hVoted⟩ := hRuns.granted hInitial hGrants hGrant
      exact ⟨.granted responseTx _, hSame grant hGrant ▸ hVoted, hNode⟩

end Quorum

section Leaders

theorem mainStep_updating (hStep : m.step .main = some m') (hUpdating : m.main.updating = true) :
    m'.main.updating = true ∨ m'.node.currentState = .follower := by
  unfold Main.updating at hUpdating
  split at hUpdating <;> rename_i hMain <;> cases hUpdating <;>
    simp only [Machine.step, mainStep, hMain] at hStep <;> cases hStep
  · exact Or.inl rfl
  · exact Or.inr rfl
  · exact Or.inl rfl
  · exact Or.inr rfl

theorem mainStep_nextTerm (hStep : m.step .main = some m') {term : Nat}
    (hNext : m.main.nextTerm = some term) : m'.main.updating = true := by
  unfold Main.nextTerm at hNext
  split at hNext <;> rename_i hMain <;> cases hNext <;>
    simp only [Machine.step, mainStep, hMain] at hStep <;> cases hStep <;> rfl

theorem VoteStepped.stepsDown {k : Nat} {task task' : Task R} {pc : StepDownPc}
    (h : VoteStepped m k task task' m') (hPc : task.stepDownPc = some pc) :
    ∃ wrap, StepDownStepped wrap m pc task' m' ∧ ∀ pc', (wrap pc').stepDownPc = some pc' := by
  cases h with
  | stepDown h =>
    cases hPc
    exact ⟨_, h, fun _ => rfl⟩
  | _ => cases hPc

theorem ReplicationStepped.stepsDown {k : Nat} {task task' : Task R} {pc : StepDownPc}
    (h : ReplicationStepped m k task task' m') (hPc : task.stepDownPc = some pc) :
    ∃ wrap, StepDownStepped wrap m pc task' m' ∧ ∀ pc', (wrap pc').stepDownPc = some pc' := by
  cases h with
  | heartbeatStepDown h | standbyStepDown h =>
    cases hPc
    exact ⟨_, h, fun _ => rfl⟩
  | _ => cases hPc

theorem TaskTurn.stepsDown {k : Nat} {task task' : Task R} (h : TaskTurn m k action task task' m')
    (hSafe : TakesRole m action) (hTask : m.tasks[k]? = some task)
    (hPc : task.stepDownPc = some .becomeFollower) :
    task' = task ∨ m'.node.currentState = .follower := by
  cases h with
  | kept => exact Or.inl rfl
  | stopped _ =>
    unfold Task.stop
    split
    · cases hPc
    · exact Or.inl rfl
  | vote h =>
    obtain ⟨wrap, hDown, _⟩ := h.stepsDown hPc
    cases hDown
    exact Or.inr rfl
  | replicate h =>
    obtain ⟨wrap, hDown, _⟩ := h.stepsDown hPc
    cases hDown
    exact Or.inr rfl
  | recv _ | taken | answerVote => cases hPc
  | environment hLocal =>
    cases hLocal with
    | cancel _ => exact absurd hPc (hSafe task hTask)
    | answerAppend h | lose h | elapse h =>
      cases task with
      | round _ _ | heartbeat _ _ | standby _ _ => cases h
      | _ => cases hPc

theorem step_stepsDown (hStep : m.step action = some m') (hSafe : TakesRole m action)
    (h : m.StepsDown) : m'.StepsDown ∨ m'.node.currentState = .follower := by
  rcases h with hUpdating | ⟨task, hMem, hPc⟩
  · cases step_cases hStep with
    | main _ => exact (mainStep_updating hStep hUpdating).imp_left Or.inl
    | select hMain _ =>
      rw [hMain] at hUpdating
      cases hUpdating
    | vote _ h | replicate _ h => exact Or.inl (Or.inl (h.frame.main ▸ hUpdating))
    | recv _ _ h =>
      obtain ⟨voteSessions, rfl⟩ := h.frame
      exact Or.inl (Or.inl hUpdating)
    | overrun hOverrun =>
      have hNot : m.main.updating = false := by
        cases hOverrun <;> rw [‹m.main = _›] <;> rfl
      rw [hNot] at hUpdating
      cases hUpdating
    | answerVote _ | environment _ _ => exact Or.inl (Or.inl hUpdating)
  · obtain ⟨k, hTask⟩ := List.mem_iff_getElem?.mp hMem
    obtain ⟨task', hTask', hTurn⟩ := step_turn hStep hTask
    refine (hTurn.stepsDown hSafe hTask hPc).imp_left fun hSame => Or.inr ⟨task, ?_, hPc⟩
    exact hSame ▸ List.mem_of_getElem? hTask'

theorem stepDown_setCurrentTerm {k term : Nat} {task : Task R} (hStep : m.step (.task k) = some m')
    (hTask : m.tasks[k]? = some task) (hPc : task.stepDownPc = some (.setCurrentTerm term)) :
    m'.StepsDown := by
  cases step_cases hStep with
  | vote hOwn h | replicate hOwn h =>
    obtain rfl := Option.some.inj (hTask.symm.trans hOwn)
    obtain ⟨wrap, hDown, hWrap⟩ := h.stepsDown hPc
    cases hDown
    exact Or.inr ⟨_, List.mem_set (List.getElem?_eq_some_iff.mp hTask).1 _, hWrap _⟩
  | environment _ hLocal => cases hLocal

theorem step_term_of_leader (hStep : m.step action = some m')
    (hCampaigns : m.main.campaigns = true → m.node.currentState ≠ .leader)
    (hLeader : m.node.currentState = .leader) :
    m'.node.currentTerm = m.node.currentTerm ∨ m'.StepsDown := by
  cases step_termChange hStep with
  | kept h => exact Or.inl h
  | increment _ hMain _ => exact absurd hLeader (hCampaigns (by rw [hMain]; rfl))
  | accepted hAction hNext =>
    subst hAction
    exact Or.inr (Or.inl (mainStep_nextTerm hStep hNext))
  | stepDown hAction hTask hPc =>
    subst hAction
    exact Or.inr (stepDown_setCurrentTerm hStep hTask hPc)

theorem Machine.Runs.campaigns {Allowed : Machine S R → Action R → Prop} {node : RaftNode S}
    (hRuns : Machine.Runs Allowed { node } m) :
    (m.main.campaigns = true → m.node.currentState ≠ .leader) ∧
      ∀ s, m.main.role = some (.candidate s) → s + 1 = m.voteSessions.length := by
  refine @Machine.Runs.invariant S R _ Allowed (fun m =>
    (m.main.campaigns = true → m.node.currentState ≠ .leader) ∧
      ∀ s, m.main.role = some (.candidate s) → s + 1 = m.voteSessions.length) _ _ hRuns
    ⟨nofun, nofun⟩ ?_
  intro m action m' _ hStep h
  exact ⟨step_campaigns hStep h.1, fun s hRole => step_current hStep h.2 hRole⟩

namespace Cluster

def Backed (members : MembershipMap) (c : Cluster S R) (i : NodeId) : Prop :=
  (c i).node.currentState = .leader → ∃ term, (c i).latestTerm = some term ∧
    c.Elected members i term ∧ (¬ (c i).StepsDown → (c i).node.currentTerm = term)

variable {members : MembershipMap} {initial c : Cluster S R}

theorem Backed.keep {i : NodeId} (h : c.Backed members i) (hStep : (c i).step action = some m')
    (hSafe : TakesRole (c i) action)
    (hCampaigns : (c i).main.campaigns = true → (c i).node.currentState ≠ .leader)
    (hOld : (c i).node.currentState = .leader) : (c.set i m').Backed members i := by
  obtain ⟨term, hLatest, hElected, hTerm⟩ := h hOld
  intro hLeader
  rw [set_self] at hLeader ⊢
  have hSame : m'.voteSessions.length = (c i).voteSessions.length := by
    rcases step_voteSessionCount hStep with hSame | ⟨hMain, _, _⟩
    · exact hSame
    · exact absurd hOld (hCampaigns (by rw [hMain]; rfl))
  refine ⟨term, (step_latestTerm hStep hSame).trans hLatest,
    hElected.mono (set_grows (step_grows hStep)), fun hSettled => ?_⟩
  have hBefore : ¬ (c i).StepsDown := by
    intro hDown
    rcases step_stepsDown hStep hSafe hDown with hAfter | hFollower
    · exact hSettled hAfter
    · rw [hFollower] at hLeader
      cases hLeader
  rcases step_term_of_leader hStep hCampaigns hOld with hKept | hDown
  · exact hKept.trans (hTerm hBefore)
  · exact absurd hDown hSettled

variable [FallibleState S R] [DecidableEq R]

theorem Runs.backed_becomeLeader (hInitial : Initial members initial)
    (hRuns : Runs members TermSafe initial c) {i : NodeId} (hMember : i ∈ members.ids) {s : Nat}
    {result : VoteResult} (hMain : (c i).main = .becomeLeader s result)
    (hStep : (c i).step (.main : Action R) = some m') (hSafe : TakesRole (c i) (.main : Action R))
    (hNode : m'.node = { (c i).node with currentState := .leader })
    (hCurrent : s + 1 = (c i).voteSessions.length) : (c.set i m').Backed members i := by
  obtain ⟨session, hSession⟩ : ∃ session, (c i).voteSessions[s]? = some session :=
    ⟨_, List.getElem?_eq_getElem (by omega)⟩
  have hTerm : session.startTerm = (c i).node.currentTerm :=
    hSafe s (by rw [hMain]; rfl) session hSession
  have hSame : m'.voteSessions.length = (c i).voteSessions.length := by
    rcases step_voteSessionCount hStep with hSame | ⟨hOther, _, _⟩
    · exact hSame
    · cases hMain.symm.trans hOther
  have hLatest : (c i).latestTerm = some session.startTerm := by
    rw [Machine.latestTerm, List.getLast?_eq_getElem?, ← hCurrent, Nat.add_sub_cancel, hSession]
    rfl
  intro _
  rw [set_self]
  refine ⟨session.startTerm, (step_latestTerm hStep hSame).trans hLatest, ?_, fun _ => ?_⟩
  · exact (hRuns.elected hInitial hMember hMain hSession hTerm).mono (set_grows (step_grows hStep))
  · rw [hNode, hTerm]

theorem Runs.backed (hInitial : Initial members initial)
    (hRuns : Runs members ElectionSafe initial c) (i : NodeId) : c.Backed members i := by
  induction hRuns generalizing i with
  | refl =>
    obtain ⟨node, hNode, _, hState⟩ := hInitial.machine i
    intro hLeader
    rw [hNode] at hLeader
    cases hState.symm.trans hLeader
  | @tail c _ hBefore hLast ih =>
    obtain ⟨j, action, hSafe, hNext⟩ := hLast
    obtain ⟨hMember, _, m', hStep, rfl⟩ := step_eq_some hNext
    have hRuns : Runs members ElectionSafe initial c := hBefore
    by_cases hij : i = j
    · subst hij
      obtain ⟨node, hNode, _, _⟩ := hInitial.machine i
      have hMachine := hRuns.machine i
      rw [hNode] at hMachine
      obtain ⟨hCampaigns, hCurrent⟩ := hMachine.campaigns
      intro hLeader
      refine (?_ : (c.set i m').Backed members i) hLeader
      rw [set_self] at hLeader
      rcases step_becomeLeader hStep hLeader with hOld | ⟨rfl, s, result, hMain, _, hNode⟩
      · exact (ih i).keep hStep hSafe.2 hCampaigns hOld
      · exact Runs.backed_becomeLeader hInitial (hRuns.mono fun _ _ h => h.1) hMember hMain hStep
          hSafe.2 hNode (hCurrent s (by rw [hMain]; rfl))
    · rw [Backed, set_of_ne _ _ hij]
      intro hLeader
      obtain ⟨term, hLatest, hElected, hTerm⟩ := ih i hLeader
      exact ⟨term, hLatest, hElected.mono (set_grows (step_grows hStep)), hTerm⟩

end Cluster

/-- Two leaders of one term, at whatever moments of a run, are the same node. -/
theorem leader_unique [FallibleState S R] [DecidableEq R] (members : MembershipMap)
    (initial c₁ c₂ : Cluster S R) (hInitial : Cluster.Initial members initial)
    (hFirst : Cluster.Runs members ElectionSafe initial c₁)
    (hLater : Cluster.Runs members ElectionSafe c₁ c₂) (i j : NodeId) (term : Nat)
    (hLeads : (c₁ i).Leads term) (hSettled : ¬ (c₁ i).StepsDown)
    (hLeads' : (c₂ j).Leads term) (hSettled' : ¬ (c₂ j).StepsDown) : i = j := by
  have hRuns : Cluster.Runs members ElectionSafe initial c₂ := hFirst.trans hLater
  obtain ⟨t, _, hElected, hTerm⟩ := hFirst.backed hInitial i hLeads.1
  obtain ⟨t', _, hElected', hTerm'⟩ := hRuns.backed hInitial j hLeads'.1
  obtain rfl : t = term := (hTerm hSettled).symm.trans hLeads.2
  obtain rfl : t' = t := (hTerm' hSettled').symm.trans hLeads'.2
  refine (hElected.mono fun k => (hLater.machine k).grows).unique (fun k => ?_) hElected'
  exact (hRuns.mono fun _ _ h => h.1).ballots hInitial k

end Leaders

instance (m : Machine S R) (term : Nat) : Decidable (m.Leads term) :=
  inferInstanceAs (Decidable (_ ∧ _))

instance (m : Machine S R) : Decidable m.StepsDown :=
  inferInstanceAs (Decidable (_ ∨ ∃ task ∈ m.tasks, _))

def newCluster : Cluster (Stored Unit) Unit := fun i =>
  { node := { emptyNode pairMembers with id := i } }

theorem newCluster_initial : Cluster.Initial pairMembers newCluster :=
  fun i => ⟨(newCluster i).node.state, .empty, _, rfl, rfl, rfl⟩

/-- The follower becomes a candidate, and a candidate starts over. -/
def campaignActions (i : NodeId) : List (NodeId × Action Unit) :=
  [List.replicate 2 (i, .main), [(i, .event .electionTimeout)], List.replicate 6 (i, .main)].flatten

def restartActions (i : NodeId) : List (NodeId × Action Unit) :=
  (i, .event .electionTimeout) :: List.replicate 3 (i, .main)

/-- A round asks the other node for its vote, and wins it. -/
def askActions (i : NodeId) (round send : Nat) : List (NodeId × Action Unit) :=
  [List.replicate 3 (i, .task round), List.replicate 3 (i, .task send)].flatten

def winActions (i voter : NodeId) (round send : Nat) : List (NodeId × Action Unit) :=
  [[(i, .answerVote send ⟨2, true, voter, .ok⟩), (i, .recv round send)],
    List.replicate 3 (i, .task round), [(i, .event .voteResult)], List.replicate 6 (i, .main)].flatten

/-- Both nodes have had a request of term 1 refused in term 2 before node 1 is elected in
term 3. -/
def firstLeaderActions : List (NodeId × Action Unit) :=
  [campaignActions 1, askActions 1 0 1, campaignActions 2, askActions 2 0 1, restartActions 2,
    [(2, .event (.requestVote ⟨1, 1, 0, 0⟩ ⟨1, 1, false⟩))], List.replicate 3 (2, .main),
    restartActions 1, [(1, .event (.requestVote ⟨1, 2, 0, 0⟩ ⟨2, 1, false⟩))],
    List.replicate 3 (1, .main), restartActions 1, askActions 1 3 4,
    [(2, .event (.requestVote ⟨3, 1, 0, 0⟩ ⟨1, 4, false⟩))], List.replicate 9 (2, .main),
    winActions 1 2 3 4].flatten

def refusedActions (i voter : NodeId) : List (NodeId × Action Unit) :=
  [[(i, .answerVote 1 ⟨2, false, voter, .staleTerm⟩), (i, .recv 0 1)],
    List.replicate 3 (i, .task 0)].flatten

/-- Back in term 2, the nodes elect node 2 in term 3. -/
def secondLeaderActions : List (NodeId × Action Unit) :=
  [refusedActions 1 2, refusedActions 2 1, [(2, .main)], campaignActions 2, askActions 2 3 4,
    [(1, .event (.requestVote ⟨3, 2, 0, 0⟩ ⟨2, 4, false⟩))], List.replicate 9 (1, .main),
    winActions 2 1 3 4].flatten

/-- Whoever leads in term 3 after node 1 has been elected in it, is node 1. -/
theorem leader_unique_first : ∃ c₁ c₂ : Cluster (Stored Unit) Unit, (c₁ 1).Leads 3 ∧
    (c₂ 2).node.currentTerm = 3 ∧ ∀ j, (c₂ j).Leads 3 → ¬ (c₂ j).StepsDown → 1 = j := by
  obtain ⟨c₁, c₂, hFirst, hLater, hLeads⟩ := Cluster.exists_of_runs
    (show ((newCluster.run pairMembers ElectionSafe firstLeaderActions).bind fun c₁ =>
      (c₁.run pairMembers ElectionSafe [(1, .event .heartbeatTimeout)]).map fun c₂ =>
        decide (((c₁ 1).Leads 3 ∧ ¬ (c₁ 1).StepsDown) ∧ (c₂ 2).node.currentTerm = 3)) =
      some true by decide)
  obtain ⟨⟨hLeads, hSettled⟩, hTerm⟩ := of_decide_eq_true hLeads
  exact ⟨c₁, c₂, hLeads, hTerm, fun j hLeads' hSettled' => leader_unique pairMembers newCluster
    c₁ c₂ newCluster_initial hFirst hLater 1 j 3 hLeads hSettled hLeads' hSettled'⟩

/-- Node 1 and, later, node 2 are the leaders of term 3. -/
theorem two_leaders : Cluster.Initial pairMembers newCluster ∧
    ∃ c₁ c₂, Cluster.Runs pairMembers (fun _ _ => True) newCluster c₁ ∧
      Cluster.Runs pairMembers (fun _ _ => True) c₁ c₂ ∧
      ((c₁ 1).Leads 3 ∧ ¬ (c₁ 1).StepsDown) ∧ (c₂ 2).Leads 3 ∧ ¬ (c₂ 2).StepsDown := by
  refine ⟨newCluster_initial, ?_⟩
  obtain ⟨c₁, c₂, hFirst, hLater, hLeads⟩ := Cluster.exists_of_runs
    (show ((newCluster.run pairMembers (fun _ _ => True) firstLeaderActions).bind fun c₁ =>
      (c₁.run pairMembers (fun _ _ => True) secondLeaderActions).map fun c₂ =>
        decide (((c₁ 1).Leads 3 ∧ ¬ (c₁ 1).StepsDown) ∧ (c₂ 2).Leads 3 ∧ ¬ (c₂ 2).StepsDown)) =
      some true by decide)
  exact ⟨c₁, c₂, hFirst, hLater, of_decide_eq_true hLeads⟩

end Zeroraft
