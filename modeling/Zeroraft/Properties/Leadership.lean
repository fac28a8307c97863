import Mathlib.Data.List.Perm.Subperm
import Zeroraft.Properties.VoteTally

/-!
# Is a leader elected by a majority in its term?

The rounds of a session count votes while other rounds may step down, and the
candidate loop acts on a result without looking at the role or the term again.
-/

namespace Zeroraft

open Growth

variable {S R : Type}

def Main.candidateSession (main : Main R) : Option Nat :=
  match main.role with
  | some (.candidate i) => some i
  | _ => none

theorem Main.candidateSession_eq_some {main : Main R} {i : Nat} :
    main.candidateSession = some i ↔ main.role = some (.candidate i) := by
  unfold Main.candidateSession
  split
  · rename_i j hRole
    rw [hRole]
    constructor
    · rintro ⟨⟩
      rfl
    · rintro ⟨⟩
      rfl
  · rename_i hRole
    constructor
    · rintro ⟨⟩
    · exact fun h => absurd h (hRole i)

def Task.sendsGranted (i : Nat) : Task R → Bool
  | .round j .sendGranted => j == i
  | _ => false

def Main.takesGranted (i : Nat) : Main R → Bool
  | .becomeLeader j .granted => j == i
  | _ => false

theorem Main.takesGranted_iff {i : Nat} {main : Main R} :
    main.takesGranted i = true ↔ main = .becomeLeader i .granted := by
  constructor
  · intro h
    unfold Main.takesGranted at h
    split at h
    · rw [beq_iff_eq.mp h]
    · cases h
  · rintro rfl
    exact beq_self_eq_true i

/-- A result `granted` of session `i` is on its way to the candidate loop. -/
def Machine.GrantPending (m : Machine S R) (i : Nat) : Prop :=
  (∃ task ∈ m.tasks, task.sendsGranted i = true) ∨
    (∃ session ∈ m.voteSessions[i]?, session.voteResult = some .granted) ∨
    m.main.takesGranted i = true

instance (m : Machine S R) (i : Nat) : Decidable (m.GrantPending i) :=
  inferInstanceAs (Decidable (_ ∨ _ ∨ _))

/-- The answer is a grant that the session has not seen yet, for its own term. -/
def VoteSession.NewGrant (session : VoteSession) (answer : VoteAnswer) : Prop :=
  answer.response.reason.stepsDown = false → answer.response.voteGranted = true →
    answer.response.id ∉ session.ackPeers ∧ answer.request.term = session.startTerm

instance (session : VoteSession) (answer : VoteAnswer) : Decidable (session.NewGrant answer) :=
  inferInstanceAs (Decidable (_ → _ → _))

/-- When the votes are enough, the node is still a candidate in the term of the session. -/
def VoteSession.InTime (session : VoteSession) (peersLen : Nat) (node : RaftNode S) : Prop :=
  EnoughVotes peersLen session.grantedVotes →
    node.currentState = .candidate ∧ node.currentTerm = session.startTerm

instance (session : VoteSession) (peersLen : Nat) (node : RaftNode S) :
    Decidable (session.InTime peersLen node) :=
  inferInstanceAs (Decidable (_ → _))

/-- The session whose votes the task is about to compare, and with what. -/
def Task.comparing : Task R → Option (Nat × Nat)
  | .round i (.compare peersLen) => some (i, peersLen)
  | _ => none

/-- The session whose round `k` takes the answer that task `j` has forwarded. -/
def Machine.received (m : Machine S R) (k j : Nat) : Option (Nat × VoteAnswer) :=
  match m.tasks[k]?, m.tasks[j]? with
  | some (.round i _), some (.voteSend _ _ _ (.forwarded answer)) => some (i, answer)
  | _, _ => none

/-- No vote is counted twice or for another term, the count is not complete too late
for the candidate loop, and no task steps down while a result is on its way. -/
def TallySafe (m : Machine S R) : Action R → Prop
  | .recv k j => ∀ received ∈ m.received k j, ∀ session ∈ m.voteSessions[received.1]?,
    session.NewGrant received.2
  | .task k => ∀ task ∈ m.tasks[k]?,
    (∀ comparing ∈ task.comparing, m.main.candidateSession = some comparing.1 →
      ∀ session ∈ m.voteSessions[comparing.1]?, session.InTime comparing.2 m.node) ∧
    (∀ pc ∈ task.stepDownPc, pc.writes = true →
      ∀ i ∈ m.main.candidateSession, ¬ m.GrantPending i)
  | _ => True

instance TallySafe.instDecidable (m : Machine S R) (action : Action R) :
    Decidable (TallySafe m action) :=
  match action with
  | .recv k j => inferInstanceAs (Decidable (∀ received ∈ m.received k j, ∀ session ∈ _, _))
  | .task k => inferInstanceAs (Decidable (∀ task ∈ m.tasks[k]?,
      (∀ comparing ∈ task.comparing, _ → ∀ session ∈ _, _) ∧
      (∀ pc ∈ task.stepDownPc, _ → ∀ i ∈ m.main.candidateSession, ¬ m.GrantPending i)))
  | .main | .event _ | .overrun | .answerVote _ _ | .answerAppend _ _ | .lose _ | .cancel _
  | .elapse _ => isTrue trivial

/-- The handler has written the term, or the vote, and not yet the role. -/
def Main.updating : Main R → Bool
  | .requestVote _ _ _ (.setVotedFor _) | .requestVote _ _ _ (.becomeFollower _)
  | .appendEntries _ _ _ (.setLeaderId _ _) | .appendEntries _ _ _ (.becomeFollower _ _) => true
  | _ => false

def Main.acts : Main R → Bool
  | .select _ | .becomeLeader _ _ => true
  | _ => false

/-- Outside the updates a candidate has a term and a vote of this kind. -/
def Settled (P : Nat → Option NodeId → Prop) (m : Machine S R) : Prop :=
  m.main.updating = false → m.node.currentState = .candidate →
    P m.node.currentTerm m.node.votedFor

/-- The node is a candidate in this term as far as the main loop can tell. -/
structure Standing (m : Machine S R) (term : Nat) : Prop where
  term : Settled (fun currentTerm _ => currentTerm = term) m
  role : m.main.acts = true → m.node.currentState = .candidate

/-- The grants of a session come from different peers and are for its term. -/
structure VotersFit (session : VoteSession) : Prop where
  distinct : (session.grants.map fun grant => grant.2.response.id).Nodup
  acked : ∀ grant ∈ session.grants, grant.2.response.id ∈ session.ackPeers
  term : ∀ grant ∈ session.grants, grant.2.request.term = session.startTerm

theorem VotersFit.append {session : VoteSession} (h : VotersFit session) {j : Nat}
    {answer : VoteAnswer} (hNew : answer.response.id ∉ session.ackPeers)
    (hTerm : answer.request.term = session.startTerm) :
    VotersFit { session with
      ackPeers := session.ackPeers.insert answer.response.id
      grants := session.grants ++ [(j, answer)] } := by
  refine ⟨?_, ?_, ?_⟩
  · rw [List.map_append, List.map_singleton]
    refine List.nodup_append_comm.mp (List.nodup_cons.mpr ⟨?_, h.distinct⟩)
    intro hMem
    obtain ⟨grant, hGrant, hId⟩ := List.mem_map.mp hMem
    exact hNew (hId ▸ h.acked grant hGrant)
  · intro grant hGrant
    rcases List.mem_append.mp hGrant with hOld | hLast
    · exact List.mem_insert_of_mem (h.acked grant hOld)
    · rw [List.mem_singleton.mp hLast]
      exact List.mem_insert_self
  · intro grant hGrant
    rcases List.mem_append.mp hGrant with hOld | hLast
    · exact h.term grant hOld
    · rw [List.mem_singleton.mp hLast]
      exact hTerm

section Pending

variable {m m' : Machine S R} {i : Nat}

theorem SessionChange.votersFit {action : Action R} {session' : VoteSession}
    (hChange : SessionChange m action i session') (hSafe : TallySafe m action)
    (h : ∀ (j : Nat) (session : VoteSession), m.voteSessions[j]? = some session →
      VotersFit session) :
    VotersFit session' := by
  cases hChange with
  | kept hSession hTerm hAcked hGrants =>
    have hOld := h i _ hSession
    constructor <;> rw [hGrants]
    · exact hOld.distinct
    · exact fun grant hGrant => hAcked (hOld.acked grant hGrant)
    · rw [hTerm]
      exact hOld.term
  | new _ hSession =>
    subst hSession
    exact ⟨List.nodup_nil, fun _ h => (by cases h), fun _ h => (by cases h)⟩
  | @granted session k j _ _ _ answer hAction hSession hRound hSource hReason hGranted hSession' =>
    subst hAction hSession'
    have hReceived : m.received k j = some (i, answer) := by
      rw [Machine.received, hRound, hSource]
    obtain ⟨hNew, hTerm⟩ := hSafe _ hReceived session hSession hReason hGranted
    exact (h i session hSession).append hNew hTerm

theorem Machine.GrantPending.elim (h : m'.GrantPending i)
    (hTasks : ∀ task ∈ m'.tasks, task.sendsGranted i = true → m.GrantPending i)
    (hSessions : ∀ session, m'.voteSessions[i]? = some session →
      session.voteResult = some .granted → m.GrantPending i)
    (hMain : m'.main.takesGranted i = true → m.GrantPending i) : m.GrantPending i := by
  rcases h with ⟨task, hTask, hSends⟩ | ⟨session, hSession, hResult⟩ | hTakes
  · exact hTasks task hTask hSends
  · exact hSessions session hSession hResult
  · exact hMain hTakes

theorem Machine.GrantPending.of_task {k : Nat} {task : Task R} (hTask : m.tasks[k]? = some task)
    (hSends : task.sendsGranted i = true) : m.GrantPending i :=
  Or.inl ⟨task, List.mem_of_getElem? hTask, hSends⟩

theorem Machine.GrantPending.of_session {session : VoteSession}
    (hSession : m.voteSessions[i]? = some session) (hResult : session.voteResult = some .granted) :
    m.GrantPending i :=
  Or.inr (Or.inl ⟨session, hSession, hResult⟩)

theorem Task.sendsGranted_of_not_votes {task : Task R} (h : task.votes = false) :
    task.sendsGranted i = false := by
  cases task with
  | round _ _ | voteSend _ _ _ _ => cases h
  | _ => rfl

variable [State S R]

theorem MainStepped.grantPending (h : MainStepped m m') (hPending : m'.GrantPending i) :
    m.GrantPending i := by
  refine hPending.elim ?_ ?_ ?_
  · intro task hTask hSends
    obtain ⟨k, hk⟩ := List.getElem?_of_mem hTask
    rcases h.votes with ⟨_, hTasks⟩ | ⟨_, hTasks, _⟩
    · rw [hTasks] at hk
      rcases getElem?_append_cases hk with hOld | hNew
      · exact Machine.GrantPending.of_task hOld hSends
      · rw [List.mem_singleton.mp hNew] at hSends
        cases hSends
    · rcases hTasks k task hk with hOld | hVotes
      · exact Machine.GrantPending.of_task hOld hSends
      · rw [Task.sendsGranted_of_not_votes hVotes] at hSends
        cases hSends
  · intro session hSession hResult
    rcases h.voteSessions with hSame | ⟨_, _, hNew⟩
    · exact Machine.GrantPending.of_session (hSame ▸ hSession) hResult
    · rw [hNew] at hSession
      rcases getElem?_append_cases hSession with hOld | hLast
      · exact Machine.GrantPending.of_session hOld hResult
      · rw [List.mem_singleton.mp hLast] at hResult
        cases hResult
  · exact fun hTakes => absurd (Main.takesGranted_iff.mp hTakes) (h.becomeLeader_main _ _)

omit [State S R] in
theorem SelectStepped.grantPending {role : RoleLoop} {event : Event R}
    (h : SelectStepped m role event m') (hPending : m'.GrantPending i) : m.GrantPending i := by
  have hTasks : ∀ task ∈ m'.tasks, task.sendsGranted i = true → m.GrantPending i := by
    intro task hTask hSends
    obtain ⟨k, hk⟩ := List.getElem?_of_mem hTask
    cases h with
    | retry | heartbeat =>
      rcases getElem?_append_cases hk with hOld | hNew
      · exact Machine.GrantPending.of_task hOld hSends
      · rw [List.mem_singleton.mp hNew] at hSends
        cases hSends
    | _ => exact Machine.GrantPending.of_task hk hSends
  refine hPending.elim hTasks ?_ ?_
  · intro session hSession hResult
    cases h with
    | voteResult hOld _ =>
      rcases getElem?_set_cases hSession with ⟨rfl, rfl⟩ | ⟨_, hSame⟩
      · cases hResult
      · exact Machine.GrantPending.of_session hSame hResult
    | _ => exact Machine.GrantPending.of_session hSession hResult
  · intro hTakes
    cases h with
    | @voteResult j session result hSession hResult =>
      cases result with
      | noPeers => cases hTakes
      | granted =>
        obtain rfl : j = i := beq_iff_eq.mp hTakes
        exact Machine.GrantPending.of_session hSession hResult
    | _ => cases hTakes

omit [State S R] in
theorem VoteResultSent.grantPending {j : Nat} {result : VoteResult}
    (h : VoteResultSent m j result m') (hPending : m'.GrantPending i)
    (hSender : result = .granted → m.GrantPending j) : m.GrantPending i := by
  cases h with
  | closed _ => exact hPending
  | queued _ hSession _ =>
    refine hPending.elim ?_ ?_ fun hTakes => Or.inr (Or.inr hTakes)
    · exact fun task hTask hSends => Or.inl ⟨task, hTask, hSends⟩
    · intro session hNew hResult
      rcases getElem?_set_cases hNew with ⟨rfl, rfl⟩ | ⟨_, hOld⟩
      · exact hSender (Option.some.inj hResult)
      · exact Machine.GrantPending.of_session hOld hResult

omit [State S R] in
theorem grantPending_setTask {k : Nat} {task : Task R} (hSends : task.sendsGranted i = false)
    (hPending : (m.setTask k task).GrantPending i) : m.GrantPending i := by
  refine hPending.elim ?_ (fun _ hSession => Machine.GrantPending.of_session (m := m) hSession)
    fun hTakes => Or.inr (Or.inr hTakes)
  intro t ht hSends'
  rcases List.mem_or_eq_of_mem_set ht with hOld | rfl
  · exact Or.inl ⟨t, hOld, hSends'⟩
  · rw [hSends] at hSends'
    cases hSends'

theorem VoteStepped.grantPending {k : Nat} {task task' : Task R}
    (h : VoteStepped m k task task' m') (hTask : m.tasks[k]? = some task)
    (hPending : (m'.setTask k task').GrantPending i) :
    m.GrantPending i ∨ ∃ peersLen session, task.comparing = some (i, peersLen) ∧
      m.voteSessions[i]? = some session ∧ EnoughVotes peersLen session.grantedVotes := by
  cases h with
  | @enough j peersLen session hSession hEnough =>
    by_cases hij : j = i
    · subst hij
      exact Or.inr ⟨peersLen, session, rfl, hSession, hEnough⟩
    · have hSends : (Task.round j .sendGranted : Task R).sendsGranted i = false :=
        beq_eq_false_iff_ne.mpr hij
      exact Or.inl (grantPending_setTask hSends hPending)
  | sentNoPeers hSent =>
    exact Or.inl (hSent.grantPending (grantPending_setTask rfl hPending) fun h => by cases h)
  | sentGranted hSent =>
    exact Or.inl (hSent.grantPending (grantPending_setTask rfl hPending)
      fun _ => Machine.GrantPending.of_task hTask (beq_self_eq_true _))
  | stepDown hDown =>
    left
    cases hDown <;> exact grantPending_setTask rfl hPending
  | asked _ =>
    left
    refine (grantPending_setTask rfl hPending).elim ?_
      (fun _ hSession => Machine.GrantPending.of_session (m := m) hSession)
      fun hTakes => Or.inr (Or.inr hTakes)
    intro t ht hSends
    rcases List.mem_append.mp ht with hOld | hNew
    · exact Or.inl ⟨t, hOld, hSends⟩
    · obtain ⟨peer, _, rfl⟩ := List.mem_map.mp hNew
      cases hSends
  | incremented hSession =>
    left
    refine (grantPending_setTask rfl hPending).elim (fun t ht hSends => Or.inl ⟨t, ht, hSends⟩) ?_
      fun hTakes => Or.inr (Or.inr hTakes)
    intro session hNew hResult
    rcases getElem?_set_cases hNew with ⟨rfl, rfl⟩ | ⟨_, hOld⟩
    · exact Machine.GrantPending.of_session hSession hResult
    · exact Machine.GrantPending.of_session hOld hResult
  | _ => exact Or.inl (grantPending_setTask rfl hPending)

theorem ReplicationStepped.grantPending {k : Nat} {task task' : Task R}
    (h : ReplicationStepped m k task task' m') (hPending : (m'.setTask k task').GrantPending i) :
    m.GrantPending i := by
  obtain ⟨hSessions, hVotes, spawned, hTasks, hSpawned⟩ := h.votesFrame
  refine (grantPending_setTask (Task.sendsGranted_of_not_votes hVotes) hPending).elim ?_ ?_ ?_
  · intro t ht hSends
    rw [hTasks] at ht
    rcases List.mem_append.mp ht with hOld | hNew
    · exact Or.inl ⟨t, hOld, hSends⟩
    · rw [Task.sendsGranted_of_not_votes (hSpawned t hNew)] at hSends
      cases hSends
  · intro session hSession hResult
    exact Machine.GrantPending.of_session (hSessions ▸ hSession) hResult
  · intro hTakes
    exact Or.inr (Or.inr (h.frame.main ▸ hTakes))

omit [State S R] in
theorem RoundReceived.grantPending {k j peersLen j' : Nat} {answer : VoteAnswer} {task' : Task R}
    (h : RoundReceived m j peersLen j' answer task' m')
    (hPending : ((m'.setTask k task').setTask j' .ended).GrantPending i) : m.GrantPending i := by
  have hSet := grantPending_setTask rfl hPending
  cases h with
  | stepsDown _ => exact grantPending_setTask rfl hSet
  | granted hSession _ _ | refused hSession =>
    refine (grantPending_setTask rfl hSet).elim (fun t ht hSends => Or.inl ⟨t, ht, hSends⟩) ?_
      fun hTakes => Or.inr (Or.inr hTakes)
    intro session hNew hResult
    rcases getElem?_set_cases hNew with ⟨rfl, rfl⟩ | ⟨_, hOld⟩
    · exact Machine.GrantPending.of_session hSession hResult
    · exact Machine.GrantPending.of_session hOld hResult

end Pending

section Standing

variable {m m' : Machine S R} {i term : Nat} [State S R]

theorem Tally.grantPending_lt {members : MembershipMap} {id : NodeId} (h : Tally members id m)
    (hPending : m.GrantPending i) : i < m.voteSessions.length := by
  rcases hPending with ⟨task, hTask, hSends⟩ | ⟨session, hSession, _⟩ | hTakes
  · obtain ⟨k, hk⟩ := List.getElem?_of_mem hTask
    unfold Task.sendsGranted at hSends
    split at hSends
    · obtain rfl := beq_iff_eq.mp hSends
      exact (h.tasks k _ hk).1
    · cases hSends
  · exact (List.getElem?_eq_some_iff.mp hSession).1
  · exact h.current i (by rw [Main.takesGranted_iff.mp hTakes]; rfl)

omit [State S R] in
theorem Settled.congr {P : Nat → Option NodeId → Prop} (h : Settled P m)
    (hMain : m'.main = m.main) (hTerm : m'.node.currentTerm = m.node.currentTerm)
    (hVote : m'.node.votedFor = m.node.votedFor)
    (hState : m'.node.currentState = .candidate → m.node.currentState = .candidate) :
    Settled P m' := by
  intro hUpdating hCandidate
  rw [hTerm, hVote]
  exact h (hMain ▸ hUpdating) (hState hCandidate)

theorem RequestVotePc.Edge.settled {P : Nat → Option NodeId → Prop} {role : RoleLoop}
    {request : RequestVoteRequest} {responseTx : Sender} {pc pc' : RequestVotePc}
    (hMain : m.main = .requestVote role request responseTx pc)
    (hEdge : pc.Edge m.node.id request m.node pc') (h : Settled P m) :
    Settled P { m with
      main := .requestVote role request responseTx pc'
      node := (pc.step m.node.id request responseTx m.node).2 } := by
  obtain ⟨state, _, hNode⟩ := RequestVotePc.step_node m.node.id responseTx m.node request pc
  intro hUpdating hState
  rw [Settled, hMain] at h
  dsimp only at hUpdating hState ⊢
  rw [hNode] at hState ⊢
  cases hEdge with
  | setTerm | setVote => cases hUpdating
  | follower => cases hState
  | _ => exact h rfl hState

theorem AppendEntriesPc.Edge.settled {P : Nat → Option NodeId → Prop} {role : RoleLoop}
    {request : AppendEntriesRequest R} {responseTx : Sender} {pc pc' : AppendEntriesPc}
    (hMain : m.main = .appendEntries role request responseTx pc)
    (hEdge : pc.Edge m.node.id request m.node pc') (h : Settled P m) :
    Settled P { m with
      main := .appendEntries role request responseTx pc'
      node := (pc.step m.node.id request responseTx m.node).2 } := by
  obtain ⟨state, _, hNode⟩ := AppendEntriesPc.step_node m.node.id responseTx m.node request pc
  intro hUpdating hState
  rw [Settled, hMain] at h
  dsimp only at hUpdating hState ⊢
  rw [hNode] at hState ⊢
  cases hEdge with
  | setTerm | setLeader => cases hUpdating
  | short _ | follower _ => cases hState
  | _ => exact h rfl hState

theorem MainStepped.settled {P : Nat → Option NodeId → Prop} (h : MainStepped m m')
    (hRole : m'.main.role = some (.candidate i)) (hOld : m.main.role = some (.candidate i))
    (hSettled : Settled P m) : Settled P m' := by
  cases h with
  | voteForSelf hMain =>
    rw [hMain] at hOld
    cases hOld
  | requestVote hMain hEdge => exact hEdge.settled hMain hSettled
  | appendEntries hMain hEdge => exact hEdge.settled hMain hSettled
  | stay hMain _ | requestVoteSent hMain | appendEntriesSent hMain | redirected hMain =>
    exact fun _ hState => hSettled (by rw [hMain]; rfl) hState
  | becomeShutdown _ | becomeLeader _ => exact fun _ hState => by cases hState
  | leave _ _ =>
    rw [RoleLoop.leave_main] at hRole
    cases hRole
  | _ => cases hRole

theorem MainStepped.acts (h : MainStepped m m') (hRole : m'.main.role = some (.candidate i))
    (hActs : m'.main.acts = true) : m'.node.currentState = .candidate := by
  cases h with
  | stay _ hState =>
    cases hRole
    exact hState
  | leave _ _ =>
    rw [RoleLoop.leave_main] at hRole
    cases hRole
  | _ => cases hActs

omit [State S R] in
theorem SelectStepped.settled {P : Nat → Option NodeId → Prop} {role : RoleLoop} {event : Event R}
    (h : SelectStepped m role event m') (hMain : m.main = .select role)
    (hSettled : Settled P m) : Settled P m' := by
  intro _ hState
  rw [h.node] at hState ⊢
  exact hSettled (by rw [hMain]; rfl) hState

theorem TaskWrites.candidate {task : Task R} {node node' : RaftNode S}
    (h : TaskWrites task node node') (hState : node'.currentState = .candidate) :
    node.currentState = .candidate := by
  cases h with
  | state _ h | term _ _ h => rwa [h] at hState
  | role _ h =>
    rw [h] at hState
    cases hState

end Standing

section Run

variable {m m' : Machine S R} {members : MembershipMap} {id : NodeId} [State S R]

/-- What holds of a candidate loop in a run without the dangerous steps. -/
structure Timely (id : NodeId) (m : Machine S R) : Prop where
  standing : ∀ (i : Nat) (session : VoteSession), m.main.role = some (.candidate i) →
    m.voteSessions[i]? = some session → m.GrantPending i → Standing m session.startTerm
  own : ∀ i, m.main.role = some (.candidate i) →
    Settled (fun _ votedFor => votedFor = some id) m
  voters : ∀ (i : Nat) (session : VoteSession), m.voteSessions[i]? = some session →
    VotersFit session

theorem step_role {action : Action R} (hStep : m.step action = some m') {i : Nat}
    (hRole : m'.main.role = some (.candidate i)) :
    m.main.role = some (.candidate i) ∨
      (i = m.voteSessions.length ∧ m'.node = { m.node with votedFor := some m.node.id }) := by
  cases step_cases hStep with
  | main hMain => exact (hMain.candidate hRole).imp_right fun h => ⟨h.1, h.2.2⟩
  | select hMain hSelect =>
    left
    rw [hMain, hSelect.candidate hRole]
    rfl
  | vote _ h | replicate _ h => exact Or.inl (h.frame.main ▸ hRole)
  | recv _ _ h =>
    obtain ⟨voteSessions, rfl⟩ := h.frame
    exact Or.inl hRole
  | overrun _ => nomatch hRole
  | answerVote _ | environment _ _ => exact Or.inl hRole

theorem step_own {action : Action R} (hStep : m.step action = some m')
    (hId : m.node.id = id) (h : Timely id m) {i : Nat}
    (hRole : m'.main.role = some (.candidate i)) :
    Settled (fun _ votedFor => votedFor = some id) m' := by
  rcases step_role hStep hRole with hOld | ⟨_, hNode⟩
  · have hOwn := h.own i hOld
    cases step_cases hStep with
    | main hMain => exact hMain.settled hRole hOld hOwn
    | select hMain hSelect => exact hSelect.settled hMain hOwn
    | vote _ hTask | replicate _ hTask =>
      have hFrame := hTask.frame
      intro hUpdating hState
      exact hFrame.writes.votedFor.trans
        (hOwn (hFrame.main ▸ hUpdating) (hFrame.writes.candidate hState))
    | recv _ _ hRecv =>
      obtain ⟨voteSessions, rfl⟩ := hRecv.frame
      exact hOwn
    | overrun _ => nomatch hRole
    | answerVote _ | environment _ _ => exact hOwn
  · intro _ _
    rw [hNode, hId]

theorem VoteStepped.eq_of_comparing {k : Nat} {task task' : Task R} {comparing : Nat × Nat}
    (h : VoteStepped m k task task' m') (hComparing : task.comparing = some comparing) :
    m' = m := by
  cases h with
  | enough _ _ | notEnough => rfl
  | _ => cases hComparing

/-- A result that is on its way after a safe step was so before, or has just been sent
by a candidate in the term of the session. -/
theorem step_grantPending {action : Action R} (hStep : m.step action = some m')
    (hSafe : TallySafe m action) {i : Nat} (hRole : m'.main.role = some (.candidate i))
    (hPending : m'.GrantPending i) :
    m.GrantPending i ∨ (m'.main = m.main ∧ m'.node = m.node ∧
      m.node.currentState = .candidate ∧ ∃ session, m.voteSessions[i]? = some session ∧
        m.node.currentTerm = session.startTerm) := by
  cases step_cases hStep with
  | main hMain => exact Or.inl (hMain.grantPending hPending)
  | select _ hSelect => exact Or.inl (hSelect.grantPending hPending)
  | vote hTask hVote =>
    refine (hVote.grantPending hTask hPending).imp_right ?_
    rintro ⟨peersLen, session, hComparing, hSession, hEnough⟩
    obtain rfl := hVote.eq_of_comparing hComparing
    obtain ⟨hState, hTerm⟩ := (hSafe _ hTask).1 _ hComparing
      (Main.candidateSession_eq_some.mpr hRole) session hSession hEnough
    exact ⟨rfl, rfl, hState, session, hSession, hTerm⟩
  | overrun _ => nomatch hRole
  | replicate _ hReplicate => exact Or.inl (hReplicate.grantPending hPending)
  | recv _ _ hRecv => exact Or.inl (hRecv.grantPending hPending)
  | answerVote _ => exact Or.inl (grantPending_setTask rfl hPending)
  | environment _ hLocal =>
    exact Or.inl (grantPending_setTask (Task.sendsGranted_of_not_votes hLocal.votes) hPending)

theorem step_standing {action : Action R} (hStep : m.step action = some m')
    (hSafe : TallySafe m action) (hTally : Tally members id m) (h : Timely id m) {i : Nat}
    {session' : VoteSession} (hRole : m'.main.role = some (.candidate i))
    (hSession' : m'.voteSessions[i]? = some session') (hPending : m'.GrantPending i) :
    Standing m' session'.startTerm := by
  have hSame : ∀ session, m.voteSessions[i]? = some session →
      session'.startTerm = session.startTerm := by
    intro session hSession
    obtain ⟨later, hLater, hGrows⟩ := (step_grows hStep).voteSessions i session hSession
    obtain rfl := Option.some.inj (hLater.symm.trans hSession')
    exact hGrows.startTerm
  rcases step_grantPending hStep hSafe hRole hPending with
    hOld | ⟨hMain, hNode, hState, session, hSession, hTerm⟩
  · have hLength := hTally.grantPending_lt hOld
    have hRoleOld : m.main.role = some (.candidate i) :=
      (step_role hStep hRole).resolve_right fun hNew => absurd hNew.1 (Nat.ne_of_lt hLength)
    have hSession := List.getElem?_eq_getElem hLength
    have hStanding := h.standing i _ hRoleOld hSession hOld
    rw [hSame _ hSession]
    cases step_cases hStep with
    | main hMain =>
      exact ⟨hMain.settled hRole hRoleOld hStanding.term, hMain.acts hRole⟩
    | select hMain hSelect =>
      refine ⟨hSelect.settled hMain hStanding.term, fun _ => ?_⟩
      rw [hSelect.node]
      exact hStanding.role (by rw [hMain]; rfl)
    | vote hTask hStepped | replicate hTask hStepped =>
      have hFrame := hStepped.frame
      obtain ⟨hTerm, hState⟩ := hFrame.writes.same_of_not_writes fun pc hPc hWrites =>
        (hSafe _ hTask).2 pc hPc hWrites i (Main.candidateSession_eq_some.mpr hRoleOld) hOld
      exact ⟨hStanding.term.congr hFrame.main hTerm hFrame.writes.votedFor
        (fun hCandidate => hState.symm.trans hCandidate),
        fun hActs => hState.trans (hStanding.role (hFrame.main ▸ hActs))⟩
    | recv _ _ hRecv =>
      obtain ⟨voteSessions, rfl⟩ := hRecv.frame
      exact ⟨hStanding.term, hStanding.role⟩
    | overrun _ => nomatch hRole
    | answerVote _ | environment _ _ => exact ⟨hStanding.term, hStanding.role⟩
  · rw [hSame _ hSession]
    refine ⟨fun _ _ => ?_, fun _ => ?_⟩
    · rw [hNode, hTerm]
    · rw [hNode, hState]

theorem step_timely {action : Action R} (hStep : m.step action = some m')
    (hSafe : TallySafe m action) (hTally : Tally members id m) (h : Timely id m) :
    Timely id m' where
  standing := fun _ _ hRole hSession hPending =>
    step_standing hStep hSafe hTally h hRole hSession hPending
  own := fun _ hRole => step_own hStep (Prod.mk.inj hTally.identity).1 h hRole
  voters := fun _ _ hSession => (step_sessionChange hStep hSession).votersFit hSafe h.voters

theorem Machine.Runs.timely [FallibleState S R] {node : RaftNode S}
    (hRuns : Machine.Runs TallySafe { node } m) :
    Tally (State.getMembership node.state) node.id m ∧ Timely node.id m := by
  refine @Machine.Runs.invariant S R _ TallySafe
    (fun m => Tally (State.getMembership node.state) node.id m ∧ Timely node.id m) _ _ hRuns ?_ ?_
  · exact ⟨Tally.initial rfl, fun _ _ hRole => (by cases hRole), fun _ hRole => (by cases hRole),
      fun _ _ hSession => (by cases hSession)⟩
  · intro m action m' hSafe hStep h
    exact ⟨step_tally hStep h.1, step_timely hStep hSafe h.1 h.2⟩

def GrantedByMajority (members : MembershipMap) (m : Machine S R) : Prop :=
  ∃ voters : List NodeId, voters.Nodup ∧ (∀ voter ∈ voters, voter ∈ members.ids.insert m.node.id) ∧
    (members.ids.insert m.node.id).length < 2 * voters.length ∧
    m.node.id ∈ voters ∧ m.node.votedFor = some m.node.id ∧
    ∀ voter ∈ voters, voter ≠ m.node.id → ∃ answer ∈ m.answers,
      answer.2.response.id = voter ∧ answer.2.response.voteGranted = true ∧
      answer.2.request.candidateId = m.node.id ∧ answer.2.request.term = m.node.currentTerm

def VoteSession.voters (session : VoteSession) (id : NodeId) : List NodeId :=
  id :: session.grants.map fun grant => grant.2.response.id

omit [State S R] in
theorem VotersFit.nodup {session : VoteSession} (h : VotersFit session)
    (hGrants : GrantsFit members id m session) : (session.voters id).Nodup := by
  refine List.nodup_cons.mpr ⟨?_, h.distinct⟩
  intro hMem
  obtain ⟨grant, hGrant, hId⟩ := List.mem_map.mp hMem
  exact of_decide_eq_true (List.mem_filter.mp (hGrants.peer grant hGrant)).2 hId

omit [State S R] in
theorem GrantsFit.voters_subset {session : VoteSession} (h : GrantsFit members id m session)
    {voter : NodeId} (hVoter : voter ∈ session.voters id) : voter ∈ members.ids.insert id := by
  rcases List.mem_cons.mp hVoter with rfl | hMem
  · exact List.mem_insert_self
  · obtain ⟨grant, hGrant, rfl⟩ := List.mem_map.mp hMem
    exact List.mem_insert_of_mem (List.mem_of_mem_filter (h.peer grant hGrant))

theorem Timely.elected (hTally : Tally members id m) (hTimely : Timely id m)
    (hMain : m.main = .becomeLeader i .granted) : m.node.currentState = .candidate ∧
      (∃ session, m.voteSessions[i]? = some session ∧ m.node.currentTerm = session.startTerm) ∧
      GrantedByMajority members m := by
  have hRole : m.main.role = some (.candidate i) := by rw [hMain]; rfl
  have hId : m.node.id = id := (Prod.mk.inj hTally.identity).1
  obtain ⟨session, hSession, hMajority⟩ := hTally.majority (hTally.taken i _ hMain)
  have hStanding := hTimely.standing i session hRole hSession
    (Or.inr (Or.inr (Main.takesGranted_iff.mpr hMain)))
  have hCandidate := hStanding.role (by rw [hMain]; rfl)
  have hUpdating : m.main.updating = false := by rw [hMain]; rfl
  have hTerm : m.node.currentTerm = session.startTerm := hStanding.term hUpdating hCandidate
  have hVote : m.node.votedFor = some id := hTimely.own i hRole hUpdating hCandidate
  have hVoters := hTimely.voters i session hSession
  have hGrants := hTally.grants i session hSession
  refine ⟨hCandidate, ⟨session, hSession, hTerm⟩, session.voters id, hVoters.nodup hGrants,
    ?_, ?_, ?_, ?_, ?_⟩
  · rw [hId]
    exact fun voter hVoter => hGrants.voters_subset hVoter
  · rw [hId, VoteSession.voters, List.length_cons, List.length_map]
    exact hMajority
  · rw [hId]
    exact List.mem_cons_self
  · rw [hId, hVote]
  · intro voter hVoter hOther
    rw [hId] at hOther ⊢
    obtain ⟨grant, hGrant, rfl⟩ := List.mem_map.mp ((List.mem_cons.mp hVoter).resolve_left hOther)
    exact ⟨grant, hGrants.answered grant hGrant, rfl, hGrants.granted grant hGrant,
      hGrants.candidate grant hGrant, (hVoters.term grant hGrant).trans hTerm.symm⟩

/-- Whenever the candidate loop makes a node with a peer the leader, it is a candidate
and more than half of the cluster has voted for it in its term. -/
theorem becomeLeader_majority [FallibleState S R] (node : RaftNode S) (m : Machine S R)
    (hRuns : Machine.Runs TallySafe { node } m) (i : Nat) (result : VoteResult)
    (hMain : m.main = .becomeLeader i result)
    (hPeers : (State.getMembership node.state).peers node.id ≠ []) :
    m.node.currentState = .candidate ∧
      GrantedByMajority (State.getMembership node.state) m := by
  obtain ⟨hTally, hTimely⟩ := hRuns.timely
  cases result with
  | noPeers => exact absurd (hTally.taken i _ hMain) hPeers
  | granted =>
    obtain ⟨hCandidate, _, hMajority⟩ := hTimely.elected hTally hMain
    exact ⟨hCandidate, hMajority⟩

end Run

/-- Node 1 as it is built from an empty state. -/
def emptyNode (members : MembershipMap) : RaftNode (Stored Unit) where
  id := 1
  currentTerm := 0
  votedFor := none
  state := ⟨[], 0, members, none, 0⟩
  currentState := .follower
  leaderId := none

/-- The election timeout elapses and the first round of requests begins. -/
def candidateActions : List (Action Unit) :=
  [List.replicate 2 .main, [.event .electionTimeout], List.replicate 6 .main,
    List.replicate 3 (.task 0)].flatten

/-- In a cluster of two the vote of the other node is enough. -/
def electedActions : List (Action Unit) :=
  [candidateActions, List.replicate 3 (.task 1),
    [.answerVote 1 ⟨0, true, 2, .ok⟩, .recv 0 1], List.replicate 3 (.task 0),
    [.event .voteResult]].flatten

theorem becomeLeader_majority_pair : ∃ m : Machine (Stored Unit) Unit,
    m.main = .becomeLeader 0 .granted ∧ m.node.currentState = .candidate ∧
      GrantedByMajority ⟨[1, 2], by decide⟩ m := by
  obtain ⟨m, hRuns, hMain⟩ := Machine.exists_of_run
    (show (Machine.run TallySafe { node := emptyNode ⟨[1, 2], by decide⟩ } electedActions).map
      (·.main.takesGranted 0) = some true by decide)
  have hMain := Main.takesGranted_iff.mp hMain
  exact ⟨m, hMain, becomeLeader_majority (emptyNode ⟨[1, 2], by decide⟩) m hRuns 0 .granted hMain
    (by decide)⟩

/-- In a cluster of four, nodes 2 and 3 grant their votes of term 1 to the first
and the second round; then node 4 answers the second round that it is in term 9. -/
def overlappingActions : List (Action Unit) :=
  [candidateActions, List.replicate 3 (.task 1), List.replicate 3 (.task 2),
    [.answerVote 1 ⟨0, true, 2, .ok⟩, .recv 0 1, .task 0, .task 0, .event .retryTimeout, .main],
    List.replicate 3 (.task 4), List.replicate 3 (.task 6),
    [.answerVote 2 ⟨0, true, 3, .ok⟩, .recv 0 2], List.replicate 3 (.task 0),
    [.answerVote 6 ⟨9, false, 4, .staleTerm⟩, .recv 4 6], List.replicate 3 (.task 4),
    [.event .voteResult]].flatten

theorem not_grantedByMajority {members : MembershipMap} {m : Machine S R}
    (hCluster : 2 ≤ (members.ids.insert m.node.id).length)
    (hTerm : ∀ answer ∈ m.answers, answer.2.request.term ≠ m.node.currentTerm) :
    ¬ GrantedByMajority members m := by
  rintro ⟨voters, hNodup, _, hMajority, _, _, hAnswered⟩
  have hOwn : voters ⊆ [m.node.id] := by
    intro voter hVoter
    by_contra hOther
    obtain ⟨answer, hAnswer, _, _, _, hSame⟩ :=
      hAnswered voter hVoter fun h => hOther (List.mem_singleton.mpr h)
    exact hTerm answer hAnswer hSame
  have hLength := (List.subperm_of_subset hNodup hOwn).length_le
  rw [List.length_singleton] at hLength
  omega

/-- The node is a follower in term 9, in which nobody has voted for it, when its
candidate loop makes it the leader. -/
theorem becomeLeader_stale : ∃ m : Machine (Stored Unit) Unit,
    Machine.Runs (fun _ _ => True) { node := emptyNode ⟨[1, 2, 3, 4], by decide⟩ } m ∧
      m.main = .becomeLeader 0 .granted ∧ m.node.currentState = .follower ∧
      ¬ GrantedByMajority ⟨[1, 2, 3, 4], by decide⟩ m := by
  obtain ⟨m, hRuns, hMain⟩ := Machine.exists_of_run
    (show (Machine.run (fun _ _ => True) { node := emptyNode ⟨[1, 2, 3, 4], by decide⟩ }
      overlappingActions).map (fun m => m.main.takesGranted 0 && decide
        (m.node.currentState = .follower ∧ m.node.id = 1 ∧
          ∀ answer ∈ m.answers, answer.2.request.term ≠ m.node.currentTerm)) = some true by decide)
  obtain ⟨hTakes, hRest⟩ := Bool.and_eq_true_iff.mp hMain
  obtain ⟨hState, hId, hTerm⟩ := of_decide_eq_true hRest
  exact ⟨m, hRuns, Main.takesGranted_iff.mp hTakes, hState,
    not_grantedByMajority (by rw [hId]; decide) hTerm⟩

end Zeroraft
