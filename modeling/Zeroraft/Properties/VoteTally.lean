import Zeroraft.Runtime.Growth

/-!
# The tally of a vote session

Whatever the order of steps, the votes that a session has counted come from
different tasks, each of which has brought a grant of a peer, and a result is only
sent to the candidate loop when the count, or the lack of peers, supports it.
-/

namespace Zeroraft

open Growth

variable {S R : Type}

/-- Session `i` has counted enough votes. -/
def Machine.Majority (members : MembershipMap) (m : Machine S R) (i : Nat) : Prop :=
  ∃ session, m.voteSessions[i]? = some session ∧
    EnoughVotes members.ids.length session.grantedVotes

def Machine.Supports (members : MembershipMap) (id : NodeId) (m : Machine S R) (i : Nat) :
    VoteResult → Prop
  | .noPeers => members.peers id = []
  | .granted => m.Majority members i

/-- What a round knows. -/
def RoundPc.Fits (members : MembershipMap) (id : NodeId) (m : Machine S R) (i : Nat) :
    RoundPc → Prop
  | .readPeersLen | .stepDown _ => True
  | .readPeers peersLen | .recv peersLen | .increment peersLen | .compare peersLen =>
    peersLen = members.ids.length
  | .readAckPeers peersLen peers => peersLen = members.ids.length ∧ peers = members.peers id
  | .sendNoPeers => m.Supports members id i .noPeers
  | .sendGranted => m.Supports members id i .granted

def VoteSendPc.Fits (id : NodeId) (m : Machine S R) (k : Nat) (peer : NodeId) : VoteSendPc → Prop
  | .wait request => request.candidateId = id
  | .forwarded answer =>
    answer.request.candidateId = id ∧ answer.response.id = peer ∧ (k, answer) ∈ m.answers
  | .readLastIndex | .readLastTerm _ | .send _ _ => True

def Task.Fits (members : MembershipMap) (id : NodeId) (m : Machine S R) (k : Nat) : Task R → Prop
  | .round i pc => i < m.voteSessions.length ∧ pc.Fits members id m i
  | .voteSend i owner peer pc =>
    peer ∈ members.peers id ∧
      (∃ task, m.tasks[owner]? = some task ∧ (Task.round i .readPeersLen).Later task) ∧
      pc.Fits id m k peer
  | _ => True

/-- The task is about to count a vote for session `i`. -/
def Task.counts (i : Nat) : Task R → Bool
  | .round j (.increment _) => j == i
  | _ => false

structure GrantsFit (members : MembershipMap) (id : NodeId) (m : Machine S R)
    (session : VoteSession) : Prop where
  distinct : (session.grants.map Prod.fst).Nodup
  ended : ∀ grant ∈ session.grants, m.tasks[grant.1]? = some .ended
  answered : ∀ grant ∈ session.grants, grant ∈ m.answers
  granted : ∀ grant ∈ session.grants, grant.2.response.voteGranted = true
  candidate : ∀ grant ∈ session.grants, grant.2.request.candidateId = id
  peer : ∀ grant ∈ session.grants, grant.2.response.id ∈ members.peers id

structure Tally (members : MembershipMap) (id : NodeId) [State S R] (m : Machine S R) : Prop where
  identity : m.node.identity = (id, members)
  tasks : ∀ (k : Nat) (task : Task R), m.tasks[k]? = some task → task.Fits members id m k
  grants : ∀ (i : Nat) (session : VoteSession), m.voteSessions[i]? = some session → GrantsFit members id m session
  counted : ∀ (i : Nat) (session : VoteSession), m.voteSessions[i]? = some session →
    session.grantedVotes + m.tasks.countP (Task.counts i) ≤ 1 + session.grants.length
  queued : ∀ (i : Nat) (session : VoteSession) (result : VoteResult),
    m.voteSessions[i]? = some session →
    session.voteResult = some result → m.Supports members id i result
  current : ∀ i, m.main.role = some (.candidate i) → i < m.voteSessions.length
  taken : ∀ i result, m.main = .becomeLeader i result → m.Supports members id i result

section Growth

variable {members : MembershipMap} {id : NodeId} {m m' : Machine S R}

theorem Machine.Majority.mono {i : Nat} (hGrows : m.Grows m') (h : m.Majority members i) :
    m'.Majority members i := by
  obtain ⟨session, hSession, hEnough⟩ := h
  obtain ⟨session', hSession', hLater⟩ := hGrows.voteSessions i session hSession
  exact ⟨session', hSession', Nat.lt_of_lt_of_le hEnough hLater.grantedVotes⟩

theorem Machine.Supports.mono {i : Nat} {result : VoteResult} (hGrows : m.Grows m')
    (h : m.Supports members id i result) : m'.Supports members id i result := by
  cases result with
  | noPeers => exact h
  | granted => exact Machine.Majority.mono hGrows h

theorem RoundPc.Fits.mono {i : Nat} {pc : RoundPc} (hGrows : m.Grows m')
    (h : pc.Fits members id m i) : pc.Fits members id m' i := by
  cases pc with
  | sendGranted => exact Machine.Majority.mono hGrows h
  | _ => exact h

theorem VoteSendPc.Fits.mono {k : Nat} {peer : NodeId} {pc : VoteSendPc} (hGrows : m.Grows m')
    (h : pc.Fits id m k peer) : pc.Fits id m' k peer := by
  cases pc with
  | forwarded answer => exact ⟨h.1, h.2.1, hGrows.answers.subset h.2.2⟩
  | _ => exact h

theorem Task.Fits.mono {k : Nat} {task : Task R} (hGrows : m.Grows m')
    (h : task.Fits members id m k) : task.Fits members id m' k := by
  cases task with
  | round i pc =>
    exact ⟨Nat.lt_of_lt_of_le h.1 hGrows.voteSessions.length_le, RoundPc.Fits.mono hGrows h.2⟩
  | voteSend i owner peer pc =>
    obtain ⟨hPeer, ⟨round, hRound, hLater⟩, hPc⟩ := h
    obtain ⟨round', hRound', hLater'⟩ := hGrows.tasks owner round hRound
    exact ⟨hPeer, ⟨round', hRound', hLater.trans hLater'⟩, VoteSendPc.Fits.mono hGrows hPc⟩
  | _ => exact h

theorem GrantsFit.mono {session : VoteSession} (hGrows : m.Grows m')
    (h : GrantsFit members id m session) : GrantsFit members id m' session :=
  { h with
    ended := fun grant hGrant =>
      hGrows.tasks.final (fun _ hLater => by cases hLater <;> rfl) (h.ended grant hGrant)
    answered := fun grant hGrant => hGrows.answers.subset (h.answered grant hGrant) }

theorem Task.fits_of_not_votes {k : Nat} {task : Task R} (h : task.votes = false) :
    task.Fits members id m k := by
  cases task with
  | round _ _ | voteSend _ _ _ _ => cases h
  | _ => trivial

theorem Task.counts_of_not_votes {i : Nat} {task : Task R} (h : task.votes = false) :
    task.counts i = false := by
  cases task with
  | round _ _ | voteSend _ _ _ _ => cases h
  | _ => rfl

inductive SessionStepped (members : MembershipMap) (id : NodeId) (m m' : Machine S R) (i : Nat)
    (session' : VoteSession) : Prop
  | kept {session : VoteSession} (hSession : m.voteSessions[i]? = some session)
      (hGrants : session'.grants = session.grants)
      (hCounted : session'.grantedVotes + m'.tasks.countP (Task.counts i) ≤
        session.grantedVotes + m.tasks.countP (Task.counts i))
      (hQueued : ∀ result, session'.voteResult = some result →
        session.voteResult = some result ∨ m.Supports members id i result)
  | new (hGrants : session'.grants = []) (hGranted : session'.grantedVotes = 1)
      (hCounted : m'.tasks.countP (Task.counts i) = 0) (hQueued : session'.voteResult = none)
  | granted {session : VoteSession} (hSession : m.voteSessions[i]? = some session)
      (hGrants : GrantsFit members id m' session')
      (hLength : session'.grants.length = session.grants.length + 1)
      (hGranted : session'.grantedVotes = session.grantedVotes)
      (hCounted : m'.tasks.countP (Task.counts i) ≤ m.tasks.countP (Task.counts i) + 1)
      (hQueued : session'.voteResult = session.voteResult)

theorem GrantsFit.congr {session session' : VoteSession} (h : GrantsFit members id m session)
    (hGrants : session'.grants = session.grants) : GrantsFit members id m session' := by
  constructor <;> rw [hGrants]
  exacts [h.distinct, h.ended, h.answered, h.granted, h.candidate, h.peer]

theorem GrantsFit.nil {session : VoteSession} (hGrants : session.grants = []) :
    GrantsFit members id m session := by
  constructor <;> simp [hGrants]

theorem GrantsFit.fresh {session : VoteSession} (h : GrantsFit members id m session) {j : Nat}
    {task : Task R} (hTask : m.tasks[j]? = some task) (hLive : task ≠ .ended) :
    j ∉ session.grants.map Prod.fst := by
  intro hMem
  obtain ⟨grant, hGrant, rfl⟩ := List.mem_map.mp hMem
  exact hLive (Option.some.inj (hTask.symm.trans (h.ended grant hGrant)))

theorem GrantsFit.append {session session' : VoteSession} (h : GrantsFit members id m session)
    {j : Nat} {answer : VoteAnswer} (hGrants : session'.grants = session.grants ++ [(j, answer)])
    (hFresh : j ∉ session.grants.map Prod.fst) (hEnded : m.tasks[j]? = some .ended)
    (hAnswered : (j, answer) ∈ m.answers) (hGranted : answer.response.voteGranted = true)
    (hCandidate : answer.request.candidateId = id)
    (hPeer : answer.response.id ∈ members.peers id) : GrantsFit members id m session' := by
  have hAll : ∀ (P : Nat × VoteAnswer → Prop), (∀ grant ∈ session.grants, P grant) →
      P (j, answer) → ∀ grant ∈ session'.grants, P grant := by
    intro P hOld hNew grant hGrant
    rw [hGrants, List.mem_append, List.mem_singleton] at hGrant
    rcases hGrant with hMem | rfl
    · exact hOld grant hMem
    · exact hNew
  refine ⟨?_, hAll _ h.ended hEnded, hAll _ h.answered hAnswered, hAll _ h.granted hGranted,
    hAll _ h.candidate hCandidate, hAll _ h.peer hPeer⟩
  rw [hGrants, List.map_append, List.map_singleton]
  exact List.nodup_append_comm.mp (List.nodup_cons.mpr ⟨hFresh, h.distinct⟩)

theorem sessionStepped_of_eq (hSessions : m'.voteSessions = m.voteSessions)
    (hCounts : ∀ i, m'.tasks.countP (Task.counts i) ≤ m.tasks.countP (Task.counts i)) (i : Nat)
    (session' : VoteSession) (hSession' : m'.voteSessions[i]? = some session') :
    SessionStepped members id m m' i session' :=
  SessionStepped.kept (hSessions ▸ hSession') rfl (Nat.add_le_add_left (hCounts i) _)
    fun _ hResult => Or.inl hResult

theorem countP_setTask {k i : Nat} {task : Task R} (task' : Task R) {spawned : List (Task R)}
    (hTask : m.tasks[k]? = some task) (hTasks : m'.tasks = m.tasks ++ spawned)
    (hSpawned : ∀ t ∈ spawned, t.counts i = false) :
    (m'.setTask k task').tasks.countP (Task.counts i) + (if task.counts i then 1 else 0) =
      m.tasks.countP (Task.counts i) + (if task'.counts i then 1 else 0) := by
  have hOld : (m.tasks ++ spawned)[k]? = some task := by
    rw [List.getElem?_append_left (List.getElem?_eq_some_iff.mp hTask).1, hTask]
  have hNone : spawned.countP (Task.counts i) = 0 :=
    List.countP_eq_zero.mpr fun t ht => by rw [hSpawned t ht]; exact Bool.false_ne_true
  rw [Machine.setTask, hTasks, countP_set_add hOld, List.countP_append, hNone, Nat.add_zero]

theorem countP_setTask_le {k i : Nat} {task task' : Task R} {spawned : List (Task R)}
    (hTask : m.tasks[k]? = some task) (hTasks : m'.tasks = m.tasks ++ spawned)
    (hSpawned : ∀ t ∈ spawned, t.counts i = false) (hCounts : task'.counts i = false) :
    (m'.setTask k task').tasks.countP (Task.counts i) ≤ m.tasks.countP (Task.counts i) := by
  have hCount := countP_setTask task' hTask hTasks hSpawned
  rw [hCounts] at hCount
  exact Nat.le_of_add_right_le (Nat.le_of_eq hCount)

end Growth

section Steps

variable {members : MembershipMap} {id : NodeId} {m m' : Machine S R} [State S R]

theorem Tally.of_step (h : Tally members id m) (hGrows : m.Grows m')
    (hIdentity : m'.node.identity = m.node.identity)
    (hTasks : ∀ (k : Nat) (task : Task R), m'.tasks[k]? = some task →
      m.tasks[k]? = some task ∨ task.Fits members id m' k)
    (hSessions : ∀ (i : Nat) (session' : VoteSession), m'.voteSessions[i]? = some session' →
      SessionStepped members id m m' i session')
    (hCurrent : ∀ i, m'.main.role = some (.candidate i) →
      m.main.role = some (.candidate i) ∨ i < m'.voteSessions.length)
    (hTaken : ∀ i result, m'.main = .becomeLeader i result →
      m.main = .becomeLeader i result ∨ m.Supports members id i result) :
    Tally members id m' where
  identity := hIdentity.trans h.identity
  tasks := by
    intro k task hTask
    rcases hTasks k task hTask with hOld | hNew
    · exact (h.tasks k task hOld).mono hGrows
    · exact hNew
  grants := by
    intro i session' hSession'
    cases hSessions i session' hSession' with
    | kept hSession hGrants _ _ => exact ((h.grants i _ hSession).mono hGrows).congr hGrants
    | new hGrants _ _ _ => exact GrantsFit.nil hGrants
    | granted _ hGrants _ _ _ _ => exact hGrants
  counted := by
    intro i session' hSession'
    cases hSessions i session' hSession' with
    | kept hSession hGrants hCounted _ =>
      rw [hGrants]
      exact hCounted.trans (h.counted i _ hSession)
    | new hGrants hGranted hCounted _ => rw [hGrants, hGranted, hCounted]; rfl
    | granted hSession _ hLength hGranted hCounted _ =>
      have hBefore := h.counted i _ hSession
      omega
  queued := by
    intro i session' result hSession' hResult
    cases hSessions i session' hSession' with
    | kept hSession _ _ hQueued =>
      rcases hQueued result hResult with hOld | hNew
      · exact (h.queued i _ result hSession hOld).mono hGrows
      · exact hNew.mono hGrows
    | new _ _ _ hQueued => rw [hQueued] at hResult; cases hResult
    | granted hSession _ _ _ _ hQueued =>
      exact (h.queued i _ result hSession (hQueued ▸ hResult)).mono hGrows
  current := by
    intro i hi
    rcases hCurrent i hi with hOld | hNew
    · exact Nat.lt_of_lt_of_le (h.current i hOld) hGrows.voteSessions.length_le
    · exact hNew
  taken := by
    intro i result hi
    rcases hTaken i result hi with hOld | hNew
    · exact (h.taken i result hOld).mono hGrows
    · exact hNew.mono hGrows

variable [FallibleState S R]

theorem Tally.of_task (h : Tally members id m) {action : Action R}
    (hStep : m.step action = some m') (hMain : m'.main = m.main)
    (hTasks : ∀ (k : Nat) (task : Task R), m'.tasks[k]? = some task →
      m.tasks[k]? = some task ∨ task.Fits members id m' k)
    (hSessions : ∀ (i : Nat) (session' : VoteSession), m'.voteSessions[i]? = some session' →
      SessionStepped members id m m' i session') : Tally members id m' :=
  h.of_step (step_grows hStep) (step_identity hStep) hTasks hSessions
    (fun _ hi => Or.inl (hMain ▸ hi)) fun _ _ hi => Or.inl (hMain ▸ hi)

theorem Tally.replicate (h : Tally members id m) {k : Nat} {task task' : Task R}
    (hStep : m.step (.task k) = some (m'.setTask k task')) (hTask : m.tasks[k]? = some task)
    (hReplicate : ReplicationStepped m k task task' m') :
    Tally members id (m'.setTask k task') := by
  obtain ⟨hSessions, hVotes, spawned, hTasks, hSpawned⟩ := hReplicate.votesFrame
  refine h.of_task hStep hReplicate.frame.main ?_ ?_
  · intro j t ht
    rcases getElem?_set_cases ht with ⟨_, rfl⟩ | ⟨_, hj⟩
    · exact Or.inr (Task.fits_of_not_votes hVotes)
    · rw [hTasks] at hj
      exact (getElem?_append_cases hj).imp_right fun hNew => Task.fits_of_not_votes (hSpawned t hNew)
  · exact sessionStepped_of_eq hSessions fun i => countP_setTask_le hTask hTasks
      (fun t ht => Task.counts_of_not_votes (hSpawned t ht)) (Task.counts_of_not_votes hVotes)

theorem Tally.of_setTask (h : Tally members id m) {action : Action R} {k : Nat}
    {task task' : Task R} (hStep : m.step action = some (m'.setTask k task'))
    (hTask : m.tasks[k]? = some task) (hMain : m'.main = m.main) (hTasks : m'.tasks = m.tasks)
    (hSessions : m'.voteSessions = m.voteSessions) (hCounts : ∀ i, task'.counts i = false)
    (hFits : task'.Fits members id (m'.setTask k task') k) :
    Tally members id (m'.setTask k task') := by
  refine h.of_task hStep hMain ?_ ?_
  · intro j t ht
    rcases getElem?_set_cases ht with ⟨rfl, rfl⟩ | ⟨_, hj⟩
    · exact Or.inr hFits
    · exact Or.inl (hTasks ▸ hj)
  · exact sessionStepped_of_eq hSessions fun i => countP_setTask_le hTask
      (hTasks.trans (List.append_nil _).symm) (fun _ ht => by cases ht) (hCounts i)

omit [FallibleState S R] in
theorem Tally.peers (h : Tally members id m) :
    (State.getMembership m.node.state).peers m.node.id = members.peers id := by
  obtain ⟨hId, hMembers⟩ := Prod.mk.inj h.identity
  rw [hId, hMembers]

theorem Tally.sent (h : Tally members id m) {k i : Nat} {task : Task R} {result : VoteResult}
    (hStep : m.step (.task k) = some (m'.setTask k .ended)) (hTask : m.tasks[k]? = some task)
    (hSupports : m.Supports members id i result) (hSent : VoteResultSent m i result m') :
    Tally members id (m'.setTask k .ended) := by
  cases hSent with
  | closed _ => exact h.of_setTask hStep hTask rfl rfl rfl (fun _ => rfl) trivial
  | @queued session _ hSession _ =>
    have hCounts : ∀ j, (m.setTask k .ended).tasks.countP (Task.counts j) ≤
        m.tasks.countP (Task.counts j) := fun j =>
      countP_setTask_le hTask (List.append_nil _).symm (fun _ ht => by cases ht) rfl
    refine h.of_task hStep rfl ?_ ?_
    · intro j t ht
      rcases getElem?_set_cases ht with ⟨_, rfl⟩ | ⟨_, hj⟩
      · exact Or.inr trivial
      · exact Or.inl hj
    · intro j session' hSession'
      rcases getElem?_set_cases hSession' with ⟨rfl, rfl⟩ | ⟨_, hOld⟩
      · refine SessionStepped.kept hSession rfl (Nat.add_le_add_left (hCounts j) _) ?_
        rintro _ ⟨⟩
        exact Or.inr hSupports
      · exact SessionStepped.kept hOld rfl (Nat.add_le_add_left (hCounts j) _)
          fun _ hResult => Or.inl hResult

theorem Tally.vote (h : Tally members id m) {k : Nat} {task task' : Task R}
    (hStep : m.step (.task k) = some (m'.setTask k task')) (hTask : m.tasks[k]? = some task)
    (hVote : VoteStepped m k task task' m') : Tally members id (m'.setTask k task') := by
  have hGrows := step_grows hStep
  have hFits := (h.tasks k task hTask).mono hGrows
  have hMembers : State.getMembership m.node.state = members := (Prod.mk.inj h.identity).2
  have hId : m.node.id = id := (Prod.mk.inj h.identity).1
  cases hVote with
  | peersLen =>
    exact h.of_setTask hStep hTask rfl rfl rfl (fun _ => rfl) ⟨hFits.1, by rw [hMembers]; rfl⟩
  | noPeers hPeers =>
    exact h.of_setTask hStep hTask rfl rfl rfl (fun _ => rfl)
      ⟨hFits.1, h.peers.symm.trans hPeers⟩
  | peers _ =>
    exact h.of_setTask hStep hTask rfl rfl rfl (fun _ => rfl) ⟨hFits.1, hFits.2, h.peers⟩
  | @sentNoPeers i _ hSent =>
    have hSupports : m.Supports members id i .noPeers := (h.tasks k _ hTask).2
    exact h.sent hStep hTask hSupports hSent
  | @sentGranted i _ hSent =>
    have hSupports : m.Supports members id i .granted := (h.tasks k _ hTask).2
    exact h.sent hStep hTask hSupports hSent
  | allAcked => exact h.of_setTask hStep hTask rfl rfl rfl (fun _ => rfl) trivial
  | @asked i peersLen peers session hSession =>
    obtain ⟨hLength, hPeersLen, hPeers⟩ := hFits
    refine h.of_task hStep rfl ?_ ?_
    · intro j t ht
      rcases getElem?_set_cases ht with ⟨_, rfl⟩ | ⟨_, hj⟩
      · exact Or.inr ⟨hLength, hPeersLen⟩
      rcases getElem?_append_cases hj with hOld | hNew
      · exact Or.inl hOld
      obtain ⟨peer, hPeer, rfl⟩ := List.mem_map.mp hNew
      obtain ⟨round, hRound, hLater⟩ := hGrows.tasks k _ hTask
      exact Or.inr ⟨hPeers ▸ List.mem_of_mem_filter hPeer,
        ⟨round, hRound, Task.Later.trans Task.Later.round hLater⟩, trivial⟩
    · refine sessionStepped_of_eq rfl fun i => countP_setTask_le hTask rfl ?_ rfl
      intro t ht
      obtain ⟨peer, _, rfl⟩ := List.mem_map.mp ht
      rfl
  | stepDown hDown =>
    cases hDown with
    | stored | setTerm =>
      exact h.of_setTask hStep hTask rfl rfl rfl (fun _ => rfl) ⟨hFits.1, trivial⟩
    | failed | follower => exact h.of_setTask hStep hTask rfl rfl rfl (fun _ => rfl) trivial
  | @incremented i peersLen session hSession =>
    refine h.of_task hStep rfl ?_ ?_
    · intro j t ht
      rcases getElem?_set_cases ht with ⟨rfl, rfl⟩ | ⟨_, hj⟩
      · exact Or.inr hFits
      · exact Or.inl hj
    · intro j session' hSession'
      have hCount : (m.setTask k (.round i (.compare peersLen))).tasks.countP (Task.counts j) + _ =
          m.tasks.countP (Task.counts j) + _ :=
        countP_setTask _ hTask (List.append_nil _).symm (fun _ ht => by cases ht)
      rcases getElem?_set_cases hSession' with ⟨rfl, rfl⟩ | ⟨_, hOld⟩
      · refine SessionStepped.kept hSession rfl ?_ fun _ hResult => Or.inl hResult
        simp only [Task.counts, beq_self_eq_true, if_true, Bool.false_eq_true, if_false] at hCount
        change session.grantedVotes + 1 + (m.setTask k _).tasks.countP (Task.counts j) ≤ _
        omega
      · refine SessionStepped.kept hOld rfl ?_ fun _ hResult => Or.inl hResult
        simp only [Task.counts, Bool.false_eq_true, if_false] at hCount
        change session'.grantedVotes + (m.setTask k _).tasks.countP (Task.counts j) ≤ _
        omega
  | enough hSession hEnough =>
    refine h.of_setTask hStep hTask rfl rfl rfl (fun _ => rfl) ⟨hFits.1, _, hSession, ?_⟩
    exact hFits.2 ▸ hEnough
  | notEnough =>
    exact h.of_setTask hStep hTask rfl rfl rfl (fun _ => rfl) hFits
  | lastIndex | lastTerm =>
    exact h.of_setTask hStep hTask rfl rfl rfl (fun _ => rfl) ⟨hFits.1, hFits.2.1, trivial⟩
  | requested =>
    exact h.of_setTask hStep hTask rfl rfl rfl (fun _ => rfl) ⟨hFits.1, hFits.2.1, hId⟩

omit [State S R] [FallibleState S R] in
theorem recv_counts {k j i peersLen source : Nat} {peer : NodeId} {answer : VoteAnswer}
    (task' : Task R) (i' : Nat) (hRound : m.tasks[k]? = some (.round i (.recv peersLen)))
    (hSource : m.tasks[j]? = some (.voteSend source k peer (.forwarded answer)))
    (hTasks : m'.tasks = m.tasks) :
    ((m'.setTask k task').setTask j .ended).tasks.countP (Task.counts i') =
      m.tasks.countP (Task.counts i') + (if task'.counts i' then 1 else 0) := by
  have hkj : k ≠ j := by
    rintro rfl
    cases hRound.symm.trans hSource
  have hSource' : (m.tasks.set k task')[j]? = some (.voteSend source k peer (.forwarded answer)) := by
    rw [List.getElem?_set_ne hkj, hSource]
  have hFirst := countP_set_add (p := Task.counts i') (b := task') hRound
  have hSecond := countP_set_add (p := Task.counts i') (b := .ended) hSource'
  simp only [Task.counts, Bool.false_eq_true, if_false, Nat.add_zero] at hFirst hSecond
  rw [Machine.setTask, Machine.setTask, hTasks, hSecond, hFirst]
  rfl

theorem Tally.recv (h : Tally members id m) {k j i peersLen source : Nat} {peer : NodeId}
    {answer : VoteAnswer} {task' : Task R}
    (hStep : m.step (.recv k j) = some ((m'.setTask k task').setTask j .ended))
    (hRound : m.tasks[k]? = some (.round i (.recv peersLen)))
    (hSource : m.tasks[j]? = some (.voteSend source k peer (.forwarded answer)))
    (hRecv : RoundReceived m i peersLen j answer task' m') :
    Tally members id ((m'.setTask k task').setTask j .ended) := by
  have hGrows := step_grows hStep
  obtain ⟨voteSessions, hFrame⟩ := hRecv.frame
  have hTasks : m'.tasks = m.tasks := by rw [hFrame]
  have hCounts (i' : Nat) := recv_counts task' i' hRound hSource hTasks
  obtain ⟨hLength, hPeersLen⟩ := (h.tasks k _ hRound).mono hGrows
  obtain ⟨hPeer, _, hCandidate, hId, hAnswered⟩ := (h.tasks j _ hSource).mono hGrows
  have hEnded : ((m'.setTask k task').setTask j .ended).tasks[j]? = some .ended := by
    refine List.getElem?_set_self ?_
    rw [Machine.setTask, List.length_set, hTasks]
    exact (List.getElem?_eq_some_iff.mp hSource).1
  have hKept : ∀ i' session session', m.voteSessions[i']? = some session →
      task'.counts i' = false → session'.grants = session.grants →
      session'.grantedVotes = session.grantedVotes → session'.voteResult = session.voteResult →
      SessionStepped members id m ((m'.setTask k task').setTask j .ended) i' session' := by
    intro i' session session' hSession hNone hGrants hGranted hQueued
    refine SessionStepped.kept hSession hGrants ?_ fun _ hResult => Or.inl (hQueued ▸ hResult)
    rw [hCounts i', hNone, hGranted]
    exact Nat.le_refl _
  have hFits : task'.Fits members id ((m'.setTask k task').setTask j .ended) k →
      ∀ (k' : Nat) (t : Task R), ((m'.setTask k task').setTask j .ended).tasks[k']? = some t →
      m.tasks[k']? = some t ∨ t.Fits members id ((m'.setTask k task').setTask j .ended) k' := by
    intro hTask k' t ht
    rcases getElem?_set_cases ht with ⟨_, rfl⟩ | ⟨_, ht⟩
    · exact Or.inr trivial
    rcases getElem?_set_cases ht with ⟨rfl, rfl⟩ | ⟨_, hOld⟩
    · exact Or.inr hTask
    · exact Or.inl (hTasks ▸ hOld)
  cases hRecv with
  | stepsDown _ =>
    refine h.of_task hStep rfl (hFits ⟨hLength, trivial⟩) ?_
    intro i' session' hSession'
    exact hKept i' session' session' hSession' rfl rfl rfl rfl
  | refused hSession =>
    refine h.of_task hStep rfl (hFits ⟨hLength, hPeersLen⟩) ?_
    intro i' session' hSession'
    rcases getElem?_set_cases hSession' with ⟨rfl, rfl⟩ | ⟨_, hOld⟩
    · exact hKept i' _ _ hSession rfl rfl rfl rfl
    · exact hKept i' session' session' hOld rfl rfl rfl rfl
  | @granted session hSession _ hGranted =>
    refine h.of_task hStep rfl (hFits ⟨hLength, hPeersLen⟩) ?_
    intro i' session' hSession'
    rcases getElem?_set_cases hSession' with ⟨rfl, rfl⟩ | ⟨hOther, hOld⟩
    · have hGrants := h.grants i' session hSession
      refine SessionStepped.granted hSession ?_ ?_ rfl ?_ rfl
      · exact (hGrants.mono hGrows).append rfl (hGrants.fresh hSource (fun h => by cases h)) hEnded
          hAnswered hGranted hCandidate (hId ▸ hPeer)
      · exact List.length_append
      · rw [hCounts i']
        exact Nat.add_le_add_left (by split_ifs <;> omega) _
    · exact hKept i' session' session' hOld (beq_eq_false_iff_ne.mpr (Ne.symm hOther)) rfl rfl rfl

omit [FallibleState S R] in
theorem MainStepped.votes (h : MainStepped m m') :
    (m'.voteSessions = m.voteSessions ++ [{ startTerm := m.node.currentTerm }] ∧
      m'.tasks = m.tasks ++ [.round m.voteSessions.length .readPeersLen]) ∨
    (m'.voteSessions = m.voteSessions ∧
      (∀ (k : Nat) (task : Task R), m'.tasks[k]? = some task →
        m.tasks[k]? = some task ∨ task.votes = false) ∧
      ∀ i, m'.tasks.countP (Task.counts i) ≤ m.tasks.countP (Task.counts i)) := by
  have hSame : (∀ (k : Nat) (task : Task R), m.tasks[k]? = some task →
      m.tasks[k]? = some task ∨ task.votes = false) ∧
      ∀ i, m.tasks.countP (Task.counts i) ≤ m.tasks.countP (Task.counts i) :=
    ⟨fun _ _ hTask => Or.inl hTask, fun _ => Nat.le_refl _⟩
  cases h with
  | voteForSelf _ => exact Or.inl ⟨rfl, rfl⟩
  | readMembership _ =>
    refine Or.inr ⟨rfl, ?_, fun i => ?_⟩
    · intro k task hTask
      refine (getElem?_append_cases hTask).imp_right fun hNew => ?_
      rcases List.mem_pair.mp hNew with rfl | rfl <;> rfl
    · rw [List.countP_append]
      exact Nat.le_refl _
  | @leave role _ _ =>
    right
    cases role with
    | leader i =>
      refine ⟨rfl, ?_, fun i' => ?_⟩
      · intro k task hTask
        obtain ⟨old, hOld, rfl⟩ := Option.map_eq_some_iff.mp (List.getElem?_map.symm.trans hTask)
        rcases Task.stop_cases i old with hStop | hStop <;> rw [hStop]
        · exact Or.inl hOld
        · exact Or.inr rfl
      · refine List.countP_map.trans_le (List.countP_mono_left fun task _ hCounts => ?_)
        rcases Task.stop_cases i task with hStop | hStop <;> rw [Function.comp, hStop] at hCounts
        · exact hCounts
        · cases hCounts
    | follower | candidate _ => exact ⟨rfl, hSame⟩
  | _ => exact Or.inr ⟨rfl, hSame⟩

omit [FallibleState S R] in
theorem MainStepped.becomeLeader_main (h : MainStepped m m') (i : Nat) (result : VoteResult) :
    m'.main ≠ .becomeLeader i result := by
  cases h with
  | leave _ _ =>
    rw [RoleLoop.leave_main]
    rintro ⟨⟩
  | _ => rintro ⟨⟩

omit [FallibleState S R] in
theorem Tally.countP_new (h : Tally members id m) :
    m.tasks.countP (Task.counts m.voteSessions.length) = 0 := by
  refine List.countP_eq_zero.mpr fun task hTask hCounts => ?_
  obtain ⟨k, hk⟩ := List.getElem?_of_mem hTask
  unfold Task.counts at hCounts
  split at hCounts
  · obtain rfl := beq_iff_eq.mp hCounts
    exact Nat.lt_irrefl _ (h.tasks k _ hk).1
  · cases hCounts

omit [FallibleState S R] in
theorem Tally.sessionStepped_append (h : Tally members id m) {startTerm : Nat}
    (hSessions : m'.voteSessions = m.voteSessions ++ [{ startTerm := startTerm }])
    (hCounts : ∀ i, m'.tasks.countP (Task.counts i) = m.tasks.countP (Task.counts i)) (i : Nat)
    (session' : VoteSession) (hSession' : m'.voteSessions[i]? = some session') :
    SessionStepped members id m m' i session' := by
  rw [hSessions, List.getElem?_append] at hSession'
  split_ifs at hSession' with hi
  · exact SessionStepped.kept hSession' rfl (Nat.le_of_eq (by rw [hCounts]))
      fun _ hResult => Or.inl hResult
  · rw [List.getElem?_singleton] at hSession'
    split_ifs at hSession' with hLast
    cases hSession'
    obtain rfl : i = m.voteSessions.length := by omega
    exact SessionStepped.new rfl rfl (by rw [hCounts, h.countP_new]) rfl

theorem Tally.main (h : Tally members id m) (hStep : m.step .main = some m')
    (hMain : MainStepped m m') : Tally members id m' := by
  have hTaken : ∀ i result, m'.main = .becomeLeader i result →
      m.main = .becomeLeader i result ∨ m.Supports members id i result :=
    fun i result hi => absurd hi (hMain.becomeLeader_main i result)
  have hCurrent : ∀ i, m'.main.role = some (.candidate i) →
      m.main.role = some (.candidate i) ∨ i < m'.voteSessions.length := by
    intro i hi
    refine (hMain.candidate hi).imp_right ?_
    rintro ⟨rfl, hNew, _⟩
    rw [hNew, List.length_append]
    exact Nat.lt_succ_self _
  rcases hMain.votes with ⟨hSessions, hTasks⟩ | ⟨hSessions, hTasks, hCounts⟩
  · refine h.of_step (step_grows hStep) (step_identity hStep) ?_ ?_ hCurrent hTaken
    · intro k task hTask
      rw [hTasks] at hTask
      refine (getElem?_append_cases hTask).imp_right fun hNew => ?_
      obtain rfl := List.mem_singleton.mp hNew
      exact ⟨by rw [hSessions, List.length_append]; exact Nat.lt_succ_self _, trivial⟩
    · have hCounts (i : Nat) :
          m'.tasks.countP (Task.counts i) = m.tasks.countP (Task.counts i) := by
        rw [hTasks, List.countP_append]
        rfl
      exact h.sessionStepped_append hSessions hCounts
  · refine h.of_step (step_grows hStep) (step_identity hStep) ?_
      (sessionStepped_of_eq hSessions hCounts) hCurrent hTaken
    intro k task hTask
    exact (hTasks k task hTask).imp_right Task.fits_of_not_votes

theorem Tally.select (h : Tally members id m) {role : RoleLoop} {event : Event R}
    (hStep : m.step (.event event) = some m') (hMain : m.main = .select role)
    (hSelect : SelectStepped m role event m') : Tally members id m' := by
  have hCurrent : ∀ i, m'.main.role = some (.candidate i) →
      m.main.role = some (.candidate i) ∨ i < m'.voteSessions.length := by
    intro i hi
    left
    rw [hMain, hSelect.candidate hi]
    rfl
  have hOf := h.of_step (step_grows hStep) (step_identity hStep)
  cases hSelect with
  | @voteResult i session result hSession hResult =>
    refine hOf (fun _ _ hTask => Or.inl hTask) ?_ hCurrent ?_
    · intro j session' hSession'
      rcases getElem?_set_cases hSession' with ⟨rfl, rfl⟩ | ⟨_, hOld⟩
      · exact SessionStepped.kept hSession rfl (Nat.le_refl _) fun _ h => by cases h
      · exact SessionStepped.kept hOld rfl (Nat.le_refl _) fun _ h => Or.inl h
    · rintro _ _ ⟨⟩
      exact Or.inr (h.queued i session result hSession hResult)
  | @retry i =>
    refine hOf ?_ (sessionStepped_of_eq rfl fun j => ?_) hCurrent (by rintro _ _ ⟨⟩)
    · intro k task hTask
      refine (getElem?_append_cases hTask).imp_right fun hNew => ?_
      obtain rfl := List.mem_singleton.mp hNew
      exact ⟨h.current i (by rw [hMain]; rfl), trivial⟩
    · exact Nat.le_of_eq List.countP_append
  | @heartbeat i =>
    refine hOf ?_ (sessionStepped_of_eq rfl fun j => ?_) hCurrent (by rintro _ _ ⟨⟩)
    · intro k task hTask
      refine (getElem?_append_cases hTask).imp_right fun hNew => ?_
      obtain rfl := List.mem_singleton.mp hNew
      trivial
    · exact Nat.le_of_eq List.countP_append
  | _ =>
    exact hOf (fun _ _ hTask => Or.inl hTask) (sessionStepped_of_eq rfl fun _ => Nat.le_refl _)
      hCurrent (by rintro _ _ ⟨⟩)

theorem step_tally {action : Action R} (hStep : m.step action = some m')
    (h : Tally members id m) : Tally members id m' := by
  cases step_cases hStep with
  | main hMain => exact h.main hStep hMain
  | select hMain hSelect => exact h.select hStep hMain hSelect
  | overrun hOverrun =>
    refine h.of_step (step_grows hStep) (step_identity hStep) (fun _ _ hTask => Or.inl hTask)
      ?_ nofun nofun
    rcases hOverrun.sessions with hSame | ⟨_, hNew⟩
    · exact sessionStepped_of_eq hSame fun _ => Nat.le_refl _
    · exact h.sessionStepped_append hNew fun _ => rfl
  | vote hTask hVote => exact h.vote hStep hTask hVote
  | replicate hTask hReplicate => exact h.replicate hStep hTask hReplicate
  | recv hRound hSource hRecv => exact h.recv hStep hRound hSource hRecv
  | answerVote hTask =>
    have hFits := (h.tasks _ _ hTask).mono (step_grows hStep)
    refine h.of_setTask hStep hTask rfl rfl rfl (fun _ => rfl) ?_
    exact ⟨hFits.1, hFits.2.1, hFits.2.2, rfl, List.mem_append_right _ List.mem_cons_self⟩
  | environment hTask hLocal =>
    have hVotes := hLocal.votes
    exact h.of_setTask hStep hTask rfl rfl rfl (fun _ => Task.counts_of_not_votes hVotes)
      (Task.fits_of_not_votes hVotes)

omit [FallibleState S R] in
theorem Tally.initial {node : RaftNode S} (h : node.identity = (id, members)) :
    Tally members id ({ node } : Machine S R) where
  identity := h
  tasks := fun _ _ hTask => by cases hTask
  grants := fun _ _ hSession => by cases hSession
  counted := fun _ _ hSession => by cases hSession
  queued := fun _ _ _ hSession => by cases hSession
  current := fun _ hi => by cases hi
  taken := fun _ _ hi => by cases hi

theorem Machine.Runs.tally {Allowed : Machine S R → Action R → Prop} {node : RaftNode S}
    (hRuns : Machine.Runs Allowed { node } m) :
    Tally (State.getMembership node.state) node.id m :=
  hRuns.invariant (Tally.initial rfl) fun _ _ _ _ hStep h => step_tally hStep h

omit [FallibleState S R] in
theorem Tally.majority (h : Tally members id m) {i : Nat} (hMajority : m.Majority members i) :
    ∃ session, m.voteSessions[i]? = some session ∧
      (members.ids.insert id).length < 2 * (session.grants.length + 1) := by
  obtain ⟨session, hSession, hEnough⟩ := hMajority
  have hCounted := h.counted i session hSession
  have hInsert : (members.ids.insert id).length ≤ members.ids.length + 1 := by
    by_cases hId : id ∈ members.ids
    · rw [List.length_insert_of_mem hId]
      exact Nat.le_succ _
    · rw [List.length_insert_of_not_mem hId]
  unfold EnoughVotes at hEnough
  exact ⟨session, hSession, by omega⟩

end Steps

end Zeroraft
