import Zeroraft.Runtime.MainLoop

/-!
# A session whose rounds are not interrupted

`request_votes` as a function of the responses that its rounds receive, one round after
the other. The machine does the same when nothing else runs in between.
-/

namespace Zeroraft

variable {S R : Type}

namespace VoteSession

/-- The body of the loop of `request_votes`, for the response that task `j` has forwarded.
A round whose next point is not `recv` has left the loop. -/
def take (peersLen j : Nat) (answer : VoteAnswer) (session : VoteSession) : RoundPc × VoteSession :=
  let response := answer.response
  if response.reason.stepsDown then (.stepDown (.storeCurrentTerm response.term), session)
  else
    let acknowledged := { session with ackPeers := session.ackPeers.insert response.id }
    if response.voteGranted then
      let counted := { acknowledged with
        grantedVotes := session.grantedVotes + 1
        grants := session.grants ++ [(j, answer)] }
      (if EnoughVotes peersLen counted.grantedVotes then .sendGranted else .recv peersLen, counted)
    else (.recv peersLen, acknowledged)

/-- The loop of `request_votes`. -/
def takeAll (peersLen : Nat) : List (Nat × VoteAnswer) → VoteSession → RoundPc × VoteSession
  | [], session => (.recv peersLen, session)
  | (j, answer) :: rest, session =>
    match session.take peersLen j answer with
    | (.recv _, session') => takeAll peersLen rest session'
    | stopped => stopped

theorem takeAll_cons (peersLen j : Nat) (answer : VoteAnswer) (rest : List (Nat × VoteAnswer))
    (session : VoteSession) : session.takeAll peersLen ((j, answer) :: rest) =
      if (session.take peersLen j answer).1 = .recv peersLen
      then (session.take peersLen j answer).2.takeAll peersLen rest
      else session.take peersLen j answer := by
  rw [takeAll]
  unfold take
  by_cases hReason : answer.response.reason.stepsDown = true
  · simp [hReason]
  · by_cases hGranted : answer.response.voteGranted = true
    · by_cases hEnough : EnoughVotes peersLen (session.grantedVotes + 1) <;>
        simp [hReason, hGranted, hEnough]
    · simp [hReason, hGranted]

/-- `request_votes` with the responses that it receives, and the result that it sends. -/
def round (membership : MembershipMap) (id : NodeId) (answers : List (Nat × VoteAnswer))
    (session : VoteSession) : VoteSession :=
  let peersLen := membership.ids.length
  let peers := membership.peers id
  if peers = [] then { session with voteResult := some .noPeers }
  else if unackPeers peers session.ackPeers = [] then session
  else
    let (pc, session') := session.takeAll peersLen answers
    if pc = .sendGranted then { session' with voteResult := some .granted } else session'

/-- The rounds of a session, up to the first result. -/
def rounds (membership : MembershipMap) (id : NodeId) :
    List (List (Nat × VoteAnswer)) → VoteSession → VoteSession
  | [], session => session
  | answers :: rest, session =>
    let session' := session.round membership id answers
    if session'.voteResult.isSome then session' else rounds membership id rest session'

end VoteSession

section Uninterrupted

variable [State S R] {m m₁ m' : Machine S R} {k i peersLen : Nat} {session : VoteSession}

/-- Nothing is forbidden. -/
abbrev Unrestricted (_ : Machine S R) (_ : Action R) : Prop := True

/-- A run of the tasks of a session, which leaves the main loop and the node as they are. -/
structure Machine.RunsBeside (m m' : Machine S R) : Prop where
  runs : Machine.Runs Unrestricted m m'
  main : m'.main = m.main
  node : m'.node = m.node

theorem Machine.RunsBeside.refl (m : Machine S R) : m.RunsBeside m :=
  ⟨Relation.ReflTransGen.refl, rfl, rfl⟩

theorem Machine.RunsBeside.trans (h : m.RunsBeside m₁) (h' : m₁.RunsBeside m') :
    m.RunsBeside m' :=
  ⟨h.runs.trans h'.runs, h'.main.trans h.main, h'.node.trans h.node⟩

theorem Machine.RunsBeside.step {action : Action R} (hStep : m.step action = some m')
    (hMain : m'.main = m.main) (hNode : m'.node = m.node) : m.RunsBeside m' :=
  ⟨Relation.ReflTransGen.single ⟨action, trivial, hStep⟩, hMain, hNode⟩

theorem Machine.step_recv {j source : Nat} {peer : NodeId} {answer : VoteAnswer}
    {task' : Task R} (hRound : m.tasks[k]? = some (.round i (.recv peersLen)))
    (hSource : m.tasks[j]? = some (.voteSend source k peer (.forwarded answer)))
    (hRecv : roundRecv i peersLen j answer m = some (task', m')) :
    m.step (.recv k j) = some ((m'.setTask k task').setTask j .ended) := by
  simp only [Machine.step, hRound, hSource, hRecv, if_true, Option.bind_eq_bind, Option.bind_some]

theorem Machine.step_round {pc pc' : RoundPc} (hRound : m.tasks[k]? = some (.round i pc))
    (hStep : roundStep k i pc m = some (.round i pc', m')) :
    m.step (.task k) = some (m'.setTask k (.round i pc')) := by
  simp only [Machine.step, hRound, taskStep, hStep, Option.bind_eq_bind, Option.bind_some]

theorem Machine.runs_count (hRound : m.tasks[k]? = some (.round i (.increment peersLen)))
    (hSession : m.voteSessions[i]? = some session) :
    ∃ m', m.RunsBeside m' ∧
      m'.tasks[k]? = some (.round i (if EnoughVotes peersLen (session.grantedVotes + 1)
        then .sendGranted else .recv peersLen)) ∧
      m'.voteSessions[i]? = some { session with grantedVotes := session.grantedVotes + 1 } ∧
      ∀ other, other ≠ k → m'.tasks[other]? = m.tasks[other]? := by
  have hLength := (List.getElem?_eq_some_iff.mp hRound).1
  let counted : VoteSession := { session with grantedVotes := session.grantedVotes + 1 }
  let m₁ := (m.setVoteSession i counted).setTask k (.round i (.compare peersLen))
  have hFirst : m.step (.task k) = some m₁ := Machine.step_round hRound (by
    simp only [roundStep, hSession, Option.bind_eq_bind, Option.bind_some]
    rfl)
  have hRound₁ : m₁.tasks[k]? = some (.round i (.compare peersLen)) := List.getElem?_set_self hLength
  have hSession₁ : m₁.voteSessions[i]? = some counted :=
    List.getElem?_set_self (List.getElem?_eq_some_iff.mp hSession).1
  let pc : RoundPc := if EnoughVotes peersLen counted.grantedVotes then .sendGranted
    else .recv peersLen
  have hSecond : m₁.step (.task k) = some (m₁.setTask k (.round i pc)) :=
    Machine.step_round hRound₁ (by
      simp only [roundStep, hSession₁, Option.bind_eq_bind, Option.bind_some, pc])
  refine ⟨_, (Machine.RunsBeside.step hFirst rfl rfl).trans
    (Machine.RunsBeside.step hSecond rfl rfl), ?_, hSession₁, ?_⟩
  · exact List.getElem?_set_self ((List.getElem?_eq_some_iff.mp hRound₁).1)
  · intro other hOther
    exact (List.getElem?_set_ne hOther.symm).trans (List.getElem?_set_ne hOther.symm)

omit [State S R] in
/-- Taking a response changes the round and ends the task that has forwarded it. -/
theorem Machine.tasks_of_recv {j : Nat} {task : Task R} (hOwn : m.tasks[k]? = some task)
    (hNe : j ≠ k) (m₁ : Machine S R) (task' : Task R) (hTasks : m₁.tasks = m.tasks) :
    ((m₁.setTask k task').setTask j .ended).tasks[k]? = some task' ∧
      ∀ other, other ≠ k → other ≠ j →
        ((m₁.setTask k task').setTask j .ended).tasks[other]? = m.tasks[other]? := by
  have hLength := (List.getElem?_eq_some_iff.mp hOwn).1
  constructor
  · exact (List.getElem?_set_ne hNe).trans (List.getElem?_set_self (by rwa [hTasks]))
  · intro other hk hj
    exact (List.getElem?_set_ne hj.symm).trans
      ((List.getElem?_set_ne hk.symm).trans (congrArg (·[other]?) hTasks))

/-- A round takes a response as `take` does, and leaves the other tasks alone. -/
theorem Machine.runs_take {j source : Nat} {peer : NodeId} {answer : VoteAnswer}
    (hRound : m.tasks[k]? = some (.round i (.recv peersLen)))
    (hSource : m.tasks[j]? = some (.voteSend source k peer (.forwarded answer)))
    (hSession : m.voteSessions[i]? = some session) :
    ∃ m', m.RunsBeside m' ∧
      m'.tasks[k]? = some (.round i (session.take peersLen j answer).1) ∧
      m'.voteSessions[i]? = some (session.take peersLen j answer).2 ∧
      ∀ other, other ≠ k → other ≠ j → m'.tasks[other]? = m.tasks[other]? := by
  have hNe : j ≠ k := by
    rintro rfl
    cases hRound.symm.trans hSource
  unfold VoteSession.take
  by_cases hReason : answer.response.reason.stepsDown = true
  · have hRecv : roundRecv i peersLen j answer m =
        some (.round i (.stepDown (.storeCurrentTerm answer.response.term)), m) := by
      simp only [roundRecv, hSession, hReason, if_true, Option.bind_eq_bind, Option.bind_some]
    obtain ⟨hTask, hRest⟩ := Machine.tasks_of_recv hRound hNe m _ rfl
    rw [if_pos hReason]
    exact ⟨_, Machine.RunsBeside.step (Machine.step_recv hRound hSource hRecv) rfl rfl, hTask,
      hSession, hRest⟩
  · rw [if_neg hReason]
    by_cases hGranted : answer.response.voteGranted = true
    · rw [if_pos hGranted]
      let taken : VoteSession := { session with
        ackPeers := session.ackPeers.insert answer.response.id
        grants := session.grants ++ [(j, answer)] }
      have hRecv : roundRecv i peersLen j answer m =
          some (.round i (.increment peersLen), m.setVoteSession i taken) := by
        simp only [roundRecv, hSession, hReason, hGranted, if_true, Option.bind_eq_bind,
          Option.bind_some, Bool.false_eq_true, if_false]
        rfl
      obtain ⟨hTask, hRest⟩ := Machine.tasks_of_recv hRound hNe (m.setVoteSession i taken)
        (.round i (.increment peersLen)) rfl
      have hTaken : (((m.setVoteSession i taken).setTask k (.round i (.increment peersLen))).setTask
          j .ended).voteSessions[i]? = some taken :=
        List.getElem?_set_self (List.getElem?_eq_some_iff.mp hSession).1
      obtain ⟨m', hRuns, hTask', hSession', hRest'⟩ := Machine.runs_count hTask hTaken
      exact ⟨m', (Machine.RunsBeside.step (Machine.step_recv hRound hSource hRecv) rfl rfl).trans
        hRuns, hTask', hSession', fun other hk hj => (hRest' other hk).trans (hRest other hk hj)⟩
    · have hRecv : roundRecv i peersLen j answer m = some (.round i (.recv peersLen),
          m.setVoteSession i { session with
            ackPeers := session.ackPeers.insert answer.response.id }) := by
        simp only [roundRecv, hSession, hReason, hGranted, Option.bind_eq_bind, Option.bind_some,
          Bool.false_eq_true, if_false]
      obtain ⟨hTask, hRest⟩ := Machine.tasks_of_recv hRound hNe (m.setVoteSession i { session with
        ackPeers := session.ackPeers.insert answer.response.id }) (.round i (.recv peersLen)) rfl
      rw [if_neg hGranted]
      refine ⟨_, Machine.RunsBeside.step (Machine.step_recv hRound hSource hRecv) rfl rfl, hTask,
        ?_, hRest⟩
      exact List.getElem?_set_self (List.getElem?_eq_some_iff.mp hSession).1

/-- A round takes the responses that have been forwarded to it as `takeAll` does. -/
theorem Machine.runs_takeAll {answers : List (Nat × VoteAnswer)}
    (hRound : m.tasks[k]? = some (.round i (.recv peersLen)))
    (hSession : m.voteSessions[i]? = some session) (hTasks : (answers.map Prod.fst).Nodup)
    (hForwarded : ∀ answer ∈ answers, ∃ source peer,
      m.tasks[answer.1]? = some (.voteSend source k peer (.forwarded answer.2))) :
    ∃ m', m.RunsBeside m' ∧
      m'.tasks[k]? = some (.round i (session.takeAll peersLen answers).1) ∧
      m'.voteSessions[i]? = some (session.takeAll peersLen answers).2 := by
  induction answers generalizing m session with
  | nil => exact ⟨m, Machine.RunsBeside.refl m, hRound, hSession⟩
  | cons first rest ih =>
    obtain ⟨j, answer⟩ := first
    obtain ⟨source, peer, hSource⟩ := hForwarded _ List.mem_cons_self
    obtain ⟨hFresh, hRest⟩ := List.nodup_cons.mp hTasks
    obtain ⟨m₁, hRuns, hTask, hTaken, hOthers⟩ := Machine.runs_take hRound hSource hSession
    rw [VoteSession.takeAll_cons]
    split
    · rename_i hNext
      rw [hNext] at hTask
      have hLater : ∀ answer ∈ rest, ∃ source peer,
          m₁.tasks[answer.1]? = some (.voteSend source k peer (.forwarded answer.2)) := by
        intro answer hAnswer
        obtain ⟨source, peer, hOld⟩ := hForwarded answer (List.mem_cons_of_mem _ hAnswer)
        refine ⟨source, peer, (hOthers answer.1 ?_ ?_).trans hOld⟩
        · rintro hSame
          rw [hSame, hRound] at hOld
          cases hOld
        · intro hSame
          exact hFresh (hSame ▸ List.mem_map_of_mem (f := Prod.fst) hAnswer)
      obtain ⟨m', hRuns', hTask', hTaken'⟩ := ih hTask hTaken hRest hLater
      exact ⟨m', hRuns.trans hRuns', hTask', hTaken'⟩
    · exact ⟨m₁, hRuns, hTask, hTaken⟩

/-- A round puts its result in the channel of the session that the main loop is in. -/
theorem Machine.runs_send {result : VoteResult} {pc : RoundPc}
    (hPc : (pc, result) ∈ [(RoundPc.sendGranted, VoteResult.granted), (.sendNoPeers, .noPeers)])
    (hRound : m.tasks[k]? = some (.round i pc)) (hSession : m.voteSessions[i]? = some session)
    (hRole : m.main.role = some (.candidate i)) (hEmpty : session.voteResult = none) :
    ∃ m', m.RunsBeside m' ∧
      m'.voteSessions[i]? = some { session with voteResult := some result } := by
  have hSend : sendVoteResult i result m =
      some (m.setVoteSession i { session with voteResult := some result }) := by
    simp only [sendVoteResult, hSession, hRole, hEmpty, Option.bind_eq_bind, Option.bind_some,
      ne_eq, not_true_eq_false, Option.isSome_none, Bool.false_eq_true, if_false]
  have hSet : (m.setVoteSession i { session with voteResult := some result }).voteSessions[i]? =
      some { session with voteResult := some result } :=
    List.getElem?_set_self (List.getElem?_eq_some_iff.mp hSession).1
  have hNext : roundStep k i pc m =
      some (.ended, m.setVoteSession i { session with voteResult := some result }) := by
    rcases List.mem_pair.mp hPc with hPc | hPc
    all_goals
      obtain ⟨rfl, rfl⟩ := Prod.mk.inj hPc
      simp only [roundStep, hSend, Option.bind_eq_bind, Option.bind_some]
  have hStep : m.step (.task k) = some ((m.setVoteSession i { session with
      voteResult := some result }).setTask k .ended) := by
    simp only [Machine.step, hRound, taskStep, hNext, Option.bind_eq_bind, Option.bind_some]
  exact ⟨_, Machine.RunsBeside.step hStep rfl rfl, hSet⟩

end Uninterrupted

end Zeroraft
