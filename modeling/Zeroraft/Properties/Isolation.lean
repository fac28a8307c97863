import Zeroraft.Properties.Addressing
import Zeroraft.Properties.Leadership
import Zeroraft.Properties.ServedCluster

/-!
# Nodes that hear nothing

A node that no response to its requests for votes reaches is not elected, whatever else
happens to it. So it is with a node whose forwarder has stopped, and one lost connection is
enough for that.
-/

namespace Zeroraft

variable {S R : Type}

/-- No response to a request for a vote arrives. -/
def HearsNoVotes (_ : Machine S R) : Action R → Prop
  | .answerVote _ _ => False
  | _ => True

instance HearsNoVotes.instDecidable (m : Machine S R) (action : Action R) :
    Decidable (HearsNoVotes m action) :=
  match action with
  | .answerVote _ _ => isFalse id
  | .main | .event _ | .overrun | .task _ | .recv _ _ | .answerAppend _ _ | .lose _ | .cancel _
  | .elapse _ => isTrue trivial

variable [State S R]

/-- The sessions that the node has started after `m₁` have no votes of others. -/
structure Alone (members : MembershipMap) (id : NodeId) (m₁ m : Machine S R) : Prop where
  grows : m₁.Grows m
  tally : Tally members id m
  answers : m.answers = m₁.answers
  state : m.node.currentState ≠ .leader
  role : ∀ i, m.main.role = some (.candidate i) → m₁.voteSessions.length ≤ i
  grants : ∀ i session, m.voteSessions[i]? = some session → m₁.voteSessions.length ≤ i →
    session.grants = []

variable {members : MembershipMap} {id : NodeId} {m₁ m m' : Machine S R} {action : Action R}

theorem Alone.refl (hTally : Tally members id m₁) (hState : m₁.node.currentState ≠ .leader)
    (hRole : ∀ i, m₁.main.role ≠ some (.candidate i)) : Alone members id m₁ m₁ where
  grows := Machine.Grows.refl m₁
  tally := hTally
  answers := rfl
  state := hState
  role := fun i hi => absurd hi (hRole i)
  grants := fun _ _ hSession hi =>
    absurd (List.getElem?_eq_some_iff.mp hSession).1 (Nat.not_lt_of_le hi)

/-- One vote is not enough where there are others. -/
theorem Alone.not_supports (h : Alone members id m₁ m) (hPeers : members.peers id ≠ []) {i : Nat}
    (hi : m₁.voteSessions.length ≤ i) (result : VoteResult) :
    ¬ m.Supports members id i result := by
  cases result with
  | noPeers => exact hPeers
  | granted =>
    rintro ⟨session, hSession, hEnough⟩
    have hCounted := h.tally.counted i session hSession
    rw [h.grants i session hSession hi, List.length_nil] at hCounted
    have hIds : 0 < members.ids.length := by
      obtain ⟨peer, hPeer⟩ := List.exists_mem_of_ne_nil _ hPeers
      exact List.length_pos_of_mem (List.mem_of_mem_filter hPeer)
    unfold EnoughVotes at hEnough
    omega

theorem Alone.step_state (h : Alone members id m₁ m) (hPeers : members.peers id ≠ [])
    (hStep : m.step action = some m') : m'.node.currentState ≠ .leader := by
  intro hLeader
  rcases step_becomeLeader hStep hLeader with hOld | ⟨_, i, result, hMain, _⟩
  · exact h.state hOld
  · have hi := h.role i (by rw [hMain]; rfl)
    exact h.not_supports hPeers hi result (h.tally.taken i result hMain)

theorem Alone.step_role (h : Alone members id m₁ m) (hStep : m.step action = some m') (i : Nat)
    (hRole : m'.main.role = some (.candidate i)) : m₁.voteSessions.length ≤ i := by
  cases step_cases hStep with
  | main hMain =>
    rcases hMain.candidate hRole with hOld | ⟨rfl, _⟩
    · exact h.role i hOld
    · exact h.grows.voteSessions.length_le
  | select hMain hSelect =>
    refine h.role i ?_
    rw [hMain, hSelect.candidate hRole]
    rfl
  | vote _ hTask | replicate _ hTask => exact h.role i (hTask.frame.main ▸ hRole)
  | recv _ _ hRecv =>
    obtain ⟨voteSessions, rfl⟩ := hRecv.frame
    exact h.role i hRole
  | overrun _ => nomatch hRole
  | answerVote _ | environment _ _ => exact h.role i hRole

/-- A response that arrived before is one to a session of before. -/
theorem Alone.session_lt (h : Alone members id m₁ m) (hTally : Tally members id m₁)
    (hSent : SentOnce m₁) {k j i peersLen source : Nat} {peer : NodeId} {answer : VoteAnswer}
    (hRound : m.tasks[k]? = some (.round i (.recv peersLen)))
    (hSource : m.tasks[j]? = some (.voteSend source k peer (.forwarded answer))) :
    i < m₁.voteSessions.length := by
  obtain ⟨_, _, _, _, hAnswer⟩ := h.tally.tasks j _ hSource
  rw [h.answers] at hAnswer
  have hBefore : ∃ pc, m₁.tasks[j]? = some (.voteSend source k peer pc) := by
    rcases (hSent.answers j answer hAnswer).1 with hEnded | ⟨_, _, _, hForwarded⟩
    · have hStill := h.grows.tasks.final (fun _ hLater => by cases hLater <;> rfl) hEnded
      cases hStill.symm.trans hSource
    · obtain ⟨task, hTask, hLater⟩ := h.grows.tasks j _ hForwarded
      obtain rfl := Option.some.inj (hTask.symm.trans hSource)
      cases hLater <;> exact ⟨_, hForwarded⟩
  obtain ⟨pc, hBefore⟩ := hBefore
  obtain ⟨_, ⟨round, hOwner, hFirst⟩, _⟩ := hTally.tasks j _ hBefore
  obtain ⟨task, hTask, hLater⟩ := h.grows.tasks k round hOwner
  obtain rfl := Option.some.inj (hTask.symm.trans hRound)
  have hOwnerFits := hTally.tasks k round hOwner
  cases hLater with
  | same | round => exact hOwnerFits.1

theorem Alone.step_grants (h : Alone members id m₁ m) (hTally : Tally members id m₁)
    (hSent : SentOnce m₁) (hStep : m.step action = some m') (i : Nat) (session' : VoteSession)
    (hSession' : m'.voteSessions[i]? = some session') (hi : m₁.voteSessions.length ≤ i) :
    session'.grants = [] := by
  cases step_sessionChange hStep hSession' with
  | kept hSession _ _ hGrants =>
    rw [hGrants]
    exact h.grants i _ hSession hi
  | new _ hNew => rw [hNew]
  | granted _ _ hRound hSource _ _ _ =>
    exact absurd (h.session_lt hTally hSent hRound hSource) (Nat.not_lt_of_le hi)

theorem Alone.step_answers (h : Alone members id m₁ m) (hHears : HearsNoVotes m action)
    (hStep : m.step action = some m') : m'.answers = m₁.answers := by
  rcases Zeroraft.step_answers hStep with hSame | ⟨_, _, _, _, _, rfl, _⟩
  · exact hSame.trans h.answers
  · exact hHears.elim

variable [FallibleState S R]

theorem step_alone (hPeers : members.peers id ≠ []) (hTally : Tally members id m₁)
    (hSent : SentOnce m₁) (hHears : HearsNoVotes m action) (hStep : m.step action = some m')
    (h : Alone members id m₁ m) : Alone members id m₁ m' where
  grows := h.grows.trans (step_grows hStep)
  tally := step_tally hStep h.tally
  answers := h.step_answers hHears hStep
  state := h.step_state hPeers hStep
  role := h.step_role hStep
  grants := h.step_grants hTally hSent hStep

omit [FallibleState S R] in
theorem Machine.Runs.sentOnce {Allowed : Machine S R → Action R → Prop} {node : RaftNode S}
    (hRuns : Machine.Runs Allowed { node } m) : SentOnce m :=
  hRuns.invariant ⟨fun _ hOut => (by cases hOut), fun _ _ hTask => (by cases hTask),
    fun _ _ hAnswer => (by cases hAnswer)⟩ fun _ _ _ _ hStep h => step_sentOnce hStep h

theorem Machine.Runs.alone {Allowed : Machine S R → Action R → Prop} {node : RaftNode S}
    (hPeers : (State.getMembership node.state).peers node.id ≠ [])
    (hBefore : Machine.Runs Allowed { node } m₁) (hState : m₁.node.currentState ≠ .leader)
    (hRole : ∀ i, m₁.main.role ≠ some (.candidate i)) (hRuns : Machine.Runs HearsNoVotes m₁ m) :
    Alone (State.getMembership node.state) node.id m₁ m :=
  hRuns.invariant (Alone.refl hBefore.tally hState hRole) fun _ _ _ hHears hStep h =>
    step_alone hPeers hBefore.tally hBefore.sentOnce hHears hStep h

/-- A node that is not campaigning and hears nothing of the votes of others is not elected. -/
theorem unheard_not_elected (node : RaftNode S) (m₁ m : Machine S R)
    (hPeers : (State.getMembership node.state).peers node.id ≠ [])
    (hBefore : Machine.Runs (fun _ _ => True) { node } m₁)
    (hState : m₁.node.currentState ≠ .leader) (hRole : ∀ i, m₁.main.role ≠ some (.candidate i))
    (hRuns : Machine.Runs HearsNoVotes m₁ m) : m.node.currentState ≠ .leader :=
  (hBefore.alone hPeers hState hRole hRuns).state

/-- The node becomes a candidate and asks the other one, and nobody answers. -/
theorem unheard_not_elected_pair : ∃ m : Machine (Stored Unit) Unit,
    m.outRpc.length = 1 ∧ m.node.currentState ≠ .leader := by
  obtain ⟨m, hRuns, hm⟩ := Machine.exists_of_run
    (show (Machine.run HearsNoVotes { node := emptyNode ⟨[1, 2], nodup_pair⟩ }
      (candidateActions ++ List.replicate 3 (.task 1))).map
        (fun m => decide (m.outRpc.length = 1)) = some true by decide)
  exact ⟨m, of_decide_eq_true hm, unheard_not_elected (emptyNode ⟨[1, 2], nodup_pair⟩)
    { node := emptyNode ⟨[1, 2], nodup_pair⟩ } m (by decide) Relation.ReflTransGen.refl (by decide)
    (by rintro _ ⟨⟩) hRuns⟩

section Stopped

def Forwarder.hasStopped : Forwarder R → Bool
  | .stopped _ _ => true
  | _ => false

variable [DecidableEq R] {c c' : ServedCluster S R} {i k : NodeId} {action : ServerAction R}

omit [State S R] [FallibleState S R] [DecidableEq R] in
theorem hasStopped_set {s : Server S R} (h : (c i).forwarder.hasStopped = true)
    (hOwn : (c k).forwarder.hasStopped = true → s.forwarder.hasStopped = true) :
    (c.set k s i).forwarder.hasStopped = true := by
  by_cases hik : i = k
  · subst hik
    rw [ServedCluster.set_self]
    exact hOwn h
  · rwa [ServedCluster.set_of_ne _ _ hik]

omit [FallibleState S R] in
/-- Nothing starts a forwarder again. -/
theorem ServedCluster.Stepped.hasStopped (hStep : c.Stepped k action c')
    (h : (c i).forwarder.hasStopped = true) : (c' i).forwarder.hasStopped = true := by
  cases hStep with
  | @machine _ m _ _ =>
    have hSet : (c.set k { c k with machine := m } i).forwarder.hasStopped = true :=
      hasStopped_set h id
    rcases (c.heard_advance k m i).forwarder with hSame | ⟨_, _, hPassed, _⟩
    · rw [hSame, hSet]
    · rw [hPassed] at hSet
      cases hSet
  | select _ _ | drop _ _ => exact hasStopped_set h id
  | connect hIdle _ | refuse hIdle _ =>
    refine hasStopped_set h fun hOwn => ?_
    rw [hIdle] at hOwn
    cases hOwn
  | @read out forwarder hRead =>
    rw [ServedCluster.pass_apply]
    refine hasStopped_set h fun hOwn => ?_
    rcases hRead with ⟨hWritten, _⟩ | ⟨_, rfl⟩
    · rw [hWritten] at hOwn
      cases hOwn
    · rfl
  | respond hAnswered _ _ =>
    refine hasStopped_set h fun hOwn => ?_
    rw [hAnswered] at hOwn
    cases hOwn
  | unheard _ _ _ | hangUp _ => exact hasStopped_set h fun _ => rfl

omit [FallibleState S R] in
/-- Responses come through the forwarder only. -/
theorem ServedCluster.Stepped.hearsNothing (hStep : c.Stepped i action c')
    (h : (c i).forwarder.hasStopped = true) {own : Action R}
    (hOwn : (c i).underlying action = some own) : HearsNoVotes (c i).machine own := by
  cases action with
  | machine own =>
    cases hOwn
    cases hStep with
    | machine hInternal _ =>
      cases own with
      | answerVote _ _ => cases hInternal
      | _ => trivial
  | select =>
    obtain ⟨⟨rpc, responseTx⟩, _, rfl⟩ := Option.map_eq_some_iff.mp hOwn
    trivial
  | respond =>
    cases hForwarder : (c i).forwarder with
    | stopped _ _ =>
      simp only [Server.underlying, hForwarder] at hOwn
      cases hOwn
    | _ =>
      rw [hForwarder] at h
      cases h
  | drop =>
    cases hForwarder : (c i).forwarder with
    | stopped _ _ =>
      simp only [Server.underlying, hForwarder] at hOwn
      cases hOwn
      trivial
    | _ =>
      rw [hForwarder] at h
      cases h
  | connect | refuse | read | hangUp => cases hOwn

omit [FallibleState S R] in
theorem ServedCluster.Runs.unheard {Allowed : Machine S R → Action R → Prop}
    (hRuns : ServedCluster.Runs members Allowed c c') (h : (c i).forwarder.hasStopped = true) :
    (c' i).forwarder.hasStopped = true ∧
      Machine.Runs HearsNoVotes (c i).machine (c' i).machine := by
  induction hRuns with
  | refl => exact ⟨h, Relation.ReflTransGen.refl⟩
  | @tail c₂ c₃ _ hLast ih =>
    obtain ⟨hStopped, hMachines⟩ := ih
    obtain ⟨k, action, _, hStep⟩ := hLast
    have hStepped := ServedCluster.stepServer_cases (Option.ite_none_right_eq_some.mp hStep).2
    refine ⟨hStepped.hasStopped hStopped, ?_⟩
    have hMachine : (c₃ i).machine = c₃.machines i := rfl
    rw [hMachine]
    rcases hStepped.machines with hSame | ⟨own, m, hOwn, hNext, hSet⟩
    · rw [hSame]
      exact hMachines
    · rw [hSet]
      by_cases hik : i = k
      · subst hik
        rw [Cluster.set_self]
        exact hMachines.tail ⟨own, hStepped.hearsNothing hStopped hOwn, hNext⟩
      · rw [Cluster.set_of_ne _ _ hik]
        exact hMachines

omit [State S R] [FallibleState S R] [DecidableEq R] in
theorem set_sent {s : Server S R} (h : (c i).forwarder = .idle ∨ (c i).machine.outRpc ≠ [])
    (hOwn : i = k → s.forwarder = .idle ∨ s.machine.outRpc ≠ []) :
    (c.set k s i).forwarder = .idle ∨ (c.set k s i).machine.outRpc ≠ [] := by
  by_cases hik : i = k
  · rw [hik, ServedCluster.set_self]
    exact hOwn hik
  · rwa [ServedCluster.set_of_ne _ _ hik]

omit [FallibleState S R] in
/-- A forwarder starts with a request that its node has sent. -/
theorem ServedCluster.Stepped.sent (hStep : c.Stepped k action c')
    (h : (c i).forwarder = .idle ∨ (c i).machine.outRpc ≠ []) :
    (c' i).forwarder = .idle ∨ (c' i).machine.outRpc ≠ [] := by
  have hKept : (c i).machine.outRpc ≠ [] → (c' i).machine.outRpc ≠ [] := fun hNe =>
    mt (fun hNil => List.prefix_nil.mp (hNil ▸ (hStep.grows i).outRpc)) hNe
  rcases h with hIdle | hNe
  · cases hStep with
    | @machine _ m _ _ =>
      have hSame : (c.set k { c k with machine := m } i).forwarder = .idle := by
        by_cases hik : i = k
        · rw [hik, ServedCluster.set_self, ← hik, hIdle]
        · rw [ServedCluster.set_of_ne _ _ hik, hIdle]
      rcases (c.heard_advance k m i).forwarder with hKeeps | ⟨_, _, hPassed, _⟩
      · exact Or.inl (hKeeps.trans hSame)
      · cases hSame.symm.trans hPassed
    | connect _ hOut | refuse _ hOut =>
      refine set_sent (Or.inl hIdle) fun _ => Or.inr fun hNil => ?_
      rw [hNil] at hOut
      cases hOut
    | @read out forwarder hRead =>
      rw [ServedCluster.pass_apply]
      refine set_sent (Or.inl hIdle) fun hik => ?_
      subst hik
      rcases hRead with ⟨hBusy, _⟩ | ⟨hBusy, _⟩ <;> cases hIdle.symm.trans hBusy
    | select _ _ | drop _ _ => exact set_sent (Or.inl hIdle) fun hik => Or.inl (hik ▸ hIdle)
    | respond _ _ _ => exact set_sent (Or.inl hIdle) fun _ => Or.inl rfl
    | unheard hBusy _ _ =>
      refine set_sent (Or.inl hIdle) fun hik => ?_
      subst hik
      cases hIdle.symm.trans hBusy
    | hangUp hOpen =>
      refine set_sent (Or.inl hIdle) fun hik => ?_
      subst hik
      rcases hOpen with ⟨hBusy, _⟩ | ⟨hBusy | ⟨_, hBusy⟩, _⟩ <;> cases hIdle.symm.trans hBusy
  · exact Or.inr (hKept hNe)

omit [FallibleState S R] in
theorem ServedCluster.Runs.sent {Allowed : Machine S R → Action R → Prop}
    {initial : ServedCluster S R} (hInitial : ServedCluster.Initial members initial)
    (hRuns : ServedCluster.Runs members Allowed initial c) (i : NodeId) :
    (c i).forwarder = .idle ∨ (c i).machine.outRpc ≠ [] := by
  induction hRuns with
  | refl => exact Or.inl (congrArg Server.forwarder (hInitial.2 i))
  | tail _ hLast ih =>
    obtain ⟨_, _, _, hStep⟩ := hLast
    exact (ServedCluster.stepServer_cases (Option.ite_none_right_eq_some.mp hStep).2).sent ih

/-- A forwarder that has stopped had a peer to send to. -/
theorem ServedCluster.Runs.peers_ne_nil {Allowed : Machine S R → Action R → Prop}
    {initial : ServedCluster S R} {node : RaftNode S}
    (hInitial : ServedCluster.Initial members initial)
    (hRuns : ServedCluster.Runs members Allowed initial c)
    (hMachine : Machine.Runs (fun _ _ => True) { node } (c i).machine)
    (hStopped : (c i).forwarder.hasStopped = true) :
    (State.getMembership node.state).peers node.id ≠ [] := by
  have hSent : (c i).machine.outRpc ≠ [] := (hRuns.sent hInitial i).resolve_left fun hIdle => by
    rw [hIdle] at hStopped
    cases hStopped
  obtain ⟨out, hOut⟩ := List.exists_mem_of_ne_nil _ hSent
  exact List.ne_nil_of_mem (hMachine.addresses.outRpc out hOut).1

/-- One connection that is refused or lost is enough: the forwarder stops for good, and the
node is not elected any more. -/
theorem stopped_not_elected (members : MembershipMap) (Allowed : Machine S R → Action R → Prop)
    (initial c₁ c : ServedCluster S R) (hInitial : ServedCluster.Initial members initial)
    (hBefore : ServedCluster.Runs members Allowed initial c₁) (i : NodeId)
    (hStopped : (c₁ i).forwarder.hasStopped = true)
    (hState : (c₁ i).machine.node.currentState ≠ .leader)
    (hRole : ∀ j, (c₁ i).machine.main.role ≠ some (.candidate j))
    (hRuns : ServedCluster.Runs members Allowed c₁ c) :
    (c i).machine.node.currentState ≠ .leader := by
  obtain ⟨node, hNode, _, _⟩ := hInitial.1.machine i
  have hMachine := (hBefore.refines hInitial).1.machine i
  rw [hNode] at hMachine
  have hPeers := hBefore.peers_ne_nil hInitial (hMachine.mono fun _ _ _ => trivial) hStopped
  exact (hMachine.alone hPeers hState hRole (hRuns.unheard hStopped).2).state

/-- The server of node 1 refuses the connection of node 2, which follows node 1 after that. -/
def refusedConnectionActions : List (NodeId × ServerAction Unit) :=
  [List.replicate 2 (2, .machine .main), [(2, .machine (.event .electionTimeout))],
    List.replicate 6 (2, .machine .main), List.replicate 3 (2, .machine (.task 0)),
    List.replicate 3 (2, .machine (.task 1)), [(2, .refuse)],
    List.replicate 2 (1, .machine .main), [(1, .machine (.event .electionTimeout))],
    List.replicate 6 (1, .machine .main), List.replicate 3 (1, .machine (.task 0)),
    List.replicate 3 (1, .machine (.task 1)), [(1, .connect), (1, .read), (2, .select)],
    List.replicate 12 (2, .machine .main)].flatten

/-- Node 2 campaigns again. -/
theorem stopped_not_elected_pair : ∃ c : ServedCluster (Stored Unit) Unit,
    (c 2).machine.voteSessions.length = 2 ∧ (c 2).machine.node.currentState ≠ .leader := by
  obtain ⟨c₁, hBefore, hc₁⟩ := ServedCluster.exists_of_run
    (show (servedPair.run pairMembers refusedConnectionActions).map (fun c =>
      decide ((c 2).forwarder.hasStopped = true ∧ (c 2).machine.node.currentState ≠ .leader ∧
        (c 2).machine.main.role = some .follower) && ((c.run pairMembers
          ((2, .machine (.event .electionTimeout)) :: List.replicate 6 (2, .machine .main))).map
            fun c => decide ((c 2).machine.voteSessions.length = 2)) == some true) =
      some true by decide)
  obtain ⟨hFirst, hRest⟩ := Bool.and_eq_true_iff.mp hc₁
  obtain ⟨hStopped, hState, hRole⟩ := of_decide_eq_true hFirst
  obtain ⟨c, hRuns, hc⟩ := ServedCluster.exists_of_run (beq_iff_eq.mp hRest)
  refine ⟨c, of_decide_eq_true hc, ?_⟩
  exact stopped_not_elected pairMembers _ servedPair c₁ c servedPair_initial hBefore 2 hStopped
    hState (fun j hj => by rw [hRole] at hj; cases hj) hRuns

end Stopped

end Zeroraft
