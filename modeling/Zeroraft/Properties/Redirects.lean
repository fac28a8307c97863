import Zeroraft.Properties.Addressing
import Zeroraft.Properties.KnownLeader
import Zeroraft.Properties.NothingReplicated

/-!
# Whom clients are sent to

A node takes the leader that it knows from a heartbeat, and tells clients of it. Only a node
that has been in the leader loop sends heartbeats, and only a leader enters that loop.
-/

namespace Zeroraft

variable {S R : Type}

/-- The node is in the leader loop or about to enter it, or has been. -/
inductive Machine.HasLed (m : Machine S R) : Prop
  | readCommit (h : m.main = .readCommit)
  | readMembership {nextIndex : Nat} (h : m.main = .readMembership nextIndex)
  | role {i : Nat} (h : m.main.role = some (.leader i))
  | task {k : Nat} {task : Task R} (hTask : m.tasks[k]? = some task) (h : task.replicates = true)
  | sent {out : OutRpc R} {request : AppendEntriesRequest R} (hOut : out ∈ m.outRpc)
      (h : out.rpc = .appendEntries request)

/-- The node knows the leader, is about to, or has told a client of it. -/
inductive Machine.NamesLeader (m : Machine S R) (l : NodeId) : Prop
  | known (h : m.node.leaderId = some l)
  | handling {request : AppendEntriesRequest R} {responseTx : Sender}
      (hHandling : m.main.handling = some (.appendEntries request, responseTx))
      (h : request.leaderId = l)
  | told {responseTx : Sender} {response : ClientResponse}
      (hReply : .client responseTx response ∈ m.replies) (h : response.leaderId = some l)

variable [State S R] {m m' : Machine S R} {action : Action R}

section Leading

theorem Task.Later.replicates {task task' : Task R} (h : task.Later task')
    (hReplicates : task'.replicates = true) : task.replicates = true := by
  cases h with
  | same => exact hReplicates
  | round | voteSend | ended => cases hReplicates
  | heartbeat | heartbeatSend | standby | peerLoop => rfl

theorem MainStepped.hasLed (h : MainStepped m m') (hMain : m'.main = .readCommit ∨
    (∃ nextIndex, m'.main = .readMembership nextIndex) ∨ ∃ i, m'.main.role = some (.leader i)) :
    m.HasLed ∨ m.node.currentState = .leader := by
  rcases hMain with hMain | ⟨nextIndex, hMain⟩ | ⟨i, hRole⟩
  · cases h with
    | startLeader _ hState => exact Or.inr hState
    | leave _ _ =>
      rw [RoleLoop.leave_main] at hMain
      cases hMain
    | _ => cases hMain
  · cases h with
    | readCommit hOld => exact Or.inl (Machine.HasLed.readCommit hOld)
    | leave _ _ =>
      rw [RoleLoop.leave_main] at hMain
      cases hMain
    | _ => cases hMain
  · left
    rcases h.leader hRole with hOld | ⟨_, nextIndex, hOld⟩
    · exact Machine.HasLed.role hOld
    · exact Machine.HasLed.readMembership hOld

theorem step_main_hasLed (hStep : m.step action = some m') (hMain : m'.main = .readCommit ∨
    (∃ nextIndex, m'.main = .readMembership nextIndex) ∨ ∃ i, m'.main.role = some (.leader i)) :
    m.HasLed ∨ m.node.currentState = .leader := by
  have hSame : m'.main = m.main → m.HasLed := by
    intro hSame
    rw [hSame] at hMain
    rcases hMain with hMain | ⟨nextIndex, hMain⟩ | ⟨i, hRole⟩
    · exact Machine.HasLed.readCommit hMain
    · exact Machine.HasLed.readMembership hMain
    · exact Machine.HasLed.role hRole
  cases step_cases hStep with
  | main h => exact h.hasLed hMain
  | select hSelect h =>
    left
    rcases hMain with hMain | ⟨nextIndex, hMain⟩ | ⟨i, hRole⟩
    · cases h <;> cases hMain
    · cases h <;> cases hMain
    · refine Machine.HasLed.role (i := i) ?_
      rw [hSelect, ← h.leader hRole]
      rfl
  | vote _ h | replicate _ h => exact Or.inl (hSame h.frame.main)
  | recv _ _ h =>
    obtain ⟨voteSessions, rfl⟩ := h.frame
    exact Or.inl (hSame rfl)
  | overrun _ => rcases hMain with h | ⟨_, h⟩ | ⟨_, h⟩ <;> nomatch h
  | answerVote _ | environment _ _ => exact Or.inl (hSame rfl)

theorem Spawned.hasLed {task : Task R} (h : Spawned m action task)
    (hReplicates : task.replicates = true) : m.HasLed := by
  cases h with
  | firstRound _ | retry _ | voteSend _ _ _ => cases hReplicates
  | firstHeartbeat hMain | standby hMain => exact Machine.HasLed.readMembership hMain
  | heartbeat hMain => exact Machine.HasLed.role (by rw [hMain]; rfl)
  | heartbeatSend hTask | peerLoop hTask _ _ => exact Machine.HasLed.task hTask rfl

/-- A node begins to lead in a step that finds it the leader. -/
theorem step_hasLed (hStep : m.step action = some m') (h : m'.HasLed) :
    m.HasLed ∨ m.node.currentState = .leader := by
  cases h with
  | readCommit h => exact step_main_hasLed hStep (Or.inl h)
  | readMembership h => exact step_main_hasLed hStep (Or.inr (Or.inl ⟨_, h⟩))
  | role h => exact step_main_hasLed hStep (Or.inr (Or.inr ⟨_, h⟩))
  | task hTask' hReplicates =>
    left
    rcases step_task hStep hTask' with ⟨task, hTask, hLater⟩ | ⟨_, hSpawned⟩
    · exact Machine.HasLed.task hTask (hLater.replicates hReplicates)
    · exact hSpawned.hasLed hReplicates
  | sent hOut hRpc =>
    left
    rcases step_out hStep hOut with hOld | hSent
    · exact Machine.HasLed.sent hOld hRpc
    · cases hSent with
      | requestVote _ => cases hRpc
      | heartbeat hTask | entries hTask => exact Machine.HasLed.task hTask rfl

end Leading

section Naming

theorem TaskWrites.leaderId {task : Task R} {node node' : RaftNode S}
    (h : TaskWrites task node node') : node'.leaderId = node.leaderId := by
  cases h with
  | state _ h | term _ _ h | role _ h => rw [h]

theorem MainStepped.leaderId (h : MainStepped m m') : m'.node.leaderId = m.node.leaderId ∨
    ∃ request responseTx, m.main.handling = some (.appendEntries request, responseTx) ∧
      m'.node.leaderId = some request.leaderId := by
  cases h with
  | @requestVote role request responseTx pc pc' _ _ =>
    left
    obtain ⟨state, _, hNode⟩ := RequestVotePc.step_node m.node.id responseTx m.node request pc
    rw [hNode]
    cases pc <;> rfl
  | @appendEntries role request responseTx pc pc' hMain _ =>
    obtain ⟨state, _, hNode⟩ := AppendEntriesPc.step_node m.node.id responseTx m.node request pc
    rw [hNode]
    cases pc with
    | setLeaderId _ _ => exact Or.inr ⟨request, responseTx, congrArg Main.handling hMain, rfl⟩
    | _ => exact Or.inl rfl
  | leave _ _ => exact Or.inl (by rw [RoleLoop.leave_node])
  | _ => exact Or.inl rfl

theorem step_leaderId (hStep : m.step action = some m') : m'.node.leaderId = m.node.leaderId ∨
    ∃ request responseTx, m.main.handling = some (.appendEntries request, responseTx) ∧
      m'.node.leaderId = some request.leaderId := by
  cases step_cases hStep with
  | main h => exact h.leaderId
  | select _ h => exact Or.inl (by rw [h.node])
  | vote _ h | replicate _ h => exact Or.inl h.frame.writes.leaderId
  | recv _ _ h =>
    obtain ⟨voteSessions, rfl⟩ := h.frame
    exact Or.inl rfl
  | overrun hOverrun =>
    obtain ⟨votedFor, rfl⟩ := hOverrun.frame
    exact Or.inl rfl
  | answerVote _ | environment _ _ => exact Or.inl rfl

theorem step_client {responseTx : Sender} {response : ClientResponse}
    (hStep : m.step action = some m') (hReply : .client responseTx response ∈ m'.replies) :
    .client responseTx response ∈ m.replies ∨ response = redirectResponse m.node.leaderId := by
  have hSame : m'.replies = m.replies → .client responseTx response ∈ m.replies ∨
      response = redirectResponse m.node.leaderId := fun h => Or.inl (h ▸ hReply)
  cases step_cases hStep with
  | main h =>
    cases h with
    | requestVoteSent _ | appendEntriesSent _ =>
      left
      rcases List.mem_append.mp hReply with hOld | hNew
      · exact hOld
      · cases List.mem_singleton.mp hNew
    | redirected _ _ =>
      rcases List.mem_append.mp hReply with hOld | hNew
      · exact Or.inl hOld
      · cases List.mem_singleton.mp hNew
        exact Or.inr rfl
    | @leave role _ _ => cases role <;> exact hSame rfl
    | _ => exact hSame rfl
  | select _ h => cases h <;> exact hSame rfl
  | vote _ h | replicate _ h => exact hSame h.frame.replies
  | recv _ _ h =>
    obtain ⟨voteSessions, rfl⟩ := h.frame
    exact hSame rfl
  | overrun _ | answerVote _ | environment _ _ => exact hSame rfl

/-- A node learns of a leader from the request that reaches it. -/
theorem step_namesLeader {l : NodeId} (hStep : m.step action = some m') (h : m'.NamesLeader l) :
    m.NamesLeader l ∨ ∃ request responseTx,
      action.delivers = some (.appendEntries request, responseTx) ∧ request.leaderId = l := by
  cases h with
  | known hKnown =>
    left
    rcases step_leaderId hStep with hSame | ⟨request, responseTx, hHandling, hNew⟩
    · exact Machine.NamesLeader.known (hSame.symm.trans hKnown)
    · exact Machine.NamesLeader.handling hHandling (Option.some.inj (hNew.symm.trans hKnown))
  | handling hHandling hLeader =>
    rcases step_handling hStep hHandling with hOld | hDelivers
    · exact Or.inl (Machine.NamesLeader.handling hOld hLeader)
    · exact Or.inr ⟨_, _, hDelivers, hLeader⟩
  | told hReply hLeader =>
    left
    rcases step_client hStep hReply with hOld | rfl
    · exact Machine.NamesLeader.told hOld hLeader
    · exact Machine.NamesLeader.known hLeader

end Naming

namespace Cluster

variable [DecidableEq R] {members : MembershipMap} {initial c c' : Cluster S R}

/-- Where a leader that is named after a step comes from. -/
theorem next_namesLeader [FallibleState S R] (hInitial : Initial members initial)
    (hRuns : Runs members (fun _ _ => True) initial c) {l : NodeId}
    (hNext : Next members (fun _ _ => True) c c') (h : ∃ i, (c' i).NamesLeader l) :
    (∃ i, (c i).NamesLeader l) ∨ (c l).HasLed := by
  obtain ⟨i, action, _, hNext⟩ := hNext
  obtain ⟨_, hDelivered, m', hStep, rfl⟩ := step_eq_some hNext
  obtain ⟨j, h⟩ := h
  by_cases hij : j = i
  · subst hij
    rw [set_self] at h
    rcases step_namesLeader hStep h with hOld | ⟨request, responseTx, hDelivers, hLeader⟩
    · exact Or.inl ⟨j, hOld⟩
    · have hSent := mem_outRpc_of_delivers hDelivered hDelivers
      obtain ⟨node, hNode, hIdentity, _⟩ := hInitial.machine responseTx.node
      have hSender := hRuns.machine responseTx.node
      rw [hNode] at hSender
      have hOwn := (hSender.addresses.outRpc _ hSent).2
      have hId : node.id = responseTx.node := congrArg Prod.fst hIdentity
      have hResponse : responseTx.node = l := hId.symm.trans (hOwn.symm.trans hLeader)
      exact Or.inr (hResponse ▸ Machine.HasLed.sent hSent rfl)
  · rw [set_of_ne _ _ hij] at h
    exact Or.inl ⟨j, h⟩

theorem next_hasLed {l : NodeId} (hNext : Next members (fun _ _ => True) c c')
    (h : (c' l).HasLed) : (c l).HasLed ∨ (c l).node.currentState = .leader := by
  obtain ⟨i, action, _, hNext⟩ := hNext
  obtain ⟨_, _, m', hStep, rfl⟩ := step_eq_some hNext
  by_cases hil : l = i
  · subst hil
    rw [set_self] at h
    exact step_hasLed hStep h
  · rw [set_of_ne _ _ hil] at h
    exact Or.inl h

end Cluster

section Named

variable [DecidableEq R]

omit [DecidableEq R] in
theorem Cluster.Initial.not_namesLeader {members : MembershipMap} {initial : Cluster S R}
    (hInitial : Cluster.Initial members initial) (i l : NodeId) :
    ¬ (initial i).NamesLeader l := by
  obtain ⟨state, seeds, node, hBuild, _, hNode⟩ := hInitial i
  rw [hNode]
  intro h
  cases h with
  | known h =>
    rw [RaftNodeBuilder.leaderId_of_build hBuild] at h
    cases h
  | handling hHandling _ => cases hHandling
  | told hReply _ => cases hReply

omit [DecidableEq R] in
theorem Cluster.Initial.not_hasLed {members : MembershipMap} {initial : Cluster S R}
    (hInitial : Cluster.Initial members initial) (i : NodeId) : ¬ (initial i).HasLed := by
  obtain ⟨node, hNode, _, _⟩ := hInitial.machine i
  rw [hNode]
  intro h
  cases h with
  | readCommit h | readMembership h | role h | task h _ | sent h _ => cases h

/-- The leader that a node knows, or has sent a client to, has been elected before. -/
theorem named_leader_led [FallibleState S R] (members : MembershipMap) (initial c : Cluster S R)
    (hInitial : Cluster.Initial members initial)
    (hRuns : Cluster.Runs members (fun _ _ => True) initial c) (i l : NodeId)
    (hNames : (c i).NamesLeader l) :
    ∃ c₁, Cluster.Runs members (fun _ _ => True) initial c₁ ∧
      Cluster.Runs members (fun _ _ => True) c₁ c ∧ (c₁ l).node.currentState = .leader := by
  have hNamed := Provenance.holds_or_made (fun c l => ∃ i, (c i).NamesLeader l)
    (fun c _ l => (c l).HasLed) (fun u u' hBefore hNext l h =>
      Cluster.next_namesLeader hInitial hBefore hNext h) hRuns ⟨i, hNames⟩
  rcases hNamed with ⟨j, hFirst⟩ | ⟨c₂, _, hBefore, hNext, hAfter, hHasLed⟩
  · exact absurd hFirst (hInitial.not_namesLeader j l)
  · have hLed := Provenance.holds_or_made (fun c l => (c l).HasLed)
      (fun c _ l => (c l).node.currentState = .leader) (fun u u' _ hNext l h =>
        Cluster.next_hasLed hNext h) hBefore hHasLed
    rcases hLed with hFirst | ⟨c₁, _, hStart, hLeads, hMid, hLeader⟩
    · exact absurd hFirst (hInitial.not_hasLed l)
    · exact ⟨c₁, hStart, ((hMid.head hLeads).tail hNext).trans hAfter, hLeader⟩

/-- Node 2 has taken a heartbeat of node 1 and sends a client there. -/
theorem named_leader_led_filled : ∃ c : Cluster (Stored Unit) Unit,
    .client ⟨0, 0, false⟩ ⟨false, .redirect, some 1⟩ ∈ (c 2).replies ∧
    ∃ c₁, Cluster.Runs pairMembers (fun _ _ => True) c₁ c ∧
      (c₁ 1).node.currentState = .leader := by
  obtain ⟨c, hRuns, hc⟩ := Cluster.exists_of_run
    (show (filledCluster.run pairMembers (fun _ _ => True) (emptiedLogActions ++
      [(2, .main), (2, .event (.clientRequest () ⟨0, 0, false⟩)), (2, .main)])).map (fun c =>
        decide (.client ⟨0, 0, false⟩ ⟨false, .redirect, some 1⟩ ∈ (c 2).replies)) =
      some true by decide)
  have hTold : .client ⟨0, 0, false⟩ ⟨false, .redirect, some 1⟩ ∈ (c 2).replies :=
    of_decide_eq_true hc
  obtain ⟨c₁, _, hAfter, hLeader⟩ := named_leader_led pairMembers filledCluster c
    filledCluster_initial hRuns 2 1 (Machine.NamesLeader.told hTold rfl)
  exact ⟨c, hTold, c₁, hAfter, hLeader⟩

end Named

end Zeroraft
