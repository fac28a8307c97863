import Zeroraft.Model.CommonSpec

/-! # Building a node from its persisted state -/

namespace Zeroraft

variable {S R : Type}

structure RaftNodeBuilder (S : Type) where
  id : NodeId
  state : S
  seeds : MembershipMap

/-- Term and vote are loaded from the state; the seeds only matter when the
state has no membership yet. -/
def RaftNodeBuilder.build [State S R] (builder : RaftNodeBuilder S) : Result (RaftNode S) :=
  let currentTerm := State.loadCurrentTerm builder.state
  let votedFor := State.loadVotedFor builder.state
  let initialized :=
    if (State.getMembership builder.state).ids = [] then
      State.setInitialMembership builder.state builder.seeds
    else (.ok (), builder.state)
  match initialized with
  | (.error e, _) => .error e
  | (.ok (), state) =>
    .ok { id := builder.id, currentTerm, votedFor, state, currentState := .follower,
          leaderId := none }

theorem RaftNodeBuilder.follower_of_build [State S R] {builder : RaftNodeBuilder S}
    {node : RaftNode S} (h : builder.build = .ok node) :
    node.id = builder.id ∧ node.currentState = .follower := by
  simp only [RaftNodeBuilder.build] at h
  split at h <;> cases h
  exact ⟨rfl, rfl⟩

theorem RaftNodeBuilder.build_spec [State S R] [LawfulState S R] (builder : RaftNodeBuilder S) :
    ∃ node, builder.build = .ok node ∧ node.id = builder.id ∧
      node.currentTerm = (stored builder.state).currentTerm ∧
      node.votedFor = (stored builder.state).votedFor ∧ node.currentState = .follower ∧
      stored node.state = { stored builder.state with
        membership := if (stored builder.state).membership.ids = [] then builder.seeds
          else (stored builder.state).membership } := by
  unfold RaftNodeBuilder.build
  simp only [getMembership_eq, loadCurrentTerm_eq, loadVotedFor_eq]
  by_cases hEmpty : (stored builder.state).membership.ids = []
  · simp only [hEmpty, if_true]
    rcases hSet : State.setInitialMembership builder.state builder.seeds with ⟨result, state⟩
    have hOk := LawfulState.setInitialMembership_ok builder.state builder.seeds
    have hStored := LawfulState.stored_setInitialMembership builder.state builder.seeds
    rw [hSet] at hOk hStored
    cases hOk
    exact ⟨_, rfl, rfl, rfl, rfl, rfl, hStored⟩
  · simp only [hEmpty, if_false]
    exact ⟨_, rfl, rfl, rfl, rfl, rfl, rfl⟩

end Zeroraft
