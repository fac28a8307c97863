import Zeroraft.Runtime.Steps

/-!
# Who writes the role

The role is one variable. The main loop writes it in five places, and every task
that steps down writes it last.
-/

namespace Zeroraft

variable {S R : Type}

def Main.nextState : Main R → Option TaskState
  | .requestVote _ _ _ (.becomeFollower _) => some .follower
  | .appendEntries _ _ _ (.becomeFollower _ _) => some .follower
  | .becomeShutdown _ => some .shutdown
  | .becomeCandidate => some .candidate
  | .becomeLeader _ _ => some .leader
  | _ => none

variable [State S R] {m m' : Machine S R}

inductive RoleChange (m : Machine S R) (action : Action R) (m' : Machine S R) : Prop
  | kept (h : m'.node.currentState = m.node.currentState)
  | main (hAction : action = .main) (hNext : m.main.nextState = some m'.node.currentState)
  | stepDown {k : Nat} {task : Task R} (hAction : action = .task k)
      (hTask : m.tasks[k]? = some task) (hPc : task.stepDownPc = some .becomeFollower)
      (h : m'.node.currentState = .follower)

theorem MainStepped.currentState (h : MainStepped m m') :
    m'.node.currentState = m.node.currentState ∨
      m.main.nextState = some m'.node.currentState := by
  cases h with
  | becomeShutdown hMain | becomeCandidate hMain | becomeLeader hMain =>
    right
    rw [hMain]
    rfl
  | @requestVote role request responseTx pc pc' hMain _ =>
    obtain ⟨state, _, hNode⟩ := RequestVotePc.step_node m.node.id responseTx m.node request pc
    rw [hNode, hMain]
    cases pc with
    | becomeFollower _ => exact Or.inr rfl
    | _ => exact Or.inl rfl
  | @appendEntries role request responseTx pc pc' hMain _ =>
    obtain ⟨state, _, hNode⟩ := AppendEntriesPc.step_node m.node.id responseTx m.node request pc
    rw [hNode, hMain]
    cases pc with
    | becomeFollower _ _ => exact Or.inr rfl
    | _ => exact Or.inl rfl
  | leave _ _ => exact Or.inl (by rw [RoleLoop.leave_node])
  | _ => exact Or.inl rfl

theorem TaskWrites.roleChange {k : Nat} {task : Task R} {node' : RaftNode S}
    (h : TaskWrites task m.node node') (hTask : m.tasks[k]? = some task) (hNode : m'.node = node') :
    RoleChange m (.task k) m' := by
  subst hNode
  cases h with
  | state _ h | term _ _ h => exact RoleChange.kept (by rw [h])
  | role hPc h => exact RoleChange.stepDown rfl hTask hPc (by rw [h])

theorem step_roleChange {action : Action R} (hStep : m.step action = some m') :
    RoleChange m action m' := by
  cases step_cases hStep with
  | main h =>
    rcases h.currentState with hKept | hNext
    · exact RoleChange.kept hKept
    · exact RoleChange.main rfl hNext
  | select _ h => exact RoleChange.kept (by rw [h.node])
  | vote hTask h | replicate hTask h => exact h.frame.writes.roleChange hTask rfl
  | recv _ _ h =>
    obtain ⟨voteSessions, rfl⟩ := h.frame
    exact RoleChange.kept rfl
  | overrun hOverrun =>
    obtain ⟨votedFor, rfl⟩ := hOverrun.frame
    exact RoleChange.kept rfl
  | answerVote _ | environment _ _ => exact RoleChange.kept rfl

omit [State S R] in
/-- Where the main loop is when it is about to write a role other than `Follower`. -/
theorem Main.nextState_cases {main : Main R} {state : TaskState}
    (h : main.nextState = some state) : state = .follower ∨ (state = .candidate ∧
      main = .becomeCandidate) ∨ (state = .leader ∧ ∃ i result, main = .becomeLeader i result) ∨
      (state = .shutdown ∧ ∃ role, main = .becomeShutdown role) := by
  cases main with
  | becomeCandidate =>
    cases h
    exact Or.inr (Or.inl ⟨rfl, rfl⟩)
  | becomeLeader i result =>
    cases h
    exact Or.inr (Or.inr (Or.inl ⟨rfl, i, result, rfl⟩))
  | becomeShutdown role =>
    cases h
    exact Or.inr (Or.inr (Or.inr ⟨rfl, role, rfl⟩))
  | requestVote _ _ _ pc | appendEntries _ _ _ pc =>
    cases pc with
    | becomeFollower _ =>
      cases h
      exact Or.inl rfl
    | _ => cases h
  | _ => cases h

omit [State S R] in
theorem Main.eq_becomeLeader {main : Main R} (h : main.nextState = some .leader) :
    ∃ i result, main = .becomeLeader i result := by
  rcases Main.nextState_cases h with hState | ⟨hState, _⟩ | ⟨_, hLeader⟩ | ⟨hState, _⟩
  · cases hState
  · cases hState
  · exact hLeader
  · cases hState

theorem step_becomeLeader {action : Action R} (hStep : m.step action = some m')
    (hLeader : m'.node.currentState = .leader) : m.node.currentState = .leader ∨
      (action = .main ∧ ∃ i result, m.main = .becomeLeader i result ∧
        m'.main = .checkRole (.candidate i) ∧ m'.node = { m.node with currentState := .leader }) := by
  cases step_roleChange hStep with
  | kept h => exact Or.inl (h ▸ hLeader)
  | main hAction hNext =>
    rw [hLeader] at hNext
    obtain ⟨i, result, hMain⟩ := Main.eq_becomeLeader hNext
    subst hAction
    refine Or.inr ⟨rfl, i, result, hMain, ?_⟩
    simp only [Machine.step, mainStep, hMain] at hStep
    cases hStep
    exact ⟨rfl, rfl⟩
  | stepDown _ _ _ h =>
    rw [h] at hLeader
    cases hLeader

end Zeroraft
