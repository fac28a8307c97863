import Zeroraft.Runtime.Steps

/-!
# Who writes the term and the vote

The handlers write the term of the request that they have accepted, a session counts
one further, and a task that steps down writes the term of a response. Only the
main loop writes the vote.
-/

namespace Zeroraft

variable {S R : Type} [State S R] {m m' : Machine S R}

def Main.nextTerm : Main R → Option Nat
  | .requestVote _ request _ (.setCurrentTerm _) => some request.term
  | .appendEntries _ request _ (.setCurrentTerm _ _) => some request.term
  | _ => none

inductive TermChange (m : Machine S R) (action : Action R) (m' : Machine S R) : Prop
  | kept (h : m'.node.currentTerm = m.node.currentTerm)
  | increment (hAction : action = .main) (hMain : m.main = .incrementTerm)
      (h : m'.node.currentTerm = (m.node.currentTerm + 1) % u64Size)
  | accepted (hAction : action = .main) (hNext : m.main.nextTerm = some m'.node.currentTerm)
  | stepDown {k : Nat} {task : Task R} (hAction : action = .task k)
      (hTask : m.tasks[k]? = some task)
      (hPc : task.stepDownPc = some (.setCurrentTerm m'.node.currentTerm))

theorem MainStepped.termChange (h : MainStepped m m') : TermChange m (.main : Action R) m' := by
  cases h with
  | incrementTerm hMain => exact TermChange.increment rfl hMain rfl
  | @requestVote role request responseTx pc pc' hMain _ =>
    obtain ⟨state, _, hNode⟩ := RequestVotePc.step_node m.node.id responseTx m.node request pc
    cases pc with
    | setCurrentTerm _ => exact TermChange.accepted rfl (by rw [hMain, hNode]; rfl)
    | _ => exact TermChange.kept (by rw [hNode])
  | @appendEntries role request responseTx pc pc' hMain _ =>
    obtain ⟨state, _, hNode⟩ := AppendEntriesPc.step_node m.node.id responseTx m.node request pc
    cases pc with
    | setCurrentTerm _ _ => exact TermChange.accepted rfl (by rw [hMain, hNode]; rfl)
    | _ => exact TermChange.kept (by rw [hNode])
  | leave _ _ => exact TermChange.kept (by rw [RoleLoop.leave_node])
  | _ => exact TermChange.kept rfl

theorem TaskWrites.termChange {k : Nat} {task : Task R} (h : TaskWrites task m.node m'.node)
    (hTask : m.tasks[k]? = some task) : TermChange m (.task k) m' := by
  cases h with
  | state _ h | role _ h => exact TermChange.kept (by rw [h])
  | term term hPc h => exact TermChange.stepDown rfl hTask (by rw [hPc, h])

theorem step_termChange {action : Action R} (hStep : m.step action = some m') :
    TermChange m action m' := by
  cases step_cases hStep with
  | main h => exact h.termChange
  | select _ h => exact TermChange.kept (by rw [h.node])
  | vote hTask h | replicate hTask h => exact TaskWrites.termChange h.frame.writes hTask
  | recv _ _ h =>
    obtain ⟨voteSessions, rfl⟩ := h.frame
    exact TermChange.kept rfl
  | overrun hOverrun =>
    obtain ⟨votedFor, rfl⟩ := hOverrun.frame
    exact TermChange.kept rfl
  | answerVote _ | environment _ _ => exact TermChange.kept rfl

end Zeroraft
