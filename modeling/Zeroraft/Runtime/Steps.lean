import Zeroraft.Runtime.MainSteps
import Zeroraft.Runtime.TaskSteps

/-!
# The steps of a machine

Every step is one of the main loop, of a task, of a round that takes a response,
or of the environment. The frames say what the tasks cannot change.
-/

namespace Zeroraft

open Routine

variable {S R : Type} [State S R]

/-- The step-down section that a task is in. -/
def Task.stepDownPc : Task R → Option StepDownPc
  | .round _ (.stepDown pc) => some pc
  | .heartbeat _ (.stepDown pc) => some pc
  | .standby _ (.stepDown pc) => some pc
  | _ => none

/-- The step-down section is about to write the term or the role. -/
def StepDownPc.writes : StepDownPc → Bool
  | .storeCurrentTerm _ => false
  | .setCurrentTerm _ | .becomeFollower => true

inductive TaskWrites (task : Task R) (node node' : RaftNode S) : Prop
  | state {state : S} (hState : StateStep node.state state) (h : node' = { node with state })
  | term (term : Nat) (hPc : task.stepDownPc = some (.setCurrentTerm term))
      (h : node' = { node with currentTerm := term })
  | role (hPc : task.stepDownPc = some .becomeFollower)
      (h : node' = { node with currentState := .follower })

theorem TaskWrites.votedFor {task : Task R} {node node' : RaftNode S}
    (h : TaskWrites task node node') : node'.votedFor = node.votedFor := by
  cases h with
  | state _ h | term _ _ h | role _ h => rw [h]

theorem TaskWrites.same_of_not_writes {task : Task R} {node node' : RaftNode S}
    (h : TaskWrites task node node')
    (hWrites : ∀ pc, task.stepDownPc = some pc → pc.writes = true → False) :
    node'.currentTerm = node.currentTerm ∧ node'.currentState = node.currentState := by
  cases h with
  | state _ h => exact ⟨by rw [h], by rw [h]⟩
  | term _ hPc _ => exact (hWrites _ hPc rfl).elim
  | role hPc _ => exact (hWrites _ hPc rfl).elim

theorem StepDownStepped.writes {wrap : StepDownPc → Task R} {m m' : Machine S R}
    {pc : StepDownPc} {task task' : Task R} (hPc : task.stepDownPc = some pc)
    (h : StepDownStepped wrap m pc task' m') : TaskWrites task m.node m'.node := by
  cases h with
  | stored | failed => exact TaskWrites.state (StateStep.storeCurrentTerm _) rfl
  | setTerm => exact TaskWrites.term _ hPc rfl
  | follower => exact TaskWrites.role hPc rfl

omit [State S R] in
theorem VoteResultSent.frame {i : Nat} {result : VoteResult} {m m' : Machine S R}
    (h : VoteResultSent m i result m') : ∃ voteSessions, m' = { m with voteSessions } := by
  cases h <;> exact ⟨_, rfl⟩

theorem StepDownStepped.frame {wrap : StepDownPc → Task R} {m m' : Machine S R}
    {pc : StepDownPc} {task' : Task R} (h : StepDownStepped wrap m pc task' m') :
    ∃ node, m' = { m with node } := by
  cases h <;> exact ⟨_, rfl⟩

omit [State S R] in
theorem RoundReceived.frame {i peersLen j : Nat} {answer : VoteAnswer} {m m' : Machine S R}
    {task' : Task R} (h : RoundReceived m i peersLen j answer task' m') :
    ∃ voteSessions, m' = { m with voteSessions } := by
  cases h <;> exact ⟨_, rfl⟩

/-- What the tasks do not touch: the main loop and the histories of what has been
answered. -/
structure TaskFrame (task : Task R) (m m' : Machine S R) : Prop where
  main : m'.main = m.main
  replies : m'.replies = m.replies
  answers : m'.answers = m.answers
  writes : TaskWrites task m.node m'.node

theorem TaskFrame.setTask {task : Task R} {m m' : Machine S R} (h : TaskFrame task m m') (k : Nat)
    (task' : Task R) : TaskFrame task m (m'.setTask k task') :=
  ⟨h.main, h.replies, h.answers, h.writes⟩

theorem StepDownStepped.taskFrame {wrap : StepDownPc → Task R} {m m' : Machine S R}
    {pc : StepDownPc} {task task' : Task R} (hPc : task.stepDownPc = some pc)
    (h : StepDownStepped wrap m pc task' m') : TaskFrame task m m' := by
  have hWrites := h.writes hPc
  obtain ⟨node, rfl⟩ := h.frame
  exact ⟨rfl, rfl, rfl, hWrites⟩

theorem VoteStepped.frame {m m' : Machine S R} {k : Nat} {task task' : Task R}
    (h : VoteStepped m k task task' m') : TaskFrame task m m' := by
  cases h with
  | stepDown h => exact h.taskFrame rfl
  | sentNoPeers h | sentGranted h =>
    obtain ⟨voteSessions, rfl⟩ := h.frame
    exact ⟨rfl, rfl, rfl, TaskWrites.state StateStep.none rfl⟩
  | _ => exact ⟨rfl, rfl, rfl, TaskWrites.state StateStep.none rfl⟩

theorem ReplicationStepped.frame {m m' : Machine S R} {k : Nat} {task task' : Task R}
    (h : ReplicationStepped m k task task' m') : TaskFrame task m m' := by
  cases h with
  | heartbeatStepDown h | standbyStepDown h => exact h.taskFrame rfl
  | committed | commitFailed =>
    exact ⟨rfl, rfl, rfl, TaskWrites.state (StateStep.setLastCommitIndex _) rfl⟩
  | _ => exact ⟨rfl, rfl, rfl, TaskWrites.state StateStep.none rfl⟩

/-- A change of a single task that the environment makes. -/
inductive Task.Local : Action R → Nat → Task R → Task R → Prop
  | answerAppend {k : Nat} {response : AppendEntriesResponse} {task task' : Task R}
      (h : task.answerAppend response = some task') : Local (.answerAppend k response) k task task'
  | lose {k : Nat} {task task' : Task R} (h : task.lose = some task') : Local (.lose k) k task task'
  | cancel {k : Nat} {task task' : Task R} (h : task.cancel = some task') :
      Local (.cancel k) k task task'
  | elapse {k : Nat} {task task' : Task R} (h : task.elapse = some task') :
      Local (.elapse k) k task task'

/-- Where the environment finds a task, and where it leaves it. -/
inductive Task.Moved : Action R → Nat → Task R → Task R → Prop
  | heartbeatAnswered {k owner : Nat} {response : AppendEntriesResponse} :
      Moved (.answerAppend k response) k (.heartbeatSend owner response.id .wait)
        (.heartbeatSend owner response.id (.forward response))
  | loopAnswered {k i owner : Nat} {response : AppendEntriesResponse} :
      Moved (.answerAppend k response) k (.peerLoop i owner response.id .wait)
        (.peerLoop i owner response.id (.forward response))
  | ended {action : Action R} {k : Nat} {task : Task R}
      (h : task.lose = some .ended ∨ task.cancel = some .ended) : Moved action k task .ended
  | elapsed {k i owner : Nat} {peer : NodeId} :
      Moved (.elapse k) k (.peerLoop i owner peer .notified) (.peerLoop i owner peer .peerMatches)

theorem Task.Local.moved {action : Action R} {k : Nat} {task task' : Task R}
    (h : task.Local action k task') : task.Moved action k task' := by
  cases h with
  | answerAppend h =>
    unfold Task.answerAppend at h
    split at h
    · split_ifs at h with hPeer
      cases h
      subst hPeer
      exact Task.Moved.heartbeatAnswered
    · split_ifs at h with hPeer
      cases h
      subst hPeer
      exact Task.Moved.loopAnswered
    · cases h
  | lose h =>
    unfold Task.lose at h
    split at h <;> cases h <;> exact Task.Moved.ended (Or.inl rfl)
  | cancel h =>
    unfold Task.cancel at h
    split at h <;> cases h <;> exact Task.Moved.ended (Or.inr rfl)
  | elapse h =>
    unfold Task.elapse at h
    split at h <;> cases h
    exact Task.Moved.elapsed

inductive Stepped (m : Machine S R) : Action R → Machine S R → Prop
  | main {m' : Machine S R} (h : MainStepped m m') : Stepped m .main m'
  | select {role : RoleLoop} {event : Event R} {m' : Machine S R} (hMain : m.main = .select role)
      (h : SelectStepped m role event m') : Stepped m (.event event) m'
  | overrun {node : RaftNode S} {voteSessions : List VoteSession}
      (h : m.Overruns node voteSessions) :
      Stepped m .overrun { m with node, voteSessions, main := .failed }
  | vote {k : Nat} {task task' : Task R} {m' : Machine S R} (hTask : m.tasks[k]? = some task)
      (h : VoteStepped m k task task' m') : Stepped m (.task k) (m'.setTask k task')
  | replicate {k : Nat} {task task' : Task R} {m' : Machine S R} (hTask : m.tasks[k]? = some task)
      (h : ReplicationStepped m k task task' m') : Stepped m (.task k) (m'.setTask k task')
  | recv {k j i source peersLen : Nat} {peer : NodeId} {answer : VoteAnswer} {task' : Task R}
      {m' : Machine S R} (hRound : m.tasks[k]? = some (.round i (.recv peersLen)))
      (hSource : m.tasks[j]? = some (.voteSend source k peer (.forwarded answer)))
      (h : RoundReceived m i peersLen j answer task' m') :
      Stepped m (.recv k j) ((m'.setTask k task').setTask j .ended)
  | answerVote {k i owner : Nat} {request : RequestVoteRequest} {response : RequestVoteResponse}
      (hTask : m.tasks[k]? = some (.voteSend i owner response.id (.wait request))) :
      Stepped m (.answerVote k response)
        ({ m with answers := m.answers ++ [(k, VoteAnswer.mk request response)] }.setTask k
          (.voteSend i owner response.id (.forwarded ⟨request, response⟩)))
  | environment {action : Action R} {k : Nat} {task task' : Task R}
      (hTask : m.tasks[k]? = some task) (h : task.Local action k task') :
      Stepped m action (m.setTask k task')

theorem Task.answerVote_eq_some {response : RequestVoteResponse} {task task' : Task R}
    {answer : VoteAnswer} (h : task.answerVote response = some (answer, task')) :
    ∃ i owner request, task = .voteSend i owner response.id (.wait request) ∧
      answer = ⟨request, response⟩ ∧
      task' = .voteSend i owner response.id (.forwarded ⟨request, response⟩) := by
  unfold Task.answerVote at h
  split at h
  · split_ifs at h with hId
    cases h
    exact ⟨_, _, _, by rw [hId], rfl, by rw [hId]⟩
  · cases h

theorem overrunStep_cases {m m' : Machine S R} (h : overrunStep m = some m') :
    Stepped m .overrun m' := by
  unfold overrunStep at h
  split at h <;> rename_i hMain <;> cases h
  · exact Stepped.overrun (Machine.Overruns.select hMain)
  · exact Stepped.overrun (Machine.Overruns.voteForSelf hMain)
  · exact Stepped.overrun (Machine.Overruns.readMembership hMain)

theorem step_cases {m m' : Machine S R} {action : Action R} (h : m.step action = some m') :
    Stepped m action m' := by
  cases action with
  | main => exact Stepped.main (mainStep_cases h)
  | event event =>
    simp only [Machine.step] at h
    split at h
    · rename_i role hMain
      exact Stepped.select hMain (selectStep_cases h)
    · cases h
  | overrun => exact overrunStep_cases h
  | task k =>
    simp only [Machine.step, Option.bind_eq_bind, Option.bind_eq_some_iff] at h
    obtain ⟨task, hTask, ⟨task', m₁⟩, hStep, h⟩ := h
    cases h
    rcases taskStep_cases hStep with hVote | hReplicate
    · exact Stepped.vote hTask hVote
    · exact Stepped.replicate hTask hReplicate
  | recv k j =>
    simp only [Machine.step] at h
    split at h
    · rename_i i peersLen source owner peer answer hRound hSource
      simp only [Option.bind_eq_bind] at h
      split_ifs at h with hOwner
      obtain ⟨⟨task', m₁⟩, hStep, h⟩ := Option.bind_eq_some_iff.mp h
      cases h
      exact Stepped.recv hRound (hOwner ▸ hSource) (roundRecv_cases hStep)
    · cases h
  | answerVote k response =>
    simp only [Machine.step, Option.bind_eq_bind, Option.bind_eq_some_iff] at h
    obtain ⟨task, hTask, ⟨answer, task'⟩, hAnswer, h⟩ := h
    obtain ⟨i, owner, request, rfl, rfl, rfl⟩ := Task.answerVote_eq_some hAnswer
    cases h
    exact Stepped.answerVote hTask
  | answerAppend k response =>
    simp only [Machine.step, Option.bind_eq_bind, Option.bind_eq_some_iff] at h
    obtain ⟨task, hTask, task', hLocal, h⟩ := h
    cases h
    exact Stepped.environment hTask (Task.Local.answerAppend hLocal)
  | lose k =>
    simp only [Machine.step, Option.bind_eq_bind, Option.bind_eq_some_iff] at h
    obtain ⟨task, hTask, task', hLocal, h⟩ := h
    cases h
    exact Stepped.environment hTask (Task.Local.lose hLocal)
  | cancel k =>
    simp only [Machine.step, Option.bind_eq_bind, Option.bind_eq_some_iff] at h
    obtain ⟨task, hTask, task', hLocal, h⟩ := h
    cases h
    exact Stepped.environment hTask (Task.Local.cancel hLocal)
  | elapse k =>
    simp only [Machine.step, Option.bind_eq_bind, Option.bind_eq_some_iff] at h
    obtain ⟨task, hTask, task', hLocal, h⟩ := h
    cases h
    exact Stepped.environment hTask (Task.Local.elapse hLocal)

end Zeroraft
