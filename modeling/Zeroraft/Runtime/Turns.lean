import Zeroraft.Runtime.Spawning

/-!
# What a step does to one task

A step leaves a task where it is, takes the task's own step, or changes it from
outside: a round takes what it has forwarded, the leader loop stops it, or the
environment acts on it.
-/

namespace Zeroraft

open Growth

variable {S R : Type} [State S R] {m m' m₁ : Machine S R}

theorem VoteStepped.tasks {k : Nat} {task task' : Task R} (h : VoteStepped m k task task' m₁) :
    ∃ spawned, m₁.tasks = m.tasks ++ spawned := by
  cases h with
  | asked _ => exact ⟨_, rfl⟩
  | sentNoPeers h | sentGranted h =>
    obtain ⟨voteSessions, rfl⟩ := h.frame
    exact ⟨[], (List.append_nil _).symm⟩
  | stepDown h =>
    obtain ⟨node, rfl⟩ := h.frame
    exact ⟨[], (List.append_nil _).symm⟩
  | _ => exact ⟨[], (List.append_nil _).symm⟩

theorem ReplicationStepped.tasks {k : Nat} {task task' : Task R}
    (h : ReplicationStepped m k task task' m₁) : ∃ spawned, m₁.tasks = m.tasks ++ spawned := by
  cases h with
  | heartbeatSpawn | stalePeers _ _ => exact ⟨_, rfl⟩
  | heartbeatStepDown h | standbyStepDown h =>
    obtain ⟨node, rfl⟩ := h.frame
    exact ⟨[], (List.append_nil _).symm⟩
  | _ => exact ⟨[], (List.append_nil _).symm⟩

inductive TaskTurn (m : Machine S R) (k : Nat) : Action R → Task R → Task R → Machine S R → Prop
  | kept {action : Action R} {task : Task R} {m' : Machine S R} : TaskTurn m k action task task m'
  | stopped {i : Nat} {task : Task R} {m' : Machine S R} (hMain : m.main = .checkRole (.leader i)) :
      TaskTurn m k .main task (task.stop i) m'
  | vote {task task' : Task R} {m₁ : Machine S R} (h : VoteStepped m k task task' m₁) :
      TaskTurn m k (.task k) task task' (m₁.setTask k task')
  | replicate {task task' : Task R} {m₁ : Machine S R} (h : ReplicationStepped m k task task' m₁) :
      TaskTurn m k (.task k) task task' (m₁.setTask k task')
  | recv {i j source peersLen : Nat} {peer : NodeId} {answer : VoteAnswer} {task' : Task R}
      {m₁ m' : Machine S R}
      (hSource : m.tasks[j]? = some (.voteSend source k peer (.forwarded answer)))
      (h : RoundReceived m i peersLen j answer task' m₁) :
      TaskTurn m k (.recv k j) (.round i (.recv peersLen)) task' m'
  | taken {i j : Nat} {peer : NodeId} {answer : VoteAnswer} {m' : Machine S R} :
      TaskTurn m k (.recv j k) (.voteSend i j peer (.forwarded answer)) .ended m'
  | answerVote {i owner : Nat} {request : RequestVoteRequest} {response : RequestVoteResponse}
      {m' : Machine S R} : TaskTurn m k (.answerVote k response)
        (.voteSend i owner response.id (.wait request))
        (.voteSend i owner response.id (.forwarded ⟨request, response⟩)) m'
  | environment {action : Action R} {task task' : Task R} {m' : Machine S R}
      (h : task.Local action k task') : TaskTurn m k action task task' m'

omit [State S R] in
theorem tasks_of_append {k : Nat} {task : Task R} (hTask : m.tasks[k]? = some task)
    (h : ∃ spawned, m'.tasks = m.tasks ++ spawned) : m'.tasks[k]? = some task := by
  obtain ⟨spawned, hTasks⟩ := h
  rw [hTasks, List.getElem?_append_left (List.getElem?_eq_some_iff.mp hTask).1, hTask]

omit [State S R] in
theorem Machine.setTask_of_ne {k j : Nat} (hNe : j ≠ k) (task : Task R) :
    (m.setTask j task).tasks[k]? = m.tasks[k]? := List.getElem?_set_ne hNe

omit [State S R] in
theorem Machine.setTask_self {k : Nat} {task : Task R} (hTask : m.tasks[k]? = some task)
    (task' : Task R) : (m.setTask k task').tasks[k]? = some task' :=
  List.getElem?_set_self (List.getElem?_eq_some_iff.mp hTask).1

theorem MainStepped.turn (h : MainStepped m m') {k : Nat} {task : Task R}
    (hTask : m.tasks[k]? = some task) :
    ∃ task', m'.tasks[k]? = some task' ∧ TaskTurn m k .main task task' m' := by
  cases h with
  | voteForSelf _ | readMembership _ =>
    exact ⟨task, tasks_of_append hTask ⟨_, rfl⟩, TaskTurn.kept⟩
  | @leave role hMain _ =>
    cases role with
    | leader i =>
      refine ⟨task.stop i, ?_, TaskTurn.stopped hMain⟩
      simp only [RoleLoop.leave, List.getElem?_map, hTask, Option.map_some]
    | follower | candidate _ => exact ⟨task, hTask, TaskTurn.kept⟩
  | _ => exact ⟨task, hTask, TaskTurn.kept⟩

omit [State S R] in
theorem SelectStepped.tasks {role : RoleLoop} {event : Event R} (h : SelectStepped m role event m') :
    ∃ spawned, m'.tasks = m.tasks ++ spawned := by
  cases h with
  | retry | heartbeat => exact ⟨_, rfl⟩
  | _ => exact ⟨[], (List.append_nil _).symm⟩

omit [State S R] in
theorem tasks_setTask {k j : Nat} {task own own' : Task R} (hTask : m.tasks[k]? = some task)
    (hOwn : m.tasks[j]? = some own) (hTasks : ∃ spawned, m₁.tasks = m.tasks ++ spawned) :
    (j = k ∧ task = own ∧ (m₁.setTask j own').tasks[k]? = some own') ∨
      (m₁.setTask j own').tasks[k]? = some task := by
  have hKept := tasks_of_append hTask hTasks
  by_cases hkj : j = k
  · subst hkj
    exact Or.inl ⟨rfl, Option.some.inj (hTask.symm.trans hOwn), Machine.setTask_self hKept _⟩
  · exact Or.inr ((Machine.setTask_of_ne hkj _).trans hKept)

theorem step_turn {action : Action R} (hStep : m.step action = some m') {k : Nat} {task : Task R}
    (hTask : m.tasks[k]? = some task) :
    ∃ task', m'.tasks[k]? = some task' ∧ TaskTurn m k action task task' m' := by
  cases step_cases hStep with
  | main h => exact h.turn hTask
  | select _ h => exact ⟨task, tasks_of_append hTask h.tasks, TaskTurn.kept⟩
  | overrun _ => exact ⟨task, hTask, TaskTurn.kept⟩
  | vote hOwn h =>
    rcases tasks_setTask hTask hOwn h.tasks with ⟨rfl, rfl, hNew⟩ | hKept
    · exact ⟨_, hNew, TaskTurn.vote h⟩
    · exact ⟨task, hKept, TaskTurn.kept⟩
  | replicate hOwn h =>
    rcases tasks_setTask hTask hOwn h.tasks with ⟨rfl, rfl, hNew⟩ | hKept
    · exact ⟨_, hNew, TaskTurn.replicate h⟩
    · exact ⟨task, hKept, TaskTurn.kept⟩
  | @recv j source _ _ _ _ _ task₁ m₂ hRound hSource h =>
    have hTasks : ∃ spawned, m₂.tasks = m.tasks ++ spawned := by
      obtain ⟨voteSessions, rfl⟩ := h.frame
      exact ⟨[], (List.append_nil _).symm⟩
    have hKept := tasks_of_append hTask hTasks
    by_cases hTaken : source = k
    · subst hTaken
      obtain rfl := Option.some.inj (hTask.symm.trans hSource)
      have hNe : j ≠ source := by
        rintro rfl
        cases hRound.symm.trans hSource
      have hPlace := (Machine.setTask_of_ne hNe task₁).trans hKept
      exact ⟨.ended, Machine.setTask_self hPlace _, TaskTurn.taken⟩
    · have hPlace := Machine.setTask_of_ne (m := m₂.setTask j task₁) hTaken .ended
      rcases tasks_setTask hTask hRound hTasks with ⟨rfl, rfl, hNew⟩ | hKept
      · exact ⟨task₁, hPlace.trans hNew, TaskTurn.recv hSource h⟩
      · exact ⟨task, hPlace.trans hKept, TaskTurn.kept⟩
  | answerVote hOwn =>
    rcases tasks_setTask hTask hOwn ⟨[], (List.append_nil _).symm⟩ with ⟨rfl, rfl, hNew⟩ | hKept
    · exact ⟨_, hNew, TaskTurn.answerVote⟩
    · exact ⟨task, hKept, TaskTurn.kept⟩
  | environment hOwn h =>
    rcases tasks_setTask hTask hOwn ⟨[], (List.append_nil _).symm⟩ with ⟨rfl, rfl, hNew⟩ | hKept
    · exact ⟨_, hNew, TaskTurn.environment h⟩
    · exact ⟨task, hKept, TaskTurn.kept⟩

theorem step_turned {action : Action R} (hStep : m.step action = some m') {k : Nat}
    {task' : Task R} (hTask' : m'.tasks[k]? = some task') :
    (∃ task, m.tasks[k]? = some task ∧ TaskTurn m k action task task' m') ∨
      (m.tasks.length ≤ k ∧ Spawned m action task') := by
  rcases step_task hStep hTask' with ⟨task, hTask, _⟩ | hSpawned
  · obtain ⟨task'', hSame, hTurn⟩ := step_turn hStep hTask
    obtain rfl := Option.some.inj (hTask'.symm.trans hSame)
    exact Or.inl ⟨task, hTask, hTurn⟩
  · exact Or.inr hSpawned

end Zeroraft
