import Zeroraft.Runtime.Turns

/-!
# Who gets the responses to AppendEntries

A response goes to the task that has spawned the one that waited for it: to a heartbeat,
or to the standby update of the loop's session. A log mismatch only reaches a standby
update, if no heartbeat is ever answered so.
-/

namespace Zeroraft

variable {S R : Type}

/-- Task `k` is, or was, a heartbeat. -/
def Machine.Heartbeat (m : Machine S R) (k : Nat) : Prop :=
  ∃ i task, m.tasks[k]? = some task ∧ (Task.heartbeat i .readCommit).Later task

/-- Task `k` is, or was, the standby update of the session. -/
def Machine.Standby (m : Machine S R) (k i : Nat) : Prop :=
  ∃ task, m.tasks[k]? = some task ∧ (Task.standby i .readStalePeers).Later task

def HeartbeatSendPc.Agrees : HeartbeatSendPc R → Prop
  | .forward response => response.reason ≠ .logMismatch
  | .send _ | .wait => True

/-- The task that the responses go to, and what a heartbeat can be told. -/
def Task.RouteFits (m : Machine S R) : Task R → Prop
  | .heartbeat _ (.lockPeers response) => response.reason ≠ .logMismatch
  | .heartbeatSend owner _ pc => m.Heartbeat owner ∧ pc.Agrees
  | .peerLoop i owner _ _ => m.Standby owner i
  | _ => True

structure Routed (m : Machine S R) : Prop where
  tasks : ∀ (k : Nat) (task : Task R), m.tasks[k]? = some task → task.RouteFits m
  queued : ∀ owner response, (owner, response) ∈ m.appendRx →
    (m.Heartbeat owner ∧ response.reason ≠ .logMismatch) ∨ ∃ i, m.Standby owner i

/-- Heartbeats are not answered that the logs do not match. -/
def HeartbeatsAgree (m : Machine S R) : Action R → Prop
  | .answerAppend k response => ∀ owner peer,
    m.tasks[k]? = some (.heartbeatSend owner peer .wait) → response.reason ≠ .logMismatch
  | _ => True

variable {m m' : Machine S R}

theorem Machine.Heartbeat.mono {k : Nat} (h : m.Heartbeat k) (hGrows : m.Grows m') :
    m'.Heartbeat k := by
  obtain ⟨i, task, hTask, hLater⟩ := h
  obtain ⟨task', hTask', hLater'⟩ := hGrows.tasks k task hTask
  exact ⟨i, task', hTask', hLater.trans hLater'⟩

theorem Machine.Standby.mono {k i : Nat} (h : m.Standby k i) (hGrows : m.Grows m') :
    m'.Standby k i := by
  obtain ⟨task, hTask, hLater⟩ := h
  obtain ⟨task', hTask', hLater'⟩ := hGrows.tasks k task hTask
  exact ⟨task', hTask', hLater.trans hLater'⟩

theorem Machine.Standby.session_eq {k i j : Nat} {pc : StandbyPc} (h : m.Standby k i)
    (hTask : m.tasks[k]? = some (.standby j pc)) : i = j := by
  obtain ⟨task, hSame, hLater⟩ := h
  obtain rfl := Option.some.inj (hTask.symm.trans hSame)
  cases hLater <;> rfl

theorem Machine.Heartbeat.not_standby {k i : Nat} {pc : StandbyPc} (h : m.Heartbeat k) :
    m.tasks[k]? ≠ some (.standby i pc) := by
  obtain ⟨_, task, hTask, hLater⟩ := h
  rw [hTask]
  rintro ⟨⟩
  cases hLater

theorem Machine.Standby.not_heartbeat {k i j : Nat} {pc : HeartbeatPc} (h : m.Standby k i) :
    m.tasks[k]? ≠ some (.heartbeat j pc) := by
  obtain ⟨task, hTask, hLater⟩ := h
  rw [hTask]
  rintro ⟨⟩
  cases hLater

theorem Task.RouteFits.mono {task : Task R} (h : task.RouteFits m) (hGrows : m.Grows m') :
    task.RouteFits m' := by
  cases task with
  | heartbeatSend _ _ _ => exact ⟨h.1.mono hGrows, h.2⟩
  | peerLoop _ _ _ _ => exact Machine.Standby.mono h hGrows
  | heartbeat _ pc =>
    cases pc with
    | lockPeers _ => exact h
    | _ => trivial
  | _ => trivial

theorem Task.routeFits_of_not_replicates {task : Task R} (h : task.replicates = false) :
    task.RouteFits m := by
  cases task with
  | heartbeat _ _ | heartbeatSend _ _ _ | peerLoop _ _ _ _ => cases h
  | _ => trivial

theorem Machine.Heartbeat.lt {k : Nat} (h : m.Heartbeat k) : k < m.tasks.length := by
  obtain ⟨_, _, hTask, _⟩ := h
  exact (List.getElem?_eq_some_iff.mp hTask).1

theorem Machine.Standby.lt {k i : Nat} (h : m.Standby k i) : k < m.tasks.length := by
  obtain ⟨_, hTask, _⟩ := h
  exact (List.getElem?_eq_some_iff.mp hTask).1

theorem Routed.queued_lt (h : Routed m) {entry : Nat × AppendEntriesResponse}
    (hEntry : entry ∈ m.appendRx) : entry.1 < m.tasks.length := by
  rcases h.queued entry.1 entry.2 hEntry with ⟨hOwner, _⟩ | ⟨_, hOwner⟩
  · exact hOwner.lt
  · exact hOwner.lt

variable [State S R] {action : Action R}

/-- What a step may put on the channel of a heartbeat or of a standby update. -/
inductive Queued (m : Machine S R) : Action R → Nat × AppendEntriesResponse → Prop
  | heartbeat {k owner : Nat} {peer : NodeId} {response : AppendEntriesResponse}
      (hTask : m.tasks[k]? = some (.heartbeatSend owner peer (.forward response))) :
      Queued m (.task k) (owner, response)
  | entries {k i owner : Nat} {peer : NodeId} {response : AppendEntriesResponse}
      (hTask : m.tasks[k]? = some (.peerLoop i owner peer (.forward response))) :
      Queued m (.task k) (owner, response)

theorem ReplicationStepped.queue {k : Nat} {task task' : Task R}
    (h : ReplicationStepped m k task task' m') (hTask : m.tasks[k]? = some task)
    {entry : Nat × AppendEntriesResponse} (hEntry : entry ∈ m'.appendRx) :
    entry ∈ m.appendRx ∨ Queued m (.task k) entry := by
  cases h with
  | heartbeatForwarded =>
    rcases List.mem_append.mp hEntry with hOld | hNew
    · exact Or.inl hOld
    · exact Or.inr (List.mem_singleton.mp hNew ▸ Queued.heartbeat hTask)
  | forwarded =>
    rcases List.mem_append.mp hEntry with hOld | hNew
    · exact Or.inl hOld
    · exact Or.inr (List.mem_singleton.mp hNew ▸ Queued.entries hTask)
  | heartbeatRecv _ | standbyRecv _ => exact Or.inl (List.mem_of_mem_eraseP hEntry)
  | heartbeatStepDown h | standbyStepDown h =>
    obtain ⟨node, rfl⟩ := h.frame
    exact Or.inl hEntry
  | _ => exact Or.inl hEntry

theorem step_queue (hStep : m.step action = some m') {entry : Nat × AppendEntriesResponse}
    (hEntry : entry ∈ m'.appendRx) : entry ∈ m.appendRx ∨ Queued m action entry := by
  cases step_cases hStep with
  | main h =>
    left
    cases h with
    | @leave role _ _ => cases role <;> exact hEntry
    | _ => exact hEntry
  | select _ h =>
    left
    cases h <;> exact hEntry
  | vote _ h => exact Or.inl (h.replicationFrame.appendRx ▸ hEntry)
  | replicate hTask h => exact h.queue hTask hEntry
  | recv _ _ h =>
    obtain ⟨voteSessions, rfl⟩ := h.frame
    exact Or.inl hEntry
  | overrun _ | answerVote _ | environment _ _ => exact Or.inl hEntry

theorem Routed.queue_lt (h : Routed m) (hStep : m.step action = some m')
    {entry : Nat × AppendEntriesResponse} (hEntry : entry ∈ m'.appendRx) :
    entry.1 < m.tasks.length := by
  rcases step_queue hStep hEntry with hOld | hNew
  · exact h.queued_lt hOld
  · cases hNew with
    | heartbeat hTask => exact (h.tasks _ _ hTask).1.lt
    | entries hTask => exact Machine.Standby.lt (h.tasks _ _ hTask)

omit [State S R] in
theorem Routed.heartbeatRecv (h : Routed m) {k i owner : Nat} {response : AppendEntriesResponse}
    (hTask : m.tasks[k]? = some (.heartbeat i .recv))
    (hRx : m.appendRx.find? (·.1 = k) = some (owner, response)) :
    response.reason ≠ .logMismatch := by
  have hOwner : owner = k := of_decide_eq_true (List.find?_some hRx :)
  rcases h.queued owner response (List.mem_of_find?_eq_some hRx) with ⟨_, hReason⟩ | ⟨_, hStandby⟩
  · exact hReason
  · exact absurd (hOwner ▸ hTask) hStandby.not_heartbeat

omit [State S R] in
theorem Task.Local.routeFits {k : Nat} {task task' : Task R} (h : task.Local action k task')
    (hTask : m.tasks[k]? = some task) (hSafe : HeartbeatsAgree m action)
    (hFits : task.RouteFits m) : task'.RouteFits m := by
  cases h.moved with
  | heartbeatAnswered => exact ⟨hFits.1, hSafe _ _ hTask⟩
  | loopAnswered | elapsed => exact hFits
  | ended _ => trivial

theorem TaskTurn.routeFits {k : Nat} {task task' : Task R} (h : TaskTurn m k action task task' m')
    (hRouted : Routed m) (hTask : m.tasks[k]? = some task) (hSafe : HeartbeatsAgree m action) :
    task'.RouteFits m := by
  have hFits := hRouted.tasks k task hTask
  cases h with
  | kept => exact hFits
  | stopped _ =>
    rcases Task.stop_cases _ task with hStop | hStop <;> rw [hStop]
    · exact hFits
    · trivial
  | vote h => exact Task.routeFits_of_not_replicates h.replicationFrame.task
  | replicate h =>
    cases h with
    | heartbeatRecv hRx => exact hRouted.heartbeatRecv hTask hRx
    | heartbeatSent => exact ⟨hFits.1, trivial⟩
    | peerBehind _ _ | nextIndex _ _ _ | prevEntry _ | entries | composed | entriesSent
    | forwarded => exact hFits
    | heartbeatStepDown h | standbyStepDown h => cases h <;> trivial
    | _ => trivial
  | recv _ h => cases h <;> trivial
  | taken | answerVote => trivial
  | environment h => exact h.routeFits hTask hSafe hFits

theorem step_routed (hStep : m.step action = some m') (hSafe : HeartbeatsAgree m action)
    (h : Routed m) : Routed m' := by
  have hGrows := step_grows hStep
  constructor
  · intro k task' hTask'
    rcases step_turned hStep hTask' with ⟨task, hTask, hTurn⟩ | ⟨_, hSpawned⟩
    · exact (hTurn.routeFits h hTask hSafe).mono hGrows
    · cases hSpawned with
      | heartbeatSend hOwner =>
        exact ⟨Machine.Heartbeat.mono ⟨_, _, hOwner, Task.Later.heartbeat⟩ hGrows, trivial⟩
      | peerLoop hOwner _ _ => exact Machine.Standby.mono ⟨_, hOwner, Task.Later.standby⟩ hGrows
      | _ => trivial
  · intro owner response hEntry
    rcases step_queue hStep hEntry with hOld | hNew
    · rcases h.queued owner response hOld with ⟨hOwner, hReason⟩ | ⟨i, hOwner⟩
      · exact Or.inl ⟨hOwner.mono hGrows, hReason⟩
      · exact Or.inr ⟨i, hOwner.mono hGrows⟩
    · cases hNew with
      | heartbeat hTask =>
        obtain ⟨hOwner, hReason⟩ := h.tasks _ _ hTask
        exact Or.inl ⟨hOwner.mono hGrows, hReason⟩
      | entries hTask => exact Or.inr ⟨_, Machine.Standby.mono (h.tasks _ _ hTask) hGrows⟩

end Zeroraft
