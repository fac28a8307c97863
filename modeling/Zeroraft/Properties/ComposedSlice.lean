import Mathlib.Data.List.Induction
import Mathlib.Data.List.Infix
import Zeroraft.Properties.Leadership
import Zeroraft.Properties.LogMatching
import Zeroraft.Properties.LogTerms

/-!
# Is a composed request a slice of one log?

`compose_append_entries_request` reads the previous term and the entries under two
acquisitions of the lock. What it sends is a slice of a log that the node has had in the
meantime, unless the previous entry has been replaced between the two.
-/

namespace Zeroraft

variable {S R : Type}

/-- The task is in `compose_append_entries_request` and reads the log. -/
def Task.composes : Task R → Bool
  | .peerLoop _ _ _ (.readPrevEntry _ _) => true
  | .peerLoop _ _ _ (.readEntries _ _ _) => true
  | .peerLoop _ _ _ (.loadTerm _ _ _ _) => true
  | _ => false

def Task.readsPrevEntry : Task R → Bool
  | .peerLoop _ _ _ (.readPrevEntry _ _) => true
  | _ => false

def Task.composed : Task R → Option (AppendEntriesRequest R)
  | .peerLoop _ _ _ (.send request) => some request
  | _ => none

def Main.appending : Main R → List (LogEntry R)
  | .appendEntries _ request _ (.appendEntries _) => request.entries
  | .appendEntry _ entry => [entry]
  | _ => []

def Machine.appends (m : Machine S R) : Action R → List (LogEntry R)
  | .main => m.main.appending
  | _ => []

/-- The entries from this index on, if there are any, follow an entry of this term. -/
def FollowTerm (nextIndex prevLogTerm : Nat) (log : List (LogEntry R)) : Prop :=
  nextIndex ≤ log.length → log[nextIndex - 2]?.map LogEntry.term = some prevLogTerm

instance (nextIndex prevLogTerm : Nat) (log : List (LogEntry R)) :
    Decidable (FollowTerm nextIndex prevLogTerm log) :=
  inferInstanceAs (Decidable (_ → _))

/-- Task `k` is composing its request. -/
def Composing (k : Nat) (m : Machine S R) (_ : Action R) : Prop :=
  m.tasks[k]?.any Task.composes = true

instance (k : Nat) (m : Machine S R) (action : Action R) : Decidable (Composing k m action) :=
  inferInstanceAs (Decidable (_ = _))

variable [State S R]

/-- Task `k` is composing its request, and nothing is appended that puts the entries which it
is about to read behind a previous entry of another term than the one it has read. -/
def KeepsPrevTerm (k : Nat) (m : Machine S R) (action : Action R) : Prop :=
  Composing k m action ∧
    ∀ read ∈ m.tasks[k]?.bind Task.reading, FollowTerm read.1 read.2 (m.log ++ m.appends action)

instance (k : Nat) (m : Machine S R) (action : Action R) : Decidable (KeepsPrevTerm k m action) :=
  inferInstanceAs (Decidable (_ ∧ _))

def Machine.logs (Allowed : Machine S R → Action R → Prop) [∀ m action, Decidable (Allowed m action)]
    (m : Machine S R) (actions : List (Action R)) : Set (List (LogEntry R)) :=
  {log | ∃ earlier later m', earlier ++ later = actions ∧ m.run Allowed earlier = some m' ∧
    m'.log = log}

/-- What a task that composes a request has read, given the logs so far and the present one. -/
def Task.CallFits (logs : Set (List (LogEntry R))) (log : List (LogEntry R)) : Task R → Prop
  | .peerLoop _ _ _ (.readEntries nextIndex _ prevLogTerm) =>
    2 ≤ nextIndex ∧ FollowTerm nextIndex prevLogTerm log ∧
      ∃ earlier ∈ logs, earlier[nextIndex - 2]?.map LogEntry.term = some prevLogTerm
  | .peerLoop _ _ _ (.loadTerm nextIndex lastCommitIndex prevLogTerm entries) =>
    ∃ earlier ∈ logs, ∀ term leaderId, AppendEntriesRequest.SliceOf
      ⟨term, leaderId, lastCommitIndex, nextIndex - 1, prevLogTerm, entries⟩ earlier
  | .peerLoop _ _ _ (.send request) => ∃ earlier ∈ logs, request.SliceOf earlier
  | _ => True

section Logs

variable {Allowed : Machine S R → Action R → Prop} [∀ m action, Decidable (Allowed m action)]
  {m m' : Machine S R} {actions : List (Action R)}

theorem Machine.mem_logs (hRun : m.run Allowed actions = some m') :
    m'.log ∈ m.logs Allowed actions :=
  ⟨actions, [], m', List.append_nil _, hRun, rfl⟩

theorem Machine.logs_mono (rest : List (Action R)) :
    m.logs Allowed actions ⊆ m.logs Allowed (actions ++ rest) := by
  rintro log ⟨earlier, later, m', rfl, hRun, hLog⟩
  exact ⟨earlier, later ++ rest, m', (List.append_assoc _ _ _).symm, hRun, hLog⟩

end Logs

section Slices

variable {log : List (LogEntry R)} {nextIndex prevLogTerm : Nat}

omit [State S R] in
theorem sliceOf_of_prev (hNext : 2 ≤ nextIndex)
    (hPrev : log[nextIndex - 2]?.map LogEntry.term = some prevLogTerm) (n : Nat)
    (term leaderId lastCommitIndex : Nat) : AppendEntriesRequest.SliceOf
      ⟨term, leaderId, lastCommitIndex, nextIndex - 1, prevLogTerm,
        (log.drop (nextIndex - 1)).take n⟩ log := by
  obtain ⟨entry, hEntry, hTerm⟩ := Option.map_eq_some_iff.mp hPrev
  have hLength : nextIndex - 2 < log.length := (List.getElem?_eq_some_iff.mp hEntry).1
  refine ⟨?_, ?_, n, rfl⟩
  · show nextIndex - 1 ≤ log.length
    omega
  · show prevLogTerm = if nextIndex - 1 = 0 then 0 else _
    rw [if_neg (by omega), Nat.sub_sub, hEntry]
    exact hTerm.symm

theorem FollowTerm.of_prefix {log' : List (LogEntry R)} (h : FollowTerm nextIndex prevLogTerm log)
    (hNext : 2 ≤ nextIndex) (hPrefix : log' <+: log) : FollowTerm nextIndex prevLogTerm log' := by
  intro hLength
  rw [← h (hLength.trans hPrefix.length_le)]
  obtain ⟨rest, rfl⟩ := hPrefix
  rw [List.getElem?_append_left (by omega)]

end Slices

variable [FallibleState S R] {m m' : Machine S R} {action : Action R}

theorem step_log (hStep : m.step action = some m') :
    m'.log <+: m.log ∨ m'.log = m.log ++ m.appends action := by
  cases step_logChange hStep with
  | kept h => exact Or.inl (h ▸ List.prefix_refl _)
  | removed _ _ _ h => exact Or.inl (by rw [h]; exact List.take_prefix _ _)
  | replicated hAction hMain _ h =>
    subst hAction
    exact Or.inr (by rw [h, Machine.appends, hMain]; rfl)
  | created hAction hMain _ h =>
    subst hAction
    exact Or.inr (by rw [h, Machine.appends, hMain]; rfl)

section Calls

variable {k : Nat} {task task' : Task R}

omit [State S R] [FallibleState S R] in
theorem Task.Local.not_composes (h : task.Local action k task') : task.composes = false := by
  cases h.moved with
  | heartbeatAnswered | loopAnswered | elapsed => rfl
  | ended hEnds =>
    unfold Task.lose Task.cancel at hEnds
    rcases hEnds with hLost | hCancelled
    · split at hLost <;> first | rfl | cases hLost
    · split at hCancelled <;> first | rfl | cases hCancelled

omit [State S R] [FallibleState S R] in
theorem Task.stop_of_composes (h : task.composes = true) (i : Nat) : task.stop i = task := by
  unfold Task.stop
  split
  · cases h
  · rfl

omit [FallibleState S R] in
theorem TaskTurn.of_composes (h : TaskTurn m k action task task' m')
    (hTask : task.composes = true) :
    task' = task ∨ ∃ m₁, m' = m₁.setTask k task' ∧ ReplicationStepped m k task task' m₁ := by
  cases h with
  | kept => exact Or.inl rfl
  | stopped _ => exact Or.inl (Task.stop_of_composes hTask _)
  | vote h => cases h <;> cases hTask
  | replicate h => exact Or.inr ⟨_, rfl, h⟩
  | recv _ | taken | answerVote => cases hTask
  | environment h => exact absurd (h.not_composes.symm.trans hTask) Bool.false_ne_true

variable {logs : Set (List (LogEntry R))}

omit [State S R] [FallibleState S R] in
theorem Task.CallFits.mono {logs' : Set (List (LogEntry R))} {log log' : List (LogEntry R)}
    (h : task.CallFits logs log) (hLogs : logs ⊆ logs')
    (hFollow : ∀ read ∈ task.reading, 2 ≤ read.1 → FollowTerm read.1 read.2 log →
      FollowTerm read.1 read.2 log') : task.CallFits logs' log' := by
  cases task with
  | peerLoop i owner peer pc =>
    cases pc with
    | readEntries nextIndex _ prevLogTerm =>
      obtain ⟨hNext, hNow, earlier, hEarlier, hPrev⟩ := h
      exact ⟨hNext, hFollow (nextIndex, prevLogTerm) rfl hNext hNow, earlier, hLogs hEarlier, hPrev⟩
    | loadTerm _ _ _ _ | send _ =>
      obtain ⟨earlier, hEarlier, hSlice⟩ := h
      exact ⟨earlier, hLogs hEarlier, hSlice⟩
    | _ => trivial
  | _ => trivial

theorem ReplicationStepped.callFits (h : ReplicationStepped m k task task' m')
    (hTask : task.composes = true) (hFits : task.CallFits logs m.log) (hNow : m.log ∈ logs) :
    task'.CallFits logs m.log := by
  cases h with
  | prevMissing _ => trivial
  | @prevEntry _ _ nextIndex _ _ entry hEntry =>
    rw [FallibleState.getEntry_eq, Stored.entry_eq_some_iff] at hEntry
    obtain ⟨hNext, hEntry⟩ := hEntry
    have hPrev : m.log[nextIndex - 2]?.map LogEntry.term = some entry.term :=
      Option.map_eq_some_iff.mpr ⟨entry, hEntry, rfl⟩
    exact ⟨by omega, fun _ => hPrev, m.log, hNow, hPrev⟩
  | @entries _ _ nextIndex _ prevLogTerm _ =>
    obtain ⟨hNext, hFollow, earlier, hEarlier, hPrev⟩ := hFits
    have hEntries : State.getEntries m.node.state nextIndex none = m.log.drop (nextIndex - 1) :=
      FallibleState.getEntries_from _ _ (by omega)
    rw [hEntries]
    by_cases hLength : nextIndex ≤ m.log.length
    · -- The log still has an entry of the previous term before those that are read.
      refine ⟨m.log, hNow, fun term leaderId => ?_⟩
      have hSlice := sliceOf_of_prev hNext (hFollow hLength) m.log.length term leaderId
      rw [List.take_of_length_le (by rw [List.length_drop]; omega)] at hSlice
      exact hSlice _
    · -- Nothing is read, and the log had the previous entry when it was read.
      refine ⟨earlier, hEarlier, fun term leaderId => ?_⟩
      have hSlice := sliceOf_of_prev hNext hPrev 0 term leaderId
      rw [List.take_zero] at hSlice
      rw [List.drop_eq_nil_of_le (by omega)]
      exact hSlice _
  | composed =>
    obtain ⟨earlier, hEarlier, hSlice⟩ := hFits
    exact ⟨earlier, hEarlier, hSlice _ _⟩
  | _ => cases hTask

theorem step_callFits {logs' : Set (List (LogEntry R))} (hSafe : KeepsPrevTerm k m action)
    (hStep : m.step action = some m') (hTask : m.tasks[k]? = some task)
    (hFits : task.CallFits logs m.log) (hNow : m.log ∈ logs) (hLogs : logs ⊆ logs') :
    ∃ task', m'.tasks[k]? = some task' ∧ task'.CallFits logs' m'.log := by
  obtain ⟨task', hTask', hTurn⟩ := step_turn hStep hTask
  refine ⟨task', hTask', ?_⟩
  have hComposes : task.composes = true := by
    have hComposing := hSafe.1
    rwa [Composing, hTask, Option.any_some] at hComposing
  rcases hTurn.of_composes hComposes with rfl | hOwn
  · refine hFits.mono hLogs fun read hRead hNext hFollow => ?_
    rcases step_log hStep with hPrefix | hAppended
    · exact hFollow.of_prefix hNext hPrefix
    · rw [hAppended]
      exact hSafe.2 read (by rw [hTask]; exact hRead)
  · obtain ⟨m₁, rfl, hOwn⟩ := hOwn
    have hLog : (m₁.setTask k task').log = m.log := hOwn.log
    rw [hLog]
    exact hOwn.callFits hComposes (hFits.mono hLogs fun _ _ _ h => h) (hLogs hNow)

theorem run_callFits {actions : List (Action R)} (hFirst : m.tasks[k]?.any Task.readsPrevEntry = true)
    (hRun : m.run (KeepsPrevTerm k) actions = some m') :
    ∃ task, m'.tasks[k]? = some task ∧
      task.CallFits (m.logs (KeepsPrevTerm k) actions) m'.log := by
  induction actions using List.reverseRecOn generalizing m' with
  | nil =>
    cases hRun
    obtain ⟨task, hTask, hReads⟩ := (Option.any_eq_true _ _).mp hFirst
    refine ⟨task, hTask, ?_⟩
    unfold Task.readsPrevEntry at hReads
    split at hReads
    · trivial
    · cases hReads
  | append_singleton earlier action ih =>
    rw [Machine.run_append] at hRun
    obtain ⟨m₁, hEarlier, hRun⟩ := Option.bind_eq_some_iff.mp hRun
    obtain ⟨hSafe, hRun⟩ := Option.ite_none_right_eq_some.mp hRun
    obtain ⟨m₂, hStep, hEnd⟩ := Option.bind_eq_some_iff.mp hRun
    cases hEnd
    obtain ⟨task, hTask, hFits⟩ := ih hEarlier
    exact step_callFits hSafe hStep hTask hFits (Machine.mem_logs hEarlier)
      (Machine.logs_mono [action])

end Calls

/-- As long as no step of the main loop puts the entries that a call of
`compose_append_entries_request` is about to read behind an entry of another term than it has
read: the request that the call composes is a slice of a log that the node had in between. -/
theorem composed_slice (k : Nat) (m₁ m₂ : Machine S R) (actions : List (Action R))
    (request : AppendEntriesRequest R) (hFirst : m₁.tasks[k]?.any Task.readsPrevEntry = true)
    (hRun : m₁.run (KeepsPrevTerm k) actions = some m₂)
    (hLast : m₂.tasks[k]?.bind Task.composed = some request) :
    ∃ log ∈ m₁.logs (KeepsPrevTerm k) actions, request.SliceOf log := by
  obtain ⟨task, hTask, hFits⟩ := run_callFits hFirst hRun
  rw [hTask] at hLast
  cases task with
  | peerLoop i owner peer pc =>
    cases pc with
    | send _ =>
      cases hLast
      exact hFits
    | _ => cases hLast
  | _ => cases hLast

/-- Node 1 has an entry of term 1 and is elected in term 2 when node 2, in term 5, sends it a
second entry. Its loop for node 2, which was to begin at that entry, is about to compose. -/
def callingActions : List (Action Unit) :=
  [List.replicate 2 .main, [.event (.appendEntries ⟨1, 2, 1, 0, 0, [⟨1, .clientRequest ()⟩]⟩
      ⟨2, 0, false⟩)], List.replicate 11 .main, electedActions, List.replicate 6 .main,
    [.event (.appendEntries ⟨5, 2, 2, 1, 1, [⟨5, .clientRequest ()⟩]⟩ ⟨2, 1, false⟩)],
    List.replicate 15 .main, [.task 3, .task 4, .task 4]].flatten

/-- A request arrives when the previous entry has been read, and is accepted before the rest
is read. -/
def overtakenCall (request : AppendEntriesRequest Unit) : List (Action Unit) :=
  [[.task 4, .event (.appendEntries request ⟨2, 2, false⟩)], List.replicate 9 .main,
    [.task 4, .task 4]].flatten

def composedRequest : AppendEntriesRequest Unit := ⟨6, 1, 2, 1, 1, [⟨6, .clientRequest ()⟩]⟩

def replacingRequest : AppendEntriesRequest Unit := ⟨6, 2, 2, 1, 1, [⟨6, .clientRequest ()⟩]⟩

def overwritingRequest : AppendEntriesRequest Unit :=
  ⟨6, 2, 2, 0, 0, [⟨6, .clientRequest ()⟩, ⟨6, .clientRequest ()⟩]⟩

theorem composed_slice_replaced : ∃ m₁ : Machine (Stored Unit) Unit,
    Machine.Runs (fun _ _ => True) { node := emptyNode ⟨[1, 2], by decide⟩ } m₁ ∧
    ∃ log ∈ m₁.logs (KeepsPrevTerm 4) (overtakenCall replacingRequest),
      composedRequest.SliceOf log := by
  obtain ⟨m₁, hRuns, hCall⟩ := Machine.exists_of_run
    (show (Machine.run (fun _ _ => True) { node := emptyNode ⟨[1, 2], by decide⟩ }
      callingActions).map (fun m₁ => decide (m₁.tasks[4]?.any Task.readsPrevEntry = true ∧
        (m₁.run (KeepsPrevTerm 4) (overtakenCall replacingRequest)).bind
          (·.tasks[4]?.bind Task.composed) = some composedRequest)) = some true by decide)
  obtain ⟨hFirst, hComposed⟩ := of_decide_eq_true hCall
  obtain ⟨m₂, hRun, hLast⟩ := Option.bind_eq_some_iff.mp hComposed
  exact ⟨m₁, hRuns, composed_slice 4 m₁ m₂ _ _ hFirst hRun hLast⟩

instance [DecidableEq R] (request : AppendEntriesRequest R) (log : List (LogEntry R)) :
    Decidable (request.SliceOf log) :=
  decidable_of_iff
    (request.prevLogIndex ≤ log.length ∧ request.prevLogTerm =
      (if request.prevLogIndex = 0 then 0
        else (log[request.prevLogIndex - 1]?.map (·.term)).getD 0) ∧
      request.entries <+: log.drop request.prevLogIndex)
    (and_congr_right fun _ => and_congr_right fun _ =>
      ⟨fun h => ⟨_, List.prefix_iff_eq_take.mp h⟩, fun ⟨n, h⟩ => h ▸ List.take_prefix n _⟩)

/-- The previous entry has term 1 when it is read, and is overwritten with all the others
before they are: the node never had a log with both. -/
theorem composed_of_two_logs : ∃ m₁ m₂ : Machine (Stored Unit) Unit,
    Machine.Runs (fun _ _ => True) { node := emptyNode ⟨[1, 2], by decide⟩ } m₁ ∧
    m₁.tasks[4]?.any Task.readsPrevEntry = true ∧
    m₁.run (Composing 4) (overtakenCall overwritingRequest) = some m₂ ∧
    m₂.tasks[4]?.bind Task.composed = some composedRequest ∧
    ∀ log ∈ m₁.logs (Composing 4) (overtakenCall overwritingRequest),
      ¬ composedRequest.SliceOf log := by
  obtain ⟨m₁, hRuns, hCall⟩ := Machine.exists_of_run
    (show (Machine.run (fun _ _ => True) { node := emptyNode ⟨[1, 2], by decide⟩ }
      callingActions).map (fun m₁ => decide (m₁.tasks[4]?.any Task.readsPrevEntry = true ∧
        (m₁.run (Composing 4) (overtakenCall overwritingRequest)).bind
          (·.tasks[4]?.bind Task.composed) = some composedRequest ∧
        ∀ earlier ∈ (overtakenCall overwritingRequest).inits,
          ∀ m ∈ m₁.run (Composing 4) earlier, ¬ composedRequest.SliceOf m.log)) =
            some true by decide)
  obtain ⟨hFirst, hComposed, hNever⟩ := of_decide_eq_true hCall
  obtain ⟨m₂, hRun, hLast⟩ := Option.bind_eq_some_iff.mp hComposed
  refine ⟨m₁, m₂, hRuns, hFirst, hRun, hLast, ?_⟩
  rintro log ⟨earlier, later, m, hActions, hEarlier, rfl⟩
  exact hNever earlier ((List.mem_inits _ _).mpr ⟨later, hActions⟩) m hEarlier

end Zeroraft
