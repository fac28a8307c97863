import Zeroraft.Library.Ranking
import Zeroraft.Properties.Lifecycle
import Zeroraft.Runtime.Deliveries

/-!
# How long things take

The main loop waits for nobody but in `select!`. So a request is answered within a fixed
number of its steps, and a loop whose role is over takes at most one more event, whatever
the tasks do in between.
-/

namespace Zeroraft

variable {S R : Type}

/-- The accesses that are left of a handler, at most. -/
def RequestVotePc.left : RequestVotePc → Nat
  | .loadTerm => 10
  | .readVotedFor _ => 9
  | .storeCurrentTerm _ => 8
  | .storeVotedFor _ => 7
  | .setCurrentTerm _ => 6
  | .setVotedFor _ => 5
  | .becomeFollower _ => 4
  | .readLastIndex _ => 3
  | .readLastTerm _ _ => 2
  | .send _ => 1

def AppendEntriesPc.left : AppendEntriesPc → Nat
  | .loadTerm => 12
  | .readLastIndex _ => 11
  | .storeCurrentTerm _ _ => 10
  | .setCurrentTerm _ _ => 9
  | .setLeaderId _ _ => 8
  | .becomeFollower _ _ => 7
  | .readEntry _ => 6
  | .removeEntries _ => 5
  | .appendEntries _ => 4
  | .readNewLastIndex _ => 3
  | .setCommit _ _ => 2
  | .send _ => 1

/-- The steps that the main loop takes before a loop whose role is over is left, at most. -/
def Main.left : Main R → Nat
  | .requestVote _ _ _ pc => pc.left + 1
  | .appendEntries _ _ _ pc => pc.left + 1
  | .select _ => 13
  | .incrementTerm | .readCommit | .loadEntryTerm _ _ => 3
  | .voteForSelf | .readMembership _ | .becomeShutdown _ | .becomeCandidate | .becomeLeader _ _
  | .readLeaderId _ _ | .appendEntry _ _ => 2
  | .checkRole _ => 1
  | .start | .returned | .failed => 0

def Action.isMain : Action R → Bool
  | .main => true
  | _ => false

def Action.isEvent : Action R → Bool
  | .event _ => true
  | _ => false

theorem AppendEntriesPc.left_le (pc : AppendEntriesPc) : pc.left ≤ 12 := by
  cases pc <;> simp [AppendEntriesPc.left]

theorem RequestVotePc.left_le (pc : RequestVotePc) : pc.left ≤ 10 := by
  cases pc <;> simp [RequestVotePc.left]

theorem Main.left_le (main : Main R) : main.left ≤ 13 := by
  cases main with
  | requestVote _ _ _ pc => exact Nat.succ_le_succ (pc.left_le.trans (by decide))
  | appendEntries _ _ _ pc => exact Nat.succ_le_succ pc.left_le
  | _ => simp [Main.left]

variable [State S R] {m m' : Machine S R} {action : Action R}

theorem RequestVotePc.Edge.left_lt {ourId : NodeId} {request : RequestVoteRequest}
    {node : RaftNode S} {pc pc' : RequestVotePc} (h : pc.Edge ourId request node pc') :
    pc'.left < pc.left := by
  cases h <;> simp [RequestVotePc.left]

theorem AppendEntriesPc.Edge.left_lt {ourId : NodeId} {request : AppendEntriesRequest R}
    {node : RaftNode S} {pc pc' : AppendEntriesPc} (h : pc.Edge ourId request node pc') :
    pc'.left < pc.left := by
  cases h <;> simp [AppendEntriesPc.left]

section Answers

/-- The reply to the request has been sent. -/
def Machine.HasAnswered (m : Machine S R) (received : PeerRpc R × Sender) : Prop :=
  ∃ reply ∈ m.replies, reply.answered = some received

theorem step_hasAnswered {received : PeerRpc R × Sender} (hStep : m.step action = some m')
    (h : m.HasAnswered received) : m'.HasAnswered received := by
  obtain ⟨reply, hReply, hAnswered⟩ := h
  exact ⟨reply, (step_grows hStep).replies.subset hReply, hAnswered⟩

theorem main_answers [ReliableState S R] {rpc : PeerRpc R} {responseTx : Sender}
    (hOpen : responseTx.closed = false) (hStep : MainStepped m m')
    (hHandling : m.main.handling = some (rpc, responseTx)) :
    m'.HasAnswered (rpc, responseTx) ∨
      (m'.main.handling = some (rpc, responseTx) ∧ m'.main.left + 1 ≤ m.main.left) := by
  cases hStep with
  | requestVote hMain hEdge _ | appendEntries hMain hEdge _ =>
    right
    rw [hMain] at hHandling ⊢
    exact ⟨hHandling, Nat.succ_le_succ hEdge.left_lt⟩
  | requestVoteSent hMain | appendEntriesSent hMain =>
    left
    rw [hMain] at hHandling
    exact ⟨_, List.mem_append_right _ (List.mem_singleton_self _), hHandling⟩
  | failed _ hCause =>
    cases hCause with
    | requestVote hMain hFailed =>
      rw [hMain] at hHandling
      cases hHandling
      exact absurd (congrArg Prod.fst hFailed) (RequestVotePc.step_ne_failed hOpen _ _ _)
    | appendEntries hMain hFailed =>
      rw [hMain] at hHandling
      cases hHandling
      exact absurd (congrArg Prod.fst hFailed) (AppendEntriesPc.step_ne_failed hOpen _ _ _)
    | nonVoter hMain _ | redirect hMain _ | appendEntry hMain _ =>
      rw [hMain] at hHandling
      cases hHandling
  | startFollower hMain _ | startCandidate hMain _ | startLeader hMain _ | returned hMain _
  | incrementTerm hMain | voteForSelf hMain | readCommit hMain | readMembership hMain
  | stay hMain _ | leave hMain _ | becomeShutdown hMain | becomeCandidate hMain
  | becomeLeader hMain | redirected hMain _ | loadEntryTerm hMain | appendEntry hMain _ =>
    rw [hMain] at hHandling
    cases hHandling

theorem step_answers_or [ReliableState S R] {rpc : PeerRpc R} {responseTx : Sender}
    (hOpen : responseTx.closed = false) (hStep : m.step action = some m')
    (hHandling : m.main.handling = some (rpc, responseTx)) :
    m'.HasAnswered (rpc, responseTx) ∨
      (m'.main.handling = some (rpc, responseTx) ∧
        m'.main.left + action.isMain.toNat ≤ m.main.left) := by
  have hSame : m'.main = m.main → action.isMain = false →
      m'.main.handling = some (rpc, responseTx) ∧
        m'.main.left + action.isMain.toNat ≤ m.main.left := by
    intro hMain hAction
    rw [hMain, hAction]
    exact ⟨hHandling, Nat.le_refl _⟩
  cases step_cases hStep with
  | main h => exact main_answers hOpen h hHandling
  | select hMain _ =>
    rw [hMain] at hHandling
    cases hHandling
  | vote _ h | replicate _ h => exact Or.inr (hSame h.frame.main rfl)
  | recv _ _ h =>
    obtain ⟨voteSessions, rfl⟩ := h.frame
    exact Or.inr (hSame rfl rfl)
  | overrun hOverrun =>
    have hNone : m.main.handling = none := by
      cases hOverrun <;> rw [‹m.main = _›] <;> rfl
    rw [hNone] at hHandling
    cases hHandling
  | answerVote _ => exact Or.inr (hSame rfl rfl)
  | environment _ h =>
    right
    cases h <;> exact hSame rfl rfl

/-- A request that the main loop has taken is answered by the time of its twelfth step,
whatever the tasks and the environment do in between. -/
theorem request_answered [ReliableState S R] (m m' : Machine S R) (actions : List (Action R))
    (hRun : m.run (fun _ _ => True) actions = some m') (rpc : PeerRpc R) (responseTx : Sender)
    (hHandling : m.main.handling = some (rpc, responseTx)) (hOpen : responseTx.closed = false)
    (hSteps : 12 ≤ actions.countP Action.isMain) : m'.HasAnswered (rpc, responseTx) := by
  rw [Machine.run_eq_foldlM] at hRun
  have hBound : m'.HasAnswered (rpc, responseTx) ∨
      (m'.main.handling = some (rpc, responseTx) ∧
        m'.main.left + actions.countP Action.isMain ≤ m.main.left) :=
    Ranking.done_or_countP_le
      (fun m action m' hStep hHandling => step_answers_or hOpen
        (Option.ite_none_right_eq_some.mp hStep).2 hHandling)
      (fun m action m' hStep h => step_hasAnswered (Option.ite_none_right_eq_some.mp hStep).2 h)
      hRun hHandling
  rcases hBound with hAnswered | ⟨hStill, hLeft⟩
  · exact hAnswered
  · have hStart := m.main.left_le
    have hMain : 2 ≤ m'.main.left := by
      cases hMain : m'.main with
      | requestVote _ _ _ pc => cases pc <;> exact Nat.le_add_left 2 _
      | appendEntries _ _ _ pc => cases pc <;> exact Nat.le_add_left 2 _
      | _ =>
        rw [hMain] at hStill
        cases hStill
    omega

/-- A follower of a cluster of two that has just taken an AppendEntries of node 2. -/
def requestedNode : Machine (Stored Unit) Unit where
  node := emptyNode ⟨[1, 2], nodup_pair⟩
  main := .appendEntries .follower ⟨1, 2, 0, 0, 0, []⟩ ⟨2, 1, false⟩ .loadTerm

theorem request_answered_follower : ∃ m : Machine (Stored Unit) Unit,
    requestedNode.run (fun _ _ => True) (List.replicate 12 .main) = some m ∧
      m.HasAnswered (.appendEntries ⟨1, 2, 0, 0, 0, []⟩, ⟨2, 1, false⟩) := by
  obtain ⟨m, hRun⟩ := Option.isSome_iff_exists.mp
    (show (requestedNode.run (fun _ _ => True) (List.replicate 12 .main)).isSome = true by decide)
  exact ⟨m, hRun, request_answered requestedNode m _ hRun _ _ rfl rfl (by decide)⟩

end Answers

section Overdue

omit [State S R]

/-- The role of the loop that the main loop is in. -/
def Main.loopState : Main R → Option TaskState
  | .incrementTerm | .voteForSelf => some .candidate
  | .readCommit | .readMembership _ => some .leader
  | main => main.role.map RoleLoop.taskState

def Main.waits : Main R → Bool
  | .select _ => true
  | _ => false

/-- The main loop is in the loop of a candidate or of a leader, and the node is that no more. -/
def Machine.Overdue (m : Machine S R) : Prop :=
  ∀ state ∈ m.main.loopState, state ≠ .follower ∧ m.node.currentState ≠ state

def InLoop (m : Machine S R) (_ : Action R) : Prop :=
  m.main.loopState.isSome = true

instance InLoop.instDecidable (m : Machine S R) (action : Action R) :
    Decidable (InLoop m action) :=
  inferInstanceAs (Decidable (_ = true))

theorem Main.nextState_ne_loopState {main : Main R} {next state : TaskState}
    (hNext : main.nextState = some next) (hLoop : main.loopState = some state)
    (hState : state ≠ .follower) : next ≠ state := by
  rcases Main.nextState_cases hNext with rfl | ⟨rfl, rfl⟩ | ⟨rfl, i, result, rfl⟩ | ⟨rfl, role, rfl⟩
  · exact hState.symm
  · cases hLoop
    exact absurd rfl hState
  · cases hLoop
    exact nofun
  · cases hLoop
    exact role.taskState_ne_shutdown

theorem SelectStepped.loopState {role : RoleLoop} {event : Event R}
    (hMain : m.main = .select role) (h : SelectStepped m role event m') :
    (m'.main.loopState = m.main.loopState ∨ m'.main.loopState = none) ∧ m'.main.waits = false := by
  rw [hMain]
  cases h with
  | redirect _ _ _ => exact ⟨Or.inl rfl, rfl⟩
  | unimplementedRpc => exact ⟨Or.inr rfl, rfl⟩
  | _ => exact ⟨Or.inl rfl, rfl⟩

end Overdue

section Leaving

theorem MainStepped.loopState (h : MainStepped m m') (hLoop : m.main.loopState.isSome = true) :
    m'.main.loopState = m.main.loopState ∨ m'.main.loopState = none := by
  cases h with
  | startFollower hMain _ | startCandidate hMain _ | startLeader hMain _ | returned hMain _ =>
    rw [hMain] at hLoop
    cases hLoop
  | leave _ _ =>
    rw [RoleLoop.leave_main]
    exact Or.inr rfl
  | failed _ _ => exact Or.inr rfl
  | incrementTerm hMain | voteForSelf hMain | readCommit hMain | readMembership hMain
  | stay hMain _ | requestVote hMain _ _ | requestVoteSent hMain | appendEntries hMain _ _
  | appendEntriesSent hMain | becomeShutdown hMain | becomeCandidate hMain | becomeLeader hMain
  | redirected hMain _ | loadEntryTerm hMain | appendEntry hMain _ =>
    rw [hMain]
    exact Or.inl rfl

theorem step_loopState (hStep : m.step action = some m') (hLoop : m.main.loopState.isSome = true) :
    m'.main.loopState = m.main.loopState ∨ m'.main.loopState = none := by
  cases step_cases hStep with
  | main h => exact h.loopState hLoop
  | select hMain h => exact (h.loopState hMain).1
  | vote _ h | replicate _ h => exact Or.inl (congrArg Main.loopState h.frame.main)
  | recv _ _ h =>
    obtain ⟨voteSessions, rfl⟩ := h.frame
    exact Or.inl rfl
  | overrun _ => exact Or.inr rfl
  | answerVote _ | environment _ _ => exact Or.inl rfl

/-- Nobody but the loop that follows makes the node a candidate or a leader again. -/
theorem step_overdue (hStep : m.step action = some m') (hLoop : InLoop m action)
    (h : m.Overdue) : m'.Overdue := by
  rcases step_loopState hStep hLoop with hSame | hNone
  · intro state hState
    have hLoopState : m.main.loopState = some state := hSame ▸ hState
    obtain ⟨hNotFollower, hNe⟩ := h state hLoopState
    refine ⟨hNotFollower, ?_⟩
    cases step_roleChange hStep with
    | kept hKept => exact hKept ▸ hNe
    | main _ hNext => exact Main.nextState_ne_loopState hNext hLoopState hNotFollower
    | stepDown _ _ _ hFollower => exact hFollower ▸ hNotFollower.symm
  · intro state hState
    rw [hNone] at hState
    cases hState

theorem main_left_lt (hStep : MainStepped m m') (hLoop : m.main.loopState.isSome = true)
    (h : m.Overdue) : m'.main.left + 1 ≤ m.main.left ∧ m'.main.waits = false := by
  cases hStep with
  | startFollower hMain _ | startCandidate hMain _ | startLeader hMain _ | returned hMain _ =>
    rw [hMain] at hLoop
    cases hLoop
  | failed _ hCause =>
    refine ⟨?_, rfl⟩
    cases hCause with
    | nonVoter hMain _ =>
      rw [hMain] at hLoop
      cases hLoop
    | requestVote hMain _ | appendEntries hMain _ | redirect hMain _ | appendEntry hMain _ =>
      rw [hMain]
      exact Nat.le_add_left 1 _
  | @stay role hMain hRole =>
    have hNe := (h role.taskState (by rw [hMain]; rfl)).2
    exact absurd hRole hNe
  | leave hMain _ =>
    rw [RoleLoop.leave_main, hMain]
    exact ⟨Nat.le_refl 1, rfl⟩
  | requestVote hMain hEdge _ | appendEntries hMain hEdge _ =>
    rw [hMain]
    exact ⟨Nat.succ_le_succ hEdge.left_lt, rfl⟩
  | incrementTerm hMain | voteForSelf hMain | readCommit hMain | readMembership hMain
  | requestVoteSent hMain | appendEntriesSent hMain | becomeShutdown hMain | becomeCandidate hMain
  | becomeLeader hMain | redirected hMain _ | loadEntryTerm hMain | appendEntry hMain _ =>
    rw [hMain]
    exact ⟨Nat.le_refl _, rfl⟩

theorem step_rank_le (hStep : m.step action = some m') (hLoop : InLoop m action) (h : m.Overdue) :
    m'.main.left + action.isMain.toNat ≤ m.main.left ∧
      m'.main.waits.toNat + action.isEvent.toNat ≤ m.main.waits.toNat := by
  cases step_cases hStep with
  | main hMain =>
    obtain ⟨hLeft, hWaits⟩ := main_left_lt hMain hLoop h
    rw [hWaits]
    exact ⟨hLeft, Nat.zero_le _⟩
  | select hMain hSelect =>
    rw [(hSelect.loopState hMain).2, hMain]
    exact ⟨m'.main.left_le, Nat.le_refl 1⟩
  | vote _ hVote | replicate _ hVote =>
    have hMain := hVote.frame.main
    exact ⟨Nat.le_of_eq (congrArg Main.left hMain),
      Nat.le_of_eq (congrArg (fun main => (Main.waits main).toNat) hMain)⟩
  | recv _ _ hRecv =>
    obtain ⟨voteSessions, rfl⟩ := hRecv.frame
    exact ⟨Nat.le_refl _, Nat.le_refl _⟩
  | overrun _ => exact ⟨Nat.zero_le _, Nat.zero_le _⟩
  | answerVote _ => exact ⟨Nat.le_refl _, Nat.le_refl _⟩
  | environment _ hLocal =>
    cases hLocal <;> exact ⟨Nat.le_refl _, Nat.le_refl _⟩

/-- Once the node is no longer what the loop of a candidate or of a leader is for, the loop
takes one more event at most, and is left by its thirteenth step. -/
theorem overdue_loop_ends (m m' : Machine S R) (actions : List (Action R))
    (hRun : m.run InLoop actions = some m') (hOverdue : m.Overdue) :
    actions.countP Action.isEvent ≤ 1 ∧ actions.countP Action.isMain ≤ 13 := by
  rw [Machine.run_eq_foldlM] at hRun
  constructor
  · have hEvents : actions.countP Action.isEvent ≤ m.main.waits.toNat :=
      Ranking.countP_le (s := m) (fun m action m' hStep h => by
        obtain ⟨hLoop, hStep⟩ := Option.ite_none_right_eq_some.mp hStep
        exact ⟨step_overdue hStep hLoop h, (step_rank_le hStep hLoop h).2⟩) hRun hOverdue
    exact hEvents.trans (Bool.toNat_le _)
  · have hSteps : actions.countP Action.isMain ≤ m.main.left :=
      Ranking.countP_le (s := m) (fun m action m' hStep h => by
        obtain ⟨hLoop, hStep⟩ := Option.ite_none_right_eq_some.mp hStep
        exact ⟨step_overdue hStep hLoop h, (step_rank_le hStep hLoop h).1⟩) hRun hOverdue
    exact hSteps.trans m.main.left_le

/-- A leader that a task has made a follower while its loop waited. -/
def deposedLeader : Machine (Stored Unit) Unit where
  node := emptyNode ⟨[1, 2], nodup_pair⟩
  main := .select (.leader 0)

/-- It still takes a client's entry before it follows. -/
def lastEntryActions : List (Action Unit) :=
  [.event (.clientRequest () ⟨7, 0, false⟩), .main, .main, .main]

theorem overdue_loop_ends_leader : ∃ m : Machine (Stored Unit) Unit,
    deposedLeader.run InLoop lastEntryActions = some m ∧
      lastEntryActions.countP Action.isEvent ≤ 1 ∧ lastEntryActions.countP Action.isMain ≤ 13 := by
  obtain ⟨m, hRun⟩ := Option.isSome_iff_exists.mp
    (show (deposedLeader.run InLoop lastEntryActions).isSome = true by decide)
  refine ⟨m, hRun, overdue_loop_ends deposedLeader m _ hRun ?_⟩
  intro state hState
  cases hState
  exact ⟨by decide, by decide⟩

end Leaving

end Zeroraft
