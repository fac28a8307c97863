import Zeroraft.Runtime.Cluster

/-!
# Does the current term grow?

Six places write the term of a node. The request handlers compare first, but the
comparison and the write are separate steps, and the sections in which the tasks
step down do not compare at all.
-/

namespace Zeroraft

open Routine

variable {S R : Type} [State S R]

/-- The term of the request that the main loop has found not to be stale and whose
term it has not written yet. -/
def Main.acceptedTerm : Main R → Option Nat
  | .requestVote _ request _ (.readVotedFor _) => some request.term
  | .requestVote _ request _ (.storeCurrentTerm _) => some request.term
  | .requestVote _ request _ (.storeVotedFor _) => some request.term
  | .requestVote _ request _ (.setCurrentTerm _) => some request.term
  | .appendEntries _ request _ (.readLastIndex ourTerm) =>
    if ourTerm > request.term then none else some request.term
  | .appendEntries _ request _ (.storeCurrentTerm _ _) => some request.term
  | .appendEntries _ request _ (.setCurrentTerm _ _) => some request.term
  | _ => none

def Main.startsSession : Main R → Bool
  | .incrementTerm => true
  | _ => false

/-- The term that is written is not below the current one, nor above the one that
the main loop is about to write. -/
def StepDownPc.Safe (m : Machine S R) : StepDownPc → Prop
  | .setCurrentTerm term =>
    m.node.currentTerm ≤ term ∧ ∀ accepted ∈ m.main.acceptedTerm, term ≤ accepted
  | _ => True

/-- The tasks step down safely, and no session is started in term `u64::MAX`. -/
def TermSafe (m : Machine S R) : Action R → Prop
  | .task k => ∀ task ∈ m.tasks[k]?, ∀ pc ∈ task.stepDownPc, pc.Safe m
  | .main => m.main.startsSession → m.node.currentTerm + 1 < u64Size
  | _ => True

instance (m : Machine S R) (pc : StepDownPc) : Decidable (pc.Safe m) :=
  match pc with
  | .storeCurrentTerm _ => isTrue trivial
  | .setCurrentTerm _ => inferInstanceAs (Decidable (_ ∧ _))
  | .becomeFollower => isTrue trivial

instance TermSafe.instDecidable (m : Machine S R) (action : Action R) :
    Decidable (TermSafe m action) :=
  match action with
  | .task k => inferInstanceAs (Decidable (∀ task ∈ m.tasks[k]?, ∀ pc ∈ task.stepDownPc, pc.Safe m))
  | .main => inferInstanceAs (Decidable (m.main.startsSession → m.node.currentTerm + 1 < u64Size))
  | .event _ | .overrun | .recv _ _ | .answerVote _ _ | .answerAppend _ _ | .lose _ | .cancel _
  | .elapse _ => isTrue trivial

/-- The main loop is about to write a term that is not below the current one. -/
def AcceptedAhead (m : Machine S R) : Prop :=
  ∀ accepted ∈ m.main.acceptedTerm, m.node.currentTerm ≤ accepted

theorem TaskWrites.currentTerm {task : Task R} {node node' : RaftNode S}
    (h : TaskWrites task node node') : node'.currentTerm = node.currentTerm ∨
      task.stepDownPc = some (.setCurrentTerm node'.currentTerm) := by
  cases h with
  | state _ h => exact Or.inl (by rw [h])
  | term _ hPc h => exact Or.inr (by rw [h, hPc])
  | role _ h => exact Or.inl (by rw [h])

omit [State S R] in
theorem AcceptedAhead.of_none {m : Machine S R} (h : m.main.acceptedTerm = none) :
    AcceptedAhead m := by
  intro accepted hAccepted
  rw [h] at hAccepted
  cases hAccepted

/-- Inside `respondToRequestVote` the accepted term stays what it is until it has
been written. -/
theorem RequestVotePc.Edge.ahead {m : Machine S R} {role : RoleLoop}
    {request : RequestVoteRequest} {responseTx : Sender} {pc pc' : RequestVotePc}
    (hMain : m.main = .requestVote role request responseTx pc)
    (hEdge : pc.Edge m.node.id request m.node pc') (hAhead : AcceptedAhead m) :
    AcceptedAhead { m with
      main := .requestVote role request responseTx pc'
      node := (pc.step m.node.id request responseTx m.node).2 } ∧
    m.node.currentTerm ≤ (pc.step m.node.id request responseTx m.node).2.currentTerm := by
  obtain ⟨state, _, hNode⟩ := RequestVotePc.step_node m.node.id responseTx m.node request pc
  rw [AcceptedAhead, hMain] at hAhead
  rw [AcceptedAhead, hNode]
  cases hEdge with
  | same hSame =>
    refine ⟨?_, Nat.le_refl _⟩
    rintro _ ⟨⟩
    exact Nat.le_of_eq hSame
  | newer hNewer =>
    refine ⟨?_, Nat.le_refl _⟩
    rintro _ ⟨⟩
    exact Nat.le_of_lt hNewer
  | notVoted _ | storedTerm | storedVote => exact ⟨hAhead, Nat.le_refl _⟩
  | setTerm => exact ⟨fun _ h => (by cases h), hAhead _ rfl⟩
  | stale _ | voted _ | setVote | follower | lastIndex | incomplete | complete _ =>
    exact ⟨fun _ h => (by cases h), Nat.le_refl _⟩

theorem AppendEntriesPc.Edge.ahead {m : Machine S R} {role : RoleLoop}
    {request : AppendEntriesRequest R} {responseTx : Sender} {pc pc' : AppendEntriesPc}
    (hMain : m.main = .appendEntries role request responseTx pc)
    (hEdge : pc.Edge m.node.id request m.node pc') (hAhead : AcceptedAhead m) :
    AcceptedAhead { m with
      main := .appendEntries role request responseTx pc'
      node := (pc.step m.node.id request responseTx m.node).2 } ∧
    m.node.currentTerm ≤ (pc.step m.node.id request responseTx m.node).2.currentTerm := by
  obtain ⟨state, _, hNode⟩ := AppendEntriesPc.step_node m.node.id responseTx m.node request pc
  rw [AcceptedAhead, hMain] at hAhead
  rw [AcceptedAhead, hNode]
  cases hEdge with
  | loaded =>
    refine ⟨?_, Nat.le_refl _⟩
    intro accepted hAccepted
    obtain ⟨hFresh, hTerm⟩ := Option.ite_none_left_eq_some.mp hAccepted
    exact Option.some.inj hTerm ▸ Nat.le_of_not_lt hFresh
  | @accepted ourTerm hFresh =>
    refine ⟨?_, Nat.le_refl _⟩
    rintro _ ⟨⟩
    exact hAhead _ (if_neg (Nat.not_lt.mpr hFresh))
  | storedTerm => exact ⟨hAhead, Nat.le_refl _⟩
  | setTerm => exact ⟨fun _ h => (by cases h), hAhead _ rfl⟩
  | stale _ | setLeader | short _ | follower _ | mismatch | same _ | removed | appended
  | lastIndex | committed => exact ⟨fun _ h => (by cases h), Nat.le_refl _⟩

theorem MainStepped.ahead {m m' : Machine S R} (h : MainStepped m m')
    (hSafe : TermSafe m (.main : Action R)) (hAhead : AcceptedAhead m) :
    AcceptedAhead m' ∧ m.node.currentTerm ≤ m'.node.currentTerm := by
  cases h with
  | requestVote hMain hEdge => exact hEdge.ahead hMain hAhead
  | appendEntries hMain hEdge => exact hEdge.ahead hMain hAhead
  | incrementTerm hMain =>
    refine ⟨AcceptedAhead.of_none rfl, ?_⟩
    dsimp only
    rw [Nat.mod_eq_of_lt (hSafe (by rw [hMain]; rfl))]
    exact Nat.le_succ _
  | leave hMain hRole =>
    refine ⟨AcceptedAhead.of_none ?_, ?_⟩
    · rw [RoleLoop.leave_main]
      rfl
    · rw [RoleLoop.leave_node]
  | _ => exact ⟨AcceptedAhead.of_none rfl, Nat.le_refl _⟩

omit [State S R] in
theorem SelectStepped.acceptedTerm {m m' : Machine S R} {role : RoleLoop} {event : Event R}
    (h : SelectStepped m role event m') : m'.main.acceptedTerm = none := by
  cases h <;> rfl

theorem step_currentTerm_le {m m' : Machine S R} {action : Action R} (hSafe : TermSafe m action)
    (hStep : m.step action = some m') (hAhead : AcceptedAhead m) :
    AcceptedAhead m' ∧ m.node.currentTerm ≤ m'.node.currentTerm := by
  cases step_cases hStep with
  | main h => exact h.ahead hSafe hAhead
  | select _ h =>
    exact ⟨AcceptedAhead.of_none h.acceptedTerm, Nat.le_of_eq (by rw [h.node])⟩
  | @vote k task task' m₁ hTask h | @replicate k task task' m₁ hTask h =>
    have hFrame := h.frame
    have hMain : (m₁.setTask k task').main = m.main := hFrame.main
    rcases hFrame.writes.currentTerm with hSame | hPc
    · rw [AcceptedAhead, hMain]
      exact ⟨fun accepted hAccepted => hSame.symm ▸ hAhead accepted hAccepted,
        Nat.le_of_eq hSame.symm⟩
    · obtain ⟨hLe, hBelow⟩ := hSafe task hTask _ hPc
      rw [AcceptedAhead, hMain]
      exact ⟨hBelow, hLe⟩
  | recv _ _ h =>
    obtain ⟨voteSessions, rfl⟩ := h.frame
    exact ⟨hAhead, Nat.le_refl _⟩
  | overrun h =>
    obtain ⟨votedFor, rfl⟩ := h.frame
    exact ⟨AcceptedAhead.of_none rfl, Nat.le_refl _⟩
  | answerVote _ | environment _ _ => exact ⟨hAhead, Nat.le_refl _⟩

theorem Machine.Runs.acceptedAhead {m m' : Machine S R} (hRuns : Machine.Runs TermSafe m m')
    (hAhead : AcceptedAhead m) : AcceptedAhead m' :=
  hRuns.invariant hAhead fun _ _ _ hSafe hStep hAhead => (step_currentTerm_le hSafe hStep hAhead).1

theorem currentTerm_mono [DecidableEq R] (members : MembershipMap) (initial c c' : Cluster S R)
    (hInitial : Cluster.Initial members initial)
    (hRuns : Cluster.Runs members TermSafe initial c) (hNext : Cluster.Next members TermSafe c c')
    (i : NodeId) : (c i).node.currentTerm ≤ (c' i).node.currentTerm := by
  obtain ⟨j, action, hSafe, hStep⟩ := hNext
  obtain ⟨_, _, m, hMachine, rfl⟩ := Cluster.step_eq_some hStep
  by_cases hij : i = j
  · subst hij
    obtain ⟨_, _, node, _, _, hNode⟩ := hInitial i
    have hFirst : AcceptedAhead (initial i) := AcceptedAhead.of_none (by rw [hNode]; rfl)
    rw [Cluster.set_self]
    exact (step_currentTerm_le hSafe hMachine ((hRuns.machine i).acceptedAhead hFirst)).2
  · rw [Cluster.set_of_ne _ _ hij]

def pairMembers : MembershipMap := ⟨[1, 2], nodup_pair⟩

/-- Node 1 is in term 5 without a log, node 2 in term 1 with one entry. -/
def unevenCluster : Cluster (Stored Unit) Unit := fun i =>
  { node :=
    { id := i
      currentTerm := if i = 1 then 5 else 1
      votedFor := none
      state :=
        ⟨if i = 1 then [] else [⟨1, .clientRequest ()⟩], 0, pairMembers, none, if i = 1 then 5 else 1⟩
      currentState := .follower
      leaderId := none } }

theorem unevenCluster_initial : Cluster.Initial pairMembers unevenCluster :=
  fun i => ⟨(unevenCluster i).node.state, .empty, _, rfl, rfl, rfl⟩

/-- Node 1 becomes a candidate in term 6 and asks node 2 for its vote, which
answers that the log is incomplete. -/
def incompleteLogActions : List (NodeId × Action Unit) :=
  [List.replicate 2 (1, .main), [(1, .event .electionTimeout)], List.replicate 6 (1, .main),
    List.replicate 3 (1, .task 0), List.replicate 3 (1, .task 1), List.replicate 2 (2, .main),
    [(2, .event (.requestVote ⟨6, 1, 0, 0⟩ ⟨1, 1, false⟩))], List.replicate 9 (2, .main),
    [(1, .answerVote 1 ⟨1, false, 2, .incompleteLog⟩), (1, .recv 0 1), (1, .task 0)]].flatten

/-- The step with which node 2 enters term 6. -/
theorem currentTerm_mono_uneven :
    ∃ c c' : Cluster (Stored Unit) Unit, (c 2).node.currentTerm ≤ (c' 2).node.currentTerm ∧
      (c 2).node.currentTerm = 1 ∧ (c' 2).node.currentTerm = 6 := by
  obtain ⟨c, c', hRuns, hNext, hTerms⟩ := Cluster.next_of_run
    (show ((unevenCluster.run pairMembers TermSafe (incompleteLogActions.take 21)).bind fun c =>
      (c.run pairMembers TermSafe [(2, .main)]).map fun c' =>
        decide ((c 2).node.currentTerm = 1 ∧ (c' 2).node.currentTerm = 6)) = some true by decide)
  exact ⟨c, c', currentTerm_mono pairMembers unevenCluster c c' unevenCluster_initial hRuns hNext 2,
    of_decide_eq_true hTerms⟩

/-- The response carries the term that node 2 had before the request, and node 1
goes back to it. -/
theorem currentTerm_decreases :
    Cluster.Initial pairMembers unevenCluster ∧
    ∃ c c', Cluster.Runs pairMembers (fun _ _ => True) unevenCluster c ∧
      Cluster.Next pairMembers (fun _ _ => True) c c' ∧
      (c' 1).node.currentTerm < (c 1).node.currentTerm := by
  refine ⟨unevenCluster_initial, ?_⟩
  obtain ⟨c, c', hRuns, hNext, hTerms⟩ := Cluster.next_of_run
    (show ((unevenCluster.run pairMembers (fun _ _ => True) incompleteLogActions).bind fun c =>
      (c.run pairMembers (fun _ _ => True) [(1, .task 0)]).map fun c' =>
        decide ((c' 1).node.currentTerm < (c 1).node.currentTerm)) = some true by decide)
  exact ⟨c, c', hRuns, hNext, of_decide_eq_true hTerms⟩

end Zeroraft
