import Mathlib.Algebra.Ring.Nat
import Zeroraft.Properties.Timers

/-!
# How often heartbeats and vote sessions are started

The loops serve whatever is ready, and their timers run on meanwhile. A leader that gets
through its turns sends its heartbeats at their interval, however many requests it serves
in between, and a candidate starts its sessions no faster than its timer allows.
-/

namespace Zeroraft

open TimedLoop

/-- A timer that can be read has run for no longer than its interval. -/
theorem Timeout.leaves_of_getRemaining {timeout : Timeout} {now left : Nat}
    (hStarted : timeout.start ≤ now) (h : timeout.getRemaining now = some left) :
    timeout.Leaves now left := by
  obtain ⟨hInTime, hLeft⟩ := Option.ite_none_right_eq_some.mp h
  unfold Timeout.getElapsed at hInTime hLeft
  refine ⟨hStarted, ?_⟩
  have hLeft : timeout.currentInterval - (now - timeout.start) = left := Option.some.inj hLeft
  omega

namespace LeaderRole

def sendsHeartbeats (t : Turn Branch) : Bool := t.branch = .heartbeatTimeout

/-- How often the timer of the heartbeats has run out. -/
def rounds (turns : List (Turn Branch)) : Nat := turns.countP sendsHeartbeats

/-- The time by which the heartbeats have been late, taken together. -/
def lateness (turns : List (Turn Branch)) : Nat :=
  ((turns.filter sendsHeartbeats).map Turn.wait).sum

/-- The last heartbeats went out when the timer was reset. -/
structure Paced (heartbeatInterval began : Nat) (turns : List (Turn Branch)) (s : Clock) :
    Prop where
  fixed : s.heartbeatTimeout.duration = .fixed heartbeatInterval
  interval : s.heartbeatTimeout.currentInterval = heartbeatInterval
  sent : s.heartbeatTimeout.start = began + rounds turns * heartbeatInterval + lateness turns
  elapsed : s.heartbeatTimeout.start ≤ s.now

variable {heartbeatInterval began : Nat} {turns : List (Turn Branch)} {s s' : Clock}
  {t : Turn Branch}

theorem rounds_append (turns : List (Turn Branch)) (t : Turn Branch) :
    rounds (turns ++ [t]) = rounds turns + (sendsHeartbeats t).toNat := by
  rw [rounds, List.countP_append, List.countP_singleton]
  cases sendsHeartbeats t <;> rfl

theorem lateness_append (turns : List (Turn Branch)) (t : Turn Branch) :
    lateness (turns ++ [t]) = lateness turns + (sendsHeartbeats t).toNat * t.wait := by
  rw [lateness, List.filter_append, List.map_append, List.sum_append]
  cases hSends : sendsHeartbeats t <;> simp [lateness, hSends]

/-- A turn that begins is not later than the timer. -/
theorem Paced.inTime (h : Paced heartbeatInterval began turns s) (hTurn : turn s t = some s') :
    ∃ left, s.heartbeatTimeout.Leaves s.now left := by
  obtain ⟨left, hRemaining, _⟩ := Option.bind_eq_some_iff.mp hTurn
  exact ⟨left, Timeout.leaves_of_getRemaining h.elapsed hRemaining⟩

theorem turn_paced (h : Paced heartbeatInterval began turns s) (hTurn : turn s t = some s') :
    Paced heartbeatInterval began (turns ++ [t]) s' := by
  obtain ⟨left, hLeaves⟩ := h.inTime hTurn
  have hHas : Has heartbeatInterval s left := ⟨h.fixed, hLeaves⟩
  have hDeadline := hLeaves.deadline
  have hInterval := h.interval
  have hSent := h.sent
  have hRounds := rounds_append turns t
  have hLateness := lateness_append turns t
  unfold sendsHeartbeats at hRounds hLateness
  cases hBranch : t.branch with
  | shutdown | rpc | clientRequest =>
    rw [turn, hLeaves.getRemaining, hBranch] at hTurn
    cases hTurn
    rw [hBranch] at hRounds hLateness
    refine ⟨h.fixed, h.interval, ?_, Nat.le_add_right_of_le h.elapsed⟩
    rw [hRounds, hLateness]
    simpa using hSent
  | heartbeatTimeout =>
    rw [turn_heartbeatTimeout hHas hBranch] at hTurn
    obtain ⟨_, _, rfl⟩ := Option.map_eq_some_iff.mp hTurn
    rw [hBranch] at hRounds hLateness
    refine ⟨rfl, rfl, ?_, ?_⟩
    · rw [hRounds, hLateness]
      simp only [Timeout.startFixed, decide_true, Bool.toNat_true, Nat.add_mul, Nat.one_mul]
      omega
    · simp only [Timeout.startFixed]
      omega

theorem start_paced {now init setup : Nat}
    (hRun : start heartbeatInterval now init setup turns = some s) :
    Paced heartbeatInterval now turns s := by
  obtain ⟨_, _, hTurns⟩ := Option.bind_eq_some_iff.mp hRun
  refine history_of_run _ (fun _ _ _ _ hPaced hTurn => turn_paced hPaced hTurn) hTurns ?_
  refine ⟨rfl, rfl, ?_, ?_⟩
  · simp [Timeout.startFixed, rounds, lateness]
  · simp only [Timeout.startFixed]
    omega

end LeaderRole

namespace CandidateRole

def restarts (t : CandidateTurn) : Bool :=
  match t.branch with
  | .electionTimeout _ _ _ => true
  | _ => false

/-- The sessions that the loop has started after its first one. -/
def sessions (turns : List CandidateTurn) : Nat := turns.countP restarts

/-- An interval that is drawn in the turn is not below the range. -/
def Branch.Draws (shortest : Nat) : Branch → Prop
  | .electionTimeout drawn _ _ => shortest ≤ drawn
  | _ => True

/-- The last session was started when the election timer was reset. -/
structure Paced (shortest began : Nat) (turns : List CandidateTurn) (s : Clock) : Prop where
  ranged : ∃ min max, s.electionTimeout.duration = .range min max
  interval : shortest ≤ s.electionTimeout.currentInterval
  started : began + sessions turns * shortest ≤ s.electionTimeout.start
  elapsed : s.electionTimeout.start ≤ s.now

variable {shortest began : Nat} {turns : List CandidateTurn} {s s' : Clock} {t : CandidateTurn}

theorem sessions_append (turns : List CandidateTurn) (t : CandidateTurn) :
    sessions (turns ++ [t]) = sessions turns + (restarts t).toNat := by
  rw [sessions, List.countP_append, List.countP_singleton]
  cases restarts t <;> rfl

theorem Paced.later (h : Paced shortest began turns s) (hRestarts : restarts t = false)
    (hElection : s'.electionTimeout = s.electionTimeout) (hNow : s.now ≤ s'.now) :
    Paced shortest began (turns ++ [t]) s' := by
  refine ⟨hElection ▸ h.ranged, hElection ▸ h.interval, ?_, ?_⟩
  · rw [hElection, sessions_append, hRestarts]
    exact h.started
  · rw [hElection]
    exact Nat.le_trans h.elapsed hNow

theorem turn_paced (h : Paced shortest began turns s) (hDraws : t.branch.Draws shortest)
    (hTurn : turn s t = some s') : Paced shortest began (turns ++ [t]) s' := by
  obtain ⟨⟨retry, election⟩, hTimeouts, hTurn⟩ := Option.bind_eq_some_iff.mp hTurn
  have hLeaves : s.electionTimeout.Leaves (s.now + t.gap) election := by
    obtain ⟨_, _, hElection⟩ := Option.bind_eq_some_iff.mp hTimeouts
    obtain ⟨_, hRemaining, hEnd⟩ := Option.bind_eq_some_iff.mp hElection
    cases hEnd
    exact Timeout.leaves_of_getRemaining (Nat.le_add_right_of_le h.elapsed) hRemaining
  cases hBranch : t.branch with
  | shutdown | voteResult | rpc | clientRequest =>
    rw [hBranch] at hTurn
    cases hTurn
    exact h.later (by rw [restarts, hBranch]) rfl (by dsimp only; omega)
  | retryTimeout round =>
    rw [hBranch] at hTurn
    obtain ⟨_, _, hEnd⟩ := Option.bind_eq_some_iff.mp hTurn
    cases hEnd
    exact h.later (by rw [restarts, hBranch]) rfl (by dsimp only; omega)
  | electionTimeout drawn pause round =>
    obtain ⟨min, max, hRange⟩ := h.ranged
    have hRestarts : restarts t = true := by rw [restarts, hBranch]
    rw [hBranch] at hTurn hDraws
    obtain ⟨_, _, hEnd⟩ := Option.bind_eq_some_iff.mp hTurn
    cases hEnd
    rw [Timeout.reset_of_range hRange]
    refine ⟨⟨min, max, rfl⟩, hDraws, ?_, ?_⟩
    · have hStarted := h.started
      have hInterval := h.interval
      have hDeadline := hLeaves.deadline
      rw [sessions_append, hRestarts, Bool.toNat_true, Nat.add_mul, Nat.one_mul]
      simp only [Timeout.startRange]
      omega
    · simp only [Timeout.startRange]
      omega

theorem start_paced {range : Nat × Nat} {heartbeatInterval drawn now pause init setup : Nat}
    {round : Round} (hDrawn : range.1 ≤ drawn) (hDraws : ∀ t ∈ turns, t.branch.Draws range.1)
    (hRun : start range heartbeatInterval drawn now pause init setup round turns = some s) :
    Paced range.1 now turns s := by
  obtain ⟨_, _, hTurns⟩ := Option.bind_eq_some_iff.mp hRun
  refine history_of_run
    (fun done s => (∀ t ∈ done, t.branch.Draws range.1) → Paced range.1 now done s)
    (fun done s t s' hPaced hTurn hAll => ?_) hTurns (fun _ => ?_) hDraws
  · have hDone : ∀ t ∈ done, t.branch.Draws range.1 :=
      fun t hMem => hAll t (List.mem_append_left _ hMem)
    have hLast := hAll t (List.mem_append_right _ (List.mem_singleton_self t))
    exact turn_paced (hPaced hDone) hLast hTurn
  · refine ⟨⟨_, _, rfl⟩, hDrawn, ?_, ?_⟩
    · simp [Timeout.startRange, sessions]
    · simp only [Timeout.startRange]
      omega

end CandidateRole

/-- The heartbeats of a leader go out one interval after the other, with no delay but that of
the timer itself, and while the loop goes on at most one interval has passed since the last. -/
theorem heartbeats_paced (heartbeatInterval now init setup : Nat)
    (turns : List (Turn LeaderRole.Branch)) (s : LeaderRole.Clock)
    (hRun : LeaderRole.start heartbeatInterval now init setup turns = some s) :
    s.heartbeatTimeout.start =
        now + LeaderRole.rounds turns * heartbeatInterval + LeaderRole.lateness turns ∧
      s.heartbeatTimeout.start ≤ s.now ∧
      ∀ t, (LeaderRole.turn s t).isSome →
        s.now ≤ s.heartbeatTimeout.start + heartbeatInterval := by
  have hPaced := LeaderRole.start_paced hRun
  refine ⟨hPaced.sent, hPaced.elapsed, fun t hTurn => ?_⟩
  obtain ⟨s', hTurn⟩ := Option.isSome_iff_exists.mp hTurn
  obtain ⟨left, _, hDeadline⟩ := hPaced.inTime hTurn
  rw [hPaced.interval] at hDeadline
  omega

/-- Two rounds after the first, and a client and a peer are served on the way. -/
theorem heartbeats_paced_served : ∃ s : LeaderRole.Clock,
    s.heartbeatTimeout.start = 1000 + 2 * 50 + 3 ∧ s.heartbeatTimeout.start ≤ s.now := by
  obtain ⟨s, hRun⟩ := Option.isSome_iff_exists.mp
    (show (LeaderRole.start 50 1000 1 1 [⟨.clientRequest, 20, 5, 0⟩, ⟨.heartbeatTimeout, 2, 1, 1⟩,
      ⟨.rpc, 10, 8, 1⟩, ⟨.heartbeatTimeout, 1, 1, 1⟩]).isSome by decide)
  have hPaced := heartbeats_paced 50 1000 1 1 _ s hRun
  exact ⟨s, hPaced.1, hPaced.2.1⟩

/-- A candidate does not start its sessions faster than one for the shortest interval. -/
theorem sessions_paced (range : Nat × Nat) (heartbeatInterval drawn now pause init setup : Nat)
    (round : CandidateRole.Round) (turns : List CandidateRole.CandidateTurn)
    (s : CandidateRole.Clock)
    (hRun : CandidateRole.start range heartbeatInterval drawn now pause init setup round turns =
      some s)
    (hDrawn : range.1 ≤ drawn) (hDraws : ∀ t ∈ turns, t.branch.Draws range.1) :
    now + CandidateRole.sessions turns * range.1 ≤ s.electionTimeout.start ∧
      s.electionTimeout.start ≤ s.now := by
  have hPaced := CandidateRole.start_paced hDrawn hDraws hRun
  exact ⟨hPaced.started, hPaced.elapsed⟩

/-- The timer runs out once. -/
theorem sessions_paced_restarted : ∃ s : CandidateRole.Clock,
    1000 + 1 * 150 ≤ s.electionTimeout.start ∧ s.electionTimeout.start ≤ s.now := by
  obtain ⟨s, hRun⟩ := Option.isSome_iff_exists.mp
    (show (CandidateRole.start (150, 300) 200 170 1000 0 1 1 ⟨0, []⟩
      [⟨⟨.rpc, 20, 5, 0⟩, 0⟩, ⟨⟨.electionTimeout 160 0 ⟨0, []⟩, 3, 1, 1⟩, 0⟩]).isSome by decide)
  refine ⟨s, sessions_paced (150, 300) 200 170 1000 0 1 1 ⟨0, []⟩ _ s hRun (by decide) ?_⟩
  exact List.forall_mem_cons.mpr ⟨trivial, List.forall_mem_singleton.mpr
    (show 150 ≤ 160 by decide)⟩

end Zeroraft
