import Zeroraft.Library.TimedLoop
import Zeroraft.Runtime.TimedLoops

/-!
# Can the time that remains be negative?

`get_remaining` subtracts the elapsed time from the interval, and every turn of a loop does
so for each of its timers, whichever branch the turn before has taken. The accountings say
in terms of the durations of the branches which turns leave enough time for the next.
-/

namespace Zeroraft

open TimedLoop

namespace FollowerRole

/-- What the timer had to go when the turn touched it last: when the turn began, when a
request of a peer has been handled, or when the timer ran out. -/
def budget (left : Nat) (t : Turn Branch) : Budget :=
  match t.branch with
  | .shutdown | .clientRequest => ⟨left, t.wait + t.body + t.check⟩
  | .rpc drawn => ⟨drawn, t.check⟩
  | .electionTimeout => ⟨0, t.wait + t.body + t.check⟩

def accounting : Accounting Nat (Turn Branch) where
  Affords _ _ := True
  EndsInTime left t := (budget left t).Suffices
  after left t := (budget left t).rest

/-- The time left on the election timer, which draws its intervals. -/
structure Has (s : Clock) (left : Nat) : Prop where
  ranged : ∃ min max, s.electionTimeout.duration = .range min max
  leaves : s.electionTimeout.Leaves s.now left

theorem turn_isSome {s : Clock} {left : Nat} (t : Turn Branch) (h : Has s left) :
    (turn s t).isSome := by
  rw [turn, h.leaves.getRemaining]
  cases t.branch <;> rfl

theorem turn_spends {s s' : Clock} {left : Nat} {t : Turn Branch} (h : Has s left)
    (hTurn : turn s t = some s') :
    (∃ min max, s'.electionTimeout.duration = .range min max) ∧
      s'.electionTimeout.Spends s'.now (budget left t) := by
  obtain ⟨⟨min, max, hRange⟩, hLeaves⟩ := h
  rw [turn, hLeaves.getRemaining] at hTurn
  unfold budget
  cases hBranch : t.branch with
  | shutdown | clientRequest =>
    rw [hBranch] at hTurn
    cases hTurn
    exact ⟨⟨min, max, hRange⟩, hLeaves.spends _⟩
  | rpc drawn =>
    rw [hBranch] at hTurn
    cases hTurn
    rw [Timeout.reset_of_range hRange]
    exact ⟨⟨min, max, rfl⟩, (Timeout.leaves_startRange min max drawn _).spends _⟩
  | electionTimeout =>
    rw [hBranch] at hTurn
    cases hTurn
    have hElapsed := (hLeaves.spends left).leaves (Nat.le_refl left)
    rw [Budget.rest, Nat.sub_self] at hElapsed
    refine ⟨⟨min, max, hRange⟩, s.now + left, ?_, hElapsed⟩
    dsimp only
    omega

theorem turn_eq_none {s : Clock} {b : Budget} (h : s.electionTimeout.Spends s.now b)
    (hLate : ¬ b.Suffices) (t : Turn Branch) : turn s t = none := by
  rw [turn, h.getRemaining_eq_none hLate]
  rfl

theorem accounting_describes : accounting.Describes turn Has where
  affords t h := iff_of_true (turn_isSome t h) trivial
  inTime h hTurn hEnds := ⟨(turn_spends h hTurn).1, (turn_spends h hTurn).2.leaves hEnds⟩
  late h hTurn hEnds := turn_eq_none (turn_spends h hTurn).2 hEnds

/-- Every turn is given at least the time that it takes. -/
theorem start_isSome_iff (range : Nat × Nat) (drawn now setup : Nat) (turns : List (Turn Branch)) :
    (start range drawn now setup turns).isSome ↔
      turns = [] ∨ (setup ≤ drawn ∧ accounting.Covers (drawn - setup) turns) := by
  have hStart := (Timeout.leaves_startRange range.1 range.2 drawn now).spends setup
  apply accounting_describes.start_isSome_iff
  · intro hSetup
    exact ⟨⟨_, _, rfl⟩, hStart.leaves hSetup⟩
  · intro hLate t
    exact turn_eq_none (b := ⟨drawn, setup⟩) hStart hLate t

end FollowerRole

namespace LeaderRole

/-- Only the timer's own branch resets it. -/
def budget (heartbeatInterval left : Nat) (t : Turn Branch) : Budget :=
  match t.branch with
  | .shutdown | .rpc | .clientRequest => ⟨left, t.wait + t.body + t.check⟩
  | .heartbeatTimeout => ⟨heartbeatInterval, t.body + t.check⟩

def accounting (heartbeatInterval : Nat) : Accounting Nat (Turn Branch) where
  Affords _ t := t.branch = .heartbeatTimeout → t.body ≤ heartbeatInterval
  EndsInTime left t := (budget heartbeatInterval left t).Suffices
  after left t := (budget heartbeatInterval left t).rest

/-- The time left on the heartbeat timer, whose interval is fixed. -/
structure Has (heartbeatInterval : Nat) (s : Clock) (left : Nat) : Prop where
  fixed : s.heartbeatTimeout.duration = .fixed heartbeatInterval
  leaves : s.heartbeatTimeout.Leaves s.now left

variable {heartbeatInterval : Nat} {s s' : Clock} {left : Nat} {t : Turn Branch}

theorem sendHeartbeats_isSome_iff (now d : Nat) :
    (sendHeartbeats (Timeout.startFixed heartbeatInterval now) (now + d)).isSome ↔
      d ≤ heartbeatInterval := by
  rw [sendHeartbeats, Option.isSome_map]
  exact ((Timeout.leaves_startFixed heartbeatInterval now).spends d).getRemaining_isSome_iff

theorem turn_heartbeatTimeout (h : Has heartbeatInterval s left)
    (hBranch : t.branch = .heartbeatTimeout) :
    turn s t =
      (sendHeartbeats (Timeout.startFixed heartbeatInterval (s.now + left + t.wait))
        (s.now + left + t.wait + t.body)).map fun _ =>
          ⟨s.now + left + t.wait + t.body + t.check,
            Timeout.startFixed heartbeatInterval (s.now + left + t.wait)⟩ := by
  rw [turn, h.leaves.getRemaining, hBranch]
  dsimp only [Option.bind_eq_bind, Option.bind_some]
  rw [Timeout.reset_of_fixed h.fixed]
  cases sendHeartbeats _ _ <;> rfl

theorem turn_isSome_iff (t : Turn Branch) (h : Has heartbeatInterval s left) :
    (turn s t).isSome ↔ (t.branch = .heartbeatTimeout → t.body ≤ heartbeatInterval) := by
  cases hBranch : t.branch with
  | shutdown | rpc | clientRequest =>
    refine iff_of_true ?_ (by rintro ⟨⟩)
    rw [turn, h.leaves.getRemaining, hBranch]
    rfl
  | heartbeatTimeout =>
    rw [turn_heartbeatTimeout h hBranch, Option.isSome_map, sendHeartbeats_isSome_iff]
    exact ⟨fun hBody _ => hBody, fun hTurn => hTurn rfl⟩

theorem turn_spends (h : Has heartbeatInterval s left) (hTurn : turn s t = some s') :
    s'.heartbeatTimeout.duration = .fixed heartbeatInterval ∧
      s'.heartbeatTimeout.Spends s'.now (budget heartbeatInterval left t) := by
  unfold budget
  cases hBranch : t.branch with
  | shutdown | rpc | clientRequest =>
    rw [turn, h.leaves.getRemaining, hBranch] at hTurn
    cases hTurn
    exact ⟨h.fixed, h.leaves.spends _⟩
  | heartbeatTimeout =>
    rw [turn_heartbeatTimeout h hBranch] at hTurn
    obtain ⟨_, _, rfl⟩ := Option.map_eq_some_iff.mp hTurn
    exact ⟨rfl, ((Timeout.leaves_startFixed heartbeatInterval _).spends t.body).later t.check⟩

theorem turn_eq_none {b : Budget} (h : s.heartbeatTimeout.Spends s.now b)
    (hLate : ¬ b.Suffices) (t : Turn Branch) : turn s t = none := by
  rw [turn, h.getRemaining_eq_none hLate]
  rfl

theorem accounting_describes :
    (accounting heartbeatInterval).Describes turn (Has heartbeatInterval) where
  affords := turn_isSome_iff
  inTime h hTurn hEnds := ⟨(turn_spends h hTurn).1, (turn_spends h hTurn).2.leaves hEnds⟩
  late h hTurn hEnds := turn_eq_none (turn_spends h hTurn).2 hEnds

/-- The session is set up in time for the first heartbeats, and they go out in time for the
first turn. -/
theorem start_isSome_iff (heartbeatInterval now init setup : Nat) (turns : List (Turn Branch)) :
    (start heartbeatInterval now init setup turns).isSome ↔
      init ≤ heartbeatInterval ∧
        (turns = [] ∨ (init + setup ≤ heartbeatInterval ∧
          (accounting heartbeatInterval).Covers (heartbeatInterval - (init + setup)) turns)) := by
  have hStart := ((Timeout.leaves_startFixed heartbeatInterval now).spends init).later setup
  have hTurns := accounting_describes.start_isSome_iff
    (s := ⟨_, _⟩) (fun hSetup => ⟨rfl, hStart.leaves hSetup⟩) (turn_eq_none hStart) turns
  rw [← sendHeartbeats_isSome_iff now init]
  unfold start
  dsimp only
  cases sendHeartbeats (Timeout.startFixed heartbeatInterval now) (now + init) with
  | none => exact iff_of_false (by rintro ⟨⟩) (by rintro ⟨⟨⟩, _⟩)
  | some u => exact hTurns.trans (and_iff_right rfl).symm

end LeaderRole

namespace CandidateRole

structure TimeLeft where
  retry : Nat
  election : Nat

/-- The copies of the timers are read late by no part of the round. -/
def Round.InTime (round : Round) (retry election : Budget) : Prop :=
  ∀ send ∈ (0, round.gap) :: round.sends,
    (retry.later send.1).Suffices ∧ ((election.later send.1).later send.2).Suffices

def retryBudget (heartbeatInterval : Nat) (left : TimeLeft) (t : CandidateTurn) : Budget :=
  match t.branch with
  | .shutdown | .voteResult | .rpc | .clientRequest => ⟨left.retry, t.gap + t.wait + t.body⟩
  | .retryTimeout _ | .electionTimeout .. => ⟨heartbeatInterval, t.body⟩

def electionBudget (left : TimeLeft) (t : CandidateTurn) : Budget :=
  match t.branch with
  | .shutdown | .voteResult | .rpc | .clientRequest => ⟨left.election, t.gap + t.wait + t.body⟩
  | .retryTimeout _ => ⟨left.election, max left.retry t.gap + t.wait + t.body⟩
  | .electionTimeout drawn pause _ => ⟨drawn, pause + t.body⟩

def Branch.round? : Branch → Option Round
  | .shutdown | .voteResult | .rpc | .clientRequest => none
  | .retryTimeout round | .electionTimeout _ _ round => some round

def accounting (heartbeatInterval : Nat) : Accounting TimeLeft CandidateTurn where
  Affords left t :=
    t.gap ≤ left.election ∧ ∀ round ∈ t.branch.round?,
      round.InTime (retryBudget heartbeatInterval left t) (electionBudget left t)
  EndsInTime left t :=
    ((retryBudget heartbeatInterval left t).later t.check).Suffices ∧
      ((electionBudget left t).later t.check).Suffices
  after left t :=
    ⟨((retryBudget heartbeatInterval left t).later t.check).rest,
      ((electionBudget left t).later t.check).rest⟩

/-- The retry timer has a fixed interval, the election timer draws its intervals. -/
structure Has (heartbeatInterval : Nat) (s : Clock) (left : TimeLeft) : Prop where
  fixed : s.retryTimeout.duration = .fixed heartbeatInterval
  ranged : ∃ min max, s.electionTimeout.duration = .range min max
  retry : s.retryTimeout.Leaves s.now left.retry
  election : s.electionTimeout.Leaves s.now left.election

section Reading

variable {retry election : Timeout} {now : Nat} {r e : Budget}

theorem timeouts_isSome_iff (hRetry : retry.Spends now r) (hElection : election.Spends now e)
    (gap : Nat) :
    (timeouts retry election now gap).isSome ↔ r.Suffices ∧ (e.later gap).Suffices := by
  rw [timeouts, ← hRetry.getRemaining_isSome_iff,
    ← (hElection.later gap).getRemaining_isSome_iff]
  cases retry.getRemaining now with
  | none => exact iff_of_false (by rintro ⟨⟩) (by rintro ⟨⟨⟩, _⟩)
  | some retryRemaining =>
    rw [and_iff_right Option.isSome_some]
    cases election.getRemaining (now + gap) with
    | none => exact iff_of_false (by rintro ⟨⟩) (by rintro ⟨⟩)
    | some electionRemaining => exact iff_of_true rfl rfl

theorem sendToPeers_isSome_iff (hRetry : retry.Spends now r) (hElection : election.Spends now e)
    (sends : List (Nat × Nat)) :
    (sendToPeers retry election now sends).isSome ↔
      ∀ send ∈ sends,
        (r.later send.1).Suffices ∧ ((e.later send.1).later send.2).Suffices := by
  induction sends with
  | nil => exact iff_of_true rfl (by rintro _ ⟨⟩)
  | cons send rest ih =>
    obtain ⟨delay, gap⟩ := send
    rw [List.forall_mem_cons, ← ih,
      ← timeouts_isSome_iff (hRetry.later delay) (hElection.later delay) gap, sendToPeers]
    cases timeouts retry election (now + delay) gap with
    | none => exact iff_of_false (by rintro ⟨⟩) (by rintro ⟨⟨⟩, _⟩)
    | some remaining => exact (and_iff_right rfl).symm

theorem requestVotes_isSome_iff (hRetry : retry.Spends now r) (hElection : election.Spends now e)
    (round : Round) : (requestVotes retry election now round).isSome ↔ round.InTime r e := by
  exact sendToPeers_isSome_iff hRetry hElection ((0, round.gap) :: round.sends)

end Reading

/-- The timers of a clock whose budgets were granted some time ago. -/
structure Reaches (heartbeatInterval : Nat) (s : Clock) (r e : Budget) : Prop where
  fixed : s.retryTimeout.duration = .fixed heartbeatInterval
  ranged : ∃ min max, s.electionTimeout.duration = .range min max
  retry : s.retryTimeout.Spends s.now r
  election : s.electionTimeout.Spends s.now e

variable {heartbeatInterval : Nat} {s s' : Clock} {left : TimeLeft} {r e : Budget}
  {t : CandidateTurn}

theorem Reaches.has (h : Reaches heartbeatInterval s r e) (hRetry : r.Suffices)
    (hElection : e.Suffices) : Has heartbeatInterval s ⟨r.rest, e.rest⟩ :=
  ⟨h.fixed, h.ranged, h.retry.leaves hRetry, h.election.leaves hElection⟩

theorem Reaches.later (h : Reaches heartbeatInterval s r e) (d : Nat) :
    Reaches heartbeatInterval { s with now := s.now + d } (r.later d) (e.later d) :=
  ⟨h.fixed, h.ranged, h.retry.later d, h.election.later d⟩

theorem Has.timeouts (h : Has heartbeatInterval s left) {gap : Nat} (hGap : gap ≤ left.election) :
    timeouts s.retryTimeout s.electionTimeout s.now gap =
      some (left.retry, left.election - gap) := by
  have hSuffices : Budget.Suffices ⟨left.election, gap⟩ := hGap
  rw [CandidateRole.timeouts, h.retry.getRemaining, (h.election.spends gap).getRemaining,
    if_pos hSuffices]
  rfl

/-- A turn that reads the timers in time handles its branch, which resets some of them, and
then asks for votes if the branch does. -/
theorem turn_handles (h : Has heartbeatInterval s left) (hGap : t.gap ≤ left.election) :
    ∃ handled : Clock,
      Reaches heartbeatInterval handled (retryBudget heartbeatInterval left t)
        (electionBudget left t) ∧
      turn s t = (t.branch.round?.elim (some ())
        (requestVotes handled.retryTimeout handled.electionTimeout handled.now)).map fun _ =>
          { handled with now := handled.now + t.check } := by
  obtain ⟨lo, hi, hRange⟩ := h.ranged
  rw [turn, h.timeouts hGap]
  unfold retryBudget electionBudget
  cases hBranch : t.branch with
  | shutdown | voteResult | rpc | clientRequest =>
    exact ⟨{ s with now := s.now + (t.gap + t.wait + t.body) },
      ⟨h.fixed, h.ranged, h.retry.spends _, h.election.spends _⟩, rfl⟩
  | retryTimeout round =>
    have hElection := (h.election.spends (max left.retry t.gap + t.wait)).later t.body
    dsimp only [Option.bind_eq_bind, Option.bind_some]
    rw [Timeout.reset_of_fixed h.fixed]
    generalize s.now + (max left.retry t.gap + t.wait) = elapsed at hElection ⊢
    have hRetry := (Timeout.leaves_startFixed heartbeatInterval elapsed).spends t.body
    refine ⟨⟨elapsed + t.body, .startFixed heartbeatInterval elapsed, s.electionTimeout⟩,
      ⟨rfl, h.ranged, hRetry, hElection⟩, ?_⟩
    exact Option.map_eq_bind.symm
  | electionTimeout drawn pause round =>
    dsimp only [Option.bind_eq_bind, Option.bind_some]
    rw [Timeout.reset_of_fixed h.fixed, Timeout.reset_of_range hRange]
    generalize s.now + (t.gap + (left.election - t.gap) + t.wait) = elapsed
    have hRetry := (Timeout.leaves_startFixed heartbeatInterval (elapsed + pause)).spends t.body
    have hElection :=
      ((Timeout.leaves_startRange lo hi drawn elapsed).spends pause).later t.body
    refine ⟨⟨elapsed + pause + t.body, .startFixed heartbeatInterval (elapsed + pause),
      .startRange lo hi drawn elapsed⟩, ⟨rfl, ⟨lo, hi, rfl⟩, hRetry, hElection⟩, ?_⟩
    exact Option.map_eq_bind.symm

theorem turn_eq_none (hRetry : s.retryTimeout.Spends s.now r)
    (hElection : s.electionTimeout.Spends s.now e)
    (hLate : ¬ (r.Suffices ∧ (e.later t.gap).Suffices)) : turn s t = none := by
  have hTimeouts := (timeouts_isSome_iff hRetry hElection t.gap).not.mpr hLate
  rw [turn, Option.not_isSome_iff_eq_none.mp hTimeouts]
  rfl

theorem turn_isSome_iff (t : CandidateTurn) (h : Has heartbeatInterval s left) :
    (turn s t).isSome ↔ (accounting heartbeatInterval).Affords left t := by
  by_cases hGap : t.gap ≤ left.election
  · obtain ⟨handled, hReaches, hTurn⟩ := turn_handles h hGap
    rw [hTurn, Option.isSome_map]
    refine Iff.trans ?_ (and_iff_right hGap).symm
    cases t.branch.round? with
    | none => exact iff_of_true rfl (by rintro _ ⟨⟩)
    | some round =>
      refine (requestVotes_isSome_iff hReaches.retry hReaches.election round).trans ?_
      constructor
      · rintro hInTime _ ⟨⟩
        exact hInTime
      · intro hInTime
        exact hInTime round rfl
  · refine iff_of_false ?_ fun hAffords => hGap hAffords.1
    have hLate : turn s t = none := turn_eq_none (h.retry.spends 0) (h.election.spends 0)
      fun hBoth => hGap (Nat.le_trans (Nat.le_add_left t.gap 0) hBoth.2)
    rw [hLate]
    rintro ⟨⟩

theorem turn_reaches (h : Has heartbeatInterval s left) (hTurn : turn s t = some s') :
    Reaches heartbeatInterval s' ((retryBudget heartbeatInterval left t).later t.check)
      ((electionBudget left t).later t.check) := by
  have hAffords := (turn_isSome_iff t h).mp (Option.isSome_of_eq_some hTurn)
  obtain ⟨handled, hReaches, hHandles⟩ := turn_handles h hAffords.1
  rw [hHandles] at hTurn
  obtain ⟨_, _, rfl⟩ := Option.map_eq_some_iff.mp hTurn
  exact hReaches.later t.check

theorem accounting_describes :
    (accounting heartbeatInterval).Describes turn (Has heartbeatInterval) where
  affords := turn_isSome_iff
  inTime h hTurn hEnds := (turn_reaches h hTurn).has hEnds.1 hEnds.2
  late h hTurn hEnds t' := by
    have hReaches := turn_reaches h hTurn
    apply turn_eq_none hReaches.retry hReaches.election
    rintro ⟨hRetry, hElection⟩
    exact hEnds ⟨hRetry, hElection.of_later⟩

/-- The session is initialised in time for the first round of vote requests, which goes out
in time for the first turn. -/
theorem start_isSome_iff (range : Nat × Nat)
    (heartbeatInterval drawn now pause init setup : Nat) (round : Round)
    (turns : List CandidateTurn) :
    (start range heartbeatInterval drawn now pause init setup round turns).isSome ↔
      round.InTime ⟨heartbeatInterval, init⟩ ⟨drawn, pause + init⟩ ∧
        (turns = [] ∨ ((init + setup ≤ heartbeatInterval ∧ pause + init + setup ≤ drawn) ∧
          (accounting heartbeatInterval).Covers
            ⟨heartbeatInterval - (init + setup), drawn - (pause + init + setup)⟩ turns)) := by
  have hInit : Reaches heartbeatInterval
      ⟨now + pause + init, .startFixed heartbeatInterval (now + pause),
        .startRange range.1 range.2 drawn now⟩
      ⟨heartbeatInterval, init⟩ ⟨drawn, pause + init⟩ :=
    ⟨rfl, ⟨_, _, rfl⟩, (Timeout.leaves_startFixed heartbeatInterval _).spends init,
      ((Timeout.leaves_startRange range.1 range.2 drawn now).spends pause).later init⟩
  have hSetup := hInit.later setup
  have hTurns := accounting_describes.start_isSome_iff
    (fun hBoth : init + setup ≤ heartbeatInterval ∧ pause + init + setup ≤ drawn =>
      hSetup.has hBoth.1 hBoth.2)
    (fun hLate t => turn_eq_none hSetup.retry hSetup.election fun hBoth =>
      hLate ⟨hBoth.1, hBoth.2.of_later⟩)
    turns
  rw [← requestVotes_isSome_iff hInit.retry hInit.election]
  unfold start
  dsimp only
  cases requestVotes _ _ (now + pause + init) round with
  | none => exact iff_of_false (by rintro ⟨⟩) (by rintro ⟨⟨⟩, _⟩)
  | some u => exact hTurns.trans (and_iff_right rfl).symm

end CandidateRole

/-- What the clock and the tasks make of the timers while one of the loops runs. -/
inductive Schedule where
  | follower (range : Nat × Nat) (drawn now setup : Nat) (turns : List (Turn FollowerRole.Branch))
  | candidate (range : Nat × Nat) (heartbeatInterval drawn now pause init setup : Nat)
      (round : CandidateRole.Round) (turns : List CandidateRole.CandidateTurn)
  | leader (heartbeatInterval now init setup : Nat) (turns : List (Turn LeaderRole.Branch))

namespace Schedule

/-- No reading of a timer panics. -/
def readsInTime : Schedule → Bool
  | .follower range drawn now setup turns =>
    (FollowerRole.start range drawn now setup turns).isSome
  | .candidate range heartbeatInterval drawn now pause init setup round turns =>
    (CandidateRole.start range heartbeatInterval drawn now pause init setup round turns).isSome
  | .leader heartbeatInterval now init setup turns =>
    (LeaderRole.start heartbeatInterval now init setup turns).isSome

/-- Every timer is given the time that passes before it is read again. -/
def Covered : Schedule → Prop
  | .follower _ drawn _ setup turns =>
    turns = [] ∨ (setup ≤ drawn ∧ FollowerRole.accounting.Covers (drawn - setup) turns)
  | .candidate _ heartbeatInterval drawn _ pause init setup round turns =>
    round.InTime ⟨heartbeatInterval, init⟩ ⟨drawn, pause + init⟩ ∧
      (turns = [] ∨ ((init + setup ≤ heartbeatInterval ∧ pause + init + setup ≤ drawn) ∧
        (CandidateRole.accounting heartbeatInterval).Covers
          ⟨heartbeatInterval - (init + setup), drawn - (pause + init + setup)⟩ turns))
  | .leader heartbeatInterval _ init setup turns =>
    init ≤ heartbeatInterval ∧
      (turns = [] ∨ (init + setup ≤ heartbeatInterval ∧
        (LeaderRole.accounting heartbeatInterval).Covers
          (heartbeatInterval - (init + setup)) turns))

end Schedule

theorem timers_read_in_time_iff (schedule : Schedule) :
    schedule.readsInTime ↔ schedule.Covered := by
  cases schedule with
  | follower range drawn now setup turns =>
    exact FollowerRole.start_isSome_iff range drawn now setup turns
  | candidate range heartbeatInterval drawn now pause init setup round turns =>
    exact CandidateRole.start_isSome_iff range heartbeatInterval drawn now pause init setup
      round turns
  | leader heartbeatInterval now init setup turns =>
    exact LeaderRole.start_isSome_iff heartbeatInterval now init setup turns

example : (Schedule.follower (150, 300) 200 0 0
    [⟨.clientRequest, 150, 2, 0⟩, ⟨.rpc 180, 20, 1, 3⟩, ⟨.electionTimeout, 0, 5, 0⟩]).readsInTime := by
  decide

/-- A client is served just before a timer of 200 runs out, and the answer takes longer than
what is left of it. -/
theorem timer_underflows_after_client :
    (Schedule.follower (150, 300) 200 0 0
      [⟨.clientRequest, 199, 2, 0⟩, ⟨.shutdown, 0, 0, 0⟩]).readsInTime = false ∧
    (Schedule.candidate (150, 300) 200 250 0 0 0 0 ⟨0, []⟩
      [⟨⟨.clientRequest, 199, 2, 0⟩, 0⟩, ⟨⟨.shutdown, 0, 0, 0⟩, 0⟩]).readsInTime = false ∧
    (Schedule.leader 200 0 0 0
      [⟨.clientRequest, 199, 2, 0⟩, ⟨.shutdown, 0, 0, 0⟩]).readsInTime = false := by
  decide

end Zeroraft
