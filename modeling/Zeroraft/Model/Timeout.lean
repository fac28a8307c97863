import Mathlib.Data.Option.Basic

/-!
# Timeouts

`Timeout` of `timeout.rs`, as a function of the readings of the clock. A panic is `none`.
-/

namespace Zeroraft

inductive PossibleDuration where
  | range (min max : Nat)
  | fixed (duration : Nat)
  deriving DecidableEq, Repr

structure Timeout where
  duration : PossibleDuration
  start : Nat
  currentInterval : Nat
  deriving DecidableEq, Repr

namespace Timeout

/-- `Timeout::start` when the clock reads `now`. -/
def startFixed (duration now : Nat) : Timeout := ⟨.fixed duration, now, duration⟩

/-- `Timeout::start_range`, where `drawn` is what `gen_range(min..max)` returns. -/
def startRange (min max drawn now : Nat) : Timeout := ⟨.range min max, now, drawn⟩

/-- `Timeout::reset`. A fixed duration draws nothing. -/
def reset (timeout : Timeout) (drawn now : Nat) : Timeout :=
  match timeout.duration with
  | .range min max => startRange min max drawn now
  | .fixed duration => startFixed duration now

def getElapsed (timeout : Timeout) (now : Nat) : Nat := now - timeout.start

/-- The subtraction of durations panics where the result would be negative. -/
def getRemaining (timeout : Timeout) (now : Nat) : Option Nat :=
  if timeout.getElapsed now ≤ timeout.currentInterval then
    some (timeout.currentInterval - timeout.getElapsed now)
  else none

/-- The timer was started before `now` and has `left` to go. -/
structure Leaves (timeout : Timeout) (now left : Nat) : Prop where
  started : timeout.start ≤ now
  deadline : now + left = timeout.start + timeout.currentInterval

theorem leaves_startFixed (duration now : Nat) : (startFixed duration now).Leaves now duration :=
  ⟨Nat.le_refl now, rfl⟩

theorem leaves_startRange (min max drawn now : Nat) :
    (startRange min max drawn now).Leaves now drawn :=
  ⟨Nat.le_refl now, rfl⟩

theorem reset_of_range {timeout : Timeout} {min max : Nat}
    (h : timeout.duration = .range min max) (drawn now : Nat) :
    timeout.reset drawn now = startRange min max drawn now := by
  rw [reset, h]

theorem reset_of_fixed {timeout : Timeout} {duration : Nat} (h : timeout.duration = .fixed duration)
    (drawn now : Nat) : timeout.reset drawn now = startFixed duration now := by
  rw [reset, h]

end Timeout

/-- The time that a timer had to go at some moment, and the time that has passed since. -/
structure Budget where
  granted : Nat
  spent : Nat

namespace Budget

def Suffices (b : Budget) : Prop := b.spent ≤ b.granted

def rest (b : Budget) : Nat := b.granted - b.spent

def later (b : Budget) (d : Nat) : Budget := ⟨b.granted, b.spent + d⟩

instance (b : Budget) : Decidable b.Suffices := inferInstanceAs (Decidable (_ ≤ _))

theorem Suffices.of_later {b : Budget} {d : Nat} (h : (b.later d).Suffices) : b.Suffices :=
  Nat.le_trans (Nat.le_add_right b.spent d) h

end Budget

namespace Timeout

variable {timeout : Timeout} {now left : Nat} {b : Budget}

def Spends (timeout : Timeout) (now : Nat) (b : Budget) : Prop :=
  ∃ before, now = before + b.spent ∧ timeout.Leaves before b.granted

theorem Leaves.spends (h : timeout.Leaves now left) (d : Nat) :
    timeout.Spends (now + d) ⟨left, d⟩ :=
  ⟨now, rfl, h⟩

theorem Spends.leaves (h : timeout.Spends now b) (hSuffices : b.Suffices) :
    timeout.Leaves now b.rest := by
  obtain ⟨before, rfl, hStarted, hDeadline⟩ := h
  unfold Budget.Suffices at hSuffices
  unfold Budget.rest
  constructor
  · omega
  · omega

theorem Spends.later (h : timeout.Spends now b) (d : Nat) :
    timeout.Spends (now + d) (b.later d) := by
  obtain ⟨before, rfl, hLeaves⟩ := h
  exact ⟨before, Nat.add_assoc before b.spent d, hLeaves⟩

theorem Spends.getRemaining (h : timeout.Spends now b) :
    timeout.getRemaining now = if b.Suffices then some b.rest else none := by
  obtain ⟨before, rfl, hStarted, hDeadline⟩ := h
  unfold Timeout.getRemaining getElapsed Budget.Suffices Budget.rest
  refine ite_congr ?_ (fun _ => ?_) fun _ => rfl
  · exact propext (by omega)
  · exact congrArg some (by omega)

theorem Spends.getRemaining_eq_none (h : timeout.Spends now b) (hLate : ¬ b.Suffices) :
    timeout.getRemaining now = none := by
  rw [h.getRemaining, if_neg hLate]

theorem Spends.getRemaining_isSome_iff (h : timeout.Spends now b) :
    (timeout.getRemaining now).isSome ↔ b.Suffices := by
  rw [h.getRemaining]
  split
  · next hSuffices => exact iff_of_true rfl hSuffices
  · next hLate => exact iff_of_false (by rintro ⟨⟩) hLate

theorem Leaves.getRemaining (h : timeout.Leaves now left) :
    timeout.getRemaining now = some left := by
  have hSuffices : Budget.Suffices ⟨left, 0⟩ := Nat.zero_le left
  have hNow := (h.spends 0).getRemaining
  rwa [if_pos hSuffices] at hNow

end Timeout

end Zeroraft
