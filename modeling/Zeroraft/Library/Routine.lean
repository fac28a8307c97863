import Mathlib.Logic.Basic

/-!
# Routines made of atomic operations

A routine has program points. At each of them one atomic operation changes the
state and then fails, ends with a result, or goes on at another point. Other
activities may run between two operations, so the states in between matter.
-/

namespace Routine

variable {P σ ε α : Type*}

inductive Outcome (P ε α : Type*) where
  | next (pc : P)
  | done (result : α)
  | failed (error : ε)
  deriving DecidableEq, Repr

/-- The uninterrupted execution, if it ends within the given number of operations. -/
def exec (step : P → σ → Outcome P ε α × σ) : Nat → P → σ → Option (Except ε α × σ)
  | 0, _, _ => none
  | n + 1, pc, s =>
    match step pc s with
    | (.next pc', s') => exec step n pc' s'
    | (.done result, s') => some (.ok result, s')
    | (.failed error, s') => some (.error error, s')

/-- The states before, between and after the operations of an execution. -/
inductive Visits (step : P → σ → Outcome P ε α × σ) : P → σ → σ → Prop
  | start (pc : P) (s : σ) : Visits step pc s s
  | next {pc : P} {s t : σ} {pc' : P} (hStep : (step pc s).1 = .next pc')
      (hRest : Visits step pc' (step pc s).2 t) : Visits step pc s t
  | stop {pc : P} {s : σ} (hStep : ∀ pc', (step pc s).1 ≠ .next pc') :
      Visits step pc s (step pc s).2

variable {step : P → σ → Outcome P ε α × σ}

theorem exec_next {n : Nat} {pc pc' : P} {s s' : σ} (hStep : step pc s = (.next pc', s')) :
    exec step (n + 1) pc s = exec step n pc' s' := by
  rw [exec, hStep]

/-- The execution ends with this result in this state. -/
def Ends (step : P → σ → Outcome P ε α × σ) (pc : P) (s : σ) (result : Except ε α) (t : σ) : Prop :=
  ∃ n, exec step n pc s = some (result, t)

theorem ends_next_iff {pc pc' : P} {s s' t : σ} {result : Except ε α}
    (hStep : step pc s = (.next pc', s')) : Ends step pc s result t ↔ Ends step pc' s' result t := by
  constructor
  · rintro ⟨n, hExec⟩
    cases n with
    | zero => cases hExec
    | succ n => exact ⟨n, exec_next hStep ▸ hExec⟩
  · rintro ⟨n, hExec⟩
    exact ⟨n + 1, (exec_next hStep).trans hExec⟩

theorem ends_done_iff {pc : P} {s s' t : σ} {value : α} {result : Except ε α}
    (hStep : step pc s = (.done value, s')) :
    Ends step pc s result t ↔ result = .ok value ∧ t = s' := by
  constructor
  · rintro ⟨n, hExec⟩
    cases n with
    | zero => cases hExec
    | succ n =>
      rw [exec, hStep] at hExec
      cases hExec
      exact ⟨rfl, rfl⟩
  · rintro ⟨rfl, rfl⟩
    exact ⟨1, by rw [exec, hStep]⟩

theorem ends_failed_iff {pc : P} {s s' t : σ} {error : ε} {result : Except ε α}
    (hStep : step pc s = (.failed error, s')) :
    Ends step pc s result t ↔ result = .error error ∧ t = s' := by
  constructor
  · rintro ⟨n, hExec⟩
    cases n with
    | zero => cases hExec
    | succ n =>
      rw [exec, hStep] at hExec
      cases hExec
      exact ⟨rfl, rfl⟩
  · rintro ⟨rfl, rfl⟩
    exact ⟨1, by rw [exec, hStep]⟩

/-- An assertion at every program point that each operation establishes for the
next point holds all along. -/
theorem Visits.of_assertions {pc : P} {s t : σ} (hVisits : Visits step pc s t)
    (At : P → σ → Prop) (Goal : σ → Prop) (hStart : At pc s)
    (hNext : ∀ pc s pc', At pc s → (step pc s).1 = .next pc' → At pc' (step pc s).2)
    (hGoal : ∀ pc s, At pc s → Goal s) (hStop : ∀ pc s, At pc s → Goal (step pc s).2) :
    Goal t := by
  induction hVisits with
  | start pc s => exact hGoal pc s hStart
  | next hStep _ ih => exact ih (hNext _ _ _ hStart hStep)
  | stop _ => exact hStop _ _ hStart

end Routine
