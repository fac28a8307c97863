import Mathlib.Logic.Relation

/-!
# Simulations

Two systems whose steps may be refused. A step of the first is matched by the labels that
it emits, none, one or many, taken one after the other in the second.
-/

namespace Simulation

variable {σ α ℓ ε : Type*}

/-- What the steps of a run emit, up to the first that is refused. -/
def trace (step : σ → ℓ → Option σ) (emit : σ → ℓ → List ε) (s : σ) : List ℓ → List ε
  | [] => []
  | label :: rest =>
    match step s label with
    | none => []
    | some s' => emit s label ++ trace step emit s' rest

variable {step : σ → ℓ → Option σ} {emit : σ → ℓ → List ε} {abstractStep : α → ε → Option α}
  {Related : σ → α → Prop}

theorem trace_cons {s s' : σ} {label : ℓ} (hStep : step s label = some s') (rest : List ℓ) :
    trace step emit s (label :: rest) = emit s label ++ trace step emit s' rest := by
  rw [trace, hStep]

def Simulates (step : σ → ℓ → Option σ) (emit : σ → ℓ → List ε)
    (abstractStep : α → ε → Option α) (Related : σ → α → Prop) : Prop :=
  ∀ s label s' a, step s label = some s' → Related s a →
    ∃ a', (emit s label).foldlM abstractStep a = some a' ∧ Related s' a'

theorem Simulates.run (h : Simulates step emit abstractStep Related) {labels : List ℓ} {s s' : σ}
    {a : α} (hRun : labels.foldlM step s = some s') (hRelated : Related s a) :
    ∃ a', (trace step emit s labels).foldlM abstractStep a = some a' ∧ Related s' a' := by
  induction labels generalizing s a with
  | nil =>
    cases hRun
    exact ⟨a, rfl, hRelated⟩
  | cons label rest ih =>
    obtain ⟨s₁, hStep, hRest⟩ := Option.bind_eq_some_iff.mp hRun
    obtain ⟨a₁, hFirst, hRelated₁⟩ := h s label s₁ a hStep hRelated
    obtain ⟨a', hLater, hRelated'⟩ := ih hRest hRelated₁
    refine ⟨a', ?_, hRelated'⟩
    rw [trace_cons hStep, List.foldlM_append, hFirst]
    exact hLater

/-- Runs as a relation. A step may be matched by any number of steps. -/
theorem refines {Next : σ → σ → Prop} {AbstractNext : α → α → Prop}
    (h : ∀ s s' a, Next s s' → Related s a →
      ∃ a', Relation.ReflTransGen AbstractNext a a' ∧ Related s' a')
    {s s' : σ} {a : α} (hRun : Relation.ReflTransGen Next s s') (hRelated : Related s a) :
    ∃ a', Relation.ReflTransGen AbstractNext a a' ∧ Related s' a' := by
  induction hRun with
  | refl => exact ⟨a, Relation.ReflTransGen.refl, hRelated⟩
  | tail _ hLast ih =>
    obtain ⟨a₁, hFirst, hRelated₁⟩ := ih
    obtain ⟨a', hLater, hRelated'⟩ := h _ _ a₁ hLast hRelated₁
    exact ⟨a', hFirst.trans hLater, hRelated'⟩

end Simulation
