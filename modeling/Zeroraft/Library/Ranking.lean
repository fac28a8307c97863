import Mathlib.Data.List.Basic

/-!
# Ranks

A rank that every step of a kind lowers, and that no other step raises, bounds how many
steps of that kind a run takes before it is done.
-/

namespace Ranking

variable {σ ℓ : Type*} {step : σ → ℓ → Option σ} {Inv Done : σ → Prop} {rank : σ → Nat}
  {counts : ℓ → Bool} {labels : List ℓ} {s s' : σ}

theorem kept_of_run (hStep : ∀ s label s', step s label = some s' → Done s → Done s')
    (hRun : labels.foldlM step s = some s') (h : Done s) : Done s' := by
  induction labels generalizing s with
  | nil =>
    cases hRun
    exact h
  | cons label rest ih =>
    obtain ⟨s₁, hFirst, hRest⟩ := Option.bind_eq_some_iff.mp hRun
    exact ih hRest (hStep s label s₁ hFirst h)

theorem done_or_countP_le
    (hStep : ∀ s label s', step s label = some s' → Inv s →
      Done s' ∨ (Inv s' ∧ rank s' + (counts label).toNat ≤ rank s))
    (hDone : ∀ s label s', step s label = some s' → Done s → Done s')
    (hRun : labels.foldlM step s = some s') (hInv : Inv s) :
    Done s' ∨ (Inv s' ∧ rank s' + labels.countP counts ≤ rank s) := by
  induction labels generalizing s with
  | nil =>
    cases hRun
    exact Or.inr ⟨hInv, Nat.le_refl _⟩
  | cons label rest ih =>
    obtain ⟨s₁, hFirst, hRest⟩ := Option.bind_eq_some_iff.mp hRun
    rcases hStep s label s₁ hFirst hInv with hOver | ⟨hInv₁, hRank⟩
    · exact Or.inl (kept_of_run hDone hRest hOver)
    · refine (ih hRest hInv₁).imp_right fun ⟨hInv', hRest⟩ => ⟨hInv', ?_⟩
      have hCount : (label :: rest).countP counts = rest.countP counts + (counts label).toNat := by
        rw [List.countP_cons]
        cases counts label <;> rfl
      omega

/-- Nothing but the rank ends the counting. -/
theorem countP_le
    (hStep : ∀ s label s', step s label = some s' → Inv s →
      Inv s' ∧ rank s' + (counts label).toNat ≤ rank s)
    (hRun : labels.foldlM step s = some s') (hInv : Inv s) :
    labels.countP counts ≤ rank s := by
  have hDone : ∀ s label s', step s label = some s' → False → False := fun _ _ _ _ h => h
  have hBound := done_or_countP_le (fun s label s' h hInv => Or.inr (hStep s label s' h hInv))
    hDone hRun hInv
  rcases hBound with hFalse | ⟨_, hLe⟩
  · exact hFalse.elim
  · exact Nat.le_trans (Nat.le_add_left _ _) hLe

end Ranking
