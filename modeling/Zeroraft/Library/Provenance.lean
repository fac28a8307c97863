import Mathlib.Logic.Relation

/-!
# Where values come from

A system passes values around, and some steps bring new ones into it. What a state of a
run holds, the first state held or a step on the way has made.
-/

namespace Provenance

open Relation

variable {σ τ : Type*} {Step : σ → σ → Prop} {Makes : σ → σ → τ → Prop} {s u s' : σ} {t : τ}

/-- A step on the way from `s` to `s'` makes the value. -/
def Made (Step : σ → σ → Prop) (Makes : σ → σ → τ → Prop) (s s' : σ) (t : τ) : Prop :=
  ∃ u u', ReflTransGen Step s u ∧ Step u u' ∧ ReflTransGen Step u' s' ∧ Makes u u' t

theorem Made.tail (h : Made Step Makes s u t) (hStep : Step u s') : Made Step Makes s s' t := by
  obtain ⟨v, v', hBefore, hMade, hAfter, hMakes⟩ := h
  exact ⟨v, v', hBefore, hMade, hAfter.tail hStep, hMakes⟩

theorem Made.last (hRun : ReflTransGen Step s u) (hStep : Step u s') (hMakes : Makes u s' t) :
    Made Step Makes s s' t := ⟨u, s', hRun, hStep, ReflTransGen.refl, hMakes⟩

theorem holds_or_made (Holds : σ → τ → Prop) (Makes : σ → σ → τ → Prop)
    (hStep : ∀ u u', ReflTransGen Step s u → Step u u' → ∀ t, Holds u' t →
      Holds u t ∨ Makes u u' t)
    (hRun : ReflTransGen Step s s') (hHolds : Holds s' t) : Holds s t ∨ Made Step Makes s s' t := by
  induction hRun with
  | refl => exact Or.inl hHolds
  | tail hBefore hLast ih =>
    rcases hStep _ _ hBefore hLast t hHolds with hOld | hMakes
    · exact (ih hOld).imp_right fun hMade => hMade.tail hLast
    · exact Or.inr (Made.last hBefore hLast hMakes)

end Provenance
