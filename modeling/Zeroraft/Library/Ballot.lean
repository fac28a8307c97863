import Mathlib.Data.List.Basic
import Mathlib.Logic.Relation
import Mathlib.Order.Nat

/-!
# A voter that votes at most once per term

An abstract voter has a term and a mark that says whether its vote of that term
is used up. It may move to a later term, use up its vote, or cast it. What a
vote is for plays no role.
-/

structure Ballot (V : Type*) where
  term : Nat
  marked : Prop
  cast : List (Nat × V)

namespace Ballot

variable {V : Type*}

/-- The vote of term `t` can still be cast. -/
def Free (b : Ballot V) (t : Nat) : Prop := b.term < t ∨ (b.term = t ∧ ¬ b.marked)

inductive Step : Ballot V → Ballot V → Prop
  | stay (b : Ballot V) : Step b b
  | advance {b : Ballot V} {t : Nat} (h : b.term ≤ t) : Step b { b with term := t }
  | mark {b : Ballot V} {t : Nat} (h : b.Free t) : Step b { b with term := t, marked := True }
  | cast {b : Ballot V} {t : Nat} (h : b.Free t) (v : V) :
      Step b { term := t, marked := True, cast := b.cast ++ [(t, v)] }

/-- The votes cast are in increasing terms, none beyond the present term, and a
voter that has cast a vote is marked for good. -/
structure Valid (b : Ballot V) : Prop where
  increasing : (b.cast.map Prod.fst).Pairwise (· < ·)
  bounded : ∀ vote ∈ b.cast, vote.1 ≤ b.term
  marked : b.cast ≠ [] → b.marked

theorem Free.le {b : Ballot V} {t : Nat} (h : b.Free t) : b.term ≤ t :=
  h.elim Nat.le_of_lt fun h => Nat.le_of_eq h.1

theorem Free.mono {b : Ballot V} {t t' : Nat} (h : b.Free t) (hLe : t ≤ t') : b.Free t' := by
  rcases hLe.lt_or_eq with hLt | rfl
  · exact Or.inl (h.le.trans_lt hLt)
  · exact h

theorem Valid.lt_of_free {b : Ballot V} (h : b.Valid) {t : Nat} (hFree : b.Free t)
    {vote : Nat × V} (hVote : vote ∈ b.cast) : vote.1 < t := by
  rcases hFree with hLt | ⟨_, hMarked⟩
  · exact (h.bounded vote hVote).trans_lt hLt
  · exact absurd (h.marked (List.ne_nil_of_mem hVote)) hMarked

theorem Step.valid {b b' : Ballot V} (hStep : Step b b') (h : b.Valid) : b'.Valid := by
  cases hStep with
  | stay => exact h
  | advance hLe => exact ⟨h.increasing, fun v hv => (h.bounded v hv).trans hLe, h.marked⟩
  | mark hFree =>
    exact ⟨h.increasing, fun v hv => (h.bounded v hv).trans hFree.le, fun _ => trivial⟩
  | @cast t hFree v =>
    refine ⟨?_, ?_, fun _ => trivial⟩
    · rw [List.map_append, List.pairwise_append]
      refine ⟨h.increasing, List.pairwise_singleton _ _, ?_⟩
      intro x hx y hy
      obtain ⟨vote, hVote, rfl⟩ := List.mem_map.mp hx
      rw [List.map_singleton, List.mem_singleton] at hy
      exact hy ▸ h.lt_of_free hFree hVote
    · intro vote hVote
      rcases List.mem_append.mp hVote with hOld | hNew
      · exact (h.bounded vote hOld).trans hFree.le
      · rw [List.mem_singleton.mp hNew]

theorem Step.term_le {b b' : Ballot V} (hStep : Step b b') : b.term ≤ b'.term := by
  cases hStep with
  | stay => exact le_rfl
  | advance hLe => exact hLe
  | mark hFree => exact hFree.le
  | cast hFree => exact hFree.le

theorem Step.free {b b' : Ballot V} (hStep : Step b b') {t : Nat} (h : b'.Free t) : b.Free t := by
  have hLe := hStep.term_le
  rcases h with hLt | ⟨rfl, hMarked⟩
  · exact Or.inl (hLe.trans_lt hLt)
  · cases hStep with
    | stay => exact Or.inr ⟨rfl, hMarked⟩
    | advance hLe' =>
      rcases hLe'.lt_or_eq with hLt | hEq
      · exact Or.inl hLt
      · exact Or.inr ⟨hEq, hMarked⟩
    | mark _ => exact absurd trivial hMarked
    | cast _ _ => exact absurd trivial hMarked

theorem Step.free_of_mem {b b' : Ballot V} (hStep : Step b b') {vote : Nat × V}
    (h : vote ∈ b'.cast) : vote ∈ b.cast ∨ b.Free vote.1 := by
  cases hStep with
  | stay | advance _ | mark _ => exact Or.inl h
  | cast hFree v =>
    rcases List.mem_append.mp h with hOld | hNew
    · exact Or.inl hOld
    · exact Or.inr (List.mem_singleton.mp hNew ▸ hFree)

abbrev Steps : Ballot V → Ballot V → Prop := Relation.ReflTransGen Step

theorem Steps.valid {b b' : Ballot V} (hSteps : Steps b b') (h : b.Valid) : b'.Valid := by
  induction hSteps with
  | refl => exact h
  | tail _ hStep ih => exact hStep.valid ih

theorem Steps.free_of_mem {b b' : Ballot V} (hSteps : Steps b b') {vote : Nat × V}
    (h : vote ∈ b'.cast) : vote ∈ b.cast ∨ b.Free vote.1 := by
  induction hSteps using Relation.ReflTransGen.head_induction_on with
  | refl => exact Or.inl h
  | head hStep _ ih =>
    rcases ih with hMem | hFree
    · exact hStep.free_of_mem hMem
    · exact Or.inr (hStep.free hFree)

theorem Valid.cast_unique {b : Ballot V} (h : b.Valid) {t : Nat} {v w : V}
    (hv : (t, v) ∈ b.cast) (hw : (t, w) ∈ b.cast) : v = w := by
  obtain ⟨i, hi, hiv⟩ := List.getElem_of_mem hv
  obtain ⟨j, hj, hjw⟩ := List.getElem_of_mem hw
  have hLt := List.pairwise_iff_getElem.mp h.increasing
  simp only [List.length_map, List.getElem_map] at hLt
  rcases lt_trichotomy i j with hij | rfl | hij
  · have := hLt i j hi hj hij
    rw [hiv, hjw] at this
    exact absurd this (lt_irrefl t)
  · rw [hiv] at hjw
    exact congrArg Prod.snd hjw
  · have := hLt j i hj hi hij
    rw [hiv, hjw] at this
    exact absurd this (lt_irrefl t)

end Ballot
