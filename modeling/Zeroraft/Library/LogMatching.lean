import Mathlib.Data.List.Basic

/-!
# Logs that agree below every common (index, term) pair

A log is a list of entries that carry a term. Two logs match when an entry of
the same term at the same position forces them to agree up to there. Positions
count from 0.
-/

namespace LogMatching

variable {E : Type*} (term : E → Nat)

def Matches (a b : List E) : Prop :=
  ∀ i x y, a[i]? = some x → b[i]? = some y → term x = term y → a.take (i + 1) = b.take (i + 1)

variable {term}

theorem matches_refl (a : List E) : Matches term a a := fun _ _ _ _ _ _ => rfl

theorem Matches.of_prefixes {a b a' b' : List E} (h : Matches term a b) (ha : a' <+: a)
    (hb : b' <+: b) : Matches term a' b' := by
  intro i x y hx hy hTerm
  have hia : i + 1 ≤ a'.length := (List.getElem?_eq_some_iff.mp hx).1
  have hib : i + 1 ≤ b'.length := (List.getElem?_eq_some_iff.mp hy).1
  obtain ⟨ra, rfl⟩ := ha
  obtain ⟨rb, rfl⟩ := hb
  have hTake := h i x y (by rw [List.getElem?_append_left hia, hx])
    (by rw [List.getElem?_append_left hib, hy]) hTerm
  rwa [List.take_append_of_le_length hia, List.take_append_of_le_length hib] at hTake

/-- Cutting a prefix of `g` after an entry it shares with `f` and continuing as
`f` does gives a prefix of `f`. -/
theorem take_append_prefix {log g f : List E} (hMatch : Matches term g f) (hLog : log <+: g)
    {prev : Nat} {x y : E} (hx : log[prev]? = some x) (hy : f[prev]? = some y)
    (hTerm : term x = term y) (n : Nat) :
    log.take (prev + 1) ++ (f.drop (prev + 1)).take n <+: f := by
  have hTake := hMatch.of_prefixes hLog (List.prefix_refl f) prev x y hx hy hTerm
  rw [hTake, ← List.take_add]
  exact List.take_prefix _ _

end LogMatching
