import Mathlib.Data.List.Basic

/-!
# Logs whose terms do not decrease

A log is a list of entries that carry a term. Cutting an ordered log and going on with
ordered entries that are not older than the cut leaves it ordered.
-/

namespace LogOrder

variable {E : Type*} (term : E → Nat)

def Ordered (log : List E) : Prop := log.Pairwise fun a b => term a ≤ term b

variable {term} {log entries : List E}

theorem Ordered.take (h : Ordered term log) (n : Nat) : Ordered term (log.take n) :=
  List.Pairwise.take h

theorem Ordered.drop (h : Ordered term log) (n : Nat) : Ordered term (log.drop n) :=
  List.Pairwise.drop h

theorem ordered_singleton (e : E) : Ordered term [e] := List.pairwise_singleton _ _

theorem Ordered.append {bound : Nat} (hLog : Ordered term log) (hEntries : Ordered term entries)
    (hBelow : ∀ e ∈ log, term e ≤ bound) (hAbove : ∀ e ∈ entries, bound ≤ term e) :
    Ordered term (log ++ entries) :=
  List.pairwise_append.mpr
    ⟨hLog, hEntries, fun a ha b hb => Nat.le_trans (hBelow a ha) (hAbove b hb)⟩

theorem Ordered.le_of_mem_take (h : Ordered term log) {n : Nat} {e last : E}
    (hLast : log[n]? = some last) (he : e ∈ log.take (n + 1)) : term e ≤ term last := by
  obtain ⟨i, hi, rfl⟩ := List.getElem_of_mem he
  obtain ⟨hn, rfl⟩ := List.getElem?_eq_some_iff.mp hLast
  rw [List.length_take] at hi
  rw [List.getElem_take]
  rcases Nat.lt_or_eq_of_le (show i ≤ n by omega) with hLt | rfl
  · exact List.pairwise_iff_getElem.mp h i n _ hn hLt
  · exact Nat.le_refl _

theorem Ordered.le_last (h : Ordered term log) {last : E} (hLast : log.getLast? = some last) :
    ∀ e ∈ log, term e ≤ term last := by
  intro e he
  rw [List.getLast?_eq_getElem?] at hLast
  have hLength := (List.getElem?_eq_some_iff.mp hLast).1
  refine h.le_of_mem_take hLast ?_
  rwa [List.take_of_length_le (by omega)]

end LogOrder
