import Mathlib.Data.List.Sort

/-!
# Order statistics of a list by counting

The entry at position `k` of a sorted list is the value with at most `k` list
elements below it and more than `k` at or below it. The counts do not depend on
the order of the list.
-/

namespace OrderStatistics

variable {α : Type*} [LinearOrder α]

/-- The number of elements strictly below `m`. -/
def below (l : List α) (m : α) : Nat := l.countP (· < m)

def atMost (l : List α) (m : α) : Nat := l.countP (· ≤ m)

def atLeast (l : List α) (m : α) : Nat := l.countP (m ≤ ·)

@[simp] theorem below_cons (x : α) (l : List α) (m : α) :
    below (x :: l) m = below l m + if x < m then 1 else 0 := by
  simp [below, List.countP_cons]

@[simp] theorem atMost_cons (x : α) (l : List α) (m : α) :
    atMost (x :: l) m = atMost l m + if x ≤ m then 1 else 0 := by
  simp [atMost, List.countP_cons]

@[simp] theorem atLeast_cons (x : α) (l : List α) (m : α) :
    atLeast (x :: l) m = atLeast l m + if m ≤ x then 1 else 0 := by
  simp [atLeast, List.countP_cons]

theorem below_add_atLeast (l : List α) (m : α) : below l m + atLeast l m = l.length := by
  induction l with
  | nil => rfl
  | cons x l ih =>
    simp only [below_cons, atLeast_cons, List.length_cons]
    by_cases h : x < m
    · rw [if_pos h, if_neg h.not_ge]
      omega
    · rw [if_neg h, if_pos (not_lt.mp h)]
      omega

theorem below_eq_zero {l : List α} {m : α} (h : ∀ x ∈ l, m ≤ x) : below l m = 0 :=
  List.countP_eq_zero.mpr fun x hx => by simpa using h x hx

theorem atMost_eq_zero {l : List α} {m : α} (h : ∀ x ∈ l, m < x) : atMost l m = 0 :=
  List.countP_eq_zero.mpr fun x hx => by simpa using h x hx

theorem getElem?_eq_some_iff_of_pairwise {l : List α} (hl : l.Pairwise (· ≤ ·)) (k : Nat) (m : α) :
    l[k]? = some m ↔ below l m ≤ k ∧ k < atMost l m := by
  induction l generalizing k with
  | nil => simp [atMost]
  | cons x l ih =>
    obtain ⟨hx, hl⟩ := List.pairwise_cons.mp hl
    simp only [below_cons, atMost_cons]
    rcases lt_trichotomy x m with hlt | rfl | hgt
    · rw [if_pos hlt, if_pos hlt.le]
      cases k with
      | zero => simp [hlt.ne]
      | succ k =>
        rw [List.getElem?_cons_succ, ih hl]
        omega
    · rw [if_neg (lt_irrefl x), if_pos le_rfl, below_eq_zero hx]
      cases k with
      | zero => simp
      | succ k =>
        rw [List.getElem?_cons_succ, ih hl, below_eq_zero hx]
        omega
    · have hAll : ∀ y ∈ l, m < y := fun y hy => hgt.trans_le (hx y hy)
      rw [if_neg hgt.not_gt, if_neg hgt.not_ge, atMost_eq_zero hAll]
      cases k with
      | zero => simp [hgt.ne']
      | succ k =>
        rw [List.getElem?_cons_succ, ih hl, atMost_eq_zero hAll]
        omega

theorem getElem?_insertionSort_eq_some_iff (l : List α) (k : Nat) (m : α) :
    (l.insertionSort (· ≤ ·))[k]? = some m ↔ below l m ≤ k ∧ k < atMost l m := by
  have hPerm := List.perm_insertionSort (· ≤ ·) l
  rw [getElem?_eq_some_iff_of_pairwise (List.pairwise_insertionSort _ l)]
  unfold below atMost
  rw [hPerm.countP_eq, hPerm.countP_eq]

theorem below_mono (l : List α) {m n : α} (h : m ≤ n) : below l m ≤ below l n :=
  List.countP_mono_left fun _ _ hx => decide_eq_true ((of_decide_eq_true hx).trans_le h)

theorem atMost_mono (l : List α) {m n : α} (h : m ≤ n) : atMost l m ≤ atMost l n :=
  List.countP_mono_left fun _ _ hx => decide_eq_true ((of_decide_eq_true hx).trans h)

theorem atMost_le_below (l : List α) {m n : α} (h : m < n) : atMost l m ≤ below l n :=
  List.countP_mono_left fun _ _ hx => decide_eq_true ((of_decide_eq_true hx).trans_lt h)

/-- The element of rank `k` separates the values with few elements below from those with
many at or below. -/
theorem exists_rank {l : List α} {k : Nat} (hk : k < l.length) :
    ∃ x ∈ l, ∀ m, (below l m ≤ k ↔ m ≤ x) ∧ (k < atMost l m ↔ x ≤ m) := by
  have hSorted : k < (l.insertionSort (· ≤ ·)).length := by rwa [List.length_insertionSort]
  have hRank := List.getElem?_eq_getElem hSorted
  obtain ⟨hBelow, hAtMost⟩ := (getElem?_insertionSort_eq_some_iff l k _).mp hRank
  refine ⟨_, (List.perm_insertionSort (· ≤ ·) l).mem_iff.mp (List.getElem_mem hSorted), ?_⟩
  intro m
  refine ⟨⟨fun h => ?_, fun h => (below_mono l h).trans hBelow⟩,
    ⟨fun h => ?_, fun h => hAtMost.trans_le (atMost_mono l h)⟩⟩
  · by_contra hLt
    have := atMost_le_below l (not_le.mp hLt)
    omega
  · by_contra hLt
    have := atMost_le_below l (not_le.mp hLt)
    omega

end OrderStatistics
