import Mathlib.Data.List.Basic

/-!
# Lists whose places only get filled, each with later and later values

A list grows when every place that it has keeps a value and the values only move
along a given relation. New places may be added at the end.
-/

namespace Growth

variable {α : Type*}

def Grows (Later : α → α → Prop) (l l' : List α) : Prop :=
  ∀ (k : Nat) (a : α), l[k]? = some a → ∃ a', l'[k]? = some a' ∧ Later a a'

variable {Later : α → α → Prop}

theorem Grows.refl (hRefl : ∀ a, Later a a) (l : List α) : Grows Later l l :=
  fun _ a h => ⟨a, h, hRefl a⟩

theorem Grows.trans (hTrans : ∀ a b c, Later a b → Later b c → Later a c) {l₁ l₂ l₃ : List α}
    (h₁ : Grows Later l₁ l₂) (h₂ : Grows Later l₂ l₃) : Grows Later l₁ l₃ := by
  intro k a hk
  obtain ⟨b, hb, hab⟩ := h₁ k a hk
  obtain ⟨c, hc, hbc⟩ := h₂ k b hb
  exact ⟨c, hc, hTrans a b c hab hbc⟩

theorem Grows.append {l l' : List α} (h : Grows Later l l') (added : List α) :
    Grows Later l (l' ++ added) := by
  intro k a hk
  obtain ⟨a', ha', hLater⟩ := h k a hk
  refine ⟨a', ?_, hLater⟩
  rw [List.getElem?_append_left (List.getElem?_eq_some_iff.mp ha').1, ha']

theorem Grows.set {l l' : List α} (h : Grows Later l l') {k : Nat} {a a' : α}
    (hOld : l[k]? = some a) (hLater : Later a a') : Grows Later l (l'.set k a') := by
  intro j b hj
  by_cases hkj : k = j
  · subst hkj
    obtain ⟨_, hPlace, _⟩ := h k a hOld
    obtain rfl : a = b := Option.some.inj (hOld.symm.trans hj)
    exact ⟨a', List.getElem?_set_self (List.getElem?_eq_some_iff.mp hPlace).1, hLater⟩
  · obtain ⟨b', hb', hbb'⟩ := h j b hj
    exact ⟨b', by rw [List.getElem?_set_ne hkj, hb'], hbb'⟩

theorem Grows.map {f : α → α} (hf : ∀ a, Later a (f a)) (l : List α) : Grows Later l (l.map f) :=
  fun k a hk => ⟨f a, by rw [List.getElem?_map, hk]; rfl, hf a⟩

theorem Grows.final {l l' : List α} (h : Grows Later l l') {k : Nat} {a : α}
    (hFinal : ∀ a', Later a a' → a' = a) (hk : l[k]? = some a) : l'[k]? = some a := by
  obtain ⟨a', ha', hLater⟩ := h k a hk
  rw [ha', hFinal a' hLater]

theorem Grows.length_le {l l' : List α} (h : Grows Later l l') : l.length ≤ l'.length := by
  by_contra hShort
  obtain ⟨a', ha', _⟩ := h l'.length l[l'.length] (List.getElem?_eq_getElem (by omega))
  exact absurd (List.getElem?_eq_some_iff.mp ha').1 (Nat.lt_irrefl _)

theorem getElem?_set_cases {l : List α} {k j : Nat} {a b : α} (h : (l.set k a)[j]? = some b) :
    (j = k ∧ b = a) ∨ (j ≠ k ∧ l[j]? = some b) := by
  by_cases hkj : k = j
  · subst hkj
    rw [List.getElem?_set_self (List.length_set ▸ (List.getElem?_eq_some_iff.mp h).1)] at h
    exact Or.inl ⟨rfl, (Option.some.inj h).symm⟩
  · rw [List.getElem?_set_ne hkj] at h
    exact Or.inr ⟨Ne.symm hkj, h⟩

theorem getElem?_append_cases {l added : List α} {j : Nat} {b : α}
    (h : (l ++ added)[j]? = some b) : l[j]? = some b ∨ b ∈ added := by
  rw [List.getElem?_append] at h
  split_ifs at h
  · exact Or.inl h
  · exact Or.inr (List.mem_of_getElem? h)

theorem countP_set_add {p : α → Bool} {l : List α} {k : Nat} {a b : α} (h : l[k]? = some a) :
    (l.set k b).countP p + (if p a then 1 else 0) = l.countP p + (if p b then 1 else 0) := by
  obtain ⟨hk, rfl⟩ := List.getElem?_eq_some_iff.mp h
  rw [List.countP_set hk]
  by_cases hp : p l[k]
  · have hPos : 0 < l.countP p := List.countP_pos_iff.mpr ⟨_, List.getElem_mem hk, hp⟩
    rw [if_pos hp]
    omega
  · rw [if_neg hp]
    omega

end Growth
