import Mathlib.Data.List.Induction

/-!
# Loops that read timers

A loop reads its timers at the beginning of every turn and perhaps in the course of it,
and fails when it reads one that has run out. An accounting follows the time that is left
and says which turns can be taken with it, and which of them end soon enough for another.
-/

namespace TimedLoop

/-- `left` is the time that is left on the timers when a turn begins. -/
structure Accounting (β τ : Type) where
  /-- No timer is read late within the turn. -/
  Affords : (left : β) → (turn : τ) → Prop
  /-- The turn ends before any timer has run out. -/
  EndsInTime : (left : β) → (turn : τ) → Prop
  /-- What is left after a turn that ends in time. -/
  after : (left : β) → (turn : τ) → β

namespace Accounting

variable {σ β τ : Type} {a : Accounting β τ} {turn : σ → τ → Option σ} {Has : σ → β → Prop}

/-- A list of turns that does not read a timer late; the end of the last one does not matter. -/
def Covers (a : Accounting β τ) : β → List τ → Prop
  | _, [] => True
  | left, t :: rest =>
    a.Affords left t ∧ (rest = [] ∨ (a.EndsInTime left t ∧ a.Covers (a.after left t) rest))

/-- The accounting is right about a loop whose states have their time left. -/
structure Describes (a : Accounting β τ) (turn : σ → τ → Option σ) (Has : σ → β → Prop) :
    Prop where
  affords : ∀ {s left} t, Has s left → ((turn s t).isSome ↔ a.Affords left t)
  inTime : ∀ {s left t s'}, Has s left → turn s t = some s' → a.EndsInTime left t →
    Has s' (a.after left t)
  late : ∀ {s left t s'}, Has s left → turn s t = some s' → ¬ a.EndsInTime left t →
    ∀ t', turn s' t' = none

/-- A loop that is already late when it begins gets through no turn at all. -/
theorem foldlM_isSome_iff_of_late {s : σ} {inTime covered : Prop} {ts : List τ}
    (hRun : inTime → ((ts.foldlM turn s).isSome ↔ covered))
    (hLate : ¬ inTime → ∀ t, turn s t = none) :
    (ts.foldlM turn s).isSome ↔ ts = [] ∨ (inTime ∧ covered) := by
  cases ts with
  | nil => exact iff_of_true rfl (Or.inl rfl)
  | cons t rest =>
    rw [or_iff_right (List.cons_ne_nil t rest)]
    by_cases h : inTime
    · rw [and_iff_right h]
      exact hRun h
    · refine iff_of_false ?_ fun hBoth => h hBoth.1
      rw [List.foldlM_cons, hLate h t]
      rintro ⟨⟩

/-- A loop gets through its turns exactly if the accounting covers them. -/
theorem Describes.run_isSome_iff (h : a.Describes turn Has) {s : σ} {left : β} (hs : Has s left)
    (ts : List τ) : (ts.foldlM turn s).isSome ↔ a.Covers left ts := by
  induction ts generalizing s left with
  | nil => exact iff_of_true rfl trivial
  | cons t rest ih =>
    have hAffords := h.affords t hs
    rw [List.foldlM_cons, Covers, ← hAffords]
    cases hTurn : turn s t with
    | none => exact iff_of_false (by rintro ⟨⟩) (by rintro ⟨⟨⟩, _⟩)
    | some s' =>
      refine Iff.trans ?_ (and_iff_right rfl).symm
      apply foldlM_isSome_iff_of_late
      · intro hEnds
        exact ih (h.inTime hs hTurn hEnds)
      · exact h.late hs hTurn

theorem Describes.start_isSome_iff (h : a.Describes turn Has) {s : σ} {left : β} {inTime : Prop}
    (hs : inTime → Has s left) (hLate : ¬ inTime → ∀ t, turn s t = none) (ts : List τ) :
    (ts.foldlM turn s).isSome ↔ ts = [] ∨ (inTime ∧ a.Covers left ts) :=
  foldlM_isSome_iff_of_late (fun hIn => h.run_isSome_iff (hs hIn) ts) hLate

end Accounting

section History

variable {σ τ : Type} {turn : σ → τ → Option σ} {s s' : σ}

/-- What the turns so far have to do with the state is shown one turn at a time. -/
theorem history_of_run (Inv : List τ → σ → Prop) {ts : List τ}
    (hTurn : ∀ done s t s', Inv done s → turn s t = some s' → Inv (done ++ [t]) s')
    (hRun : ts.foldlM turn s = some s') (hInit : Inv [] s) : Inv ts s' := by
  induction ts using List.reverseRecOn generalizing s' with
  | nil =>
    cases hRun
    exact hInit
  | append_singleton done t ih =>
    rw [List.foldlM_append] at hRun
    obtain ⟨s₁, hDone, hLast⟩ := Option.bind_eq_some_iff.mp hRun
    obtain ⟨s₂, hNext, hEnd⟩ := Option.bind_eq_some_iff.mp hLast
    cases hEnd
    exact hTurn done s₁ t _ (ih hDone) hNext

end History

end TimedLoop
