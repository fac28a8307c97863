import Mathlib.Logic.Function.Basic

/-!
# Readers-writer locks that are not reentrant

What a task locks is a tree: a guard is taken, the task goes on while it lives,
and it is dropped before the rest. A task that requests a lock in a mode that
conflicts with a guard of its own waits forever.
-/

namespace RwLocks

/-- A lock that nobody holds is one with no readers. -/
inductive RwLock where
  | readers (n : Nat)
  | writer
  deriving DecidableEq, Repr

inductive Mode where
  | read
  | write
  deriving DecidableEq, Repr

namespace RwLock

abbrev free : RwLock := .readers 0

/-- `none` while the request has to wait. -/
def acquire (mode : Mode) : RwLock → Option RwLock
  | .readers n =>
    match mode with
    | .read => some (.readers (n + 1))
    | .write => if n = 0 then some .writer else none
  | .writer => none

/-- `none` where there is no such guard. -/
def release (mode : Mode) : RwLock → Option RwLock
  | .readers 0 => none
  | .readers (n + 1) =>
    match mode with
    | .read => some (.readers n)
    | .write => none
  | .writer =>
    match mode with
    | .read => none
    | .write => some free

theorem release_acquire {mode : Mode} {lock lock' : RwLock} (h : lock.acquire mode = some lock') :
    lock'.release mode = some lock := by
  cases lock with
  | writer => cases h
  | readers n =>
    cases mode with
    | read =>
      cases h
      rfl
    | write =>
      simp only [acquire] at h
      split at h
      · rename_i hZero
        cases h
        rw [hZero]
        rfl
      · cases h

end RwLock

/-- The guards that a task takes on the locks that `L` names. -/
inductive Locking (L : Type*) where
  | done
  | guard (lock : L) (mode : Mode) (inner rest : Locking L)
  deriving DecidableEq

variable {L : Type*}

namespace Locking

def append : Locking L → Locking L → Locking L
  | .done, q => q
  | .guard lock mode inner rest, q => .guard lock mode inner (rest.append q)

def once (lock : L) (mode : Mode) : Locking L := .guard lock mode .done .done

def Conflicts (held : List (L × Mode)) (lock : L) (mode : Mode) : Prop :=
  (lock, .write) ∈ held ∨ (mode = .write ∧ (lock, .read) ∈ held)

/-- A task that holds these guards never requests a lock against one of its own. -/
def NoSelfConflict (held : List (L × Mode)) : Locking L → Prop
  | .done => True
  | .guard lock mode inner rest =>
    ¬ Conflicts held lock mode ∧ inner.NoSelfConflict ((lock, mode) :: held) ∧
      rest.NoSelfConflict held

@[simp] theorem noSelfConflict_append (held : List (L × Mode)) (p q : Locking L) :
    (p.append q).NoSelfConflict held ↔ p.NoSelfConflict held ∧ q.NoSelfConflict held := by
  induction p with
  | done => simp [append, NoSelfConflict]
  | guard lock mode inner rest _ hRest => simp [append, NoSelfConflict, hRest, and_assoc]

@[simp] theorem noSelfConflict_once (held : List (L × Mode)) (lock : L) (mode : Mode) :
    (once lock mode).NoSelfConflict held ↔ ¬ Conflicts held lock mode := by
  simp [once, NoSelfConflict]

/-- The guards are among those that the locks record. -/
def Covers (locks : L → RwLock) (held : List (L × Mode)) : Prop :=
  ∀ lock, ((lock, .write) ∈ held → locks lock = .writer) ∧
    ((lock, .read) ∈ held → ∃ n, locks lock = .readers (n + 1))

/-- Whoever else holds locks, a request against an own guard waits. -/
theorem Covers.acquire_eq_none {locks : L → RwLock} {held : List (L × Mode)}
    (hCovers : Covers locks held) {lock : L} {mode : Mode} (h : Conflicts held lock mode) :
    (locks lock).acquire mode = none := by
  rcases h with hWrite | ⟨rfl, hRead⟩
  · rw [(hCovers lock).1 hWrite]
    rfl
  · obtain ⟨n, hn⟩ := (hCovers lock).2 hRead
    rw [hn]
    rfl

theorem covers_nil (locks : L → RwLock) : Covers locks [] := fun _ => by simp

variable [DecidableEq L]

instance (held : List (L × Mode)) (lock : L) (mode : Mode) :
    Decidable (Conflicts held lock mode) :=
  inferInstanceAs (Decidable (_ ∨ _))

/-- The locks after a task that nobody disturbs; `none` when it waits forever. -/
def run : Locking L → (L → RwLock) → Option (L → RwLock)
  | .done, locks => some locks
  | .guard lock mode inner rest, locks =>
    ((locks lock).acquire mode).bind fun held =>
      (inner.run (Function.update locks lock held)).bind fun locks' =>
        ((locks' lock).release mode).bind fun dropped =>
          rest.run (Function.update locks' lock dropped)

theorem run_restores {p : Locking L} {locks locks' : L → RwLock}
    (h : p.run locks = some locks') : locks' = locks := by
  induction p generalizing locks locks' with
  | done =>
    cases h
    rfl
  | guard lock mode inner rest hInner hRest =>
    simp only [run, Option.bind_eq_some_iff] at h
    obtain ⟨held, hHeld, locks₁, hRun, dropped, hDropped, h⟩ := h
    have h₁ : locks₁ = Function.update locks lock held := hInner hRun
    have hBack : dropped = locks lock := by
      rw [h₁, Function.update_self, RwLock.release_acquire hHeld] at hDropped
      exact (Option.some.inj hDropped).symm
    have h₂ := hRest h
    rw [h₂, h₁, hBack, Function.update_idem, Function.update_eq_self]

theorem Covers.cons {locks : L → RwLock} {held : List (L × Mode)} (hCovers : Covers locks held)
    {lock : L} {mode : Mode} {lock' : RwLock} (h : (locks lock).acquire mode = some lock') :
    Covers (Function.update locks lock lock') ((lock, mode) :: held) := by
  intro other
  by_cases hOther : other = lock
  · subst hOther
    cases hLocks : locks other with
    | writer => simp [hLocks, RwLock.acquire] at h
    | readers n =>
      have hNoWrite : (other, Mode.write) ∉ held := fun hMem => by
        simpa [hLocks] using (hCovers other).1 hMem
      cases mode with
      | read =>
        simp only [hLocks, RwLock.acquire, Option.some.injEq] at h
        subst h
        simp [hNoWrite]
      | write =>
        have hNoRead : (other, Mode.read) ∉ held := fun hMem => by
          obtain ⟨n', hn'⟩ := (hCovers other).2 hMem
          simp_all [RwLock.acquire]
        simp only [hLocks, RwLock.acquire, Option.ite_none_right_eq_some, Option.some.injEq] at h
        simp [← h.2, hNoRead]
  · simpa [Function.update_of_ne hOther, hOther] using hCovers other

/-- A task with a self-conflict waits forever, whoever else holds locks. -/
theorem NoSelfConflict.of_run {p : Locking L} {locks locks' : L → RwLock}
    {held : List (L × Mode)} (hCovers : Covers locks held) (h : p.run locks = some locks') :
    p.NoSelfConflict held := by
  induction p generalizing locks locks' held with
  | done => trivial
  | guard lock mode inner rest hInner hRest =>
    simp only [run, Option.bind_eq_some_iff] at h
    obtain ⟨lock', hLock, locks₁, hRun, dropped, hDropped, h⟩ := h
    have hBack : Function.update locks₁ lock dropped = locks := by
      rw [run_restores hRun] at hDropped ⊢
      rw [Function.update_self, RwLock.release_acquire hLock] at hDropped
      rw [← Option.some.inj hDropped, Function.update_idem, Function.update_eq_self]
    refine ⟨fun hConflict => ?_, hInner (hCovers.cons hLock) hRun, hRest ?_ h⟩
    · rw [hCovers.acquire_eq_none hConflict] at hLock
      cases hLock
    · rwa [hBack]

/-- The locks when only the task with these guards holds any. -/
def Alone (locks : L → RwLock) (held : List (L × Mode)) : Prop :=
  ∀ lock, ((lock, .write) ∉ held → locks lock = .readers (held.count (lock, .read)))

theorem Alone.acquire {locks : L → RwLock} {held : List (L × Mode)} (hAlone : Alone locks held)
    {lock : L} {mode : Mode} (h : ¬ Conflicts held lock mode) :
    ∃ lock', (locks lock).acquire mode = some lock' ∧
      Alone (Function.update locks lock lock') ((lock, mode) :: held) := by
  have hNoWrite : (lock, Mode.write) ∉ held := fun hMem => h (Or.inl hMem)
  have hLock := hAlone lock hNoWrite
  cases mode with
  | read =>
    refine ⟨.readers (held.count (lock, .read) + 1), by rw [hLock]; rfl, fun other hOther => ?_⟩
    by_cases hEq : other = lock
    · subst hEq
      simp
    · have hMem : (other, Mode.write) ∉ held := fun hMem => hOther (List.mem_cons_of_mem _ hMem)
      rw [Function.update_of_ne hEq, hAlone other hMem, List.count_cons_of_ne]
      simpa using fun hEq' => hEq hEq'.symm
  | write =>
    have hNoRead : (lock, Mode.read) ∉ held := fun hMem => h (Or.inr ⟨rfl, hMem⟩)
    refine ⟨.writer, by rw [hLock, List.count_eq_zero_of_not_mem hNoRead]; rfl,
      fun other hOther => ?_⟩
    by_cases hEq : other = lock
    · subst hEq
      exact absurd List.mem_cons_self hOther
    · have hMem : (other, Mode.write) ∉ held := fun hMem => hOther (List.mem_cons_of_mem _ hMem)
      rw [Function.update_of_ne hEq, hAlone other hMem, List.count_cons_of_ne]
      simp

/-- Where no other task holds a lock, a task without self-conflict comes to its end. -/
theorem NoSelfConflict.run {p : Locking L} {locks : L → RwLock} {held : List (L × Mode)}
    (hAlone : Alone locks held) (h : p.NoSelfConflict held) : p.run locks = some locks := by
  induction p generalizing locks held with
  | done => rfl
  | guard lock mode inner rest hInner hRest =>
    obtain ⟨hConflict, hIn, hAfter⟩ := h
    obtain ⟨lock', hLock, hAlone'⟩ := hAlone.acquire hConflict
    simp only [Locking.run, hLock, Option.bind_some, hInner hAlone' hIn,
      Function.update_self, RwLock.release_acquire hLock, Function.update_idem,
      Function.update_eq_self]
    exact hRest hAlone hAfter

theorem alone_free : Alone (fun _ : L => RwLock.free) [] := fun _ _ => rfl

/-- A task that holds nothing can come to its end exactly if it has no self-conflict. -/
theorem run_free_iff (p : Locking L) :
    p.run (fun _ => RwLock.free) = some (fun _ => RwLock.free) ↔ p.NoSelfConflict [] :=
  ⟨fun h => .of_run (covers_nil _) h, fun h => h.run alone_free⟩

theorem run_eq_none {p : Locking L} (h : ¬ p.NoSelfConflict []) (locks : L → RwLock) :
    p.run locks = none := by
  cases hRun : p.run locks with
  | none => rfl
  | some _ => exact absurd (.of_run (covers_nil locks) hRun) h

end Locking

end RwLocks
