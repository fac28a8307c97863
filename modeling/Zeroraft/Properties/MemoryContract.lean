import Mathlib.Data.List.Induction
import Zeroraft.Model.MemoryState

/-!
# Does `MemoryState` keep the contract of the log?

The record of observations, on which every operation does what its documentation says,
is the specification. `MemoryState` holds the same entries and the same vote, but looks
entries up from 0 and overwrites the persisted term when it appends.
-/

namespace Zeroraft

variable {R : Type}

section Operations

inductive Operation (R : Type) where
  | appendEntries (entries : List (LogEntry R))
  | removeEntriesAfter (index : Nat)
  | setLastCommitIndex (index : Nat)
  | storeCurrentTerm (term : Nat)
  | storeVotedFor (votedFor : NodeId)

variable {S : Type} [State S R]

def Operation.apply (s : S) : Operation R → S
  | .appendEntries entries => (State.appendEntries s entries).2
  | .removeEntriesAfter index => (State.removeEntriesAfter s index).2
  | .setLastCommitIndex index => (State.setLastCommitIndex s index).2
  | .storeCurrentTerm term => (State.storeCurrentTerm s term).2
  | .storeVotedFor votedFor => (State.storeVotedFor s votedFor).2

def applyAll (s : S) (operations : List (Operation R)) : S := operations.foldl Operation.apply s

@[simp] theorem applyAll_append (s : S) (first second : List (Operation R)) :
    applyAll s (first ++ second) = applyAll (applyAll s first) second :=
  List.foldl_append

end Operations

section Contract

/-- The record of a node that has stored nothing yet. -/
def Stored.initial : Stored R := ⟨[], 0, .empty, none, 0⟩

/-- The accessors of a state answer from a given record: entries are numbered from 1, and
the term and the vote are those last stored. -/
structure LogContract {S : Type} [State S R] (s : S) (spec : Stored R) : Prop where
  lastIndex : State.getLastIndex s = spec.log.length
  entry : ∀ i, State.getEntry s i =
    if 1 ≤ i ∧ i ≤ State.getLastIndex s then spec.log[i - 1]? else none
  lastTerm : 1 ≤ State.getLastIndex s →
    (State.getEntry s (State.getLastIndex s)).map (·.term) = some (State.getLastTerm s)
  entries : ∀ n, 1 ≤ n → State.getEntries s n none = spec.log.drop (n - 1)
  currentTerm : State.loadCurrentTerm s = spec.currentTerm
  votedFor : State.loadVotedFor s = spec.votedFor

/-- `MemoryState` holds what the record says, except for the term. -/
structure MemoryState.Holds (s : MemoryState R) (spec : Stored R) : Prop where
  entries : s.entries = spec.log
  commitIndex : s.commitIndex = spec.commit
  votedFor : s.votedFor = spec.votedFor

theorem MemoryState.Holds.apply {s : MemoryState R} {spec : Stored R} (h : s.Holds spec)
    (operation : Operation R) : (operation.apply s).Holds (operation.apply spec) := by
  obtain ⟨hEntries, hCommit, hVote⟩ := h
  cases operation with
  | appendEntries entries => exact ⟨congrArg (· ++ entries) hEntries, hCommit, hVote⟩
  | removeEntriesAfter index => exact ⟨congrArg (·.take index) hEntries, hCommit, hVote⟩
  | setLastCommitIndex index => exact ⟨hEntries, rfl, hVote⟩
  | storeCurrentTerm term => exact ⟨hEntries, hCommit, hVote⟩
  | storeVotedFor votedFor => exact ⟨hEntries, hCommit, rfl⟩

theorem MemoryState.holds_applyAll (operations : List (Operation R)) :
    (applyAll (MemoryState.default : MemoryState R) operations).Holds
      (applyAll Stored.initial operations) := by
  induction operations using List.reverseRecOn with
  | nil => exact ⟨rfl, rfl, rfl⟩
  | append_singleton operations operation ih =>
    rw [applyAll_append, applyAll_append]
    exact ih.apply operation

end Contract

section Terms

/-- The operations after which `MemoryState` holds another term. -/
def Operation.SetsTerm : Operation R → Prop
  | .appendEntries _ | .storeCurrentTerm _ => True
  | _ => False

/-- Where the last `append_entries` has not been followed by a `store_current_term`, the
entry that it left at the end has the term last stored before it (0 without an entry). -/
def LastAppendKeepsTerm (operations : List (Operation R)) : Prop :=
  ∀ before entries after, operations = before ++ .appendEntries entries :: after →
    (∀ operation ∈ after, ¬ operation.SetsTerm) →
    (applyAll Stored.initial (before ++ [.appendEntries entries])).lastTerm =
      (applyAll Stored.initial before : Stored R).currentTerm

theorem split_append_singleton {α : Type} {init before after : List α} {a b : α}
    (h : init ++ [b] = before ++ a :: after) :
    (after = [] ∧ init = before ∧ b = a) ∨
      ∃ after', after = after' ++ [b] ∧ init = before ++ a :: after' := by
  rcases List.eq_nil_or_concat' after with rfl | ⟨after', last, rfl⟩
  · obtain ⟨hInit, hLast⟩ := List.append_inj' h rfl
    exact Or.inl ⟨rfl, hInit, List.singleton_inj.mp hLast⟩
  · have hSplit : init ++ [b] = (before ++ a :: after') ++ [last] := by simpa using h
    obtain ⟨hInit, hLast⟩ := List.append_inj' hSplit rfl
    exact Or.inr ⟨after', by rw [List.singleton_inj.mp hLast], hInit⟩

theorem lastAppendKeepsTerm_appendEntries {operations : List (Operation R)}
    {entries : List (LogEntry R)} :
    LastAppendKeepsTerm (operations ++ [.appendEntries entries]) ↔
      (applyAll Stored.initial (operations ++ [.appendEntries entries])).lastTerm =
        (applyAll Stored.initial operations : Stored R).currentTerm := by
  constructor
  · intro h
    exact h operations entries [] rfl (by simp)
  · intro hTerm before entries' after hSplit hAfter
    rcases split_append_singleton hSplit with ⟨rfl, rfl, hSame⟩ | ⟨after', rfl, _⟩
    · cases hSame
      exact hTerm
    · exact absurd trivial (hAfter (.appendEntries entries) (by simp))

theorem lastAppendKeepsTerm_storeCurrentTerm (operations : List (Operation R)) (term : Nat) :
    LastAppendKeepsTerm (operations ++ [.storeCurrentTerm term]) := by
  intro before entries after hSplit hAfter
  rcases split_append_singleton hSplit with ⟨_, _, hSame⟩ | ⟨after', rfl, _⟩
  · cases hSame
  · exact absurd trivial (hAfter (.storeCurrentTerm term) (by simp))

theorem lastAppendKeepsTerm_of_not_setsTerm {operations : List (Operation R)}
    {operation : Operation R} (hOther : ¬ operation.SetsTerm) :
    LastAppendKeepsTerm (operations ++ [operation]) ↔ LastAppendKeepsTerm operations := by
  constructor
  · intro h before entries after hSplit hAfter
    refine h before entries (after ++ [operation]) (by simp [hSplit]) fun op hOp => ?_
    rcases List.mem_append.mp hOp with hOp | hOp
    · exact hAfter op hOp
    · rw [List.mem_singleton.mp hOp]
      exact hOther
  · intro h before entries after hSplit hAfter
    rcases split_append_singleton hSplit with ⟨_, _, rfl⟩ | ⟨after', rfl, hInit⟩
    · exact absurd trivial hOther
    · exact h before entries after' hInit fun op hOp =>
        hAfter op (List.mem_append_left _ hOp)

/-- The persisted term is the one last stored exactly if no append has overwritten it with
another. -/
theorem MemoryState.currentTerm_eq_iff (operations : List (Operation R)) :
    (applyAll (MemoryState.default : MemoryState R) operations).currentTerm =
        (applyAll Stored.initial operations : Stored R).currentTerm ↔
      LastAppendKeepsTerm operations := by
  induction operations using List.reverseRecOn with
  | nil =>
    refine iff_of_true rfl fun before entries after hSplit _ => ?_
    cases before <;> cases hSplit
  | append_singleton operations operation ih =>
    have hHolds := MemoryState.holds_applyAll (R := R) (operations ++ [operation])
    rw [applyAll_append, applyAll_append] at hHolds ⊢
    cases operation with
    | appendEntries entries =>
      rw [lastAppendKeepsTerm_appendEntries, applyAll_append, Stored.lastTerm, ← hHolds.entries]
      rfl
    | storeCurrentTerm term =>
      exact iff_of_true rfl (lastAppendKeepsTerm_storeCurrentTerm operations term)
    | removeEntriesAfter _ | setLastCommitIndex _ | storeVotedFor _ =>
      rw [lastAppendKeepsTerm_of_not_setsTerm id]
      exact ih

end Terms

section Contract

/-- The accessors other than the one for the term answer as they should only of an empty log. -/
theorem MemoryState.Holds.contract_iff {s : MemoryState R} {spec : Stored R} (h : s.Holds spec) :
    LogContract s spec ↔ spec.log = [] ∧ s.currentTerm = spec.currentTerm := by
  constructor
  · intro hContract
    refine ⟨?_, hContract.currentTerm⟩
    have hZero : s.entries[0]? = none := hContract.entry 0
    rw [← h.entries]
    exact List.length_eq_zero_iff.mp (Nat.le_zero.mp (List.getElem?_eq_none_iff.mp hZero))
  · rintro ⟨hEmpty, hTerm⟩
    have hNone : s.entries = [] := h.entries.trans hEmpty
    refine ⟨congrArg List.length h.entries, fun i => ?_, fun hPos => ?_, fun n _ => ?_, hTerm,
      h.votedFor⟩
    · have hEntry : State.getEntry s i = none := by
        show s.entries[i]? = none
        rw [hNone]
        rfl
      rw [hEntry, hEmpty]
      simp
    · have hLength : State.getLastIndex s = 0 := congrArg List.length hNone
      omega
    · show (s.entries.drop n).take s.entries.length = spec.log.drop (n - 1)
      rw [hNone, hEmpty]
      simp

theorem memoryState_contract_iff (operations : List (Operation R)) :
    LogContract (applyAll (MemoryState.default : MemoryState R) operations)
        (applyAll Stored.initial operations) ↔
      (applyAll Stored.initial operations : Stored R).log = [] ∧
        LastAppendKeepsTerm operations := by
  rw [(MemoryState.holds_applyAll operations).contract_iff, MemoryState.currentTerm_eq_iff]

/-- After one `append_entries` the entry is not found at its index, and after an empty one
the term that was stored is lost. -/
theorem memoryState_breaks_contract :
    (let s := applyAll (MemoryState.default : MemoryState Nat)
        [.appendEntries [⟨1, .clientRequest 5⟩]]
     State.getLastIndex s = 1 ∧ State.getEntry s 1 = none ∧
       State.getEntry s 0 = some ⟨1, .clientRequest 5⟩ ∧ State.getEntries s 1 none = []) ∧
    State.loadCurrentTerm (applyAll (MemoryState.default : MemoryState Nat)
      [.storeCurrentTerm 5, .appendEntries []]) = 0 ∧
    ¬ ∀ operations : List (Operation Nat),
      LogContract (applyAll (MemoryState.default : MemoryState Nat) operations)
        (applyAll Stored.initial operations) := by
  refine ⟨⟨rfl, rfl, rfl, rfl⟩, rfl, fun h => ?_⟩
  have hTerm : (0 : Nat) = 5 := (h [.storeCurrentTerm 5, .appendEntries []]).currentTerm
  cases hTerm

end Contract

end Zeroraft
