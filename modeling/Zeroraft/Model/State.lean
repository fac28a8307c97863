import Zeroraft.Model.Messages

/-!
# The `State` trait and what its documentation promises

`State` is the crate's interface to the log and to the persisted vote; users
supply the implementation. Every operation that returns `Result<()>` through
`&mut self` may fail and may still change the value. `LawfulState` collects the
documented behaviour on top of one record of observations, `stored`.
-/

namespace Zeroraft

class State (S : Type) (R : outParam Type) where
  appendEntries : S → List (LogEntry R) → Result Unit × S
  removeEntriesAfter : S → Nat → Result Unit × S
  getEntry : S → Nat → Option (LogEntry R)
  /-- The entries from `start` on, at most `limit` many. -/
  getEntries : S → Nat → Option Nat → List (LogEntry R)
  getLastIndex : S → Nat
  getLastTerm : S → Nat
  getLastCommitIndex : S → Nat
  getMembership : S → MembershipMap
  setInitialMembership : S → MembershipMap → Result Unit × S
  setLastCommitIndex : S → Nat → Result Unit × S
  loadVotedFor : S → Option NodeId
  loadCurrentTerm : S → Nat
  storeVotedFor : S → NodeId → Result Unit × S
  storeCurrentTerm : S → Nat → Result Unit × S

/-- What can be observed of a `State` value through its accessors. -/
structure Stored (R : Type) where
  log : List (LogEntry R)
  commit : Nat
  membership : MembershipMap
  votedFor : Option NodeId
  currentTerm : Nat

def Stored.lastTerm {R : Type} (s : Stored R) : Nat := (s.log.getLast?.map (·.term)).getD 0

/-- The entry at a 1-based index. -/
def Stored.entry {R : Type} (s : Stored R) (index : Nat) : Option (LogEntry R) :=
  if index = 0 then none else s.log[index - 1]?

variable {S R : Type}

def stored [State S R] (s : S) : Stored R where
  log := State.getEntries s 1 none
  commit := State.getLastCommitIndex s
  membership := State.getMembership s
  votedFor := State.loadVotedFor s
  currentTerm := State.loadCurrentTerm s

/-- The documented behaviour: the log is a list with indices from 1, every
operation succeeds, changes the one thing it names and leaves the rest. -/
class LawfulState (S : Type) (R : outParam Type) [State S R] : Prop where
  getEntry_eq (s : S) (i : Nat) : State.getEntry s i = (stored s).entry i
  getEntries_from (s : S) (n : Nat) (hn : 1 ≤ n) :
    State.getEntries s n none = (stored s).log.drop (n - 1)
  getLastIndex_eq (s : S) : State.getLastIndex s = (stored s).log.length
  getLastTerm_eq (s : S) : State.getLastTerm s = (stored s).lastTerm
  appendEntries_ok (s : S) (es : List (LogEntry R)) : (State.appendEntries s es).1 = .ok ()
  stored_appendEntries (s : S) (es : List (LogEntry R)) :
    stored (State.appendEntries s es).2 = { stored s with log := (stored s).log ++ es }
  removeEntriesAfter_ok (s : S) (i : Nat) : (State.removeEntriesAfter s i).1 = .ok ()
  stored_removeEntriesAfter (s : S) (i : Nat) :
    stored (State.removeEntriesAfter s i).2 = { stored s with log := (stored s).log.take i }
  setLastCommitIndex_ok (s : S) (i : Nat) : (State.setLastCommitIndex s i).1 = .ok ()
  stored_setLastCommitIndex (s : S) (i : Nat) :
    stored (State.setLastCommitIndex s i).2 = { stored s with commit := i }
  setInitialMembership_ok (s : S) (m : MembershipMap) : (State.setInitialMembership s m).1 = .ok ()
  stored_setInitialMembership (s : S) (m : MembershipMap) :
    stored (State.setInitialMembership s m).2 = { stored s with membership := m }
  storeVotedFor_ok (s : S) (c : NodeId) : (State.storeVotedFor s c).1 = .ok ()
  stored_storeVotedFor (s : S) (c : NodeId) :
    stored (State.storeVotedFor s c).2 = { stored s with votedFor := some c }
  storeCurrentTerm_ok (s : S) (t : Nat) : (State.storeCurrentTerm s t).1 = .ok ()
  stored_storeCurrentTerm (s : S) (t : Nat) :
    stored (State.storeCurrentTerm s t).2 = { stored s with currentTerm := t }

attribute [simp] LawfulState.getEntry_eq LawfulState.getLastIndex_eq LawfulState.getLastTerm_eq
  LawfulState.appendEntries_ok LawfulState.stored_appendEntries
  LawfulState.removeEntriesAfter_ok LawfulState.stored_removeEntriesAfter
  LawfulState.setLastCommitIndex_ok LawfulState.stored_setLastCommitIndex
  LawfulState.setInitialMembership_ok LawfulState.stored_setInitialMembership
  LawfulState.storeVotedFor_ok LawfulState.stored_storeVotedFor
  LawfulState.storeCurrentTerm_ok LawfulState.stored_storeCurrentTerm

/-- An operation has had its documented effect, or has failed and changed nothing. -/
def Effect [State S R] (before after : Stored R) (outcome : Result Unit × S) : Prop :=
  (outcome.1 = .ok () ∧ stored outcome.2 = after) ∨
    ((∃ e, outcome.1 = .error e) ∧ stored outcome.2 = before)

theorem Effect.ok [State S R] {before after : Stored R} {outcome : Result Unit × S}
    (h : Effect before after outcome) (hOk : outcome.1 = .ok ()) : stored outcome.2 = after := by
  rcases h with ⟨_, hAfter⟩ | ⟨⟨e, hError⟩, _⟩
  · exact hAfter
  · rw [hOk] at hError
    cases hError

theorem Effect.error [State S R] {before after : Stored R} {outcome : Result Unit × S}
    {e : ZeroraftError} (h : Effect before after outcome) (hError : outcome.1 = .error e) :
    stored outcome.2 = before := by
  rcases h with ⟨hOk, _⟩ | ⟨_, hBefore⟩
  · rw [hOk] at hError
    cases hError
  · exact hBefore

/-- What an operation is not about stays, whether it fails or not. -/
theorem Effect.keeps [State S R] {α : Type} (f : Stored R → α) {before after : Stored R}
    {outcome : Result Unit × S} (h : Effect before after outcome) (hf : f after = f before) :
    f (stored outcome.2) = f before := by
  rcases h with ⟨_, hAfter⟩ | ⟨_, hBefore⟩
  · rw [hAfter, hf]
  · rw [hBefore]

/-- The documented behaviour of a state whose operations may fail. -/
class FallibleState (S : Type) (R : outParam Type) [State S R] : Prop where
  getEntry_eq (s : S) (i : Nat) : State.getEntry s i = (stored s).entry i
  getEntries_from (s : S) (n : Nat) (hn : 1 ≤ n) :
    State.getEntries s n none = (stored s).log.drop (n - 1)
  getLastIndex_eq (s : S) : State.getLastIndex s = (stored s).log.length
  getLastTerm_eq (s : S) : State.getLastTerm s = (stored s).lastTerm
  appendEntries (s : S) (es : List (LogEntry R)) : Effect (stored s)
    { stored s with log := (stored s).log ++ es } (State.appendEntries s es)
  removeEntriesAfter (s : S) (i : Nat) : Effect (stored s)
    { stored s with log := (stored s).log.take i } (State.removeEntriesAfter s i)
  setLastCommitIndex (s : S) (i : Nat) : Effect (stored s)
    { stored s with commit := i } (State.setLastCommitIndex s i)
  setInitialMembership (s : S) (m : MembershipMap) : Effect (stored s)
    { stored s with membership := m } (State.setInitialMembership s m)
  storeVotedFor (s : S) (c : NodeId) : Effect (stored s)
    { stored s with votedFor := some c } (State.storeVotedFor s c)
  storeCurrentTerm (s : S) (t : Nat) : Effect (stored s)
    { stored s with currentTerm := t } (State.storeCurrentTerm s t)

/-- A state none of whose operations fails, whatever else they do. -/
class ReliableState (S : Type) (R : outParam Type) [State S R] : Prop where
  appendEntries_ok (s : S) (es : List (LogEntry R)) : (State.appendEntries s es).1 = .ok ()
  removeEntriesAfter_ok (s : S) (i : Nat) : (State.removeEntriesAfter s i).1 = .ok ()
  setLastCommitIndex_ok (s : S) (i : Nat) : (State.setLastCommitIndex s i).1 = .ok ()
  setInitialMembership_ok (s : S) (m : MembershipMap) : (State.setInitialMembership s m).1 = .ok ()
  storeVotedFor_ok (s : S) (c : NodeId) : (State.storeVotedFor s c).1 = .ok ()
  storeCurrentTerm_ok (s : S) (t : Nat) : (State.storeCurrentTerm s t).1 = .ok ()

/-- A state that records terms and votes, and keeps the end of its log when it does. -/
class RecordsVotes (S : Type) (R : outParam Type) [State S R] : Prop where
  storeCurrentTerm_ok (s : S) (t : Nat) : (State.storeCurrentTerm s t).1 = .ok ()
  storeVotedFor_ok (s : S) (c : NodeId) : (State.storeVotedFor s c).1 = .ok ()
  getLastIndex_storeCurrentTerm (s : S) (t : Nat) :
    State.getLastIndex (State.storeCurrentTerm s t).2 = State.getLastIndex s
  getLastIndex_storeVotedFor (s : S) (c : NodeId) :
    State.getLastIndex (State.storeVotedFor s c).2 = State.getLastIndex s
  getLastTerm_storeCurrentTerm (s : S) (t : Nat) :
    State.getLastTerm (State.storeCurrentTerm s t).2 = State.getLastTerm s
  getLastTerm_storeVotedFor (s : S) (c : NodeId) :
    State.getLastTerm (State.storeVotedFor s c).2 = State.getLastTerm s

instance LawfulState.instFallibleState [State S R] [LawfulState S R] : FallibleState S R where
  getEntry_eq := LawfulState.getEntry_eq
  getEntries_from := LawfulState.getEntries_from
  getLastIndex_eq := LawfulState.getLastIndex_eq
  getLastTerm_eq := LawfulState.getLastTerm_eq
  appendEntries s es := Or.inl ⟨LawfulState.appendEntries_ok s es, LawfulState.stored_appendEntries s es⟩
  removeEntriesAfter s i :=
    Or.inl ⟨LawfulState.removeEntriesAfter_ok s i, LawfulState.stored_removeEntriesAfter s i⟩
  setLastCommitIndex s i :=
    Or.inl ⟨LawfulState.setLastCommitIndex_ok s i, LawfulState.stored_setLastCommitIndex s i⟩
  setInitialMembership s m :=
    Or.inl ⟨LawfulState.setInitialMembership_ok s m, LawfulState.stored_setInitialMembership s m⟩
  storeVotedFor s c := Or.inl ⟨LawfulState.storeVotedFor_ok s c, LawfulState.stored_storeVotedFor s c⟩
  storeCurrentTerm s t :=
    Or.inl ⟨LawfulState.storeCurrentTerm_ok s t, LawfulState.stored_storeCurrentTerm s t⟩

instance LawfulState.instReliableState [State S R] [LawfulState S R] : ReliableState S R where
  appendEntries_ok := LawfulState.appendEntries_ok
  removeEntriesAfter_ok := LawfulState.removeEntriesAfter_ok
  setLastCommitIndex_ok := LawfulState.setLastCommitIndex_ok
  setInitialMembership_ok := LawfulState.setInitialMembership_ok
  storeVotedFor_ok := LawfulState.storeVotedFor_ok
  storeCurrentTerm_ok := LawfulState.storeCurrentTerm_ok

instance LawfulState.instRecordsVotes [State S R] [LawfulState S R] : RecordsVotes S R where
  storeCurrentTerm_ok := LawfulState.storeCurrentTerm_ok
  storeVotedFor_ok := LawfulState.storeVotedFor_ok
  getLastIndex_storeCurrentTerm s t := by
    rw [LawfulState.getLastIndex_eq, LawfulState.getLastIndex_eq,
      LawfulState.stored_storeCurrentTerm]
  getLastIndex_storeVotedFor s c := by
    rw [LawfulState.getLastIndex_eq, LawfulState.getLastIndex_eq, LawfulState.stored_storeVotedFor]
  getLastTerm_storeCurrentTerm s t := by
    rw [LawfulState.getLastTerm_eq, LawfulState.getLastTerm_eq,
      LawfulState.stored_storeCurrentTerm]
    rfl
  getLastTerm_storeVotedFor s c := by
    rw [LawfulState.getLastTerm_eq, LawfulState.getLastTerm_eq, LawfulState.stored_storeVotedFor]
    rfl

theorem Stored.entry_eq_some_iff {s : Stored R} {i : Nat} {e : LogEntry R} :
    s.entry i = some e ↔ 1 ≤ i ∧ s.log[i - 1]? = some e := by
  unfold Stored.entry
  split
  · simp; omega
  · exact ⟨fun h => ⟨by omega, h⟩, fun h => h.2⟩

@[simp] theorem getMembership_eq [State S R] (s : S) :
    State.getMembership s = (stored s).membership := rfl

@[simp] theorem getLastCommitIndex_eq [State S R] (s : S) :
    State.getLastCommitIndex s = (stored s).commit := rfl

@[simp] theorem loadVotedFor_eq [State S R] (s : S) :
    State.loadVotedFor s = (stored s).votedFor := rfl

@[simp] theorem loadCurrentTerm_eq [State S R] (s : S) :
    State.loadCurrentTerm s = (stored s).currentTerm := rfl

/-- The record of observations is itself a state that keeps the documentation. -/
instance Stored.instState : State (Stored R) R where
  appendEntries s es := (.ok (), { s with log := s.log ++ es })
  removeEntriesAfter s i := (.ok (), { s with log := s.log.take i })
  getEntry s i := s.entry i
  getEntries s start limit :=
    let rest := s.log.drop (start - 1)
    limit.elim rest rest.take
  getLastIndex s := s.log.length
  getLastTerm s := s.lastTerm
  getLastCommitIndex s := s.commit
  getMembership s := s.membership
  setInitialMembership s m := (.ok (), { s with membership := m })
  setLastCommitIndex s i := (.ok (), { s with commit := i })
  loadVotedFor s := s.votedFor
  loadCurrentTerm s := s.currentTerm
  storeVotedFor s c := (.ok (), { s with votedFor := some c })
  storeCurrentTerm s t := (.ok (), { s with currentTerm := t })

@[simp] theorem Stored.stored_eq (s : Stored R) : stored s = s := rfl

instance Stored.instLawfulState : LawfulState (Stored R) R where
  getEntry_eq _ _ := rfl
  getEntries_from _ _ _ := rfl
  getLastIndex_eq _ := rfl
  getLastTerm_eq _ := rfl
  appendEntries_ok _ _ := rfl
  stored_appendEntries _ _ := rfl
  removeEntriesAfter_ok _ _ := rfl
  stored_removeEntriesAfter _ _ := rfl
  setLastCommitIndex_ok _ _ := rfl
  stored_setLastCommitIndex _ _ := rfl
  setInitialMembership_ok _ _ := rfl
  stored_setInitialMembership _ _ := rfl
  storeVotedFor_ok _ _ := rfl
  stored_storeVotedFor _ _ := rfl
  storeCurrentTerm_ok _ _ := rfl
  stored_storeCurrentTerm _ _ := rfl

end Zeroraft
