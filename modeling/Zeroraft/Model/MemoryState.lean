import Zeroraft.Model.State

/-!
# The `State` that the tests run on

`MemoryState` keeps the log in a vector, whose indices start at 0.
-/

namespace Zeroraft

structure MemoryState (R : Type) where
  entries : List (LogEntry R)
  membership : MembershipMap
  commitIndex : Nat
  currentTerm : Nat
  votedFor : Option NodeId

namespace MemoryState

variable {R : Type}

def default : MemoryState R where
  entries := []
  membership := .empty
  commitIndex := 0
  currentTerm := 0
  votedFor := none

def getLastTerm (s : MemoryState R) : Nat := (s.entries.getLast?.map (·.term)).getD 0

/-- The entries are pushed, then the current term is set to the term of the last one. -/
def appendEntries (s : MemoryState R) (entries : List (LogEntry R)) : MemoryState R :=
  let pushed := { s with entries := s.entries ++ entries }
  { pushed with currentTerm := pushed.getLastTerm }

/-- `truncate`. -/
def removeEntriesAfter (s : MemoryState R) (index : Nat) : MemoryState R :=
  { s with entries := s.entries.take index }

def getEntry (s : MemoryState R) (index : Nat) : Option (LogEntry R) := s.entries[index]?

def getEntries (s : MemoryState R) (start : Nat) (limit : Option Nat) : List (LogEntry R) :=
  (s.entries.drop start).take (limit.getD s.entries.length)

def setInitialMembership (s : MemoryState R) (membership : MembershipMap) :
    Result Unit × MemoryState R :=
  if s.membership.ids = [] then (.ok (), { s with membership })
  else (.error (.message "membership already set"), s)

instance instState : State (MemoryState R) R where
  appendEntries s entries := (.ok (), s.appendEntries entries)
  removeEntriesAfter s index := (.ok (), s.removeEntriesAfter index)
  getEntry := getEntry
  getEntries := getEntries
  getLastIndex s := s.entries.length
  getLastTerm := getLastTerm
  getLastCommitIndex s := s.commitIndex
  getMembership s := s.membership
  setInitialMembership := setInitialMembership
  setLastCommitIndex s index := (.ok (), { s with commitIndex := index })
  loadVotedFor s := s.votedFor
  loadCurrentTerm s := s.currentTerm
  storeVotedFor s votedFor := (.ok (), { s with votedFor := some votedFor })
  storeCurrentTerm s term := (.ok (), { s with currentTerm := term })

instance instRecordsVotes : RecordsVotes (MemoryState R) R where
  storeCurrentTerm_ok _ _ := rfl
  storeVotedFor_ok _ _ := rfl
  getLastIndex_storeCurrentTerm _ _ := rfl
  getLastIndex_storeVotedFor _ _ := rfl
  getLastTerm_storeCurrentTerm _ _ := rfl
  getLastTerm_storeVotedFor _ _ := rfl

end MemoryState

end Zeroraft
