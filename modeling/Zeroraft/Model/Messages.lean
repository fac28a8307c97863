import Mathlib.Algebra.Group.Nat.Defs
import Mathlib.Data.List.Nodup

/-!
# Log entries, requests and responses

The wire types of the crate. A node id is a random UUID of which only equality
is ever tested, so any countable type of ids will do. Terms and log indices are
`u64` in the source; they are natural numbers here, and the two places that reach
the end of the range say what happens there: `incrementTerm` wraps around, and
`recordAppended` panics, as in a build with overflow checks.
-/

namespace Zeroraft

abbrev NodeId := Nat

/-- The modulus of `u64` arithmetic. -/
def u64Size : Nat := 2 ^ 64

inductive ZeroraftError where
  | message (text : String)
  | tokioSendError (text : String)
  | stateMachineError (text : String)
  deriving DecidableEq, Repr

abbrev Result (α : Type) := Except ZeroraftError α

inductive Command (R : Type) where
  | singleConfig (ids : List NodeId)
  | jointConfig (old new : List NodeId)
  | clientRequest (request : R)
  deriving DecidableEq, Repr

structure LogEntry (R : Type) where
  term : Nat
  command : Command R
  deriving DecidableEq, Repr

/-- The membership map; the socket addresses it also holds are only used to
open connections. -/
structure MembershipMap where
  ids : List NodeId
  nodup : ids.Nodup
  deriving DecidableEq

def MembershipMap.empty : MembershipMap := ⟨[], List.nodup_nil⟩

theorem nodup_pair : [1, 2].Nodup := by decide

theorem nodup_triple : [1, 2, 3].Nodup := by decide

structure AppendEntriesRequest (R : Type) where
  term : Nat
  leaderId : NodeId
  lastCommitIndex : Nat
  prevLogIndex : Nat
  prevLogTerm : Nat
  entries : List (LogEntry R)
  deriving DecidableEq, Repr

structure RequestVoteRequest where
  term : Nat
  candidateId : NodeId
  lastLogIndex : Nat
  lastLogTerm : Nat
  deriving DecidableEq, Repr

inductive AppendEntriesResponseReason where
  | staleTerm
  | logMismatch
  | ok
  deriving DecidableEq, Repr

structure AppendEntriesResponse where
  term : Nat
  success : Bool
  id : NodeId
  len : Nat
  reason : AppendEntriesResponseReason
  deriving DecidableEq, Repr

inductive RequestVoteResponseReason where
  | staleTerm
  | alreadyVoted
  | incompleteLog
  | ok
  deriving DecidableEq, Repr

structure RequestVoteResponse where
  term : Nat
  voteGranted : Bool
  id : NodeId
  reason : RequestVoteResponseReason
  deriving DecidableEq, Repr

inductive ClientResponseReason where
  | noLeaderYet
  | redirect
  | ok
  deriving DecidableEq, Repr

/-- A client response; the payload is left out, every response of the crate has
`None` there. -/
structure ClientResponse where
  success : Bool
  reason : ClientResponseReason
  leaderId : Option NodeId
  deriving DecidableEq, Repr

/-- The channel a response goes back on: the requesting node, the task of that
node which waits for the response, and whether the receiver has been dropped. -/
structure Sender where
  node : NodeId
  task : Nat
  closed : Bool := false
  deriving DecidableEq, Repr

/-- The running state of a Raft node. -/
inductive TaskState where
  | follower
  | candidate
  | leader
  | nonVoter
  | shutdown
  deriving DecidableEq, Repr

end Zeroraft
