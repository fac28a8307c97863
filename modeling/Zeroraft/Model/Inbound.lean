import Zeroraft.Model.Builder
import Zeroraft.Model.Candidate

/-!
# Sequences of inbound events

What happens to a node whose main loop handles requests and starts vote sessions
one after the other, together with the votes it casts on the way: a vote for
another node is cast when the grant is sent, a vote for itself when a session
has been initialised.
-/

namespace Zeroraft

variable {S R : Type} [State S R]

inductive Inbound (R : Type) where
  | requestVote (request : RequestVoteRequest) (responseTx : Sender)
  | appendEntries (request : AppendEntriesRequest R) (responseTx : Sender)
  | startSession

/-- A term and the candidate that the node voted for in it. -/
structure Vote where
  term : Nat
  candidate : NodeId
  deriving DecidableEq, Repr

def grantedVote (request : RequestVoteRequest) : Result RequestVoteResponse → Option Vote
  | .ok response => if response.voteGranted then some ⟨request.term, request.candidateId⟩ else none
  | .error _ => none

def Inbound.handle (node : RaftNode S) : Inbound R → RaftNode S × Option Vote
  | .requestVote request responseTx =>
    let (result, node') := (respondToRequestVote request responseTx).run node
    (node', grantedVote request result)
  | .appendEntries request responseTx =>
    (((respondToAppendEntries request responseTx).run node).2, none)
  | .startSession =>
    let node' := (initializeVoteSession.run node).2
    (node', some ⟨node'.currentTerm, node'.id⟩)

/-- The node after a sequence of events and the votes cast, oldest first. -/
def handleAll (node : RaftNode S) : List (Inbound R) → RaftNode S × List Vote
  | [] => (node, [])
  | event :: rest =>
    let (node', vote) := event.handle node
    let (last, votes) := handleAll node' rest
    (last, vote.toList ++ votes)

@[simp] theorem handleAll_nil (node : RaftNode S) :
    handleAll node ([] : List (Inbound R)) = (node, []) := rfl

@[simp] theorem handleAll_cons (node : RaftNode S) (event : Inbound R)
    (rest : List (Inbound R)) :
    handleAll node (event :: rest) =
      ((handleAll (event.handle node).1 rest).1,
        (event.handle node).2.toList ++ (handleAll (event.handle node).1 rest).2) := rfl

theorem handleAll_append (node : RaftNode S) (first second : List (Inbound R)) :
    handleAll node (first ++ second) =
      ((handleAll (handleAll node first).1 second).1,
        (handleAll node first).2 ++ (handleAll (handleAll node first).1 second).2) := by
  induction first generalizing node with
  | nil => rfl
  | cons event rest ih => simp [ih]

/-- What one event preserves, a sequence of events preserves. -/
theorem handleAll_induction {Inv : RaftNode S → Prop} {Allowed : Inbound R → Prop}
    (hStep : ∀ node event, Allowed event → Inv node → Inv (event.handle node).1)
    (node : RaftNode S) (events : List (Inbound R)) (hAllowed : ∀ event ∈ events, Allowed event)
    (hNode : Inv node) : Inv (handleAll node events).1 := by
  induction events generalizing node with
  | nil => exact hNode
  | cons event rest ih =>
    exact ih _ (fun e he => hAllowed e (List.mem_cons_of_mem _ he))
      (hStep node event (hAllowed event List.mem_cons_self) hNode)

end Zeroraft
