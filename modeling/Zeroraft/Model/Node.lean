import Zeroraft.Model.State

/-!
# The node and its small operations

`RaftNode` holds the fields of `RaftNodeInner` that the protocol reads. The
methods of `node.rs` are computations of `NodeM`: they read and change the node
and may fail, in which case the changes made before the failure stay.
-/

namespace Zeroraft

structure RaftNode (S : Type) where
  id : NodeId
  currentTerm : Nat
  votedFor : Option NodeId
  state : S
  currentState : TaskState
  leaderId : Option NodeId

def NodeM (S α : Type) := RaftNode S → Result α × RaftNode S

namespace NodeM

variable {S α β γ : Type}

def run (x : NodeM S α) (node : RaftNode S) : Result α × RaftNode S := x node

def bind (x : NodeM S α) (f : α → NodeM S β) : NodeM S β := fun node =>
  match x.run node with
  | (.ok a, node') => (f a).run node'
  | (.error e, node') => (.error e, node')

instance : Monad (NodeM S) where
  pure a := fun node => (.ok a, node)
  bind := NodeM.bind

/-- A read of the node, under one lock acquisition or one atomic load. -/
def read (f : RaftNode S → α) : NodeM S α := fun node => (.ok (f node), node)

def modify (f : RaftNode S → RaftNode S) : NodeM S Unit := fun node => (.ok (), f node)

/-- An operation of the `State` followed by `?`. -/
def modifyState (f : S → Result Unit × S) : NodeM S Unit := fun node =>
  ((f node.state).1, { node with state := (f node.state).2 })

@[simp] theorem run_pure (a : α) (node : RaftNode S) :
    (pure a : NodeM S α).run node = (.ok a, node) := rfl

theorem run_bind (x : NodeM S α) (f : α → NodeM S β) (node : RaftNode S) :
    (x >>= f).run node = match x.run node with
      | (.ok a, node') => (f a).run node'
      | (.error e, node') => (.error e, node') := rfl

@[simp] theorem run_ite (c : Prop) [Decidable c] (x y : NodeM S α) (node : RaftNode S) :
    (if c then x else y).run node = if c then x.run node else y.run node := by
  split <;> rfl

@[simp] theorem run_modify (g : RaftNode S → RaftNode S) (node : RaftNode S) :
    (modify g).run node = (.ok (), g node) := rfl

@[simp] theorem run_read_bind (g : RaftNode S → α) (f : α → NodeM S β) (node : RaftNode S) :
    (read g >>= f).run node = (f (g node)).run node := rfl

@[simp] theorem run_modify_bind (g : RaftNode S → RaftNode S) (f : Unit → NodeM S β)
    (node : RaftNode S) : (modify g >>= f).run node = (f ()).run (g node) := rfl

theorem run_modifyState_bind {g : S → Result Unit × S} {node : RaftNode S}
    (h : (g node.state).1 = .ok ()) (f : Unit → NodeM S β) :
    (modifyState g >>= f).run node = (f ()).run { node with state := (g node.state).2 } := by
  rw [run_bind]
  simp only [run, modifyState, h]

@[simp] theorem run_bind_assoc (x : NodeM S α) (f : α → NodeM S β) (g : β → NodeM S γ)
    (node : RaftNode S) : ((x >>= f) >>= g).run node = (x >>= fun a => f a >>= g).run node := by
  simp only [run_bind]
  rcases x.run node with ⟨⟨_⟩ | ⟨_⟩, _⟩ <;> rfl

end NodeM

section Sending

variable {S α : Type}

/-- `response_tx.send(..).await?`: the response goes out unless the receiver has
been dropped. -/
def Sender.send (responseTx : Sender) (response : α) : NodeM S α := fun node =>
  if responseTx.closed then (.error (.tokioSendError "channel closed"), node)
  else (.ok response, node)

@[simp] theorem Sender.run_send_snd (responseTx : Sender) (response : α) (node : RaftNode S) :
    ((responseTx.send response).run node).2 = node := by
  unfold NodeM.run Sender.send
  split <;> rfl

theorem Sender.run_send_eq_ok_iff {responseTx : Sender} {response response' : α}
    {node node' : RaftNode S} :
    (responseTx.send response).run node = (.ok response', node') ↔
      responseTx.closed = false ∧ response = response' ∧ node = node' := by
  unfold NodeM.run Sender.send
  cases responseTx.closed <;> simp

end Sending

section Methods

variable {S R : Type}

def getCurrentTerm : NodeM S Nat := NodeM.read (·.currentTerm)

def getId : NodeM S NodeId := NodeM.read (·.id)

def getVotedFor : NodeM S (Option NodeId) := NodeM.read (·.votedFor)

def changeToFollowerState : NodeM S Unit :=
  NodeM.modify fun node => { node with currentState := .follower }

def changeToCandidateState : NodeM S Unit :=
  NodeM.modify fun node => { node with currentState := .candidate }

def changeToLeaderState : NodeM S Unit :=
  NodeM.modify fun node => { node with currentState := .leader }

def changeToShutdownState : NodeM S Unit :=
  NodeM.modify fun node => { node with currentState := .shutdown }

/-- `fetch_add` on an atomic wraps around. -/
def incrementTerm : NodeM S Unit :=
  NodeM.modify fun node => { node with currentTerm := (node.currentTerm + 1) % u64Size }

def voteForSelf : NodeM S Unit :=
  NodeM.modify fun node => { node with votedFor := some node.id }

def setCurrentTerm (term : Nat) : NodeM S Unit :=
  NodeM.modify fun node => { node with currentTerm := term }

def setVotedFor (candidateId : NodeId) : NodeM S Unit :=
  NodeM.modify fun node => { node with votedFor := some candidateId }

def updateCurrentTermAndVotedFor [State S R] (term : Nat) (candidateId : NodeId) :
    NodeM S Unit := do
  -- Persisted first, then in memory.
  NodeM.modifyState (State.storeCurrentTerm · term)
  NodeM.modifyState (State.storeVotedFor · candidateId)
  setCurrentTerm term
  setVotedFor candidateId

def updateCurrentTerm [State S R] (term : Nat) : NodeM S Unit := do
  NodeM.modifyState (State.storeCurrentTerm · term)
  setCurrentTerm term

def updateLeaderId (leaderId : NodeId) : NodeM S Unit :=
  NodeM.modify fun node => { node with leaderId := some leaderId }

end Methods

end Zeroraft
