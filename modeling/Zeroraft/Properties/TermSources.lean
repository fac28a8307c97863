import Mathlib.Algebra.Order.BigOperators.Group.List
import Mathlib.Algebra.Order.Group.Nat
import Mathlib.Algebra.Ring.Nat
import Zeroraft.Library.Provenance
import Zeroraft.Properties.ElectionSafety
import Zeroraft.Runtime.Deliveries
import Zeroraft.Runtime.Responses
import Zeroraft.Runtime.TermSteps

/-!
# Where terms come from

Requests and responses carry terms from node to node, and handlers and tasks write them.
Only a node that starts a vote session makes a term that was not there, one further than
its own. So terms grow at most by one for each session that is started in the cluster.
-/

namespace Zeroraft

variable {S R : Type}

def StepDownPc.terms : StepDownPc → List Nat
  | .storeCurrentTerm term | .setCurrentTerm term => [term]
  | .becomeFollower => []

def RequestVotePc.terms : RequestVotePc → List Nat
  | .loadTerm => []
  | .readVotedFor ourTerm | .storeCurrentTerm ourTerm | .storeVotedFor ourTerm
  | .setCurrentTerm ourTerm | .setVotedFor ourTerm | .becomeFollower ourTerm
  | .readLastIndex ourTerm | .readLastTerm ourTerm _ => [ourTerm]
  | .send response => [response.term]

def AppendEntriesPc.terms : AppendEntriesPc → List Nat
  | .loadTerm => []
  | .readLastIndex ourTerm | .storeCurrentTerm ourTerm _ | .setCurrentTerm ourTerm _
  | .setLeaderId ourTerm _ | .becomeFollower ourTerm _ | .readEntry ourTerm
  | .removeEntries ourTerm | .appendEntries ourTerm | .readNewLastIndex ourTerm
  | .setCommit ourTerm _ => [ourTerm]
  | .send response => [response.term]

def PeerRpc.term : PeerRpc R → Nat
  | .requestVote request => request.term
  | .appendEntries request => request.term

def Main.terms : Main R → List Nat
  | .requestVote _ request _ pc => request.term :: pc.terms
  | .appendEntries _ request _ pc => request.term :: pc.terms
  | _ => []

def Task.terms : Task R → List Nat
  | .round _ (.stepDown pc) | .heartbeat _ (.stepDown pc) | .standby _ (.stepDown pc) => pc.terms
  | .voteSend _ _ _ (.wait request) => [request.term]
  | .voteSend _ _ _ (.forwarded answer) => [answer.request.term, answer.response.term]
  | .heartbeat _ (.lockPeers response) | .standby _ (.lockPeers response) => [response.term]
  | .heartbeatSend _ _ (.send request) | .peerLoop _ _ _ (.send request) => [request.term]
  | .heartbeatSend _ _ (.forward response) | .peerLoop _ _ _ (.forward response) => [response.term]
  | _ => []

def Reply.terms : Reply R → List Nat
  | .requestVote _ answer => [answer.request.term, answer.response.term]
  | .appendEntries _ request response => [request.term, response.term]
  | .client _ _ => []

def Action.terms : Action R → List Nat
  | .event (.requestVote request _) => [request.term]
  | .event (.appendEntries request _) => [request.term]
  | .answerVote _ response => [response.term]
  | .answerAppend _ response => [response.term]
  | _ => []

/-- The term of the node, and those of the requests and responses that it deals with or
has sent. -/
inductive Machine.HasTerm (m : Machine S R) : Nat → Prop
  | current : HasTerm m m.node.currentTerm
  | main {term : Nat} (h : term ∈ m.main.terms) : HasTerm m term
  | task {k term : Nat} {task : Task R} (hTask : m.tasks[k]? = some task)
      (h : term ∈ task.terms) : HasTerm m term
  | sent {out : OutRpc R} (hOut : out ∈ m.outRpc) : HasTerm m out.rpc.term
  | reply {term : Nat} {reply : Reply R} (hReply : reply ∈ m.replies)
      (h : term ∈ reply.terms) : HasTerm m term
  | queued {owner : Nat} {response : AppendEntriesResponse}
      (hEntry : (owner, response) ∈ m.appendRx) : HasTerm m response.term

/-- The main loop is about to count its term up to this one for a vote session. -/
def Machine.Campaigns (m : Machine S R) (term : Nat) : Prop :=
  m.main = .incrementTerm ∧ term = (m.node.currentTerm + 1) % u64Size

variable [State S R] {m m' : Machine S R} {action : Action R} {term : Nat}

section Main

theorem RequestVotePc.Edge.terms {ourId : NodeId} {request : RequestVoteRequest}
    {node : RaftNode S} {pc pc' : RequestVotePc} (h : pc.Edge ourId request node pc')
    (hTerm : term ∈ pc'.terms) : term = node.currentTerm ∨ term ∈ pc.terms := by
  cases h with
  | same _ | stale _ | newer _ => exact Or.inl (List.mem_singleton.mp hTerm)
  | _ => exact Or.inr hTerm

theorem AppendEntriesPc.Edge.terms {ourId : NodeId} {request : AppendEntriesRequest R}
    {node : RaftNode S} {pc pc' : AppendEntriesPc} (h : pc.Edge ourId request node pc')
    (hTerm : term ∈ pc'.terms) : term = node.currentTerm ∨ term ∈ pc.terms := by
  cases h with
  | loaded => exact Or.inl (List.mem_singleton.mp hTerm)
  | _ => exact Or.inr hTerm

end Main

section Tasks

theorem StepDownStepped.terms {wrap : StepDownPc → Task R} {pc : StepDownPc} {task' : Task R}
    (hWrap : ∀ pc, (wrap pc).terms = pc.terms) (h : StepDownStepped wrap m pc task' m')
    (hTerm : term ∈ task'.terms) : term ∈ pc.terms := by
  cases h with
  | stored =>
    rw [hWrap] at hTerm
    exact hTerm
  | setTerm =>
    rw [hWrap] at hTerm
    cases hTerm
  | failed | follower => cases hTerm

omit [State S R] in
theorem hasTerm_of_find {owner : Nat} {response : AppendEntriesResponse}
    {p : Nat × AppendEntriesResponse → Bool} (hRx : m.appendRx.find? p = some (owner, response))
    (hTerm : term ∈ [response.term]) : m.HasTerm term :=
  List.mem_singleton.mp hTerm ▸ Machine.HasTerm.queued (List.mem_of_find?_eq_some hRx)

theorem VoteStepped.terms {k : Nat} {task task' : Task R} (h : VoteStepped m k task task' m')
    (hTerm : term ∈ task'.terms) : m.HasTerm term ∨ term ∈ task.terms := by
  cases h with
  | stepDown h => exact Or.inr (h.terms (fun _ => rfl) hTerm)
  | requested => exact Or.inl (List.mem_singleton.mp hTerm ▸ Machine.HasTerm.current)
  | _ => cases hTerm

theorem ReplicationStepped.terms {k : Nat} {task task' : Task R}
    (h : ReplicationStepped m k task task' m') (hTerm : term ∈ task'.terms) :
    m.HasTerm term ∨ term ∈ task.terms := by
  cases h with
  | heartbeatRecv hRx | standbyRecv hRx => exact Or.inl (hasTerm_of_find hRx hTerm)
  | heartbeatStale _ _ | standbyStale _ _ => exact Or.inr hTerm
  | heartbeatStepDown h | standbyStepDown h => exact Or.inr (h.terms (fun _ => rfl) hTerm)
  | composed => exact Or.inl (List.mem_singleton.mp hTerm ▸ Machine.HasTerm.current)
  | _ => cases hTerm

theorem Task.Local.terms {k : Nat} {task task' : Task R} (h : task.Local action k task')
    (hTerm : term ∈ task'.terms) : term ∈ action.terms := by
  cases h.moved with
  | heartbeatAnswered | loopAnswered => exact hTerm
  | ended _ | elapsed => cases hTerm

theorem Spawned.terms {task : Task R} (h : Spawned m action task) (hTerm : term ∈ task.terms) :
    m.HasTerm term := by
  cases h with
  | heartbeatSend _ => exact List.mem_singleton.mp hTerm ▸ Machine.HasTerm.current
  | _ => cases hTerm

end Tasks

section Sessions

def Main.initializes : Main R → Bool
  | .voteForSelf => true
  | _ => false

/-- The vote sessions of the node, with one that it has counted the term up for. -/
def Machine.sessionsStarted (m : Machine S R) : Nat :=
  m.voteSessions.length + m.main.initializes.toNat

theorem Machine.Campaigns.step (h : m.Campaigns term) (hStep : m.step .main = some m') :
    m'.main = .voteForSelf ∧ m'.node.currentTerm = term := by
  obtain ⟨hMain, rfl⟩ := h
  simp only [Machine.step, mainStep, hMain] at hStep
  cases hStep
  exact ⟨rfl, rfl⟩

theorem Machine.Campaigns.sessionsStarted (h : m.Campaigns term)
    (hStep : m.step .main = some m') : m.sessionsStarted < m'.sessionsStarted := by
  obtain ⟨hMain, _⟩ := h
  simp only [Machine.step, mainStep, hMain] at hStep
  cases hStep
  simp only [Machine.sessionsStarted, hMain, Main.initializes, Bool.toNat_false, Bool.toNat_true]
  omega

end Sessions

namespace Cluster

variable [DecidableEq R] {members : MembershipMap} {initial c c' : Cluster S R} {i : NodeId}

def HasTerm (c : Cluster S R) (term : Nat) : Prop := ∃ i, (c i).HasTerm term

/-- In the step a member starts a vote session, in the term. -/
def Campaigns (members : MembershipMap) (c c' : Cluster S R) (term : Nat) : Prop :=
  ∃ i ∈ members.ids, (c i).Campaigns term ∧ (c' i).main = .voteForSelf ∧
    (c' i).node.currentTerm = term

/-- The sessions that the members have started. -/
def sessionsStarted (members : MembershipMap) (c : Cluster S R) : Nat :=
  (members.ids.map fun i => (c i).sessionsStarted).sum

end Cluster

variable [DecidableEq R]

end Zeroraft
