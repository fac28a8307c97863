import Zeroraft.Properties.VoteRecord

/-!
# The term in a response

Both handlers read the term on entry and put it into whatever they answer, also
after they have moved the node to the term of the request.
-/

namespace Zeroraft

variable {S R : Type}

section Ensures

variable {α β : Type}

/-- If the computation succeeds from a node with `P`, its result and the node it
leaves satisfy `Q`. -/
def NodeM.Ensures (P : RaftNode S → Prop) (x : NodeM S α) (Q : α → RaftNode S → Prop) : Prop :=
  ∀ node, P node → ∀ a node', x.run node = (.ok a, node') → Q a node'

variable {P : RaftNode S → Prop} {Q : α → RaftNode S → Prop}

theorem NodeM.Ensures.bind (mid : β → RaftNode S → Prop) {x : NodeM S β} {next : β → NodeM S α}
    (hx : x.Ensures P mid) (hNext : ∀ b, (next b).Ensures (mid b) Q) :
    (x >>= next).Ensures P Q := by
  intro node hPre a node' hRun
  rw [NodeM.run_bind] at hRun
  rcases hFirst : x.run node with ⟨⟨e⟩ | ⟨b⟩, between⟩
  · rw [hFirst] at hRun
    cases hRun
  · rw [hFirst] at hRun
    exact hNext b between (hx node hPre b between hFirst) a node' hRun

theorem NodeM.Ensures.ite {c : Prop} [Decidable c] {x y : NodeM S α} (hx : x.Ensures P Q)
    (hy : y.Ensures P Q) : (if c then x else y).Ensures P Q := by
  split
  · exact hx
  · exact hy

theorem NodeM.ensures_read {g : RaftNode S → α} (h : ∀ node, P node → Q (g node) node) :
    (NodeM.read g).Ensures P Q := by
  rintro node hPre a node' ⟨⟩
  exact h node hPre

theorem NodeM.ensures_modify {g : RaftNode S → RaftNode S} {Q : Unit → RaftNode S → Prop}
    (h : ∀ node, P node → Q () (g node)) : (NodeM.modify g).Ensures P Q := by
  rintro node hPre a node' ⟨⟩
  exact h node hPre

theorem NodeM.ensures_modifyState {operation : S → Result Unit × S}
    {Q : Unit → RaftNode S → Prop}
    (h : ∀ node, P node → Q () { node with state := (operation node.state).2 }) :
    (NodeM.modifyState operation).Ensures P Q := by
  intro node hPre a node' hRun
  have hNode : { node with state := (operation node.state).2 } = node' := congrArg Prod.snd hRun
  rw [← hNode]
  exact h node hPre

theorem Sender.ensures_send {responseTx : Sender} {response : α}
    (h : ∀ node, P node → Q response node) : (responseTx.send response).Ensures P Q := by
  intro node hPre a node' hRun
  obtain ⟨-, rfl, rfl⟩ := Sender.run_send_eq_ok_iff.mp hRun
  exact h node hPre

end Ensures

section Handlers

variable [State S R] {responseTx : Sender}

def InTerm (term : Nat) (node : RaftNode S) : Prop := node.currentTerm = term

def Anywhere (_ : RaftNode S) : Prop := True

theorem updateCurrentTerm_inTerm (term : Nat) :
    (updateCurrentTerm term : NodeM S Unit).Ensures Anywhere fun _ => InTerm term := by
  refine NodeM.Ensures.bind (fun _ => Anywhere) ?_ fun _ => ?_
  · exact NodeM.ensures_modifyState fun _ _ => trivial
  · exact NodeM.ensures_modify fun _ _ => rfl

theorem updateCurrentTermAndVotedFor_inTerm (term : Nat) (candidateId : NodeId) :
    (updateCurrentTermAndVotedFor term candidateId : NodeM S Unit).Ensures Anywhere
      fun _ => InTerm term := by
  refine NodeM.Ensures.bind (fun _ => Anywhere) ?_ fun _ => ?_
  · exact NodeM.ensures_modifyState fun _ _ => trivial
  refine NodeM.Ensures.bind (fun _ => Anywhere) ?_ fun _ => ?_
  · exact NodeM.ensures_modifyState fun _ _ => trivial
  refine NodeM.Ensures.bind (fun _ => InTerm term) ?_ fun _ => ?_
  · exact NodeM.ensures_modify fun _ _ => rfl
  · exact NodeM.ensures_modify fun _ h => h

/-- The answer to a vote request has the old term, the node the higher one of the two. -/
theorem respondToRequestVote_term {request : RequestVoteRequest} {node node' : RaftNode S}
    {response : RequestVoteResponse}
    (h : (respondToRequestVote request responseTx).run node = (.ok response, node')) :
    response.term = node.currentTerm ∧ node'.currentTerm = max node.currentTerm request.term := by
  simp only [respondToRequestVote, getCurrentTerm, getId, getVotedFor, NodeM.run_read_bind,
    NodeM.run_ite] at h
  split at h
  · obtain ⟨-, rfl, rfl⟩ := Sender.run_send_eq_ok_iff.mp h
    exact ⟨rfl, by omega⟩
  split at h
  · obtain ⟨-, rfl, rfl⟩ := Sender.run_send_eq_ok_iff.mp h
    exact ⟨rfl, by omega⟩
  · have hMax : max node.currentTerm request.term = request.term := by omega
    rw [hMax]
    -- From the update on, nothing leaves the request's term.
    refine NodeM.Ensures.bind (fun _ => InTerm request.term)
      (Q := fun response node' => response.term = node.currentTerm ∧ InTerm request.term node')
      (updateCurrentTermAndVotedFor_inTerm request.term request.candidateId) (fun _ => ?_)
      node trivial response node' h
    refine NodeM.Ensures.bind (fun _ => InTerm request.term) ?_ fun _ => ?_
    · exact NodeM.ensures_modify fun _ h => h
    refine NodeM.Ensures.bind (fun _ => InTerm request.term) ?_ fun _ => ?_
    · exact NodeM.ensures_read fun _ h => h
    refine NodeM.Ensures.bind (fun _ => InTerm request.term) ?_ fun _ => ?_
    · exact NodeM.ensures_read fun _ h => h
    exact (Sender.ensures_send fun _ h => ⟨rfl, h⟩).ite (Sender.ensures_send fun _ h => ⟨rfl, h⟩)

theorem respondToAppendEntries_term {request : AppendEntriesRequest R} {node node' : RaftNode S}
    {response : AppendEntriesResponse}
    (h : (respondToAppendEntries request responseTx).run node = (.ok response, node')) :
    response.term = node.currentTerm ∧ node'.currentTerm = max node.currentTerm request.term := by
  simp only [respondToAppendEntries, getCurrentTerm, getId, NodeM.run_read_bind,
    NodeM.run_ite] at h
  split at h
  · obtain ⟨-, rfl, rfl⟩ := Sender.run_send_eq_ok_iff.mp h
    exact ⟨rfl, by omega⟩
  · have hMax : max node.currentTerm request.term = request.term := by omega
    rw [hMax]
    refine NodeM.Ensures.bind (fun _ => InTerm request.term)
      (Q := fun response node' => response.term = node.currentTerm ∧ InTerm request.term node')
      (updateCurrentTerm_inTerm request.term) (fun _ => ?_) node trivial response node' h
    refine NodeM.Ensures.bind (fun _ => InTerm request.term) ?_ fun _ => ?_
    · exact NodeM.ensures_modify fun _ h => h
    refine NodeM.Ensures.bind (fun _ => InTerm request.term) ?_ fun _ => ?_
    · exact NodeM.ensures_modify fun _ h => h
    refine NodeM.Ensures.ite (Sender.ensures_send fun _ h => ⟨rfl, h⟩) ?_
    refine NodeM.Ensures.bind (fun _ => InTerm request.term) ?_ fun _ => ?_
    · exact NodeM.ensures_read fun _ h => h
    refine NodeM.Ensures.ite (Sender.ensures_send fun _ h => ⟨rfl, h⟩) ?_
    refine NodeM.Ensures.bind (fun _ => InTerm request.term) ?_ fun _ => ?_
    · exact NodeM.ensures_modifyState fun _ h => h
    refine NodeM.Ensures.bind (fun _ => InTerm request.term) ?_ fun _ => ?_
    · exact NodeM.ensures_modifyState fun _ h => h
    refine NodeM.Ensures.bind (fun _ => InTerm request.term) ?_ fun _ => ?_
    · exact NodeM.ensures_read fun _ h => h
    refine NodeM.Ensures.bind (fun _ => InTerm request.term) ?_ fun _ => ?_
    · exact NodeM.ensures_modifyState fun _ h => h
    exact Sender.ensures_send fun _ h => ⟨rfl, h⟩

end Handlers

section Responses

variable [State S R] {responseTx : Sender}

/-- The term in a response is the one that the responder has when it sends it, and so
not below the term of the request. -/
def ReportsTerm (responseTerm requestTerm : Nat) (node : RaftNode S) : Prop :=
  responseTerm = node.currentTerm ∧ requestTerm ≤ responseTerm

omit [State S R] in
theorem reportsTerm_of_max {responseTerm requestTerm : Nat} {node node' : RaftNode S}
    (hResponse : responseTerm = node.currentTerm)
    (hTerm : node'.currentTerm = max node.currentTerm requestTerm) :
    ReportsTerm responseTerm requestTerm node' ↔ requestTerm ≤ node.currentTerm := by
  unfold ReportsTerm
  omega

theorem responses_reportTerm_iff (node : RaftNode S) (responseTx : Sender) :
    (∀ (request : RequestVoteRequest) (response : RequestVoteResponse) (node' : RaftNode S),
      (respondToRequestVote request responseTx).run node = (.ok response, node') →
        (ReportsTerm response.term request.term node' ↔ request.term ≤ node.currentTerm)) ∧
    ∀ (request : AppendEntriesRequest R) (response : AppendEntriesResponse) (node' : RaftNode S),
      (respondToAppendEntries request responseTx).run node = (.ok response, node') →
        (ReportsTerm response.term request.term node' ↔ request.term ≤ node.currentTerm) := by
  constructor
  · intro request response node' hRun
    obtain ⟨hResponse, hTerm⟩ := respondToRequestVote_term hRun
    exact reportsTerm_of_max hResponse hTerm
  · intro request response node' hRun
    obtain ⟨hResponse, hTerm⟩ := respondToAppendEntries_term hRun
    exact reportsTerm_of_max hResponse hTerm

def firstTermNode : RaftNode (Stored Nat) where
  id := 1
  currentTerm := 1
  votedFor := none
  state := ⟨[], 0, ⟨[1, 2], nodup_pair⟩, none, 1⟩
  currentState := .follower
  leaderId := none

/-- An answer in the same term says what it should. -/
theorem responses_reportTerm_sameTerm :
    ReportsTerm 1 1 ((respondToRequestVote ⟨1, 2, 0, 0⟩ ⟨2, 0, false⟩).run firstTermNode).2 :=
  ((responses_reportTerm_iff firstTermNode ⟨2, 0, false⟩).1 ⟨1, 2, 0, 0⟩ ⟨1, true, 1, .ok⟩ _ rfl).mpr
    (by decide)

/-- The vote for term 2 is granted in the name of term 1, a term the voter has left. -/
theorem granted_vote_reports_old_term :
    ∃ response node', (respondToRequestVote ⟨2, 2, 0, 0⟩ ⟨2, 0, false⟩).run firstTermNode =
        (.ok response, node') ∧
      response.voteGranted = true ∧ response.term = 1 ∧ node'.currentTerm = 2 ∧
      ¬ ReportsTerm response.term 2 node' :=
  ⟨_, _, rfl, rfl, rfl, rfl, fun h => absurd h.2 (by decide)⟩

end Responses

end Zeroraft
