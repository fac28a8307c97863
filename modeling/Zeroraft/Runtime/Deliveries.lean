import Zeroraft.Runtime.Cluster
import Zeroraft.Runtime.Turns

/-!
# Where requests and responses come from

A request that a node handles or has answered was sent to it by the task that the
channel for the response names, and a vote response that has arrived was sent by the
node that it names, in answer to the request of the task that waited for it.
-/

namespace Zeroraft

variable {S R : Type}

/-- The request that the main loop is in the course of answering. -/
def Main.handling : Main R → Option (PeerRpc R × Sender)
  | .requestVote _ request responseTx _ => some (.requestVote request, responseTx)
  | .appendEntries _ request responseTx _ => some (.appendEntries request, responseTx)
  | _ => none

def Reply.answered : Reply R → Option (PeerRpc R × Sender)
  | .requestVote responseTx answer => some (.requestVote answer.request, responseTx)
  | .appendEntries responseTx request _ => some (.appendEntries request, responseTx)
  | .client _ _ => none

def Action.delivers : Action R → Option (PeerRpc R × Sender)
  | .event (.requestVote request responseTx) => some (.requestVote request, responseTx)
  | .event (.appendEntries request responseTx) => some (.appendEntries request, responseTx)
  | _ => none

/-- The node is handling the request or has answered it. -/
def Machine.Took (m : Machine S R) (received : PeerRpc R × Sender) : Prop :=
  m.main.handling = some received ∨ ∃ reply ∈ m.replies, reply.answered = some received

/-- The request that a task has sent, if it has. -/
def Task.SentFits (m : Machine S R) (k : Nat) : Task R → Prop
  | .voteSend _ _ _ (.wait request) | .voteSend _ _ _ (.forwarded ⟨request, _⟩) =>
    ∀ out ∈ m.outRpc, out.task = k → out.rpc = .requestVote request
  | .voteSend _ _ _ _ => ∀ out ∈ m.outRpc, out.task ≠ k
  | .heartbeatSend _ _ (.send request) =>
    request.prevLogIndex = 0 ∧ ∀ out ∈ m.outRpc, out.task ≠ k
  | .heartbeatSend _ _ _ => ∀ out ∈ m.outRpc, out.task = k →
    ∃ request, out.rpc = .appendEntries request ∧ request.prevLogIndex = 0
  | _ => True

/-- Tasks send at most one request for a vote, and keep it. -/
structure SentOnce (m : Machine S R) : Prop where
  below : ∀ out ∈ m.outRpc, out.task < m.tasks.length
  tasks : ∀ (k : Nat) (task : Task R), m.tasks[k]? = some task → task.SentFits m k
  answers : ∀ k answer, (k, answer) ∈ m.answers →
    (m.tasks[k]? = some .ended ∨
      ∃ i owner peer, m.tasks[k]? = some (.voteSend i owner peer (.forwarded answer))) ∧
    ∀ out ∈ m.outRpc, out.task = k → out.rpc = .requestVote answer.request

variable [State S R] {m m' : Machine S R} {action : Action R}

inductive Replied (m : Machine S R) : Reply R → Prop
  | requestVote {role : RoleLoop} {request : RequestVoteRequest} {responseTx : Sender}
      {response : RequestVoteResponse}
      (hMain : m.main = .requestVote role request responseTx (.send response)) :
      Replied m (.requestVote responseTx ⟨request, response⟩)
  | appendEntries {role : RoleLoop} {request : AppendEntriesRequest R} {responseTx : Sender}
      {response : AppendEntriesResponse}
      (hMain : m.main = .appendEntries role request responseTx (.send response)) :
      Replied m (.appendEntries responseTx request response)
  | client {role : RoleLoop} {responseTx : Sender} (hMain : m.main = .readLeaderId role responseTx)
      (response : ClientResponse) : Replied m (.client responseTx response)

theorem step_replies (hStep : m.step action = some m') :
    m'.replies = m.replies ∨ action = .main ∧ (∃ role, m'.main = .checkRole role) ∧
      ∃ reply, Replied m reply ∧ m'.replies = m.replies ++ [reply] := by
  cases step_cases hStep with
  | main h =>
    cases h with
    | requestVoteSent hMain => exact Or.inr ⟨rfl, ⟨_, rfl⟩, _, Replied.requestVote hMain, rfl⟩
    | appendEntriesSent hMain => exact Or.inr ⟨rfl, ⟨_, rfl⟩, _, Replied.appendEntries hMain, rfl⟩
    | redirected hMain => exact Or.inr ⟨rfl, ⟨_, rfl⟩, _, Replied.client hMain _, rfl⟩
    | @leave role _ _ => cases role <;> exact Or.inl rfl
    | _ => exact Or.inl rfl
  | select _ h =>
    left
    cases h <;> rfl
  | vote _ h | replicate _ h => exact Or.inl h.frame.replies
  | recv _ _ h =>
    obtain ⟨voteSessions, rfl⟩ := h.frame
    exact Or.inl rfl
  | overrun _ | answerVote _ | environment _ _ => exact Or.inl rfl

omit [State S R] in
theorem Replied.answered {reply : Reply R} {received : PeerRpc R × Sender} (h : Replied m reply)
    (hAnswered : reply.answered = some received) : m.main.handling = some received := by
  cases h with
  | requestVote hMain | appendEntries hMain => rw [hMain]; exact hAnswered
  | client _ _ => cases hAnswered

theorem step_handling (hStep : m.step action = some m') {received : PeerRpc R × Sender}
    (h : m'.main.handling = some received) :
    m.main.handling = some received ∨ action.delivers = some received := by
  cases step_cases hStep with
  | main hMain =>
    cases hMain with
    | requestVote hMain | appendEntries hMain =>
      left
      rw [hMain]
      exact h
    | leave _ _ =>
      rw [RoleLoop.leave_main] at h
      cases h
    | _ => cases h
  | select _ hSelect =>
    cases hSelect with
    | requestVote _ _ | appendEntries _ _ => exact Or.inr h
    | _ => cases h
  | vote _ hTask | replicate _ hTask => exact Or.inl (hTask.frame.main ▸ h)
  | recv _ _ hRecv =>
    obtain ⟨voteSessions, rfl⟩ := hRecv.frame
    exact Or.inl h
  | overrun _ => cases h
  | answerVote _ | environment _ _ => exact Or.inl h

theorem step_took (hStep : m.step action = some m') {received : PeerRpc R × Sender}
    (h : m'.Took received) : m.Took received ∨ action.delivers = some received := by
  rcases h with hHandling | ⟨reply, hReply, hAnswered⟩
  · exact (step_handling hStep hHandling).imp_left Or.inl
  · left
    rcases step_replies hStep with hSame | ⟨_, _, last, hLast, hNew⟩
    · exact Or.inr ⟨reply, hSame ▸ hReply, hAnswered⟩
    · rw [hNew] at hReply
      rcases List.mem_append.mp hReply with hOld | hMem
      · exact Or.inr ⟨reply, hOld, hAnswered⟩
      · rw [List.mem_singleton.mp hMem] at hAnswered
        exact Or.inl (hLast.answered hAnswered)

theorem step_out (hStep : m.step action = some m') {out : OutRpc R} (hOut : out ∈ m'.outRpc) :
    out ∈ m.outRpc ∨ Sent m action out := by
  rcases step_outRpc hStep with hSame | ⟨last, hSent, hNew⟩
  · exact Or.inl (hSame ▸ hOut)
  · rw [hNew] at hOut
    rcases List.mem_append.mp hOut with hOld | hMem
    · exact Or.inl hOld
    · exact Or.inr (List.mem_singleton.mp hMem ▸ hSent)

omit [State S R] in
theorem Task.SentFits.mono {k : Nat} {task : Task R}
    (hOld : ∀ out ∈ m'.outRpc, out.task = k → out ∈ m.outRpc) (h : task.SentFits m k) :
    task.SentFits m' k := by
  cases task with
  | voteSend _ _ _ pc =>
    cases pc with
    | wait _ | forwarded _ => exact fun out hOut hTask => h out (hOld out hOut hTask) hTask
    | _ => exact fun out hOut hTask => h out (hOld out hOut hTask) hTask
  | heartbeatSend _ _ pc =>
    cases pc with
    | send _ => exact ⟨h.1, fun out hOut hTask => h.2 out (hOld out hOut hTask) hTask⟩
    | _ => exact fun out hOut hTask => h out (hOld out hOut hTask) hTask
  | _ => trivial

omit [State S R] in
theorem Sent.lt [State S R] {out : OutRpc R} (h : Sent m action out) : out.task < m.tasks.length := by
  cases h with
  | requestVote hTask | heartbeat hTask | entries hTask =>
    exact (List.getElem?_eq_some_iff.mp hTask).1

theorem SentOnce.below_of_step (h : SentOnce m) (hStep : m.step action = some m') :
    ∀ out ∈ m'.outRpc, out.task < m.tasks.length :=
  fun out hOut => (step_out hStep hOut).elim (h.below out) Sent.lt

omit [State S R] in
theorem eq_of_task {last out : OutRpc R} (hOut : out ∈ m.outRpc ++ [last])
    (hTask : out.task = last.task) (hNone : ∀ out ∈ m.outRpc, out.task ≠ last.task) :
    out = last := by
  rcases List.mem_append.mp hOut with hOld | hNew
  · exact absurd hTask (hNone out hOld)
  · exact List.mem_singleton.mp hNew

theorem SentOnce.sends (h : SentOnce m) (hStep : m.step action = some m') {last : OutRpc R}
    (hSent : Sent m action last) {task' : Task R} (hTask' : m'.tasks[last.task]? = some task') :
    task'.SentFits m' last.task := by
  have hStepped := hStep
  cases hSent with
  | requestVote hTask | heartbeat hTask | entries hTask =>
    have hFits := h.tasks _ _ hTask
    have hLength := (List.getElem?_eq_some_iff.mp hTask).1
    simp only [Machine.step, hTask, Option.bind_eq_bind, Option.bind_some] at hStepped
    cases hStepped
    obtain rfl := Option.some.inj (hTask'.symm.trans (List.getElem?_set_self hLength))
    first
    | exact fun out hOut hSame => congrArg OutRpc.rpc (eq_of_task hOut hSame hFits)
    | exact fun out hOut hSame =>
        ⟨_, congrArg OutRpc.rpc (eq_of_task hOut hSame hFits.2), hFits.1⟩
    | trivial

omit [State S R] in
theorem Task.Local.sentFits {k : Nat} {task task' : Task R} (h : task.Local action k task')
    (hFits : task.SentFits m k) : task'.SentFits m k := by
  cases h.moved with
  | heartbeatAnswered => exact hFits
  | loopAnswered | ended _ | elapsed => trivial

theorem SentOnce.step_tasks (h : SentOnce m) (hStep : m.step action = some m') {k : Nat}
    {task' : Task R} (hTask' : m'.tasks[k]? = some task') : task'.SentFits m' k := by
  by_cases hSends : ∃ last, Sent m action last ∧ last.task = k
  · obtain ⟨last, hSent, rfl⟩ := hSends
    exact h.sends hStep hSent hTask'
  have hOld : ∀ out ∈ m'.outRpc, out.task = k → out ∈ m.outRpc := fun out hOut hTask =>
    (step_out hStep hOut).resolve_right fun hSent => hSends ⟨out, hSent, hTask⟩
  rcases step_turned hStep hTask' with ⟨task, hTask, hTurn⟩ | ⟨hLength, hSpawned⟩
  · have hFits := h.tasks k task hTask
    refine Task.SentFits.mono hOld ?_
    cases hTurn with
    | kept => exact hFits
    | stopped _ =>
      rcases Task.stop_cases _ task with hStop | hStop <;> rw [hStop]
      · exact hFits
      · trivial
    | vote hVote =>
      cases hVote with
      | lastIndex | lastTerm => exact hFits
      | requested => exact absurd ⟨_, Sent.requestVote hTask, rfl⟩ hSends
      | stepDown hDown => cases hDown <;> trivial
      | _ => trivial
    | replicate hReplicate =>
      cases hReplicate with
      | heartbeatSent => exact absurd ⟨_, Sent.heartbeat hTask, rfl⟩ hSends
      | heartbeatStepDown hDown | standbyStepDown hDown => cases hDown <;> trivial
      | _ => trivial
    | recv _ hRecv => cases hRecv <;> trivial
    | taken => trivial
    | answerVote => exact hFits
    | environment hLocal => exact hLocal.sentFits hFits
  · have hNone : ∀ out ∈ m'.outRpc, out.task ≠ k := fun out hOut =>
      Nat.ne_of_lt ((h.below_of_step hStep out hOut).trans_le hLength)
    cases hSpawned with
    | voteSend _ _ _ => exact hNone
    | heartbeatSend _ => exact ⟨rfl, hNone⟩
    | _ => trivial

theorem step_answers (hStep : m.step action = some m') : m'.answers = m.answers ∨
    ∃ k i owner request response, action = .answerVote k response ∧
      m.tasks[k]? = some (.voteSend i owner response.id (.wait request)) ∧
      m'.tasks[k]? = some (.voteSend i owner response.id (.forwarded ⟨request, response⟩)) ∧
      m'.answers = m.answers ++ [(k, ⟨request, response⟩)] := by
  cases step_cases hStep with
  | main h =>
    left
    cases h with
    | @leave role _ _ => cases role <;> rfl
    | _ => rfl
  | select _ h =>
    left
    cases h <;> rfl
  | vote _ h | replicate _ h => exact Or.inl h.frame.answers
  | recv _ _ h =>
    obtain ⟨voteSessions, rfl⟩ := h.frame
    exact Or.inl rfl
  | answerVote hTask =>
    exact Or.inr ⟨_, _, _, _, _, rfl, hTask, Machine.setTask_self hTask _, rfl⟩
  | overrun _ | environment _ _ => exact Or.inl rfl

theorem step_answered (hStep : m.step action = some m') {k : Nat} {answer : VoteAnswer}
    (h : m.tasks[k]? = some .ended ∨
      ∃ i owner peer, m.tasks[k]? = some (.voteSend i owner peer (.forwarded answer))) :
    m'.tasks[k]? = some .ended ∨
      ∃ i owner peer, m'.tasks[k]? = some (.voteSend i owner peer (.forwarded answer)) := by
  rcases h with hTask | ⟨i, owner, peer, hTask⟩
  · left
    exact (step_grows hStep).tasks.final (fun _ hLater => by cases hLater <;> rfl) hTask
  · obtain ⟨task', hTask', hTurn⟩ := step_turn hStep hTask
    cases hTurn with
    | kept | stopped _ => exact Or.inr ⟨i, owner, peer, hTask'⟩
    | taken => exact Or.inl hTask'
    | vote hVote => cases hVote
    | replicate hReplicate => cases hReplicate
    | environment hLocal =>
      left
      cases hLocal with
      | cancel hCancel =>
        cases hCancel
        exact hTask'
      | answerAppend h | lose h | elapse h => cases h

theorem SentOnce.step_answer (h : SentOnce m) (hStep : m.step action = some m') {k : Nat}
    {answer : VoteAnswer} (hAnswer : (k, answer) ∈ m.answers) :
    ∀ out ∈ m'.outRpc, out.task = k → out.rpc = .requestVote answer.request := by
  obtain ⟨hTask, hSent⟩ := h.answers k answer hAnswer
  intro out hOut hSame
  rcases step_out hStep hOut with hOld | hNew
  · exact hSent out hOld hSame
  · subst hSame
    cases hNew with
    | requestVote hSends | heartbeat hSends | entries hSends =>
      rcases hTask with hEnded | ⟨_, _, _, hForwarded⟩
      · cases hSends.symm.trans hEnded
      · cases hSends.symm.trans hForwarded

theorem step_sentOnce (hStep : m.step action = some m') (h : SentOnce m) : SentOnce m' where
  below := fun out hOut =>
    (h.below_of_step hStep out hOut).trans_le (step_grows hStep).tasks.length_le
  tasks := fun _ _ hTask' => h.step_tasks hStep hTask'
  answers := by
    intro k answer hAnswer
    rcases step_answers hStep with hSame | ⟨j, i, owner, request, response, _, _, hTask', hNew⟩
    · rw [hSame] at hAnswer
      exact ⟨step_answered hStep (h.answers k answer hAnswer).1, h.step_answer hStep hAnswer⟩
    · rw [hNew] at hAnswer
      rcases List.mem_append.mp hAnswer with hOld | hLast
      · exact ⟨step_answered hStep (h.answers k answer hOld).1, h.step_answer hStep hOld⟩
      · obtain ⟨rfl, rfl⟩ := Prod.mk.inj (List.mem_singleton.mp hLast)
        exact ⟨Or.inr ⟨i, owner, _, hTask'⟩, h.step_tasks hStep hTask'⟩

namespace Cluster

/-- Where the requests that the nodes have taken and the vote responses come from. -/
structure Traced (c : Cluster S R) : Prop where
  took : ∀ i rpc responseTx, (c i).Took (rpc, responseTx) →
    ⟨i, rpc, responseTx.task⟩ ∈ (c responseTx.node).outRpc
  answers : ∀ i k answer, (k, answer) ∈ (c i).answers →
    ∃ reply ∈ (c answer.response.id).replies, reply.isVoteFor i k answer.response

omit [State S R] in
theorem set_grows {c : Cluster S R} {i : NodeId} {m' : Machine S R} (h : (c i).Grows m')
    (j : NodeId) : (c j).Grows (c.set i m' j) :=
  forall_set (P := fun j m => (c j).Grows m) h (fun j => Machine.Grows.refl (c j)) j

variable [DecidableEq R]

omit [State S R] in
theorem mem_outRpc_of_delivers {c : Cluster S R} {i : NodeId} {rpc : PeerRpc R}
    {responseTx : Sender} (hDelivered : c.deliverable i action)
    (h : action.delivers = some (rpc, responseTx)) :
    ⟨i, rpc, responseTx.task⟩ ∈ (c responseTx.node).outRpc := by
  unfold Action.delivers at h
  split at h <;> cases h <;>
  · obtain ⟨out, hOut, hRequest⟩ := List.any_eq_true.mp hDelivered
    exact of_decide_eq_true hRequest ▸ hOut

theorem Traced.step {c : Cluster S R} {i : NodeId} (h : Traced c) (hDelivered : c.deliverable i action)
    (hStep : (c i).step action = some m') : Traced (c.set i m') where
  took := by
    intro j rpc responseTx hTook
    refine (set_grows (step_grows hStep) responseTx.node).outRpc.subset ?_
    by_cases hij : j = i
    · subst hij
      rw [set_self] at hTook
      rcases step_took hStep hTook with hOld | hDelivers
      · exact h.took j rpc responseTx hOld
      · exact mem_outRpc_of_delivers hDelivered hDelivers
    · rw [set_of_ne _ _ hij] at hTook
      exact h.took j rpc responseTx hTook
  answers := by
    intro j k answer hAnswer
    have hReplies := set_grows (step_grows hStep) answer.response.id
    suffices hReply : ∃ reply ∈ (c answer.response.id).replies, reply.isVoteFor j k answer.response by
      obtain ⟨reply, hMem, hVote⟩ := hReply
      exact ⟨reply, hReplies.replies.subset hMem, hVote⟩
    by_cases hij : j = i
    · subst hij
      rw [set_self] at hAnswer
      rcases step_answers hStep with hSame | ⟨k', _, _, request, response, rfl, _, _, hNew⟩
      · exact h.answers j k answer (hSame ▸ hAnswer)
      · rw [hNew] at hAnswer
        rcases List.mem_append.mp hAnswer with hOld | hLast
        · exact h.answers j k answer hOld
        · obtain ⟨rfl, rfl⟩ := Prod.mk.inj (List.mem_singleton.mp hLast)
          exact List.any_eq_true.mp hDelivered
    · rw [set_of_ne _ _ hij] at hAnswer
      exact h.answers j k answer hAnswer

variable {members : MembershipMap} {Allowed : Machine S R → Action R → Prop} {initial c : Cluster S R}

theorem Runs.traced (hInitial : Initial members initial) (hRuns : Runs members Allowed initial c) :
    Traced c := by
  refine hRuns.induction ⟨fun i rpc responseTx hTook => ?_, fun i k answer hAnswer => ?_⟩
    fun c i action m' h _ _ hDelivered hStep => h.step hDelivered hStep
  · obtain ⟨_, _, node, _, _, hNode⟩ := hInitial i
    rw [hNode] at hTook
    rcases hTook with hHandling | ⟨_, hReply, _⟩
    · cases hHandling
    · cases hReply
  · obtain ⟨_, _, node, _, _, hNode⟩ := hInitial i
    rw [hNode] at hAnswer
    cases hAnswer

theorem Runs.sentOnce (hInitial : Initial members initial) (hRuns : Runs members Allowed initial c)
    (i : NodeId) : SentOnce (c i) := by
  refine @Runs.invariant S R _ _ members Allowed (fun _ m => SentOnce m) _ _ hRuns (fun i => ?_)
    (fun c i action m' hAll _ _ hStep => step_sentOnce hStep (hAll i)) i
  obtain ⟨_, _, node, _, _, hNode⟩ := hInitial i
  rw [hNode]
  exact ⟨fun _ hOut => (by cases hOut), fun _ _ hTask => (by cases hTask),
    fun _ _ hAnswer => (by cases hAnswer)⟩

theorem Runs.replied (hInitial : Initial members initial) (hRuns : Runs members Allowed initial c)
    {i : NodeId} {k : Nat} {answer : VoteAnswer} (hAnswer : (k, answer) ∈ (c i).answers) :
    ∃ responseTx : Sender, responseTx.node = i ∧ responseTx.task = k ∧
      .requestVote responseTx answer ∈ (c answer.response.id).replies := by
  have hTraced := hRuns.traced hInitial
  obtain ⟨reply, hReply, hVote⟩ := hTraced.answers i k answer hAnswer
  cases reply with
  | requestVote responseTx answer' =>
    obtain ⟨hNode, hTask, hResponse⟩ := of_decide_eq_true hVote
    have hSent := hTraced.took answer.response.id (.requestVote answer'.request) responseTx
      (Or.inr ⟨_, hReply, rfl⟩)
    rw [hNode] at hSent
    have hRequest := ((hRuns.sentOnce hInitial i).answers k answer hAnswer).2 _ hSent hTask
    obtain ⟨request, response⟩ := answer
    obtain ⟨request', response'⟩ := answer'
    cases hRequest
    cases hResponse
    exact ⟨responseTx, hNode, hTask, hReply⟩
  | appendEntries _ _ _ => cases hVote
  | client _ _ => cases hVote

end Cluster

end Zeroraft
