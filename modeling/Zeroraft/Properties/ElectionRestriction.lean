import Zeroraft.Properties.NothingReplicated

/-!
# Votes and logs

A voter reads the last index and the last term of its log one after the other. Only its
main loop writes the log, so both belong to the log that it still has when the grant is
sent, and that log is not ahead of what the request says.
-/

namespace Zeroraft

variable {S R : Type} [State S R]

/-- The log of the node is not ahead of the one that the request tells of. -/
def RaftNode.NotAhead (node : RaftNode S) (request : RequestVoteRequest) : Prop :=
  ¬ IncompleteLog (stored node.state).lastTerm node.log.length request

/-- What the handler knows of the log from its reads. -/
def Main.ReadsLog (node : RaftNode S) : Main R → Prop
  | .requestVote _ _ _ (.readLastTerm _ ourLastLogIndex) => ourLastLogIndex = node.log.length
  | .requestVote _ request _ (.send response) =>
    response.voteGranted = true → node.NotAhead request
  | _ => True

theorem RaftNode.NotAhead.of_log_eq {node node' : RaftNode S} {request : RequestVoteRequest}
    (h : node.NotAhead request) (hLog : node'.log = node.log) : node'.NotAhead request := by
  have hStored : (stored node'.state).log = (stored node.state).log := hLog
  unfold RaftNode.NotAhead Stored.lastTerm at h ⊢
  rwa [hLog, hStored]

theorem Main.ReadsLog.of_log_eq {node node' : RaftNode S} {main : Main R}
    (h : main.ReadsLog node) (hLog : node'.log = node.log) : main.ReadsLog node' := by
  cases main with
  | requestVote role request responseTx pc =>
    cases pc with
    | readLastTerm ourTerm index => exact Eq.trans h (congrArg List.length hLog.symm)
    | send response => exact fun hGranted => (h hGranted).of_log_eq hLog
    | _ => trivial
  | _ => trivial

variable [FallibleState S R] {m m' : Machine S R} {action : Action R}

theorem MainStepped.readsLog (h : MainStepped m m') (hReads : m.main.ReadsLog m.node) :
    m'.main.ReadsLog m'.node := by
  cases h with
  | @requestVote role request responseTx pc pc' hMain hEdge _ =>
    have hLog : (pc.step m.node.id request responseTx m.node).2.log = m.node.log :=
      RequestVotePc.step_log request pc
    suffices hOld : Main.ReadsLog m.node (.requestVote role request responseTx pc') from
      hOld.of_log_eq hLog
    rw [hMain] at hReads
    cases hEdge with
    | lastIndex => exact FallibleState.getLastIndex_eq m.node.state
    | @complete ourTerm index hLog =>
      intro _
      have hIndex : index = m.node.log.length := hReads
      unfold RaftNode.NotAhead
      rwa [← FallibleState.getLastTerm_eq, ← hIndex]
    | stale _ | voted _ | incomplete =>
      intro hGranted
      cases hGranted
    | _ => trivial
  | leave _ _ =>
    rw [RoleLoop.leave_main]
    trivial
  | _ => trivial

theorem step_readsLog (hStep : m.step action = some m') (h : m.main.ReadsLog m.node) :
    m'.main.ReadsLog m'.node := by
  cases step_cases hStep with
  | main hMain => exact hMain.readsLog h
  | select _ hSelect => cases hSelect <;> trivial
  | @vote k task task' m₁ _ hTask =>
    have hMain : (m₁.setTask k task').main = m.main := hTask.frame.main
    rw [hMain]
    exact h.of_log_eq hTask.log
  | @replicate k task task' m₁ _ hTask =>
    have hMain : (m₁.setTask k task').main = m.main := hTask.frame.main
    rw [hMain]
    exact h.of_log_eq hTask.log
  | recv _ _ hRecv =>
    obtain ⟨voteSessions, rfl⟩ := hRecv.frame
    exact h
  | overrun _ => trivial
  | answerVote _ | environment _ _ => exact h

namespace Cluster

variable [DecidableEq R] {members : MembershipMap} {initial c c' : Cluster S R}

theorem Runs.readsLog (hInitial : Initial members initial)
    (hRuns : Runs members (fun _ _ => True) initial c) (i : NodeId) :
    (c i).main.ReadsLog (c i).node := by
  refine @Runs.invariant S R _ _ members _ (fun _ m => m.main.ReadsLog m.node) _ _ hRuns
    (fun i => ?_) (fun c i action m' hAll _ _ hStep => step_readsLog hStep (hAll i)) i
  obtain ⟨node, hNode, _, _⟩ := hInitial.machine i
  rw [hNode]
  trivial

/-- In the step the node sends the reply. -/
def Replies (voter : NodeId) (c c' : Cluster S R) (reply : Reply R) : Prop :=
  Replied (c voter) reply ∧ (c' voter).replies = (c voter).replies ++ [reply]

/-- In the step the node sends the reply, a grant only to a request that its log is not
ahead of. -/
def RepliesUpToDate (voter : NodeId) (c c' : Cluster S R) (reply : Reply R) : Prop :=
  Replies voter c c' reply ∧ ∀ responseTx answer, reply = .requestVote responseTx answer →
    answer.response.voteGranted = true → (c voter).node.NotAhead answer.request

omit [FallibleState S R] [DecidableEq R] in
theorem repliesUpToDate {voter : NodeId} {reply : Reply R}
    (hReads : (c voter).main.ReadsLog (c voter).node) (hReplies : Replies voter c c' reply) :
    RepliesUpToDate voter c c' reply := by
  refine ⟨hReplies, fun responseTx answer hReply hGranted => ?_⟩
  cases hReplies.1 with
  | requestVote hMain =>
    cases hReply
    rw [hMain] at hReads
    exact hReads hGranted
  | appendEntries _ | client _ _ => cases hReply

theorem Runs.made_reply (hInitial : Initial members initial)
    (hRuns : Runs members (fun _ _ => True) initial c) {voter : NodeId} {reply : Reply R}
    (hReply : reply ∈ (c voter).replies) :
    Provenance.Made (Next members (fun _ _ => True)) (RepliesUpToDate voter) initial c reply := by
  refine (Provenance.holds_or_made (fun c reply => reply ∈ (c voter).replies) _ ?_ hRuns
    hReply).resolve_left ?_
  · rintro c c' hBefore ⟨j, action, _, hNext⟩ reply hReply
    obtain ⟨_, _, m', hStep, rfl⟩ := step_eq_some hNext
    by_cases hij : voter = j
    · subst hij
      rw [set_self] at hReply
      rcases step_replies hStep with hSame | ⟨_, _, last, hLast, hNew⟩
      · exact Or.inl (hSame ▸ hReply)
      · rw [hNew] at hReply
        refine (List.mem_append.mp hReply).imp_right fun hMem => ?_
        obtain rfl := List.mem_singleton.mp hMem
        refine repliesUpToDate (Runs.readsLog hInitial hBefore voter) ⟨hLast, ?_⟩
        rw [set_self, hNew]
    · rw [set_of_ne _ _ hij] at hReply
      exact Or.inl hReply
  · obtain ⟨node, hNode, _, _⟩ := hInitial.machine voter
    rw [hNode]
    exact List.not_mem_nil

end Cluster

/-- In the step in which the voter sent a grant that has arrived, its log was not ahead of
the request that it answers. -/
theorem granted_notAhead [DecidableEq R] (members : MembershipMap) (initial c : Cluster S R)
    (hInitial : Cluster.Initial members initial)
    (hRuns : Cluster.Runs members (fun _ _ => True) initial c) (i : NodeId) (k : Nat)
    (answer : VoteAnswer) (hAnswer : (k, answer) ∈ (c i).answers)
    (hGranted : answer.response.voteGranted = true) :
    ∃ responseTx, responseTx.node = i ∧ responseTx.task = k ∧ ∃ c₁ c₂,
      Cluster.Runs members (fun _ _ => True) initial c₁ ∧
      Cluster.Next members (fun _ _ => True) c₁ c₂ ∧
      Cluster.Runs members (fun _ _ => True) c₂ c ∧
      Cluster.Replies answer.response.id c₁ c₂ (.requestVote responseTx answer) ∧
      (c₁ answer.response.id).node.NotAhead answer.request := by
  obtain ⟨responseTx, hNode, hTask, hReply⟩ := hRuns.replied hInitial hAnswer
  obtain ⟨c₁, c₂, hBefore, hNext, hAfter, hReplies, hUpToDate⟩ := hRuns.made_reply hInitial hReply
  exact ⟨responseTx, hNode, hTask, c₁, c₂, hBefore, hNext, hAfter, hReplies,
    hUpToDate responseTx answer rfl hGranted⟩

/-- Node 2, whose log has an entry, has granted its vote to node 1 in term 2. -/
theorem granted_notAhead_filled : ∃ (c c₁ c₂ : Cluster (Stored Unit) Unit) (responseTx : Sender),
    (c 2).log.length = 1 ∧
    Cluster.Next pairMembers (fun _ _ => True) c₁ c₂ ∧
    Cluster.Runs pairMembers (fun _ _ => True) c₂ c ∧
    Cluster.Replies 2 c₁ c₂ (.requestVote responseTx ⟨⟨2, 1, 1, 1⟩, ⟨1, true, 2, .ok⟩⟩) ∧
    (c₁ 2).node.NotAhead ⟨2, 1, 1, 1⟩ := by
  obtain ⟨c, hRuns, hc⟩ := Cluster.exists_of_run
    (show (filledCluster.run pairMembers (fun _ _ => True) (emptiedLogActions.take 29)).map
      (fun c => decide ((c 2).log.length = 1 ∧
        (1, ⟨⟨2, 1, 1, 1⟩, ⟨1, true, 2, .ok⟩⟩) ∈ (c 1).answers)) = some true by decide)
  obtain ⟨hLog, hGrant⟩ := of_decide_eq_true hc
  obtain ⟨responseTx, _, _, c₁, c₂, _, hNext, hAfter, hReplies, hNotAhead⟩ :=
    granted_notAhead pairMembers filledCluster c filledCluster_initial hRuns 1 1 _ hGrant rfl
  exact ⟨c, c₁, c₂, responseTx, hLog, hNext, hAfter, hReplies, hNotAhead⟩

end Zeroraft
