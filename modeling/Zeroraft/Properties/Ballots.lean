import Zeroraft.Library.Ballot
import Zeroraft.Properties.TermMonotonicity
import Zeroraft.Runtime.Deliveries

/-!
# The ballot of a node

Each node fills in a ballot: the vote for itself with which a session starts, and each
vote that it grants, at the moment it stores the term of the request. As long as terms
do not fall, a ballot has one vote of each term.
-/

namespace Zeroraft

variable {S R : Type} [State S R]

/-- Who gets a vote: the node itself, or the candidate behind a channel. -/
inductive Recipient where
  | own
  | granted (responseTx : Sender) (candidate : NodeId)

/-- The vote that the main loop has decided on and not sent yet. -/
def Main.casting : Main R → Option (Nat × Recipient)
  | .requestVote _ request responseTx (.setVotedFor _)
  | .requestVote _ request responseTx (.becomeFollower _)
  | .requestVote _ request responseTx (.readLastIndex _)
  | .requestVote _ request responseTx (.readLastTerm _ _) =>
    some (request.term, .granted responseTx request.candidateId)
  | .requestVote _ request responseTx (.send response) =>
    if response.voteGranted then some (request.term, .granted responseTx request.candidateId)
    else none
  | _ => none

def Main.castsNow : Main R → Bool
  | .requestVote _ _ _ (.setVotedFor _) => true
  | _ => false

/-- What holds of the ballot when the main loop is about to vote. -/
def Main.Prepared (b : Ballot Recipient) (currentTerm : Nat) : Main R → Prop
  | .voteForSelf => b.term < currentTerm
  | .requestVote _ request _ (.storeCurrentTerm _)
  | .requestVote _ request _ (.storeVotedFor _)
  | .requestVote _ request _ (.setCurrentTerm _) => b.Free request.term
  | _ => True

/-- The ballot has every vote that the node has cast. -/
structure BallotFits (b : Ballot Recipient) (m : Machine S R) : Prop where
  valid : b.Valid
  term : b.term ≤ m.node.currentTerm
  free : m.main.castsNow = false → m.node.votedFor = none → b.Free m.node.currentTerm
  prepared : m.main.Prepared b m.node.currentTerm
  casting : ∀ vote ∈ m.main.casting, vote ∈ b.cast
  replies : ∀ responseTx answer, .requestVote responseTx answer ∈ m.replies →
    answer.response.voteGranted = true →
    (answer.request.term, .granted responseTx answer.request.candidateId) ∈ b.cast
  sessions : ∀ session ∈ m.voteSessions, (session.startTerm, .own) ∈ b.cast

variable {b : Ballot Recipient} {m m' : Machine S R} {action : Action R}

omit [State S R] in
theorem Main.Prepared.mono {main : Main R} {term term' : Nat} (h : main.Prepared b term)
    (hLe : term ≤ term') : main.Prepared b term' := by
  cases main with
  | voteForSelf => exact Nat.lt_of_lt_of_le h hLe
  | requestVote _ _ _ pc => cases pc <;> exact h
  | _ => trivial

theorem step_startTerms (hStep : m.step action = some m') {session' : VoteSession}
    (hSession' : session' ∈ m'.voteSessions) :
    (∃ session ∈ m.voteSessions, session'.startTerm = session.startTerm) ∨
      (m.main = .voteForSelf ∧ m'.main ≠ .voteForSelf ∧
        session'.startTerm = m.node.currentTerm) := by
  obtain ⟨i, hi⟩ := List.mem_iff_getElem?.mp hSession'
  cases step_sessionChange hStep hi with
  | kept hSession hTerm _ _ => exact Or.inl ⟨_, List.mem_of_getElem? hSession, hTerm⟩
  | new hIndex hNew =>
    right
    rcases step_voteSessionCount hStep with hSame | ⟨hMain, hMain', _⟩
    · have hLength := (List.getElem?_eq_some_iff.mp hi).1
      omega
    · exact ⟨hMain, by rcases hMain' with h | h <;> rw [h] <;> exact nofun, by rw [hNew]⟩
  | granted _ hSession _ _ _ _ hNew =>
    exact Or.inl ⟨_, List.mem_of_getElem? hSession, by rw [hNew]⟩

theorem BallotFits.sessions_of_step (h : BallotFits b m) (hStep : m.step action = some m')
    (hMain : m'.main = .voteForSelf ∨ m.main ≠ .voteForSelf) :
    ∀ session ∈ m'.voteSessions, (session.startTerm, Recipient.own) ∈ b.cast := by
  intro session' hSession'
  rcases step_startTerms hStep hSession' with ⟨session, hSession, hTerm⟩ | ⟨hOld, hNew, _⟩
  · rw [hTerm]
    exact h.sessions session hSession
  · rcases hMain with hOther | hOther
    · exact absurd hOther hNew
    · exact absurd hOld hOther

theorem BallotFits.replies_of_step (h : BallotFits b m) (hStep : m.step action = some m') :
    ∀ responseTx answer, .requestVote responseTx answer ∈ m'.replies →
      answer.response.voteGranted = true →
      (answer.request.term, .granted responseTx answer.request.candidateId) ∈ b.cast := by
  intro responseTx answer hReply hGranted
  rcases step_replies hStep with hSame | ⟨_, _, reply, hReplied, hNew⟩
  · exact h.replies responseTx answer (hSame ▸ hReply) hGranted
  · rw [hNew] at hReply
    rcases List.mem_append.mp hReply with hOld | hLast
    · exact h.replies responseTx answer hOld hGranted
    · obtain rfl := List.mem_singleton.mp hLast
      cases hReplied with
      | requestVote hMain =>
        refine h.casting _ ?_
        rw [hMain]
        exact if_pos hGranted

theorem BallotFits.keep (h : BallotFits b m) (hStep : m.step action = some m')
    (hSelf : m'.main = .voteForSelf ∨ m.main ≠ .voteForSelf)
    (hTerm : m.node.currentTerm ≤ m'.node.currentTerm)
    (hFree : m'.main.castsNow = false → m'.node.votedFor = none →
      m.main.castsNow = false ∧ m.node.votedFor = none)
    (hPrepared : m'.main.Prepared b m'.node.currentTerm)
    (hCasting : ∀ vote ∈ m'.main.casting, vote ∈ b.cast) : BallotFits b m' where
  valid := h.valid
  term := h.term.trans hTerm
  free := fun hNow hNone => (h.free (hFree hNow hNone).1 (hFree hNow hNone).2).mono hTerm
  prepared := hPrepared
  casting := hCasting
  replies := h.replies_of_step hStep
  sessions := h.sessions_of_step hStep hSelf

theorem BallotFits.requestVote (h : BallotFits b m) (hAhead : AcceptedAhead m) {role : RoleLoop}
    {request : RequestVoteRequest} {responseTx : Sender} {pc pc' : RequestVotePc}
    (hMain : m.main = .requestVote role request responseTx pc)
    (hEdge : pc.Edge m.node.id request m.node pc')
    (hStep : m.step action = some { m with
      main := .requestVote role request responseTx pc'
      node := (pc.step m.node.id request responseTx m.node).2 }) :
    ∃ b', BallotFits b' { m with
      main := .requestVote role request responseTx pc'
      node := (pc.step m.node.id request responseTx m.node).2 } := by
  obtain ⟨state, _, hNode⟩ := RequestVotePc.step_node m.node.id responseTx m.node request pc
  have hLe := (hEdge.ahead hMain hAhead).2
  have hPrepared := h.prepared
  have hCasting := h.casting
  have hFree := h.free
  have hAccepted := hAhead
  rw [hMain] at hPrepared hCasting hFree
  rw [AcceptedAhead, hMain] at hAccepted
  rw [hNode] at hStep hLe ⊢
  have hSelf : m.main ≠ .voteForSelf := by
    rw [hMain]
    rintro ⟨⟩
  cases hEdge with
  | setTerm =>
    refine ⟨⟨request.term, True, b.cast ++ [(request.term, .granted responseTx request.candidateId)]⟩,
      (Ballot.Step.cast hPrepared _).valid h.valid, Nat.le_refl _, by rintro ⟨⟩, trivial, ?_,
      ?_, ?_⟩
    · rintro _ ⟨⟩
      exact List.mem_append_right _ (List.mem_singleton_self _)
    · intro responseTx answer hReply hGranted
      exact List.mem_append_left _ (h.replies responseTx answer hReply hGranted)
    · exact fun session hSession => List.mem_append_left _ (h.sessions session hSession)
  | setVote =>
    exact ⟨b, h.keep hStep (Or.inr hSelf) hLe (by rintro _ ⟨⟩) trivial hCasting⟩
  | newer hNewer =>
    exact ⟨b, h.keep hStep (Or.inr hSelf) hLe (fun _ hNone => ⟨by rw [hMain]; rfl, hNone⟩)
      (Or.inl (h.term.trans_lt hNewer)) (by rintro _ ⟨⟩)⟩
  | notVoted hNone =>
    exact ⟨b, h.keep hStep (Or.inr hSelf) hLe (fun _ hNone => ⟨by rw [hMain]; rfl, hNone⟩)
      ((hFree rfl hNone).mono (hAccepted _ rfl)) (by rintro _ ⟨⟩)⟩
  | storedTerm | storedVote =>
    exact ⟨b, h.keep hStep (Or.inr hSelf) hLe (fun _ hNone => ⟨by rw [hMain]; rfl, hNone⟩)
      hPrepared (by rintro _ ⟨⟩)⟩
  | same _ | stale _ | voted _ | incomplete =>
    exact ⟨b, h.keep hStep (Or.inr hSelf) hLe (fun _ hNone => ⟨by rw [hMain]; rfl, hNone⟩)
      trivial (by rintro _ ⟨⟩)⟩
  | follower | lastIndex | complete _ =>
    exact ⟨b, h.keep hStep (Or.inr hSelf) hLe (fun _ hNone => ⟨by rw [hMain]; rfl, hNone⟩)
      trivial hCasting⟩

theorem AppendEntriesPc.step_votedFor (request : AppendEntriesRequest R) (pc : AppendEntriesPc)
    (ourId : NodeId) (responseTx : Sender) (node : RaftNode S) :
    (pc.step ourId request responseTx node).2.votedFor = node.votedFor := by
  obtain ⟨state, _, hNode⟩ := AppendEntriesPc.step_node ourId responseTx node request pc
  rw [hNode]
  cases pc <;> rfl

theorem MainFailure.main_ne {state : S} (h : MainFailure m state) : m.main ≠ .voteForSelf := by
  intro hMain
  cases h <;> cases hMain.symm.trans ‹m.main = _›

theorem MainFailure.castsNow {state : S} (h : MainFailure m state) : m.main.castsNow = false := by
  cases h with
  | @requestVote role request responseTx pc e _ hMain hFailed =>
    rw [hMain]
    cases pc with
    | setVotedFor _ => cases congrArg Prod.fst hFailed
    | _ => rfl
  | nonVoter hMain _ | appendEntries hMain _ | redirect hMain _ | appendEntry hMain _ =>
    rw [hMain]
    rfl

omit [State S R] in
theorem BallotFits.voteForSelf (h : BallotFits b m) (hMain : m.main = .voteForSelf)
    (hPrepared : ∀ b, m'.main.Prepared b m'.node.currentTerm)
    (hCasting : m'.main.casting = none)
    (hNode : m'.node = { m.node with votedFor := some m.node.id })
    (hReplies : m'.replies = m.replies)
    (hSessions : m'.voteSessions = m.voteSessions ++ [{ startTerm := m.node.currentTerm }]) :
    BallotFits ⟨m.node.currentTerm, True, b.cast ++ [(m.node.currentTerm, .own)]⟩ m' := by
  have hFree := h.prepared
  rw [hMain] at hFree
  refine ⟨(Ballot.Step.cast (Or.inl hFree) _).valid h.valid, ?_, ?_, hPrepared _, ?_, ?_, ?_⟩
  · rw [hNode]
  · rw [hNode]
    exact fun _ => nofun
  · rw [hCasting]
    exact nofun
  · rw [hReplies]
    exact fun responseTx answer hReply hGranted =>
      List.mem_append_left _ (h.replies responseTx answer hReply hGranted)
  · rw [hSessions]
    intro session hSession
    rcases List.mem_append.mp hSession with hOld | hNew
    · exact List.mem_append_left _ (h.sessions session hOld)
    · rw [List.mem_singleton.mp hNew]
      exact List.mem_append_right _ (List.mem_singleton_self _)

theorem MainStepped.ballot (hStepped : MainStepped m m') (hStep : m.step .main = some m')
    (hSafe : TermSafe m (.main : Action R)) (hAhead : AcceptedAhead m) (h : BallotFits b m) :
    ∃ b', BallotFits b' m' := by
  have hLe := (hStepped.ahead hSafe hAhead).2
  have hPrepared := h.prepared
  cases hStepped with
  | requestVote hMain hEdge => exact h.requestVote hAhead hMain hEdge hStep
  | incrementTerm hMain =>
    refine ⟨b, h.keep hStep (Or.inl rfl) hLe (fun _ hNone => ⟨by rw [hMain]; rfl, hNone⟩) ?_ nofun⟩
    show b.term < (m.node.currentTerm + 1) % u64Size
    rw [Nat.mod_eq_of_lt (hSafe (by rw [hMain]; rfl))]
    exact Nat.lt_succ_of_le h.term
  | voteForSelf hMain =>
    exact ⟨_, h.voteForSelf hMain (fun _ => trivial) rfl rfl rfl rfl⟩
  | appendEntries hMain _ =>
    refine ⟨b, h.keep hStep (Or.inr (by rw [hMain]; exact nofun)) hLe
      (fun _ hNone => ⟨by rw [hMain]; rfl, ?_⟩) trivial nofun⟩
    exact (AppendEntriesPc.step_votedFor _ _ _ _ _).symm.trans hNone
  | leave hMain _ =>
    refine ⟨b, h.keep hStep (Or.inr (by rw [hMain]; exact nofun)) hLe ?_ ?_ ?_⟩ <;>
      rw [RoleLoop.leave_main]
    · rw [RoleLoop.leave_node]
      exact fun _ hNone => ⟨by rw [hMain]; rfl, hNone⟩
    · trivial
    · exact nofun
  | requestVoteSent hMain | appendEntriesSent hMain | redirected hMain | becomeShutdown hMain
  | becomeCandidate hMain | becomeLeader hMain | appendEntry hMain | startFollower hMain
  | startCandidate hMain | startLeader hMain | returned hMain | readCommit hMain
  | readMembership hMain | stay hMain | loadEntryTerm hMain =>
    exact ⟨b, h.keep hStep (Or.inr (by rw [hMain]; exact nofun)) hLe
      (fun _ hNone => ⟨by rw [hMain]; rfl, hNone⟩) trivial nofun⟩
  | failed _ hCause =>
    exact ⟨b, h.keep hStep (Or.inr hCause.main_ne) hLe (fun _ hNone => ⟨hCause.castsNow, hNone⟩)
      trivial nofun⟩

theorem BallotFits.keep_main (h : BallotFits b m) (hStep : m.step action = some m')
    (hMain : m'.main = m.main) (hLe : m.node.currentTerm ≤ m'.node.currentTerm)
    (hVote : m'.node.votedFor = m.node.votedFor) : BallotFits b m' := by
  refine h.keep hStep ?_ hLe (fun hNow hNone => ⟨hMain ▸ hNow, hVote ▸ hNone⟩) ?_ ?_
  · by_cases hSelf : m.main = .voteForSelf
    · exact Or.inl (hMain.trans hSelf)
    · exact Or.inr hSelf
  · rw [hMain]
    exact h.prepared.mono hLe
  · rw [hMain]
    exact h.casting

theorem step_ballot (hSafe : TermSafe m action) (hStep : m.step action = some m')
    (hAhead : AcceptedAhead m) (h : BallotFits b m) : ∃ b', BallotFits b' m' := by
  have hLe := (step_currentTerm_le hSafe hStep hAhead).2
  cases step_cases hStep with
  | main hMain => exact hMain.ballot hStep hSafe hAhead h
  | select hMain hSelect =>
    have hNode := hSelect.node
    refine ⟨b, h.keep hStep (Or.inr (by rw [hMain]; exact nofun)) hLe
      (fun _ hNone => ⟨by rw [hMain]; rfl, hNode ▸ hNone⟩) ?_ ?_⟩
    · cases hSelect <;> trivial
    · cases hSelect <;> exact nofun
  | vote _ hTask | replicate _ hTask =>
    exact ⟨b, h.keep_main hStep hTask.frame.main hLe hTask.frame.writes.votedFor⟩
  | recv _ _ hRecv =>
    obtain ⟨voteSessions, rfl⟩ := hRecv.frame
    exact ⟨b, h.keep_main hStep rfl hLe rfl⟩
  | overrun hOverrun =>
    cases hOverrun with
    | select hMain | readMembership hMain =>
      exact ⟨b, h.keep hStep (Or.inr (by rw [hMain]; exact nofun)) hLe
        (fun _ hNone => ⟨by rw [hMain]; rfl, hNone⟩) trivial nofun⟩
    | voteForSelf hMain => exact ⟨_, h.voteForSelf hMain (fun _ => trivial) rfl rfl rfl rfl⟩
  | answerVote _ | environment _ _ => exact ⟨b, h.keep_main hStep rfl hLe rfl⟩

omit [State S R] in
theorem BallotFits.initial [State S R] (node : RaftNode S) :
    BallotFits ⟨node.currentTerm, node.votedFor.isSome, []⟩ ({ node } : Machine S R) where
  valid := ⟨List.Pairwise.nil, nofun, fun h => absurd rfl h⟩
  term := Nat.le_refl _
  free := fun _ hNone => Or.inr ⟨rfl, by
    have hVote : node.votedFor = none := hNone
    simp [hVote]⟩
  prepared := trivial
  casting := nofun
  replies := fun _ _ hReply => by cases hReply
  sessions := fun _ hSession => by cases hSession

theorem Machine.Runs.ballot {node : RaftNode S} (hRuns : Machine.Runs TermSafe { node } m) :
    ∃ b, BallotFits b m := by
  have hBoth : AcceptedAhead m ∧ ∃ b, BallotFits b m := by
    refine @Machine.Runs.invariant S R _ TermSafe (fun m => AcceptedAhead m ∧ ∃ b, BallotFits b m)
      _ _ hRuns ⟨AcceptedAhead.of_none rfl, _, BallotFits.initial node⟩ ?_
    rintro m action m' hSafe hStep ⟨hAhead, b, h⟩
    exact ⟨(step_currentTerm_le hSafe hStep hAhead).1, step_ballot hSafe hStep hAhead h⟩
  exact hBoth.2

end Zeroraft
