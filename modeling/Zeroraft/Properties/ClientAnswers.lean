import Zeroraft.Properties.LeaderLog

/-!
# Is every client request answered exactly once?

Followers and candidates answer a client in the branch that takes its request. The
leader loop appends an entry and lets go of the sender.
-/

namespace Zeroraft

variable {S R : Type} [State S R]

section Requests

/-- A request that the main loop has taken from `in_client_request_rx`, and in which loop. -/
structure TakenRequest (R : Type) where
  request : R
  responseTx : Sender
  role : RoleLoop
  deriving DecidableEq

def RoleLoop.leads : RoleLoop → Bool
  | .leader _ => true
  | .follower | .candidate _ => false

def LiveClients (_ : Machine S R) : Action R → Prop
  | .event (.clientRequest _ responseTx) => responseTx.closed = false
  | _ => True

instance (m : Machine S R) : (action : Action R) → Decidable (LiveClients m action)
  | .event (.clientRequest _ responseTx) => inferInstanceAs (Decidable (responseTx.closed = false))
  | .event .shutdown | .event (.requestVote _ _) | .event (.appendEntries _ _)
  | .event .unimplementedRpc | .event .voteResult | .event .electionTimeout | .event .retryTimeout
  | .event .heartbeatTimeout | .main | .overrun | .task _ | .recv _ _ | .answerVote _ _
  | .answerAppend _ _ | .lose _ | .cancel _ | .elapse _ => isTrue trivial

namespace Machine

def takes (m : Machine S R) : Action R → Option (TakenRequest R)
  | .event (.clientRequest request responseTx) =>
    match m.main with
    | .select role => some ⟨request, responseTx, role⟩
    | _ => none
  | _ => none

def taken (m : Machine S R) : List (Action R) → List (TakenRequest R)
  | [] => []
  | action :: rest =>
    (m.takes action).toList ++ (m.step action).elim [] fun m' => m'.taken rest

def answered (m : Machine S R) : List (Sender × ClientResponse) :=
  m.replies.filterMap fun
    | .client responseTx response => some (responseTx, response)
    | .requestVote _ _ | .appendEntries _ _ _ => none

/-- The sender that the main loop is about to answer on. -/
def answering (m : Machine S R) : Option Sender :=
  match m.main with
  | .readLeaderId _ responseTx => some responseTx
  | _ => none

end Machine

/-- The response of a node that has not appended the request. -/
def ClientResponse.Refuses (response : ClientResponse) : Prop :=
  response.success = false ∧
    (response.reason = .redirect ∨ response.reason = .noLeaderYet)

def CommittedRequest (m : Machine S R) (request : R) : Prop :=
  ∃ i ≤ State.getLastCommitIndex m.node.state, ∃ entry,
    State.getEntry m.node.state i = some entry ∧ entry.command = .clientRequest request

/-- The answer that a request is due: the leader loop appends, the others do not. -/
def TakenRequest.AnsweredBy (m : Machine S R) (t : TakenRequest R)
    (answer : Sender × ClientResponse) : Prop :=
  answer.1 = t.responseTx ∧
    if t.role.leads then
      answer.2.success = true ∧ answer.2.reason = .ok ∧ CommittedRequest m t.request
    else answer.2.Refuses

/-- The requests and the responses sent correspond one to one. -/
def AnsweredOnce (m : Machine S R) (taken : List (TakenRequest R)) : Prop :=
  ∃ answers, answers.Perm m.answered ∧ List.Forall₂ (TakenRequest.AnsweredBy m) taken answers

end Requests

section Accounts

variable {m m' : Machine S R} {taken : List (TakenRequest R)}

/-- The answers, and the one being given, are those to the requests taken outside of the
leader loop, in the same order. -/
structure Accounted (m : Machine S R) (taken : List (TakenRequest R)) : Prop where
  senders : m.answered.map Prod.fst ++ m.answering.toList =
    (taken.filter (!·.role.leads)).map (·.responseTx)
  refuses : ∀ answer ∈ m.answered, answer.2.Refuses
  live : ∀ responseTx ∈ m.answering, responseTx.closed = false

omit [State S R] in
theorem answered_of_replies (h : m'.replies = m.replies) : m'.answered = m.answered := by
  rw [Machine.answered, h, Machine.answered]

omit [State S R] in
theorem answering_of_main (h : m'.main = m.main) : m'.answering = m.answering := by
  rw [Machine.answering, h, Machine.answering]

omit [State S R] in
theorem Accounted.same (h : Accounted m taken) (hAnswered : m'.answered = m.answered)
    (hAnswering : m'.answering = m.answering) : Accounted m' taken := by
  refine ⟨?_, ?_, ?_⟩
  · rw [hAnswered, hAnswering]
    exact h.senders
  · rw [hAnswered]
    exact h.refuses
  · rw [hAnswering]
    exact h.live

omit [State S R] in
theorem redirectResponse_refuses (leaderId : Option NodeId) :
    (redirectResponse leaderId).Refuses := by
  cases leaderId with
  | none => exact ⟨rfl, Or.inr rfl⟩
  | some _ => exact ⟨rfl, Or.inl rfl⟩

omit [State S R] in
theorem answering_eq_none_of {main : Main R} (hMain : m.main = main)
    (hOther : ∀ role responseTx, main ≠ .readLeaderId role responseTx) : m.answering = none := by
  unfold Machine.answering
  split
  · rename_i hReads
    exact absurd (hMain.symm.trans hReads) (hOther _ _)
  · rfl

omit [State S R] in
theorem answering_readLeaderId {role : RoleLoop} {responseTx : Sender}
    (hMain : m.main = .readLeaderId role responseTx) : m.answering = some responseTx := by
  rw [Machine.answering, hMain]

theorem MainFailure.answering {state : S} (hCause : MainFailure m state) (h : Accounted m taken) :
    m.answering = none := by
  cases hCause with
  | redirect hMain hClosed =>
    have hOpen := h.live _ (answering_readLeaderId hMain)
    rw [hOpen] at hClosed
    cases hClosed
  | _ => exact answering_eq_none_of ‹m.main = _› (by rintro _ _ ⟨⟩)

theorem Accounted.main (h : Accounted m taken) (hMain : MainStepped m m') : Accounted m' taken := by
  cases hMain with
  | @redirected role responseTx hReads hOpen =>
    have hSenders := h.senders
    rw [answering_readLeaderId hReads] at hSenders
    refine ⟨?_, fun answer hAnswer => ?_, by rintro _ ⟨⟩⟩
    · rw [← hSenders]
      simp [Machine.answered, Machine.answering]
    · simp only [Machine.answered, List.filterMap_append, List.mem_append] at hAnswer
      rcases hAnswer with hOld | hNew
      · exact h.refuses answer hOld
      · rw [List.mem_singleton.mp hNew]
        exact redirectResponse_refuses _
  | failed hState hCause => exact h.same rfl (hCause.answering h).symm
  | requestVoteSent hSends | appendEntriesSent hSends =>
    refine h.same ?_ (answering_eq_none_of hSends (by rintro _ _ ⟨⟩)).symm
    simp [Machine.answered]
  | @leave role hLeaves hRole =>
    refine h.same ?_ ?_
    · cases role <;> rfl
    · rw [answering_eq_none_of hLeaves (by rintro _ _ ⟨⟩)]
      exact answering_eq_none_of (RoleLoop.leave_main _ _) (by rintro _ _ ⟨⟩)
  | _ => exact h.same rfl (answering_eq_none_of ‹m.main = _› (by rintro _ _ ⟨⟩)).symm

omit [State S R] in
theorem Accounted.select {role : RoleLoop} {event : Event R} (h : Accounted m taken)
    (hMain : m.main = .select role) (hLive : LiveClients m (.event event))
    (hSelect : SelectStepped m role event m') :
    Accounted m' (taken ++ (m.takes (.event event)).toList) := by
  have hNone : m.answering = none := answering_eq_none_of hMain (by rintro _ _ ⟨⟩)
  cases hSelect with
  | append request responseTx =>
    refine ⟨?_, h.refuses, by rintro _ ⟨⟩⟩
    have hSenders := h.senders
    rw [hNone] at hSenders
    simp only [Machine.takes, hMain, Option.toList_some, List.filter_append, List.map_append]
    rw [← hSenders]
    simp [Machine.answering, Machine.goto, Machine.answered, RoleLoop.leads]
  | redirect request responseTx hRole =>
    have hLeads : role.leads = false := by
      cases role with
      | leader i => exact absurd rfl (hRole i)
      | follower | candidate _ => rfl
    refine ⟨?_, h.refuses, ?_⟩
    · have hSenders := h.senders
      rw [hNone] at hSenders
      simp only [Machine.takes, hMain, Option.toList_some, List.filter_append, List.map_append]
      rw [← hSenders]
      simp [Machine.answering, Machine.goto, Machine.answered, hLeads]
    · rintro _ ⟨⟩
      exact hLive
  | _ =>
    rw [Machine.takes, Option.toList_none, List.append_nil]
    · exact h.same rfl hNone.symm
    · rintro _ _ ⟨⟩

omit [State S R] in
theorem takes_eq_none {action : Action R} (h : ∀ event, action ≠ .event event) :
    m.takes action = none := by
  cases action with
  | event event => exact absurd rfl (h event)
  | _ => rfl

theorem Accounted.step {action : Action R} (h : Accounted m taken) (hLive : LiveClients m action)
    (hStep : m.step action = some m') : Accounted m' (taken ++ (m.takes action).toList) := by
  cases step_cases hStep with
  | select hMain hSelect => exact h.select hMain hLive hSelect
  | main hMain =>
    rw [takes_eq_none (by rintro _ ⟨⟩), Option.toList_none, List.append_nil]
    exact h.main hMain
  | overrun hOverrun =>
    rw [takes_eq_none (by rintro _ ⟨⟩), Option.toList_none, List.append_nil]
    refine h.same rfl ?_
    cases hOverrun <;> exact (answering_eq_none_of ‹m.main = _› (by rintro _ _ ⟨⟩)).symm
  | vote _ hTask | replicate _ hTask =>
    rw [takes_eq_none (by rintro _ ⟨⟩), Option.toList_none, List.append_nil]
    exact h.same (answered_of_replies hTask.frame.replies) (answering_of_main hTask.frame.main)
  | recv _ _ hRecv =>
    obtain ⟨voteSessions, rfl⟩ := hRecv.frame
    rw [takes_eq_none (by rintro _ ⟨⟩), Option.toList_none, List.append_nil]
    exact h.same rfl rfl
  | answerVote _ =>
    rw [takes_eq_none (by rintro _ ⟨⟩), Option.toList_none, List.append_nil]
    exact h.same rfl rfl
  | environment _ hLocal =>
    have hOther : ∀ event, action ≠ .event event := by
      rintro event rfl
      cases hLocal
    rw [takes_eq_none hOther, Option.toList_none, List.append_nil]
    exact h.same rfl rfl

theorem Accounted.run {actions : List (Action R)} (h : Accounted m taken)
    (hRun : m.run LiveClients actions = some m') : Accounted m' (taken ++ m.taken actions) := by
  induction actions generalizing m taken with
  | nil =>
    cases hRun
    rw [Machine.taken, List.append_nil]
    exact h
  | cons action rest ih =>
    obtain ⟨hLive, hRun⟩ := Option.ite_none_right_eq_some.mp hRun
    obtain ⟨m₁, hStep, hRest⟩ := Option.bind_eq_some_iff.mp hRun
    rw [Machine.taken, hStep, Option.elim_some, ← List.append_assoc]
    exact ih (h.step hLive hStep) hRest

omit [State S R] in
theorem accounted_start (node : RaftNode S) : Accounted ({ node } : Machine S R) [] := by
  refine ⟨rfl, ?_, ?_⟩
  · rintro _ ⟨⟩
  · rintro _ ⟨⟩

end Accounts

section Lists

variable {α β γ : Type} {r : α → β → Prop}

theorem exists_mem_of_forall₂ {l : List α} {l' : List β} (h : List.Forall₂ r l l') {a : α}
    (hMem : a ∈ l) : ∃ b ∈ l', r a b := by
  induction h with
  | nil => cases hMem
  | cons hHead _ ih =>
    rcases List.mem_cons.mp hMem with rfl | hTail
    · exact ⟨_, List.mem_cons_self, hHead⟩
    · obtain ⟨b, hb, hr⟩ := ih hTail
      exact ⟨b, List.mem_cons_of_mem _ hb, hr⟩

theorem forall₂_of_map_eq {f : α → γ} {g : β → γ} {l : List α} {l' : List β}
    (h : l'.map g = l.map f) (hr : ∀ a ∈ l, ∀ b ∈ l', g b = f a → r a b) :
    List.Forall₂ r l l' := by
  induction l generalizing l' with
  | nil =>
    rw [List.map_eq_nil_iff.mp h]
    exact List.Forall₂.nil
  | cons a rest ih =>
    obtain ⟨b, rest', rfl, hb, hRest⟩ := List.map_eq_cons_iff.mp h
    refine List.Forall₂.cons (hr a List.mem_cons_self b List.mem_cons_self hb) ?_
    exact ih hRest fun a ha b hb =>
      hr a (List.mem_cons_of_mem _ ha) b (List.mem_cons_of_mem _ hb)

end Lists

section Answers

variable {m m' : Machine S R} {taken requests : List (TakenRequest R)}

/-- A request that the leader loop has taken is due an `Ok`, and none is ever sent. -/
theorem Accounted.not_leads (h : Accounted m taken) (hOnce : AnsweredOnce m requests) :
    ∀ t ∈ requests, t.role.leads = false := by
  obtain ⟨answers, hPerm, hMatch⟩ := hOnce
  intro t hMem
  obtain ⟨answer, hAnswer, -, hDue⟩ := exists_mem_of_forall₂ hMatch hMem
  obtain ⟨hRefused, -⟩ := h.refuses answer (hPerm.mem_iff.mp hAnswer)
  cases hLeads : t.role.leads with
  | false => rfl
  | true =>
    rw [hLeads] at hDue
    have hSuccess : answer.2.success = true := hDue.1
    rw [hRefused] at hSuccess
    cases hSuccess

theorem Accounted.answeredOnce (h : Accounted m taken) (hIdle : m.answering = none)
    (hOthers : ∀ t ∈ taken, t.role.leads = false) : AnsweredOnce m taken := by
  have hSenders := h.senders
  rw [hIdle, Option.toList_none, List.append_nil, List.filter_eq_self.mpr] at hSenders
  · refine ⟨m.answered, List.Perm.refl _, forall₂_of_map_eq hSenders fun t ht answer hAnswer hTx => ?_⟩
    refine ⟨hTx, ?_⟩
    rw [hOthers t ht]
    exact h.refuses answer hAnswer
  · intro t ht
    rw [hOthers t ht]
    rfl

theorem Accounted.exists_idle (h : Accounted m taken) : ∃ rest m', m.run LiveClients rest = some m' ∧
    m.taken rest = [] ∧ m'.answering = none := by
  cases hMain : m.main with
  | readLeaderId role responseTx =>
    have hOpen := h.live _ (answering_readLeaderId hMain)
    obtain ⟨m', hStep, hIdle⟩ : ∃ m', m.step .main = some m' ∧ m'.answering = none := by
      simp only [Machine.step, mainStep, hMain, hOpen]
      exact ⟨_, rfl, rfl⟩
    refine ⟨[.main], m', ?_, ?_, hIdle⟩
    · have hLive : LiveClients m .main := trivial
      rw [Machine.run, if_pos hLive, hStep]
      rfl
    · rw [Machine.taken, hStep, takes_eq_none (by rintro _ ⟨⟩)]
      rfl
  | _ => exact ⟨[], m, rfl, rfl, answering_eq_none_of hMain (by rintro _ _ ⟨⟩)⟩

/-- Every request of the run has been answered exactly once if and only if none was taken by
the leader loop: it has been when no answer is being given, and otherwise no continuation of
the run that takes no further requests brings the answers. -/
theorem clients_answered_iff (node : RaftNode S) (actions : List (Action R)) (m : Machine S R)
    (hRun : ({ node } : Machine S R).run LiveClients actions = some m) :
    (m.answering = none → (AnsweredOnce m (({ node } : Machine S R).taken actions) ↔
      ∀ t ∈ ({ node } : Machine S R).taken actions, t.role.leads = false)) ∧
    ((∃ rest m', m.run LiveClients rest = some m' ∧ m.taken rest = [] ∧
      AnsweredOnce m' (({ node } : Machine S R).taken actions)) ↔
      ∀ t ∈ ({ node } : Machine S R).taken actions, t.role.leads = false) := by
  have hAccounted : Accounted m (({ node } : Machine S R).taken actions) :=
    (accounted_start node).run hRun
  refine ⟨fun hIdle => ⟨hAccounted.not_leads, hAccounted.answeredOnce hIdle⟩, ?_, ?_⟩
  · rintro ⟨rest, m', hRest, -, hOnce⟩
    exact (hAccounted.run hRest).not_leads hOnce
  · intro hOthers
    obtain ⟨rest, m', hRest, hNone, hIdle⟩ := hAccounted.exists_idle
    have hLater := hAccounted.run hRest
    rw [hNone, List.append_nil] at hLater
    exact ⟨rest, m', hRest, hNone, hLater.answeredOnce hIdle hOthers⟩

/-- A follower without a leader tells the client so. -/
theorem follower_answers_client : ∃ m : Machine (Stored Unit) Unit,
    m.answered = [(⟨7, 0, false⟩, ⟨false, .noLeaderYet, none⟩)] ∧
      AnsweredOnce m [⟨(), ⟨7, 0, false⟩, .follower⟩] := by
  obtain ⟨m, hRun, hm⟩ := Option.map_eq_some_iff.mp
    (show (Machine.run LiveClients { node := emptyNode ⟨[1, 2], by decide⟩ }
      ([.main, .main, .event (.clientRequest () ⟨7, 0, false⟩), .main] : List (Action Unit))).map
        (fun m => decide (m.answering = none ∧
          m.answered = [(⟨7, 0, false⟩, ⟨false, .noLeaderYet, none⟩)])) = some true by decide)
  obtain ⟨hIdle, hAnswered⟩ := of_decide_eq_true hm
  exact ⟨m, hAnswered, ((clients_answered_iff _ _ m hRun).1 hIdle).mpr (by decide)⟩

/-- The leader of two takes the request of a client, appends its entry and is back at the
head of its loop; whatever happens then, the client is not answered. -/
theorem leader_never_answers : ∃ m : Machine (Stored Unit) Unit,
    Machine.run LiveClients { node := emptyNode ⟨[1, 2], by decide⟩ }
      (appendActions ++ [.main, .main]) = some m ∧
    m.log = [⟨1, .clientRequest ()⟩] ∧ m.answered = [] ∧
    Machine.taken ({ node := emptyNode ⟨[1, 2], by decide⟩ } : Machine (Stored Unit) Unit)
      (appendActions ++ [.main, .main]) = [⟨(), ⟨7, 0, false⟩, .leader 0⟩] ∧
    ∀ rest m', m.run LiveClients rest = some m' → m.taken rest = [] →
      m'.answered = [] ∧ ¬ AnsweredOnce m' [⟨(), ⟨7, 0, false⟩, .leader 0⟩] := by
  obtain ⟨m, hRun, hm⟩ := Option.map_eq_some_iff.mp
    (show (Machine.run LiveClients { node := emptyNode ⟨[1, 2], by decide⟩ }
      (appendActions ++ [.main, .main])).map (fun m => decide (m.answered = [] ∧
        m.log = [⟨1, .clientRequest ()⟩])) = some true by decide)
  obtain ⟨hAnswered, hLog⟩ := of_decide_eq_true hm
  have hTaken : Machine.taken
      ({ node := emptyNode ⟨[1, 2], by decide⟩ } : Machine (Stored Unit) Unit)
      (appendActions ++ [.main, .main]) = [⟨(), ⟨7, 0, false⟩, .leader 0⟩] := by decide
  refine ⟨m, hRun, hLog, hAnswered, hTaken, fun rest m' hRest hNone => ?_⟩
  have hAccounted := ((accounted_start _).run hRun).run hRest
  rw [List.nil_append, hTaken, hNone] at hAccounted
  constructor
  · have hSenders : m'.answered.map Prod.fst ++ m'.answering.toList = [] := hAccounted.senders
    exact List.map_eq_nil_iff.mp (List.append_eq_nil_iff.mp hSenders).1
  · intro hOnce
    have hLeads := hAccounted.not_leads hOnce _ (List.mem_singleton_self _)
    cases hLeads

end Answers

end Zeroraft
