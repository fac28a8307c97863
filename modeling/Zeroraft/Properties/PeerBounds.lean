import Mathlib.Data.List.Infix
import Zeroraft.Properties.Acknowledged
import Zeroraft.Properties.OnlyLeaders
import Zeroraft.Runtime.Bookkeeping
import Zeroraft.Runtime.LogSteps

/-!
# Does the peers map stay within the leader's log?

An `Ok` response moves the next index of a peer by the present next index and the
length of the response, and sets the match index to the present next index and that
length, less one, whatever request the response answers. A mismatch takes one off.
-/

namespace Zeroraft

variable {S R : Type} [State S R]

/-- The follower, when it accepted the request, had a log that went with the leader's
through index `m`. -/
def Accepted.Agrees (accepted : Accepted S) (m : Nat) (leaderLog : List (LogEntry R)) : Prop :=
  AgreesThrough m accepted.after.log leaderLog

/-- The entry of a peer is within the log, and a match index is below the next index and
backed by what the follower has last accepted. -/
structure Peer.Booked (leaderLog : List (LogEntry R)) (accepted : Option (Accepted S))
    (peer : Peer) : Prop where
  pos : 1 ≤ peer.nextIndex
  within : peer.nextIndex ≤ leaderLog.length + 1
  matched : ∀ m ∈ peer.matchIndex, m < peer.nextIndex ∧ ∃ a ∈ accepted, a.Agrees m leaderLog

def AppendEntriesRequest.Accepts (request : AppendEntriesRequest R) (follower : RaftNode S) : Prop :=
  ¬ follower.currentTerm > request.term ∧ ¬ request.Mismatch (stored follower.state)

namespace Replication

def Booked (s : Replication S R) : Prop :=
  ∀ id peer, s.peers.lookup id = some peer → peer.Booked s.leader.log (s.accepted id)

/-- A follower accepts composed requests in the order in which they were composed, and with
a log that goes with the leader's up to the new entries. A response to one is processed
while the next index is the one that the request was composed with; a mismatch above what
the follower has acknowledged; an `Ok` when the leader's log has gone on, by more entries
than there are before those of the request, and still has its next index within `u64`. -/
def Orderly (s : Replication S R) : Event S R → Prop
  | .answer j follower _ => ∀ sent ∈ s.sent[j]?, sent.handler = .standby →
      sent.request.Accepts follower →
        AgreesThrough sent.request.prevLogIndex follower.log s.leader.log ∧
          ∀ a ∈ s.accepted follower.id, a.position ≤ j
  | .process j => ∀ answer ∈ s.answers[j]?, answer.sent.handler = .standby →
      answer.response.reason ≠ .staleTerm → ∀ peer ∈ s.peers.lookup answer.response.id,
        peer.nextIndex = answer.sent.request.prevLogIndex + 1 ∧
        (answer.response.reason = .logMismatch →
          ∀ m ∈ peer.matchIndex, m < answer.sent.request.prevLogIndex) ∧
        (answer.response.reason = .ok →
          answer.sent.request.reach + answer.sent.request.prevLogIndex < s.leader.log.length ∧
            s.leader.log.length + 1 < u64Size)
  | _ => True

/-- Every event of the run is orderly in the state in which it happens. -/
def AllOrderly : Replication S R → List (Event S R) → Prop
  | _, [] => True
  | s, event :: rest => s.Orderly event ∧ ∀ s' ∈ s.step event, s'.AllOrderly rest

section Decidable

variable [DecidableEq R]

instance (m : Nat) (log leaderLog : List (LogEntry R)) : Decidable (AgreesThrough m log leaderLog) :=
  inferInstanceAs (Decidable (_ = _))

instance (request : AppendEntriesRequest R) (follower : RaftNode S) :
    Decidable (request.Accepts follower) :=
  inferInstanceAs (Decidable (_ ∧ _))

instance Orderly.instDecidable (s : Replication S R) (event : Event S R) :
    Decidable (s.Orderly event) :=
  match event with
  | .answer j follower _ => inferInstanceAs (Decidable (∀ sent ∈ s.sent[j]?, _ → _ →
      _ ∧ ∀ a ∈ s.accepted follower.id, _))
  | .process j => inferInstanceAs (Decidable (∀ answer ∈ s.answers[j]?, _ → _ →
      ∀ peer ∈ s.peers.lookup answer.response.id,
        _ ∧ (_ → ∀ m ∈ peer.matchIndex, _) ∧ (_ → _ ∧ _)))
  | .append _ | .heartbeat _ _ _ | .compose _ _ _ => isTrue trivial

instance AllOrderly.instDecidable : (s : Replication S R) → (events : List (Event S R)) →
    Decidable (s.AllOrderly events)
  | _, [] => isTrue trivial
  | s, event :: rest =>
    have (s' : Replication S R) : Decidable (s'.AllOrderly rest) := instDecidable s' rest
    inferInstanceAs (Decidable (s.Orderly event ∧ ∀ s' ∈ s.step event, s'.AllOrderly rest))

end Decidable

end Replication

section Requests

/-- The request continues the log at an index that there is, and does not go beyond it. -/
structure AppendEntriesRequest.Continues (request : AppendEntriesRequest R)
    (log : List (LogEntry R)) : Prop where
  pos : 1 ≤ request.prevLogIndex
  within : request.reach ≤ log.length
  entries : request.entries <+: log.drop request.prevLogIndex

omit [State S R] in
theorem AppendEntriesRequest.Continues.mono {request : AppendEntriesRequest R}
    {log log' : List (LogEntry R)} (h : request.Continues log) (hGrows : log <+: log') :
    request.Continues log' :=
  ⟨h.pos, h.within.trans hGrows.length_le, h.entries.trans (hGrows.drop _)⟩

/-- A log that goes with the leader's up to the new entries is a part of it afterwards. -/
theorem AppendEntriesRequest.Continues.accepted [LawfulState S R]
    {request : AppendEntriesRequest R} {leaderLog : List (LogEntry R)} {follower : RaftNode S}
    (h : request.Continues leaderLog) (hAccepted : ¬ request.Mismatch (stored follower.state))
    (hAgrees : AgreesThrough request.prevLogIndex follower.log leaderLog) :
    (request.store follower).log <+: leaderLog ∧
      (request.store follower).log.length = request.reach := by
  have hPrev : request.prevLogIndex ≤ follower.log.length :=
    Nat.le_of_not_lt (not_or.mp hAccepted).1
  have hLog : (request.store follower).log =
      follower.log.take request.prevLogIndex ++ request.entries := by
    rw [RaftNode.log, AppendEntriesRequest.stored_store, RaftNode.log]
  constructor
  · rw [hLog, hAgrees]
    nth_rewrite 2 [← List.take_append_drop request.prevLogIndex leaderLog]
    exact (List.prefix_append_right_inj _).mpr h.entries
  · rw [hLog, List.length_append, List.length_take, Nat.min_eq_left hPrev,
      AppendEntriesRequest.reach]

/-- A composed request goes to the end of the leader's log. -/
theorem composed_continues [LawfulState S R] {leader : RaftNode S} {peers : PeerMap} {peer : NodeId}
    {request : AppendEntriesRequest R}
    (h : composeAppendEntriesRequest leader peers peer = some request) :
    request.Continues leader.log ∧ request.reach = leader.log.length := by
  obtain ⟨hBound, hEntries⟩ := composeAppendEntriesRequest_eq_some h
  obtain ⟨entry, hEntry, _⟩ := composeAppendEntriesRequest_prev h
  have hReach : request.reach = leader.log.length := by
    rw [AppendEntriesRequest.reach, hEntries, List.length_drop, RaftNode.log]
    omega
  refine ⟨⟨(Stored.entry_eq_some_iff.mp hEntry).1, hReach.le, ?_⟩, hReach⟩
  simp only [hEntries, RaftNode.log, List.prefix_rfl]

end Requests

section Answers

variable [LawfulState S R] {request : AppendEntriesRequest R} {responseTx : Sender}
  {follower after : RaftNode S} {response : AppendEntriesResponse}

/-- An `Ok` has the length of the request, which the follower has stored. -/
theorem respondToAppendEntries_accepted
    (hRun : (respondToAppendEntries request responseTx).run follower = (.ok response, after))
    (hOk : response.reason = .ok) :
    request.Accepts follower ∧ after = request.store follower ∧
      response.len = request.entries.length := by
  rw [respondToAppendEntries_eq] at hRun
  split_ifs at hRun with hStale hMismatch <;>
    obtain ⟨-, rfl, rfl⟩ := Sender.run_send_eq_ok_iff.mp hRun
  · cases hOk
  · cases hOk
  · exact ⟨⟨hStale, hMismatch⟩, rfl, rfl⟩

theorem respondToAppendEntries_id
    (hRun : (respondToAppendEntries request responseTx).run follower = (.ok response, after)) :
    response.id = follower.id := by
  rw [respondToAppendEntries_eq] at hRun
  split_ifs at hRun <;> obtain ⟨-, rfl, -⟩ := Sender.run_send_eq_ok_iff.mp hRun <;> rfl

theorem answer_reason
    (hRun : (respondToAppendEntries request responseTx).run follower = (.ok response, after))
    (hZero : request.prevLogIndex = 0) : response.reason ≠ .logMismatch := by
  rw [respondToAppendEntries_eq] at hRun
  split_ifs at hRun with hStale hMismatch <;>
    obtain ⟨-, rfl, rfl⟩ := Sender.run_send_eq_ok_iff.mp hRun
  · rintro ⟨⟩
  · rcases hMismatch with hShort | hTerm
    · exact absurd hShort (by rw [hZero]; exact Nat.not_lt_zero _)
    · simp [hZero, Stored.entry] at hTerm
  · rintro ⟨⟩

end Answers

/-- What the follower has last accepted is at least so long. -/
def Reached (accepted : Option (Accepted S)) (m : Nat) : Prop :=
  ∃ a ∈ accepted, m ≤ a.after.log.length

/-- What the leader knows of a peer, given the length of its own log. -/
structure Peer.Kept (length : Nat) (accepted : Option (Accepted S)) (peer : Peer) : Prop where
  pos : 1 ≤ peer.nextIndex
  within : peer.nextIndex ≤ length + 1
  matched : ∀ m ∈ peer.matchIndex, m < peer.nextIndex ∧ Reached accepted m

theorem Peer.Kept.mono {length length' : Nat} {accepted accepted' : Option (Accepted S)}
    {peer : Peer} (h : peer.Kept length accepted) (hLength : length ≤ length')
    (hReached : ∀ m, Reached accepted m → Reached accepted' m) : peer.Kept length' accepted' :=
  ⟨h.pos, h.within.trans (Nat.succ_le_succ hLength),
    fun m hm => ⟨(h.matched m hm).1, hReached m (h.matched m hm).2⟩⟩

/-- What is known of an answer: only composed requests meet a mismatch, and the follower has
since kept what it has answered `Ok` to. -/
structure Answer.Kept (sent : List (SentRequest R)) (accepted : NodeId → Option (Accepted S))
    (answer : Answer R) : Prop where
  sent : answer.sent ∈ sent
  heartbeat : answer.sent.handler = .heartbeat → answer.response.reason ≠ .logMismatch
  ok : answer.sent.handler = .standby → answer.response.reason = .ok →
    answer.response.len = answer.sent.request.entries.length ∧
      Reached (accepted answer.response.id) answer.sent.request.reach

theorem Answer.Kept.mono {sent sent' : List (SentRequest R)}
    {accepted accepted' : NodeId → Option (Accepted S)} {answer : Answer R}
    (h : answer.Kept sent accepted) (hSent : sent ⊆ sent')
    (hReached : ∀ id m, Reached (accepted id) m → Reached (accepted' id) m) :
    answer.Kept sent' accepted' :=
  ⟨hSent h.sent, h.heartbeat, fun hStandby hOk =>
    ⟨(h.ok hStandby hOk).1, hReached _ _ (h.ok hStandby hOk).2⟩⟩

namespace Replication

variable {s s' : Replication S R} {event : Event S R}

def SentBefore (a b : SentRequest R) : Prop :=
  a.handler = .standby → b.handler = .standby → a.request.reach ≤ b.request.reach

/-- What holds in an orderly run. Later requests reach at least as far as earlier ones, and
the log of a follower after an `Ok` is the part of the leader's that the request reaches. -/
structure Kept (s : Replication S R) : Prop where
  heartbeats : ∀ sent ∈ s.sent, sent.handler = .heartbeat → sent.request.prevLogIndex = 0
  composed : ∀ sent ∈ s.sent, sent.handler = .standby → sent.request.Continues s.leader.log
  ordered : s.sent.Pairwise SentBefore
  accepted : ∀ id, ∀ a ∈ s.accepted id, a.after.log <+: s.leader.log ∧
    ∃ sent, s.sent[a.position]? = some sent ∧ sent.handler = .standby ∧
      a.after.log.length = sent.request.reach
  answers : ∀ answer ∈ s.answers, answer.Kept s.sent s.accepted
  peers : ∀ id peer, s.peers.lookup id = some peer →
    peer.Kept s.leader.log.length (s.accepted id)

theorem Kept.booked (h : s.Kept) : s.Booked := by
  intro id peer hPeer
  obtain ⟨hPos, hWithin, hMatched⟩ := h.peers id peer hPeer
  refine ⟨hPos, hWithin, fun m hm => ?_⟩
  obtain ⟨hBelow, a, ha, hReach⟩ := hMatched m hm
  obtain ⟨rest, hRest⟩ := (h.accepted id a ha).1
  refine ⟨hBelow, a, ha, ?_⟩
  rw [Accepted.Agrees, AgreesThrough, ← hRest, List.take_append_of_le_length hReach]

variable [LawfulState S R]

theorem log_append (leader : RaftNode S) (entry : LogEntry R) :
    leader.log <+: RaftNode.log
      { leader with state := (State.appendEntries leader.state [entry]).2 } := by
  rw [RaftNode.log, RaftNode.log, LawfulState.stored_appendEntries]
  exact List.prefix_append _ _

theorem Kept.append (h : s.Kept) (entry : LogEntry R) : Kept { s with
    leader := { s.leader with state := (State.appendEntries s.leader.state [entry]).2 } } := by
  have hGrows := log_append s.leader entry
  refine { h with composed := ?_, accepted := ?_, peers := ?_ }
  · exact fun sent hSent hStandby => (h.composed sent hSent hStandby).mono hGrows
  · intro id a ha
    obtain ⟨hLog, hRest⟩ := h.accepted id a ha
    exact ⟨hLog.trans hGrows, hRest⟩
  · exact fun id peer hPeer => (h.peers id peer hPeer).mono hGrows.length_le fun _ hm => hm

omit [LawfulState S R] in
theorem Kept.send (h : s.Kept) {sent : SentRequest R}
    (hHeartbeat : sent.handler = .heartbeat → sent.request.prevLogIndex = 0)
    (hComposed : sent.handler = .standby → sent.request.Continues s.leader.log ∧
      sent.request.reach = s.leader.log.length) : (s.send sent).Kept := by
  refine { h with heartbeats := ?_, composed := ?_, ordered := ?_, accepted := ?_, answers := ?_ }
  · intro other hOther
    rcases List.mem_append.mp hOther with hOld | hNew
    · exact h.heartbeats other hOld
    · obtain rfl := List.mem_singleton.mp hNew
      exact hHeartbeat
  · intro other hOther hStandby
    rcases List.mem_append.mp hOther with hOld | hNew
    · exact h.composed other hOld hStandby
    · obtain rfl := List.mem_singleton.mp hNew
      exact (hComposed hStandby).1
  · refine List.pairwise_append.mpr ⟨h.ordered, List.pairwise_singleton _ _, ?_⟩
    intro a ha b hb hFirst hSecond
    obtain rfl := List.mem_singleton.mp hb
    rw [(hComposed hSecond).2]
    exact (h.composed a ha hFirst).within
  · intro id a ha
    obtain ⟨hLog, other, hOther, hRest⟩ := h.accepted id a ha
    refine ⟨hLog, other, ?_, hRest⟩
    exact (List.getElem?_append_left (List.getElem?_eq_some_iff.mp hOther).1).trans hOther
  · exact fun answer hAnswer => (h.answers answer hAnswer).mono
      (List.subset_append_left _ _) fun _ _ hm => hm

omit [LawfulState S R] in
/-- A follower that accepts its requests in order keeps what it has accepted. -/
theorem Kept.reached_update (h : s.Kept) {j : Nat} {sent : SentRequest R} {after : RaftNode S}
    (hSent : s.sent[j]? = some sent) (hStandby : sent.handler = .standby)
    (hLength : after.log.length = sent.request.reach)
    (hLast : ∀ a ∈ s.accepted sent.peer, a.position ≤ j) (id : NodeId) (m : Nat)
    (hm : Reached (s.accepted id) m) :
    Reached (Function.update s.accepted sent.peer (some ⟨j, after⟩) id) m := by
  by_cases hId : id = sent.peer
  · subst hId
    obtain ⟨a, ha, hReach⟩ := hm
    obtain ⟨_, other, hOther, hOtherStandby, hOtherLength⟩ := h.accepted sent.peer a ha
    rw [Function.update_self]
    refine ⟨_, rfl, hReach.trans ?_⟩
    rw [hLength, hOtherLength]
    rcases (hLast a ha).eq_or_lt with rfl | hLt
    · rw [Option.some.inj (hOther.symm.trans hSent)]
    · obtain ⟨hj, rfl⟩ := List.getElem?_eq_some_iff.mp hSent
      obtain ⟨hk, rfl⟩ := List.getElem?_eq_some_iff.mp hOther
      exact List.pairwise_iff_getElem.mp h.ordered _ _ hk hj hLt hOtherStandby hStandby
  · rwa [Function.update_of_ne hId]

theorem Kept.answer (h : s.Kept) {j : Nat} {sent : SentRequest R} {follower after : RaftNode S}
    {responseTx : Sender} {response : AppendEntriesResponse} (hSent : s.sent[j]? = some sent)
    (hPeer : follower.id = sent.peer)
    (hRun : (respondToAppendEntries sent.request responseTx).run follower = (.ok response, after))
    (hOrderly : s.Orderly (.answer j follower responseTx)) :
    (s.answered j ⟨sent, response⟩ after).Kept := by
  have hMem := List.mem_of_getElem? hSent
  have hId : response.id = sent.peer := (respondToAppendEntries_id hRun).trans hPeer
  have hNotMismatch : sent.handler = .heartbeat → response.reason ≠ .logMismatch :=
    fun hHeartbeat => answer_reason hRun (h.heartbeats sent hMem hHeartbeat)
  by_cases hOk : sent.handler = .standby ∧ response.reason = .ok
  · obtain ⟨hStandby, hReason⟩ := hOk
    obtain ⟨hAccepts, rfl, hLen⟩ := respondToAppendEntries_accepted hRun hReason
    obtain ⟨hAgrees, hLast⟩ := hOrderly sent hSent hStandby hAccepts
    obtain ⟨hLog, hLength⟩ := (h.composed sent hMem hStandby).accepted hAccepts.2 hAgrees
    rw [hPeer] at hLast
    have hNew : (s.answered j ⟨sent, response⟩ (sent.request.store follower)).accepted =
        Function.update s.accepted sent.peer (some ⟨j, sent.request.store follower⟩) :=
      if_pos ⟨hStandby, hReason⟩
    have hReached := h.reached_update hSent hStandby hLength hLast
    refine { h with accepted := ?_, answers := ?_, peers := ?_ }
    · rw [hNew]
      intro id a ha
      by_cases hOwn : id = sent.peer
      · subst hOwn
        rw [Function.update_self] at ha
        cases ha
        exact ⟨hLog, sent, hSent, hStandby, hLength⟩
      · rw [Function.update_of_ne hOwn] at ha
        exact h.accepted id a ha
    · rw [hNew]
      intro answer hAnswer
      rcases List.mem_append.mp hAnswer with hOld | hLatest
      · exact (h.answers answer hOld).mono (List.Subset.refl _) hReached
      · obtain rfl := List.mem_singleton.mp hLatest
        refine ⟨hMem, hNotMismatch, fun _ _ => ⟨hLen, ?_⟩⟩
        rw [hId, Function.update_self]
        exact ⟨_, rfl, hLength.ge⟩
    · rw [hNew]
      exact fun id peer hLookup => (h.peers id peer hLookup).mono (Nat.le_refl _) (hReached id)
  · have hSame : (s.answered j ⟨sent, response⟩ after).accepted = s.accepted := if_neg hOk
    refine { h with accepted := ?_, answers := ?_, peers := ?_ }
    · rw [hSame]
      exact h.accepted
    · rw [hSame]
      intro answer hAnswer
      rcases List.mem_append.mp hAnswer with hOld | hLatest
      · exact h.answers answer hOld
      · obtain rfl := List.mem_singleton.mp hLatest
        exact ⟨hMem, hNotMismatch, fun hStandby hReason => absurd ⟨hStandby, hReason⟩ hOk⟩
    · rw [hSame]
      exact h.peers

omit [LawfulState S R] in
theorem Kept.insert (h : s.Kept) {id : NodeId} {peer : Peer}
    (hPeer : peer.Kept s.leader.log.length (s.accepted id)) :
    Kept { s with peers := s.peers.insert id peer } := by
  refine { h with peers := fun other entry hEntry => ?_ }
  by_cases hId : other = id
  · subst hId
    obtain rfl := Option.some.inj ((AList.lookup_insert s.peers).symm.trans hEntry)
    exact hPeer
  · exact h.peers other entry ((AList.lookup_insert_ne hId).symm.trans hEntry)

omit [LawfulState S R] in
theorem Kept.process_mismatch (h : s.Kept) {j : Nat} {answer : Answer R}
    (hAnswer : s.answers[j]? = some answer) (hReason : answer.response.reason = .logMismatch)
    (hOrderly : s.Orderly (.process j)) :
    Kept { s with peers := answer.sent.handler.update s.peers answer.response } := by
  have hKept := h.answers answer (List.mem_of_getElem? hAnswer)
  have hStandby : answer.sent.handler = .standby := by
    cases hHandler : answer.sent.handler with
    | heartbeat => exact absurd hReason (hKept.heartbeat hHandler)
    | standby => rfl
  cases hNext : decrementNextIndex s.peers answer.response.id with
  | none =>
    simp only [Handler.update, hReason, hNext, Option.getD_none]
    exact h
  | some peers' =>
    rw [Handler.update_logMismatch hReason hNext]
    obtain ⟨peer, hPeer, _, rfl⟩ := decrementNextIndex_eq_some hNext
    obtain ⟨hTurn, hAbove, _⟩ := hOrderly answer hAnswer hStandby (by rw [hReason]; rintro ⟨⟩)
      peer hPeer
    obtain ⟨_, hWithin, hMatched⟩ := h.peers _ peer hPeer
    have hPrev := (h.composed _ hKept.sent hStandby).pos
    refine h.insert ⟨?_, (Nat.sub_le _ _).trans hWithin, fun m hm => ⟨?_, (hMatched m hm).2⟩⟩
    · dsimp only
      omega
    · have hBelow := hAbove hReason m hm
      dsimp only
      omega

omit [LawfulState S R] in
theorem Kept.process_ok (h : s.Kept) {j : Nat} {answer : Answer R}
    (hAnswer : s.answers[j]? = some answer) (hReason : answer.response.reason = .ok)
    (hStandby : answer.sent.handler = .standby) (hOrderly : s.Orderly (.process j)) :
    Kept { s with peers := answer.sent.handler.update s.peers answer.response } := by
  have hKept := h.answers answer (List.mem_of_getElem? hAnswer)
  obtain ⟨hLen, hReached⟩ := hKept.ok hStandby hReason
  rw [hStandby]
  cases hNext : recordAppended s.peers answer.response.id answer.response.len with
  | ok peers' =>
    rw [Handler.update_ok hReason (Or.inl hNext)]
    obtain ⟨peer, hPeer, _, _, rfl⟩ := recordAppended_eq_ok hNext
    obtain ⟨hTurn, _, hRoom⟩ := hOrderly answer hAnswer hStandby (by rw [hReason]; rintro ⟨⟩)
      peer hPeer
    have hLog := (hRoom hReason).1
    rw [AppendEntriesRequest.reach] at hLog hReached
    refine h.insert ⟨by dsimp only; omega, by dsimp only; omega, ?_⟩
    rintro _ ⟨⟩
    refine ⟨by dsimp only; omega, ?_⟩
    -- In turn, the new match index is the end of the request.
    rwa [show peer.nextIndex + answer.response.len - 1 =
      answer.sent.request.prevLogIndex + answer.sent.request.entries.length by omega]
  | error peers' =>
    rw [Handler.update_ok hReason (Or.inr hNext)]
    rcases recordAppended_eq_error hNext with rfl | ⟨peer, hPeer, _, hOver, rfl⟩
    · exact h
    · obtain ⟨hTurn, _, hRoom⟩ := hOrderly answer hAnswer hStandby (by rw [hReason]; rintro ⟨⟩)
        peer hPeer
      obtain ⟨hLog, hSize⟩ := hRoom hReason
      rw [AppendEntriesRequest.reach] at hLog
      omega

theorem step_kept (hOrderly : s.Orderly event) (hStep : s.step event = some s') (h : s.Kept) :
    s'.Kept := by
  cases step_cases hStep with
  | append _ => exact h.append _
  | heartbeat => exact h.send (fun _ => rfl) nofun
  | compose hRequest =>
    obtain ⟨hContinues, hReach⟩ := composed_continues hRequest
    exact h.send nofun fun _ => ⟨⟨hContinues.pos, hContinues.within, hContinues.entries⟩, hReach⟩
  | answer hSent hPeer hRun => exact h.answer hSent hPeer hRun hOrderly
  | @process j answer hAnswer =>
    cases hReason : answer.response.reason with
    | logMismatch => exact h.process_mismatch hAnswer hReason hOrderly
    | staleTerm =>
      simp only [Handler.update, hReason]
      exact h
    | ok =>
      cases hHandler : answer.sent.handler with
      | heartbeat =>
        simp only [Handler.update, hReason]
        exact h
      | standby => exact hHandler ▸ h.process_ok hAnswer hReason hHandler hOrderly

theorem run_kept {events : List (Event S R)} (hOrderly : s.AllOrderly events)
    (hRun : s.run events = some s') (h : s.Kept) : s'.Kept := by
  induction events generalizing s with
  | nil =>
    obtain rfl := Option.some.inj hRun
    exact h
  | cons event rest ih =>
    obtain ⟨s₁, hStep, hRest⟩ := Option.bind_eq_some_iff.mp hRun
    exact ih (hOrderly.2 s₁ hStep) hRest (step_kept hOrderly.1 hStep h)

omit [LawfulState S R] in
theorem start_kept {leader : RaftNode S}
    (hCommit : (stored leader.state).membership.peers leader.id ≠ [] →
      (stored leader.state).commit ≤ leader.log.length) :
    (start leader : Replication S R).Kept where
  heartbeats := nofun
  composed := nofun
  ordered := List.Pairwise.nil
  accepted := nofun
  answers := nofun
  peers := by
    intro id peer hPeer
    obtain ⟨hId, rfl⟩ := lookup_initialPeers.mp hPeer
    exact ⟨Nat.le_add_left 1 _, Nat.succ_le_succ (hCommit (List.ne_nil_of_mem hId)), nofun⟩

end Replication

/-- The peers map of a session that is started within the log keeps its invariant in all
states of an orderly run. -/
theorem peers_booked [LawfulState S R] (leader : RaftNode S)
    (events : List (Replication.Event S R)) (s : Replication S R)
    (hCommit : (stored leader.state).membership.peers leader.id ≠ [] →
      (stored leader.state).commit ≤ leader.log.length)
    (hOrderly : (Replication.start leader).AllOrderly events)
    (hRun : (Replication.start leader).run events = some s) : s.Booked :=
  (Replication.run_kept hOrderly hRun (Replication.start_kept hCommit)).booked

/-- The leader asks its follower to append the second entry, and the follower does. -/
def secondEntryEvents : List (Replication.Event (Stored Unit) Unit) :=
  [.compose 2 1 1, .answer 0 committedFollower ⟨1, 0, false⟩]

/-- Two more entries are appended before the leader processes the answer. -/
theorem peers_booked_late :
    ∃ s : Replication (Stored Unit) Unit, s.Booked ∧ s.peers.lookup 2 = some ⟨5, some 2⟩ := by
  obtain ⟨s, hRun, hPeer⟩ := Option.map_eq_some_iff.mp
    (show ((Replication.start committedLeader).run
      (secondEntryEvents ++ [.append setEntry, .append setEntry, .process 0])).map
        (fun s => decide (s.peers.lookup 2 = some ⟨5, some 2⟩)) = some true by decide)
  exact ⟨s, peers_booked committedLeader _ s (by decide) (by decide) hRun, of_decide_eq_true hPeer⟩

/-- Processed at once, the answer takes the next index past the log; so it does in a node
that has come by a stale peer. -/
theorem next_index_outruns_log :
    (∃ s : Replication (Stored Unit) Unit,
      (Replication.start committedLeader).run (secondEntryEvents ++ [.process 0]) = some s ∧
        s.leader.log.length = 2 ∧ s.peers.lookup 2 = some ⟨5, some 2⟩ ∧ ¬ s.Booked) ∧
    ∃ m : Machine (Stored Unit) Unit, Machine.Runs (fun _ _ => True) { node := committedNode } m ∧
      m.log.length = 2 ∧ (m.replicationSessions[0]?.bind (·.lookup 2)) = some ⟨5, some 2⟩ := by
  constructor
  · obtain ⟨s, hRun, h⟩ := Option.map_eq_some_iff.mp
      (show ((Replication.start committedLeader).run (secondEntryEvents ++ [.process 0])).map
        (fun s => decide (s.leader.log.length = 2 ∧ s.peers.lookup 2 = some ⟨5, some 2⟩)) =
          some true by decide)
    obtain ⟨hLog, hPeer⟩ := of_decide_eq_true h
    refine ⟨s, hRun, hLog, hPeer, fun hBooked => ?_⟩
    have hWithin := (hBooked 2 _ hPeer).within
    rw [hLog] at hWithin
    exact absurd hWithin (by decide)
  · obtain ⟨m, hRuns, hm⟩ := Machine.exists_of_run
      (show (Machine.run (fun _ _ => True) { node := committedNode } (deposedActions ++
        [.task 4, .answerAppend 4 ⟨3, true, 2, 1, .ok⟩, .task 4, .task 3, .task 3])).map
        (fun m => decide (m.log.length = 2 ∧
          (m.replicationSessions[0]?.bind (·.lookup 2)) = some ⟨5, some 2⟩)) = some true by decide)
    obtain ⟨hLog, hPeer⟩ := of_decide_eq_true hm
    exact ⟨m, hRuns, hLog, hPeer⟩

end Zeroraft
