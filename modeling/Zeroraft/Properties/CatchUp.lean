import Zeroraft.Properties.CommittedEntries
import Zeroraft.Properties.LogMatching
import Zeroraft.Runtime.ReplicationTasks

/-!
# Does a follower catch up?

A composed request is accepted exactly on a common prefix, and then the follower has the
whole log of the leader. The leader goes back entry by entry until that happens, but it
composes no request for the whole log: there is no entry before the first.
-/

namespace Zeroraft

open Routine

variable {S R : Type} [State S R]

/-- Both logs have `k` entries, and the same ones. -/
def AgreeUpTo (a b : List (LogEntry R)) (k : Nat) : Prop :=
  k ≤ a.length ∧ k ≤ b.length ∧ a.take k = b.take k

omit [State S R] in
theorem AgreeUpTo.mono {a b : List (LogEntry R)} {j k : Nat} (h : AgreeUpTo a b k) (hLe : j ≤ k) :
    AgreeUpTo a b j := by
  obtain ⟨ha, hb, hTake⟩ := h
  refine ⟨hLe.trans ha, hLe.trans hb, ?_⟩
  have hCut := congrArg (List.take j) hTake
  rwa [List.take_take, List.take_take, Nat.min_eq_left hLe] at hCut

omit [State S R] in
/-- In matching logs one index and one term tell whether the prefixes agree. -/
theorem agreeUpTo_iff {a b : List (LogEntry R)} (hMatch : LogsMatch a b) {k : Nat}
    {entry : LogEntry R} (hEntry : a[k]? = some entry) :
    AgreeUpTo a b (k + 1) ↔ ∃ other, b[k]? = some other ∧ other.term = entry.term := by
  have hLength : k + 1 ≤ a.length := (List.getElem?_eq_some_iff.mp hEntry).1
  constructor
  · rintro ⟨_, _, hTake⟩
    refine ⟨entry, ?_, rfl⟩
    rw [← List.getElem?_take_of_lt (Nat.lt_succ_self k), ← hTake,
      List.getElem?_take_of_lt (Nat.lt_succ_self k), hEntry]
  · rintro ⟨other, hOther, hTerm⟩
    exact ⟨hLength, (List.getElem?_eq_some_iff.mp hOther).1,
      hMatch k entry other hEntry hOther hTerm.symm⟩

section Composed

variable {leader follower : RaftNode S} {peers : PeerMap} {peer : NodeId}

/-- The request for the entries after the first `k + 1`. -/
def requestAfter (leader : RaftNode S) (k : Nat) (entry : LogEntry R) : AppendEntriesRequest R where
  term := leader.currentTerm
  leaderId := leader.id
  lastCommitIndex := (stored leader.state).commit
  prevLogIndex := k + 1
  prevLogTerm := entry.term
  entries := (stored leader.state).log.drop (k + 1)

variable [LawfulState S R]

/-- At the first entry there is no entry before it, and the task panics. -/
theorem composeAppendEntriesRequest_first {n : Nat} {matchIndex : Option Nat}
    (hNext : peers.lookup peer = some ⟨n, matchIndex⟩) (hFirst : n ≤ 1) :
    composeAppendEntriesRequest leader peers peer = none := by
  have hPrev : State.getEntry leader.state (n - 1) = none := by
    rw [LawfulState.getEntry_eq, Stored.entry, if_pos (Nat.sub_eq_zero_of_le hFirst)]
  simp only [composeAppendEntriesRequest, hNext, hPrev, Option.bind_eq_bind, Option.bind_some,
    Option.bind_none, ite_self]

theorem composeAppendEntriesRequest_after {k : Nat} {matchIndex : Option Nat}
    (hNext : peers.lookup peer = some ⟨k + 2, matchIndex⟩) :
    composeAppendEntriesRequest leader peers peer =
      (stored leader.state).log[k]?.map (requestAfter leader k) := by
  have hPrev : State.getEntry leader.state (k + 2 - 1) = (stored leader.state).log[k]? := by
    change State.getEntry leader.state (k + 1) = _
    rw [LawfulState.getEntry_eq, Stored.entry, if_neg (Nat.add_one_ne_zero k), Nat.add_sub_cancel]
  have hEntries : State.getEntries leader.state (k + 2) none =
      (stored leader.state).log.drop (k + 1) := LawfulState.getEntries_from _ _ (by omega)
  simp only [composeAppendEntriesRequest, hNext, hPrev, hEntries, Option.bind_eq_bind,
    Option.bind_some, if_neg (Nat.add_one_ne_zero _)]
  cases (stored leader.state).log[k]? <;> rfl

omit [LawfulState S R] in
/-- The consistency check of the follower is the agreement of the prefixes. -/
theorem mismatch_requestAfter_iff
    (hMatch : LogsMatch (stored leader.state).log (stored follower.state).log) {k : Nat}
    {entry : LogEntry R} (hEntry : (stored leader.state).log[k]? = some entry) :
    (requestAfter leader k entry).Mismatch (stored follower.state) ↔
      ¬ AgreeUpTo (stored leader.state).log (stored follower.state).log (k + 1) := by
  rw [agreeUpTo_iff hMatch hEntry]
  unfold AppendEntriesRequest.Mismatch Stored.entry requestAfter
  rw [if_neg (Nat.add_one_ne_zero k), Nat.add_sub_cancel]
  cases hOther : (stored follower.state).log[k]? with
  | none =>
    refine iff_of_true (Or.inl ?_) nofun
    exact Nat.lt_succ_of_le (List.getElem?_eq_none_iff.mp hOther)
  | some other =>
    have hLength : ¬ (stored follower.state).log.length < k + 1 :=
      Nat.not_lt.mpr (List.getElem?_eq_some_iff.mp hOther).1
    simp only [hLength, false_or, Option.any_some, decide_eq_true_eq, Option.some.injEq,
      exists_eq_left', ne_eq]

theorem respond_requestAfter_of_agree
    (hMatch : LogsMatch (stored leader.state).log (stored follower.state).log)
    (hTerm : follower.currentTerm ≤ leader.currentTerm) {k : Nat} {entry : LogEntry R}
    (hEntry : (stored leader.state).log[k]? = some entry) {responseTx : Sender}
    (hOpen : responseTx.closed = false)
    (hAgree : AgreeUpTo (stored leader.state).log (stored follower.state).log (k + 1)) :
    ∃ response follower', (respondToAppendEntries (requestAfter leader k entry) responseTx).run
        follower = (.ok response, follower') ∧ response.reason = .ok ∧
      (stored follower'.state).log = (stored leader.state).log := by
  have hMismatch : ¬ (requestAfter leader k entry).Mismatch (stored follower.state) :=
    fun h => (mismatch_requestAfter_iff hMatch hEntry).mp h hAgree
  have hFresh : ¬ follower.currentTerm > (requestAfter leader k entry).term :=
    Nat.not_lt.mpr hTerm
  refine ⟨⟨follower.currentTerm, true, follower.id,
    (requestAfter leader k entry).entries.length, .ok⟩, (requestAfter leader k entry).store follower, ?_, rfl, ?_⟩
  · rw [respondToAppendEntries_eq, if_neg hFresh, if_neg hMismatch]
    exact Sender.run_send_eq_ok_iff.mpr ⟨hOpen, rfl, rfl⟩
  · rw [AppendEntriesRequest.stored_store]
    change (stored follower.state).log.take (k + 1) ++ (stored leader.state).log.drop (k + 1) = _
    rw [← hAgree.2.2, List.take_append_drop]

/-- Elsewhere it answers `LogMismatch`, and only the term and the role have changed. -/
theorem respond_requestAfter_of_not_agree
    (hMatch : LogsMatch (stored leader.state).log (stored follower.state).log)
    (hTerm : follower.currentTerm ≤ leader.currentTerm) {k : Nat} {entry : LogEntry R}
    (hEntry : (stored leader.state).log[k]? = some entry) {responseTx : Sender}
    (hOpen : responseTx.closed = false)
    (hAgree : ¬ AgreeUpTo (stored leader.state).log (stored follower.state).log (k + 1)) :
    (respondToAppendEntries (requestAfter leader k entry) responseTx).run follower =
      (.ok ⟨follower.currentTerm, false, follower.id, 0, .logMismatch⟩,
        (requestAfter leader k entry).follow follower) := by
  have hFresh : ¬ follower.currentTerm > (requestAfter leader k entry).term :=
    Nat.not_lt.mpr hTerm
  rw [respondToAppendEntries_eq, if_neg hFresh,
    if_pos ((mismatch_requestAfter_iff hMatch hEntry).mpr hAgree)]
  exact Sender.run_send_eq_ok_iff.mpr ⟨hOpen, rfl, rfl⟩

/-- Whatever the peers map, the request composed for a peer whose next index is `n` is
answered by the follower with this reason, and the follower has this log then. -/
def ComposedFor (leader follower : RaftNode S) (responseTx : Sender) (n : Nat)
    (reason : AppendEntriesResponseReason) (log : List (LogEntry R)) : Prop :=
  ∀ (peers : PeerMap) (peer : NodeId) (matchIndex : Option Nat),
    peers.lookup peer = some ⟨n, matchIndex⟩ → ∃ request response follower',
      composeAppendEntriesRequest leader peers peer = some request ∧
      (respondToAppendEntries request responseTx).run follower = (.ok response, follower') ∧
      response.reason = reason ∧ (stored follower'.state).log = log

omit [LawfulState S R] in
theorem ComposedFor.reason_eq {responseTx : Sender} {n : Nat}
    {reason reason' : AppendEntriesResponseReason} {log log' : List (LogEntry R)}
    (h : ComposedFor leader follower responseTx n reason log)
    (h' : ComposedFor leader follower responseTx n reason' log') : reason = reason' := by
  have hNext : ((∅ : PeerMap).insert 0 ⟨n, none⟩).lookup 0 = some ⟨n, none⟩ :=
    AList.lookup_insert _
  obtain ⟨request, response, _, hCompose, hRun, rfl, _⟩ := h _ 0 none hNext
  obtain ⟨request', response', _, hCompose', hRun', rfl, _⟩ := h' _ 0 none hNext
  obtain rfl : request = request' := Option.some.inj (hCompose.symm.trans hCompose')
  cases hRun.symm.trans hRun'
  rfl

/-- The request for next index `n` is answered with `Ok` exactly if the first `n - 1` entries
agree. Then the follower's log is the leader's, otherwise it stays, and what is accepted for
`n` is accepted for every smaller index down to 2. -/
theorem composed_accepted_iff (leader follower : RaftNode S)
    (hMatch : LogsMatch (stored leader.state).log (stored follower.state).log)
    (hTerm : follower.currentTerm ≤ leader.currentTerm) (responseTx : Sender)
    (hOpen : responseTx.closed = false) (n : Nat) (hLow : 2 ≤ n)
    (hHigh : n ≤ (stored leader.state).log.length + 1) :
    (AgreeUpTo (stored leader.state).log (stored follower.state).log (n - 1) →
      ComposedFor leader follower responseTx n .ok (stored leader.state).log) ∧
    (¬ AgreeUpTo (stored leader.state).log (stored follower.state).log (n - 1) →
      ComposedFor leader follower responseTx n .logMismatch (stored follower.state).log) ∧
    (ComposedFor leader follower responseTx n .ok (stored leader.state).log →
      ∀ m, 2 ≤ m → m ≤ n →
        ComposedFor leader follower responseTx m .ok (stored leader.state).log) := by
  have hAccepts : ∀ m, 2 ≤ m → m ≤ (stored leader.state).log.length + 1 →
      AgreeUpTo (stored leader.state).log (stored follower.state).log (m - 1) →
      ComposedFor leader follower responseTx m .ok (stored leader.state).log := by
    intro m hLow hHigh hAgree peers peer matchIndex hNext
    obtain ⟨k, rfl⟩ := Nat.exists_eq_add_of_le' hLow
    have hEntry := List.getElem?_eq_getElem (l := (stored leader.state).log) (i := k) (by omega)
    obtain ⟨response, follower', hRun, hReason, hLog⟩ :=
      respond_requestAfter_of_agree hMatch hTerm hEntry hOpen hAgree
    refine ⟨_, response, follower', ?_, hRun, hReason, hLog⟩
    rw [composeAppendEntriesRequest_after hNext, hEntry]
    rfl
  have hRefuses : ¬ AgreeUpTo (stored leader.state).log (stored follower.state).log (n - 1) →
      ComposedFor leader follower responseTx n .logMismatch (stored follower.state).log := by
    intro hAgree peers peer matchIndex hNext
    obtain ⟨k, rfl⟩ := Nat.exists_eq_add_of_le' hLow
    have hEntry := List.getElem?_eq_getElem (l := (stored leader.state).log) (i := k) (by omega)
    refine ⟨_, _, _, ?_, respond_requestAfter_of_not_agree hMatch hTerm hEntry hOpen hAgree,
      rfl, ?_⟩
    · rw [composeAppendEntriesRequest_after hNext, hEntry]
      rfl
    · rw [AppendEntriesRequest.stored_follow]
  refine ⟨hAccepts n hLow hHigh, hRefuses, fun hOk m hLow' hLe => ?_⟩
  refine hAccepts m hLow' (hLe.trans hHigh) ?_
  by_contra hAgree
  have hRefused := hRefuses fun h => hAgree (h.mono (Nat.sub_le_sub_right hLe 1))
  cases hOk.reason_eq hRefused

end Composed

section Loop

/-- What ends the exchange without a response: a panic, or an error of the handler. -/
inductive CatchUpError where
  | panicked
  | handler (error : ZeroraftError)
  deriving DecidableEq

/-- One request to a peer and what the leader does with the answer. The peers map says from
where on it sends entries. -/
def catchUpStep (leader : RaftNode S) (peer : NodeId) (responseTx : Sender) (peers : PeerMap)
    (follower : RaftNode S) : Outcome PeerMap CatchUpError AppendEntriesResponse × RaftNode S :=
  match composeAppendEntriesRequest leader peers peer with
  | none => (.failed .panicked, follower)
  | some request =>
    match (respondToAppendEntries request responseTx).run follower with
    | (.error error, follower') => (.failed (.handler error), follower')
    | (.ok response, follower') =>
      match response.reason with
      | .staleTerm | .ok => (.done response, follower')
      | .logMismatch =>
        match decrementNextIndex peers response.id with
        | none => (.failed .panicked, follower')
        | some peers' => (.next peers', follower')

/-- The exchange ends with `Ok`, and the follower has the log of the leader. -/
def CatchesUp (leader follower : RaftNode S) (responseTx : Sender) (peers : PeerMap) : Prop :=
  ∃ response follower', Ends (catchUpStep leader follower.id responseTx) peers follower
      (.ok response) follower' ∧
    response.reason = .ok ∧ (stored follower'.state).log = (stored leader.state).log

theorem CatchesUp.next_iff {leader follower follower' : RaftNode S} {responseTx : Sender}
    {peers peers' : PeerMap} (hStep : catchUpStep leader follower.id responseTx peers follower =
      (.next peers', follower')) (hId : follower'.id = follower.id) :
    CatchesUp leader follower responseTx peers ↔ CatchesUp leader follower' responseTx peers' := by
  unfold CatchesUp
  rw [hId]
  exact exists_congr fun _ => exists_congr fun _ => and_congr (ends_next_iff hStep) Iff.rfl

def SameFirst (a b : List (LogEntry R)) : Prop :=
  ∃ x ∈ a.head?, ∃ y ∈ b.head?, x.term = y.term

omit [State S R] in
theorem agreeUpTo_one_iff {a b : List (LogEntry R)} (hMatch : LogsMatch a b) :
    AgreeUpTo a b 1 ↔ SameFirst a b := by
  unfold SameFirst
  cases a with
  | nil => exact iff_of_false (fun h => Nat.not_succ_le_zero 0 h.1) fun ⟨_, hx, _⟩ => by cases hx
  | cons x a =>
    rw [agreeUpTo_iff hMatch (k := 0) rfl, List.head?_cons, List.head?_eq_getElem?]
    constructor
    · rintro ⟨y, hy, hTerm⟩
      exact ⟨x, rfl, y, hy, hTerm.symm⟩
    · rintro ⟨_, ⟨⟩, y, hy, hTerm⟩
      exact ⟨y, hy, hTerm.symm⟩

variable [LawfulState S R]

/-- From next index `n + 1` on, the follower is caught up with if some prefix of at most `n`
entries agrees, and one of a single entry is as good as a longer one. -/
theorem catchesUp_iff_of_next {leader follower : RaftNode S} {peers : PeerMap} {n : Nat}
    {matchIndex : Option Nat}
    (hMatch : LogsMatch (stored leader.state).log (stored follower.state).log)
    (hTerm : follower.currentTerm ≤ leader.currentTerm) {responseTx : Sender}
    (hOpen : responseTx.closed = false) (hBound : n ≤ (stored leader.state).log.length)
    (hNext : peers.lookup follower.id = some ⟨n + 1, matchIndex⟩) :
    CatchesUp leader follower responseTx peers ↔
      1 ≤ n ∧ AgreeUpTo (stored leader.state).log (stored follower.state).log 1 := by
  induction n generalizing follower peers with
  | zero =>
    have hStep : catchUpStep leader follower.id responseTx peers follower =
        (.failed .panicked, follower) := by
      rw [catchUpStep, composeAppendEntriesRequest_first hNext (Nat.le_refl 1)]
    refine iff_of_false ?_ fun h => Nat.not_succ_le_zero 0 h.1
    rintro ⟨response, follower', hEnds, _⟩
    cases ((ends_failed_iff hStep).mp hEnds).1
  | succ k ih =>
    have hEntry := List.getElem?_eq_getElem (l := (stored leader.state).log) (i := k) hBound
    have hCompose : composeAppendEntriesRequest leader peers follower.id =
        some (requestAfter leader k (stored leader.state).log[k]) := by
      rw [composeAppendEntriesRequest_after hNext, hEntry]
      rfl
    by_cases hAgree : AgreeUpTo (stored leader.state).log (stored follower.state).log (k + 1)
    · obtain ⟨response, follower', hRun, hReason, hLog⟩ :=
        respond_requestAfter_of_agree hMatch hTerm hEntry hOpen hAgree
      have hStep : catchUpStep leader follower.id responseTx peers follower =
          (.done response, follower') := by
        simp only [catchUpStep, hCompose, hRun, hReason]
      refine iff_of_true ?_ ⟨Nat.succ_pos k, hAgree.mono (Nat.succ_pos k)⟩
      exact ⟨response, follower', (ends_done_iff hStep).mpr ⟨rfl, rfl⟩, hReason, hLog⟩
    · -- The leader goes back by one entry, and the follower's log is the same.
      have hRun := respond_requestAfter_of_not_agree hMatch hTerm hEntry hOpen hAgree
      have hDecrement : decrementNextIndex peers follower.id =
          some (peers.insert follower.id ⟨k + 1, matchIndex⟩) := by
        simp only [decrementNextIndex, hNext, Option.bind_eq_bind, Option.bind_some,
          if_neg (Nat.add_one_ne_zero _), Nat.add_sub_cancel]
      have hStep : catchUpStep leader follower.id responseTx peers follower =
          (.next (peers.insert follower.id ⟨k + 1, matchIndex⟩),
            (requestAfter leader k (stored leader.state).log[k]).follow follower) := by
        simp only [catchUpStep, hCompose, hRun, hDecrement]
      have hLog : (stored ((requestAfter leader k (stored leader.state).log[k]).follow
          follower).state).log = (stored follower.state).log := by
        rw [AppendEntriesRequest.stored_follow]
      have hRest := @ih ((requestAfter leader k (stored leader.state).log[k]).follow follower)
        (peers.insert follower.id ⟨k + 1, matchIndex⟩) (by rwa [hLog]) (Nat.le_refl _)
        (Nat.le_of_succ_le hBound) (AList.lookup_insert peers)
      rw [hLog] at hRest
      refine (CatchesUp.next_iff hStep rfl).trans (hRest.trans ?_)
      refine and_congr_left fun hOne => iff_of_true (Nat.one_le_iff_ne_zero.mpr ?_) (Nat.succ_pos k)
      rintro rfl
      exact hAgree hOne

/-- Catching up from the commit index succeeds exactly if there is a committed entry and the
follower's first entry is the leader's. -/
theorem catchesUp_iff (leader follower : RaftNode S)
    (hMatch : LogsMatch (stored leader.state).log (stored follower.state).log)
    (hTerm : follower.currentTerm ≤ leader.currentTerm)
    (hCommit : (stored leader.state).commit ≤ (stored leader.state).log.length)
    (responseTx : Sender) (hOpen : responseTx.closed = false) (peers : PeerMap)
    (matchIndex : Option Nat)
    (hNext : peers.lookup follower.id = some ⟨(stored leader.state).commit + 1, matchIndex⟩) :
    CatchesUp leader follower responseTx peers ↔
      1 ≤ (stored leader.state).commit ∧
        SameFirst (stored leader.state).log (stored follower.state).log := by
  rw [catchesUp_iff_of_next hMatch hTerm hOpen hCommit hNext, agreeUpTo_one_iff hMatch]

end Loop

theorem committedLogs_match :
    LogsMatch (stored committedLeader.state).log (stored committedFollower.state).log :=
  (LogMatching.matches_refl _).of_prefixes List.prefix_rfl (by decide)

/-- The follower that has the first entry takes over the second. -/
theorem catchesUp_second :
    CatchesUp committedLeader committedFollower ⟨1, 0, false⟩ followerPeers :=
  (catchesUp_iff committedLeader committedFollower committedLogs_match (by decide) (by decide)
    ⟨1, 0, false⟩ rfl followerPeers none rfl).mpr
    ⟨by decide, setEntry, rfl, setEntry, rfl, rfl⟩

/-- The request for both entries is accepted as the request for the second one is. -/
theorem composed_accepted_second :
    ComposedFor committedLeader committedFollower ⟨1, 0, false⟩ 2 .ok [setEntry, setEntry] :=
  (composed_accepted_iff committedLeader committedFollower committedLogs_match (by decide)
    ⟨1, 0, false⟩ rfl 2 (by decide) (by decide)).1 ⟨by decide, by decide, rfl⟩

def uncommittedLeader : RaftNode (Stored Unit) where
  id := 1
  currentTerm := 1
  votedFor := some 1
  state := ⟨[setEntry], 0, ⟨[1, 2], nodup_pair⟩, none, 0⟩
  currentState := .leader
  leaderId := none

/-- The leader panics over its first request to a follower that has nothing. -/
theorem catchUp_panics :
    LogsMatch (stored uncommittedLeader.state).log (stored emptyReceiver.state).log ∧
    emptyReceiver.currentTerm ≤ uncommittedLeader.currentTerm ∧
    (stored uncommittedLeader.state).commit ≤ (stored uncommittedLeader.state).log.length ∧
    (initialPeers ⟨[1, 2], by decide⟩ 1 1).lookup emptyReceiver.id = some ⟨1, none⟩ ∧
    Ends (catchUpStep uncommittedLeader 2 ⟨1, 0, false⟩) (initialPeers ⟨[1, 2], by decide⟩ 1 1)
      emptyReceiver (.error .panicked) emptyReceiver ∧
    ¬ CatchesUp uncommittedLeader emptyReceiver ⟨1, 0, false⟩
      (initialPeers ⟨[1, 2], by decide⟩ 1 1) := by
  have hStep : catchUpStep uncommittedLeader 2 ⟨1, 0, false⟩ (initialPeers ⟨[1, 2], by decide⟩ 1 1)
      emptyReceiver = (.failed .panicked, emptyReceiver) := rfl
  have hMatch : LogsMatch (stored uncommittedLeader.state).log (stored emptyReceiver.state).log :=
    (LogMatching.matches_refl _).of_prefixes List.prefix_rfl List.nil_prefix
  refine ⟨hMatch, by decide, by decide, rfl, (ends_failed_iff hStep).mpr ⟨rfl, rfl⟩, ?_⟩
  rintro ⟨response, follower', hEnds, _⟩
  cases ((ends_failed_iff hStep).mp hEnds).1

end Zeroraft
