import Zeroraft.Model.Inbound
import Zeroraft.Properties.CommittedEntries

/-!
# How long acknowledged entries stay

A follower has answered `Ok` to entries of the leader. What it keeps of them while
further requests of that leader arrive depends on how far each of these reaches, since
the receiver cuts its log at the end of whatever it accepts.
-/

namespace Zeroraft

variable {S R : Type}

/-- The two logs have the same entries up to index `m`. -/
def AgreesThrough (m : Nat) (log leaderLog : List (LogEntry R)) : Prop :=
  log.take m = leaderLog.take m

def AppendEntriesRequest.reach (request : AppendEntriesRequest R) : Nat :=
  request.prevLogIndex + request.entries.length

theorem AgreesThrough.mono {m n : Nat} {log leaderLog : List (LogEntry R)}
    (h : AgreesThrough n log leaderLog) (hLe : m ≤ n) : AgreesThrough m log leaderLog := by
  have hTake := congrArg (List.take m) h
  rwa [List.take_take, List.take_take, Nat.min_eq_left hLe] at hTake

theorem AgreesThrough.le_length {m : Nat} {log leaderLog : List (LogEntry R)}
    (h : AgreesThrough m log leaderLog) (hm : m ≤ leaderLog.length) : m ≤ log.length := by
  have hLength := congrArg List.length h
  rw [List.length_take, List.length_take] at hLength
  omega

/-- A log that is cut and continued like the leader's agrees with it as far as it
agreed before the cut. -/
theorem agrees_continued {m prev : Nat} {log sent leaderLog : List (LogEntry R)}
    (hSent : sent <+: leaderLog) (hPrev : prev ≤ log.length) (hReach : m ≤ sent.length) :
    AgreesThrough m (log.take prev ++ sent.drop prev) leaderLog ↔
      AgreesThrough (min m prev) log leaderLog := by
  unfold AgreesThrough
  by_cases hm : m ≤ prev
  · rw [List.take_append_of_le_length (by rw [List.length_take]; omega), List.take_take]
    rw [Nat.min_eq_left hm]
  · have hSame : sent.take m = leaderLog.take m := by
      rw [List.prefix_iff_eq_take.mp hSent, List.take_take, Nat.min_eq_left hReach]
    have hDrop := congrArg (List.drop prev) hSame
    rw [List.drop_take, List.drop_take] at hDrop
    have hSplit : leaderLog.take m = leaderLog.take prev ++ (leaderLog.drop prev).take (m - prev) := by
      rw [← List.take_add, Nat.add_sub_cancel' (Nat.le_of_not_le hm)]
    rw [Nat.min_eq_right (Nat.le_of_not_le hm), List.take_append, List.length_take,
      Nat.min_eq_left hPrev, List.take_take, Nat.min_eq_right (Nat.le_of_not_le hm), hSplit, hDrop,
      List.append_left_inj]

variable [State S R]

/-- A request that the leader's code sends in the term, from a log that has since
become `leaderLog`. -/
structure FromLeader (S : Type) [State S R] (leaderLog : List (LogEntry R)) (term : Nat)
    (request : AppendEntriesRequest R) : Prop where
  term_eq : request.term = term
  sent : ∃ sender : RaftNode S, (stored sender.state).log <+: leaderLog ∧ Sendable sender request

variable [LawfulState S R]

theorem composeAppendEntriesRequest_prev {leader : RaftNode S} {peers : PeerMap} {peer : NodeId}
    {request : AppendEntriesRequest R}
    (h : composeAppendEntriesRequest leader peers peer = some request) :
    ∃ entry, (stored leader.state).entry request.prevLogIndex = some entry ∧
      request.prevLogTerm = entry.term := by
  unfold composeAppendEntriesRequest at h
  simp only [Option.bind_eq_bind, Option.bind_eq_some_iff, Option.ite_none_left_eq_some,
    LawfulState.getEntry_eq] at h
  obtain ⟨_, _, _, entry, hEntry, hRequest⟩ := h
  cases hRequest
  exact ⟨entry, hEntry, rfl⟩

/-- What the code sends continues a log of the sender, or carries nothing at all. -/
theorem Sendable.cases_reach {sender : RaftNode S} {request : AppendEntriesRequest R}
    (h : Sendable sender request) :
    (request.prevLogIndex = 0 ∧ request.entries = []) ∨
      (request.entries = (stored sender.state).log.drop request.prevLogIndex ∧
        request.reach = (stored sender.state).log.length ∧
        ∃ entry, (stored sender.state).entry request.prevLogIndex = some entry ∧
          request.prevLogTerm = entry.term) := by
  cases h with
  | heartbeat _ _ => exact Or.inl ⟨rfl, rfl⟩
  | composed hComposed _ _ =>
    obtain ⟨hBound, hEntries⟩ := composeAppendEntriesRequest_eq_some hComposed
    obtain ⟨entry, hEntry, hTerm⟩ := composeAppendEntriesRequest_prev hComposed
    refine Or.inr ⟨hEntries, ?_, entry, hEntry, hTerm⟩
    dsimp only [AppendEntriesRequest.reach]
    rw [hEntries, List.length_drop]
    omega

theorem FromLeader.not_mismatch {leaderLog : List (LogEntry R)} {term m : Nat}
    {request : AppendEntriesRequest R} (h : FromLeader S leaderLog term request) {s : Stored R}
    (hAgrees : AgreesThrough m s.log leaderLog) (hm : m ≤ leaderLog.length)
    (hReach : request.reach < m) : ¬ request.Mismatch s := by
  obtain ⟨sender, hSender, hSendable⟩ := h.sent
  have hLength := hAgrees.le_length hm
  have hPrev : request.prevLogIndex ≤ request.reach := Nat.le_add_right _ _
  refine not_or.mpr ⟨by omega, ?_⟩
  rcases hSendable.cases_reach with ⟨hZero, _⟩ | ⟨_, _, entry, hEntry, hTerm⟩
  · simp [hZero, Stored.entry]
  · obtain ⟨hPos, hSent⟩ := Stored.entry_eq_some_iff.mp hEntry
    have hBelow : request.prevLogIndex - 1 < m := by omega
    obtain ⟨hLt, hGet⟩ := List.getElem?_eq_some_iff.mp hSent
    have hOwn : s.log[request.prevLogIndex - 1]? = some entry := by
      rw [← List.getElem?_take_of_lt hBelow, hAgrees, List.getElem?_take_of_lt hBelow, ← hGet]
      exact List.prefix_iff_getElem?.mp hSender _ hLt
    have hEntry' : s.entry request.prevLogIndex = some entry :=
      Stored.entry_eq_some_iff.mpr ⟨hPos, hOwn⟩
    simp [hEntry', hTerm]

variable {leaderLog : List (LogEntry R)} {term m : Nat} {node : RaftNode S}

/-- The log after a request that is accepted agrees with the leader's exactly if the
request reaches far enough. -/
theorem store_agrees_iff {request : AppendEntriesRequest R}
    (hRequest : FromLeader S leaderLog term request) (hm : m ≤ leaderLog.length)
    (hAccepted : ¬ request.Mismatch (stored node.state)) :
    AgreesThrough m (stored (request.store node).state).log leaderLog ↔
      AgreesThrough (min m request.prevLogIndex) (stored node.state).log leaderLog ∧
        m ≤ request.reach := by
  have hPrev : request.prevLogIndex ≤ (stored node.state).log.length :=
    Nat.le_of_not_lt (not_or.mp hAccepted).1
  rw [AppendEntriesRequest.stored_store]
  dsimp only
  have hLength : ((stored node.state).log.take request.prevLogIndex ++ request.entries).length =
      request.reach := by
    rw [List.length_append, List.length_take, Nat.min_eq_left hPrev, AppendEntriesRequest.reach]
  by_cases hReach : m ≤ request.reach
  · rw [and_iff_left hReach]
    obtain ⟨sender, hSender, hSendable⟩ := hRequest.sent
    rcases hSendable.cases_reach with ⟨hZero, hEmpty⟩ | ⟨hEntries, hEnd, _⟩
    · have hmZero : m = 0 := by
        rw [AppendEntriesRequest.reach, hZero, hEmpty] at hReach
        exact Nat.le_zero.mp hReach
      simp [AgreesThrough, hmZero]
    · rw [hEntries]
      exact agrees_continued hSender hPrev (hEnd ▸ hReach)
  · refine iff_of_false (fun h => hReach ?_) (fun h => hReach h.2)
    exact hLength ▸ h.le_length hm

theorem handle_agrees_iff {request : AppendEntriesRequest R} (responseTx : Sender)
    (hRequest : FromLeader S leaderLog term request) (hTerm : node.currentTerm = term)
    (hm : m ≤ leaderLog.length) (hAgrees : AgreesThrough m (stored node.state).log leaderLog) :
    (AgreesThrough m (stored ((Inbound.appendEntries request responseTx).handle node).1.state).log
      leaderLog ↔ m ≤ request.reach) := by
  simp only [Inbound.handle, respondToAppendEntries_node]
  have hFresh : ¬ node.currentTerm > request.term := by rw [hTerm, hRequest.term_eq]; omega
  rw [if_neg hFresh]
  split
  · rename_i hMismatch
    rw [AppendEntriesRequest.stored_follow]
    refine ⟨fun _ => Nat.le_of_not_lt fun hShort => ?_, fun _ => hAgrees⟩
    exact hRequest.not_mismatch hAgrees hm hShort hMismatch
  · rename_i hAccepted
    rw [store_agrees_iff hRequest hm hAccepted, and_iff_right (hAgrees.mono (Nat.min_le_left _ _))]

theorem handle_term {request : AppendEntriesRequest R} (responseTx : Sender)
    (hRequest : FromLeader S leaderLog term request) (hTerm : node.currentTerm = term) :
    ((Inbound.appendEntries request responseTx).handle node).1.currentTerm = term := by
  simp only [Inbound.handle, respondToAppendEntries_node]
  split_ifs
  · exact hTerm
  · exact hRequest.term_eq
  · exact hRequest.term_eq

def leaderEvents (requests : List (AppendEntriesRequest R × Sender)) : List (Inbound R) :=
  requests.map fun request => .appendEntries request.1 request.2

theorem handleAll_agrees_iff (requests : List (AppendEntriesRequest R × Sender))
    (hRequests : ∀ request ∈ requests, FromLeader S leaderLog term request.1)
    (hTerm : node.currentTerm = term) (hm : m ≤ leaderLog.length)
    (hAgrees : AgreesThrough m (stored node.state).log leaderLog) :
    (∀ handled, handled <+: requests →
      AgreesThrough m (stored (handleAll node (leaderEvents handled)).1.state).log leaderLog) ↔
    ∀ request ∈ requests, m ≤ request.1.reach := by
  induction requests generalizing node with
  | nil =>
    refine iff_of_true (fun handled hPrefix => ?_) nofun
    rwa [List.prefix_nil.mp hPrefix]
  | cons first rest ih =>
    obtain ⟨hFirst, hRest⟩ := List.forall_mem_cons.mp hRequests
    have hStep := handle_agrees_iff first.2 hFirst hTerm hm hAgrees
    have hNext := handle_term first.2 hFirst hTerm
    rw [List.forall_mem_cons]
    constructor
    · intro h
      have hAfter := h [first] (List.cons_prefix_cons.mpr ⟨rfl, List.nil_prefix⟩)
      refine ⟨hStep.mp hAfter, (ih hRest hNext hAfter).mp fun handled hPrefix => ?_⟩
      exact h (first :: handled) (List.cons_prefix_cons.mpr ⟨rfl, hPrefix⟩)
    · rintro ⟨hReach, hReaches⟩ handled hPrefix
      cases handled with
      | nil => exact hAgrees
      | cons head handled =>
        obtain ⟨rfl, hHandled⟩ := List.cons_prefix_cons.mp hPrefix
        exact (ih hRest hNext (hStep.mpr hReach)).mpr hReaches handled hHandled

theorem respondToAppendEntries_ok {request : AppendEntriesRequest R} {responseTx : Sender}
    {follower after : RaftNode S} {response : AppendEntriesResponse}
    (hRun : (respondToAppendEntries request responseTx).run follower = (.ok response, after))
    (hOk : response.reason = .ok) :
    ¬ request.Mismatch (stored follower.state) ∧ after = request.store follower := by
  rw [respondToAppendEntries_eq] at hRun
  split_ifs at hRun with hStale hMismatch <;>
    obtain ⟨-, rfl, rfl⟩ := Sender.run_send_eq_ok_iff.mp hRun
  · cases hOk
  · cases hOk
  · exact ⟨hMismatch, rfl⟩

/-- After an `Ok` for entries up to `m` the follower keeps agreeing with the leader up to `m`
exactly if it agreed below these entries and every later request reaches `m`. -/
theorem acknowledged_stays_iff (leaderLog : List (LogEntry R)) (term : Nat)
    (sender follower after : RaftNode S) (hSender : (stored sender.state).log <+: leaderLog)
    (peers : PeerMap) (peer : NodeId) (composed : AppendEntriesRequest R) (lastCommitIndex : Nat)
    (hComposed : composeAppendEntriesRequest sender peers peer = some composed)
    (responseTx : Sender) (response : AppendEntriesResponse)
    (hRun : (respondToAppendEntries { composed with term, lastCommitIndex } responseTx).run
      follower = (.ok response, after))
    (hOk : response.reason = .ok) (m : Nat) (hm : m ≤ composed.reach)
    (requests : List (AppendEntriesRequest R × Sender))
    (hRequests : ∀ request ∈ requests, FromLeader S leaderLog term request.1) :
    (∀ handled, handled <+: requests →
      AgreesThrough m (stored (handleAll after (leaderEvents handled)).1.state).log leaderLog) ↔
    AgreesThrough (min m composed.prevLogIndex) (stored follower.state).log leaderLog ∧
      ∀ request ∈ requests, m ≤ request.1.reach := by
  obtain ⟨hAccepted, rfl⟩ := respondToAppendEntries_ok hRun hOk
  have hRequest : FromLeader S leaderLog term { composed with term, lastCommitIndex } :=
    ⟨rfl, sender, hSender, Sendable.composed hComposed term lastCommitIndex⟩
  obtain ⟨hBound, hEntries⟩ := composeAppendEntriesRequest_eq_some hComposed
  have hmLeader : m ≤ leaderLog.length := by
    have hLength := hSender.length_le
    rw [AppendEntriesRequest.reach, hEntries, List.length_drop] at hm
    omega
  have hFirst := store_agrees_iff hRequest hmLeader hAccepted
  have hStart : AgreesThrough m (stored (AppendEntriesRequest.store
      { composed with term, lastCommitIndex } follower).state).log leaderLog ↔
        AgreesThrough (min m composed.prevLogIndex) (stored follower.state).log leaderLog :=
    hFirst.trans (and_iff_left hm)
  rw [← hStart]
  constructor
  · intro h
    have hNow := h [] List.nil_prefix
    exact ⟨hNow, (handleAll_agrees_iff requests hRequests rfl hmLeader hNow).mp h⟩
  · rintro ⟨hNow, hReaches⟩
    exact (handleAll_agrees_iff requests hRequests rfl hmLeader hNow).mpr hReaches

/-- The follower has acknowledged the second entry of its leader; the leader's heartbeat
leaves it no entry at all. -/
theorem heartbeat_erases_acknowledged :
    composeAppendEntriesRequest committedLeader followerPeers 2 =
      some ⟨1, 1, 1, 1, 1, [setEntry]⟩ ∧
    ∃ after : RaftNode (Stored Unit),
      (respondToAppendEntries ⟨1, 1, 1, 1, 1, [setEntry]⟩ ⟨1, 0, false⟩).run committedFollower =
        (.ok ⟨1, true, 2, 1, .ok⟩, after) ∧
      AgreesThrough 2 (stored after.state).log [setEntry, setEntry] ∧
      FromLeader (Stored Unit) [setEntry, setEntry] 1 (heartbeatRequest committedLeader 1) ∧
      ¬ AgreesThrough 2 (stored (handleAll after (leaderEvents
        [(heartbeatRequest committedLeader 1, ⟨1, 1, false⟩)])).1.state).log [setEntry, setEntry] :=
  ⟨rfl, _, rfl, rfl, ⟨rfl, committedLeader, by decide, Sendable.heartbeat 1 1⟩, by
    unfold AgreesThrough; decide⟩

/-- A repetition of the request for the second entry reaches it. -/
theorem acknowledged_stays_repeated :
    AgreesThrough 2 (stored (handleAll committedFollower (leaderEvents
      [(⟨1, 1, 1, 1, 1, [setEntry]⟩, ⟨1, 0, false⟩),
        (⟨1, 1, 1, 1, 1, [setEntry]⟩, ⟨1, 1, false⟩)])).1.state).log [setEntry, setEntry] := by
  have hRequest : FromLeader (Stored Unit) [setEntry, setEntry] 1
      (⟨1, 1, 1, 1, 1, [setEntry]⟩ : AppendEntriesRequest Unit) :=
    ⟨rfl, committedLeader, by decide,
      @Sendable.composed _ _ _ _ followerPeers 2 ⟨1, 1, 1, 1, 1, [setEntry]⟩ rfl 1 1⟩
  have hStays := (acknowledged_stays_iff [setEntry, setEntry] 1 committedLeader committedFollower _
    (by decide) followerPeers 2 ⟨1, 1, 1, 1, 1, [setEntry]⟩ 1 rfl ⟨1, 0, false⟩ _ rfl rfl 2
    (by decide) [(⟨1, 1, 1, 1, 1, [setEntry]⟩, ⟨1, 1, false⟩)]
    (fun request h => List.mem_singleton.mp h ▸ hRequest)).mpr
      ⟨by unfold AgreesThrough; decide, by decide⟩
  exact hStays _ List.prefix_rfl

end Zeroraft
