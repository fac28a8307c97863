import Mathlib.Algebra.Ring.Parity
import Mathlib.Data.List.Basic
import Zeroraft.Properties.Leadership
import Zeroraft.Runtime.VoteRounds

/-!
# Is an election won at a strict majority?

The peers of a session are the members other than the node, the threshold is half of the
membership map and one more. The map may list the node itself.
-/

namespace Zeroraft

/-- Every peer answers at most once, and no answer makes the candidate step down. -/
structure Heard (membership : MembershipMap) (id : NodeId)
    (rounds : List (List (Nat × VoteAnswer))) : Prop where
  once : (rounds.flatten.map fun heard => heard.2.response.id).Nodup
  peer : ∀ heard ∈ rounds.flatten, heard.2.response.id ∈ membership.peers id
  reason : ∀ heard ∈ rounds.flatten, heard.2.response.reason.stepsDown = false

def grantCount (answers : List (Nat × VoteAnswer)) : Nat :=
  answers.countP (·.2.response.voteGranted)

/-- The node's own vote and the grants are the votes of more than half of the nodes: of the
members together with the node. -/
def StrictMajority (membership : MembershipMap) (id : NodeId)
    (rounds : List (List (Nat × VoteAnswer))) : Prop :=
  (membership.ids.insert id).length < 2 * (1 + grantCount rounds.flatten)

/-- A session that has heard these rounds has sent `Granted`. -/
def SendsGranted (membership : MembershipMap) (id : NodeId) (startTerm : Nat)
    (rounds : List (List (Nat × VoteAnswer))) : Prop :=
  (VoteSession.rounds membership id rounds { startTerm }).voteResult = some .granted

/-- Whatever it hears, a session sends `Granted` only if it has a strict majority, and has
sent it by the answer that completes one. -/
def ElectsAtMajority (membership : MembershipMap) (id : NodeId) (startTerm : Nat) : Prop :=
  ∀ rounds, Heard membership id rounds →
    (SendsGranted membership id startTerm rounds ↔ StrictMajority membership id rounds)

section Loop

variable {peersLen : Nat} {session : VoteSession}

theorem grantCount_cons (heard : Nat × VoteAnswer) (rest : List (Nat × VoteAnswer)) :
    grantCount (heard :: rest) = grantCount [heard] + grantCount rest := by
  rw [← List.singleton_append]
  exact List.countP_append

/-- What the loop has done to a session while it had no reason to stop. -/
structure Taken (session : VoteSession) (answers : List (Nat × VoteAnswer))
    (session' : VoteSession) : Prop where
  grantedVotes : session'.grantedVotes = session.grantedVotes + grantCount answers
  voteResult : session'.voteResult = session.voteResult
  ackPeers : ∀ peer ∈ session'.ackPeers,
    peer ∈ session.ackPeers ∨ peer ∈ answers.map fun heard => heard.2.response.id

theorem EnoughVotes.mono {votes votes' : Nat} (h : EnoughVotes peersLen votes)
    (hLe : votes ≤ votes') : EnoughVotes peersLen votes' := Nat.lt_of_lt_of_le h hLe

/-- The session when it has acknowledged an answer, and counted it if it is a grant. -/
def VoteSession.hear (j : Nat) (answer : VoteAnswer) (session : VoteSession) : VoteSession :=
  if answer.response.voteGranted then
    { session with
      ackPeers := session.ackPeers.insert answer.response.id
      grantedVotes := session.grantedVotes + 1
      grants := session.grants ++ [(j, answer)] }
  else { session with ackPeers := session.ackPeers.insert answer.response.id }

theorem VoteSession.takeAll_hear {j : Nat} {answer : VoteAnswer}
    (hReason : answer.response.reason.stepsDown = false) (rest : List (Nat × VoteAnswer)) :
    session.takeAll peersLen ((j, answer) :: rest) =
      if answer.response.voteGranted ∧ EnoughVotes peersLen (session.hear j answer).grantedVotes
      then (.sendGranted, session.hear j answer)
      else (session.hear j answer).takeAll peersLen rest := by
  have hTake : session.take peersLen j answer =
      (if answer.response.voteGranted ∧ EnoughVotes peersLen (session.hear j answer).grantedVotes
        then .sendGranted else .recv peersLen, session.hear j answer) := by
    unfold take hear
    rw [if_neg (by rw [hReason]; exact Bool.false_ne_true)]
    by_cases hGranted : answer.response.voteGranted = true <;> simp [hGranted]
  rw [takeAll_cons, hTake]
  by_cases hStop : answer.response.voteGranted ∧
      EnoughVotes peersLen (session.hear j answer).grantedVotes
  · simp only [if_pos hStop, reduceCtorEq, if_false]
  · simp only [if_neg hStop, if_true]

theorem VoteSession.taken_hear (j : Nat) (answer : VoteAnswer) (session : VoteSession) :
    Taken session [(j, answer)] (session.hear j answer) := by
  have hAcked : ∀ peer ∈ session.ackPeers.insert answer.response.id,
      peer ∈ session.ackPeers ∨ peer ∈ [answer.response.id] := fun peer hPeer =>
    (List.mem_insert_iff.mp hPeer).symm.imp_right List.mem_singleton.mpr
  unfold hear
  by_cases hGranted : answer.response.voteGranted = true
  · rw [if_pos hGranted]
    exact ⟨by simp [grantCount, hGranted], rfl, hAcked⟩
  · rw [if_neg hGranted]
    exact ⟨by simp [grantCount, hGranted], rfl, hAcked⟩

theorem VoteSession.hear_count (j : Nat) (answer : VoteAnswer) (rest : List (Nat × VoteAnswer)) :
    (session.hear j answer).grantedVotes + grantCount rest =
      session.grantedVotes + grantCount ((j, answer) :: rest) := by
  rw [(session.taken_hear j answer).grantedVotes, grantCount_cons (j, answer) rest, Nat.add_assoc]

theorem Taken.cons {session₁ session₂ : VoteSession} {heard : Nat × VoteAnswer}
    {rest : List (Nat × VoteAnswer)} (hFirst : Taken session [heard] session₁)
    (hRest : Taken session₁ rest session₂) : Taken session (heard :: rest) session₂ where
  grantedVotes := by
    rw [hRest.grantedVotes, hFirst.grantedVotes, grantCount_cons heard rest, Nat.add_assoc]
  voteResult := hRest.voteResult.trans hFirst.voteResult
  ackPeers := by
    intro peer hPeer
    rcases hRest.ackPeers peer hPeer with hOld | hNew
    · refine (hFirst.ackPeers peer hOld).imp_right fun hMem => ?_
      exact List.mem_cons.mpr (Or.inl (List.mem_singleton.mp hMem))
    · exact Or.inr (List.mem_cons_of_mem _ hNew)

theorem takeAll_notEnough {answers : List (Nat × VoteAnswer)}
    (hReason : ∀ heard ∈ answers, heard.2.response.reason.stepsDown = false)
    (hVotes : ¬ EnoughVotes peersLen (session.grantedVotes + grantCount answers)) :
    (session.takeAll peersLen answers).1 = .recv peersLen ∧
      Taken session answers (session.takeAll peersLen answers).2 := by
  induction answers generalizing session with
  | nil => exact ⟨rfl, rfl, rfl, fun _ hPeer => Or.inl hPeer⟩
  | cons heard rest ih =>
    obtain ⟨j, answer⟩ := heard
    rw [← session.hear_count] at hVotes
    have hStop : ¬ (answer.response.voteGranted ∧
        EnoughVotes peersLen (session.hear j answer).grantedVotes) := fun h =>
      hVotes (h.2.mono (Nat.le_add_right _ _))
    rw [VoteSession.takeAll_hear (hReason _ List.mem_cons_self), if_neg hStop]
    obtain ⟨hPc, hTaken⟩ := ih (fun heard hHeard => hReason heard (List.mem_cons_of_mem _ hHeard))
      hVotes
    exact ⟨hPc, (session.taken_hear j answer).cons hTaken⟩

theorem takeAll_enough {answers : List (Nat × VoteAnswer)}
    (hReason : ∀ heard ∈ answers, heard.2.response.reason.stepsDown = false)
    (hBefore : ¬ EnoughVotes peersLen session.grantedVotes)
    (hVotes : EnoughVotes peersLen (session.grantedVotes + grantCount answers)) :
    (session.takeAll peersLen answers).1 = .sendGranted := by
  induction answers generalizing session with
  | nil => exact absurd hVotes hBefore
  | cons heard rest ih =>
    obtain ⟨j, answer⟩ := heard
    rw [← session.hear_count] at hVotes
    rw [VoteSession.takeAll_hear (hReason _ List.mem_cons_self)]
    by_cases hEnough : EnoughVotes peersLen (session.hear j answer).grantedVotes
    · have hGranted : answer.response.voteGranted = true := by
        by_contra hRefused
        rw [(session.taken_hear j answer).grantedVotes] at hEnough
        exact hBefore (by simpa [grantCount, hRefused] using hEnough)
      rw [if_pos ⟨hGranted, hEnough⟩]
    · rw [if_neg fun h => hEnough h.2]
      exact ih (fun heard hHeard => hReason heard (List.mem_cons_of_mem _ hHeard)) hEnough hVotes

end Loop

section Rounds

variable {membership : MembershipMap} {id : NodeId} {session : VoteSession}

/-- What a session knows before it has sent a result. -/
structure Waiting (membership : MembershipMap) (session : VoteSession) : Prop where
  votes : ¬ EnoughVotes membership.ids.length session.grantedVotes
  result : session.voteResult = none

/-- The answers that the session has not heard yet. -/
structure Unheard (membership : MembershipMap) (id : NodeId) (session : VoteSession)
    (answers : List (Nat × VoteAnswer)) : Prop where
  once : (answers.map fun heard => heard.2.response.id).Nodup
  peer : ∀ heard ∈ answers, heard.2.response.id ∈ membership.peers id
  reason : ∀ heard ∈ answers, heard.2.response.reason.stepsDown = false
  fresh : ∀ heard ∈ answers, heard.2.response.id ∉ session.ackPeers

theorem Unheard.unackPeers_ne_nil {answers : List (Nat × VoteAnswer)}
    (h : Unheard membership id session answers) (hSome : answers ≠ []) :
    unackPeers (membership.peers id) session.ackPeers ≠ [] := by
  obtain ⟨heard, hHeard⟩ := List.exists_mem_of_ne_nil answers hSome
  refine List.ne_nil_of_mem (List.mem_filter.mpr ⟨h.peer heard hHeard, ?_⟩)
  exact decide_eq_true (h.fresh heard hHeard)

theorem Unheard.of_append {answers rest : List (Nat × VoteAnswer)}
    (h : Unheard membership id session (answers ++ rest)) :
    Unheard membership id session answers where
  once := by
    have hOnce := h.once
    rw [List.map_append] at hOnce
    exact hOnce.of_append_left
  peer := fun heard hHeard => h.peer heard (List.mem_append_left _ hHeard)
  reason := fun heard hHeard => h.reason heard (List.mem_append_left _ hHeard)
  fresh := fun heard hHeard => h.fresh heard (List.mem_append_left _ hHeard)

theorem Unheard.later {answers rest : List (Nat × VoteAnswer)} {session' : VoteSession}
    (h : Unheard membership id session (answers ++ rest)) (hTaken : Taken session answers session') :
    Unheard membership id session' rest where
  once := by
    have hOnce := h.once
    rw [List.map_append] at hOnce
    exact hOnce.of_append_right
  peer := fun heard hHeard => h.peer heard (List.mem_append_right _ hHeard)
  reason := fun heard hHeard => h.reason heard (List.mem_append_right _ hHeard)
  fresh := by
    intro heard hHeard hAcked
    rcases hTaken.ackPeers _ hAcked with hOld | hNow
    · exact h.fresh heard (List.mem_append_right _ hHeard) hOld
    · have hOnce := h.once
      rw [List.map_append] at hOnce
      exact (List.nodup_append.mp hOnce).2.2 _ hNow _
        (List.mem_map_of_mem (f := fun heard => heard.2.response.id) hHeard) rfl

theorem grantCount_append (first second : List (Nat × VoteAnswer)) :
    grantCount (first ++ second) = grantCount first + grantCount second := List.countP_append

theorem round_cases {answers : List (Nat × VoteAnswer)} (hPeers : membership.peers id ≠ [])
    (hWaiting : Waiting membership session) (hUnheard : Unheard membership id session answers) :
    if EnoughVotes membership.ids.length (session.grantedVotes + grantCount answers)
    then (session.round membership id answers).voteResult = some .granted
    else Taken session answers (session.round membership id answers) := by
  unfold VoteSession.round
  rw [if_neg hPeers]
  by_cases hUnack : unackPeers (membership.peers id) session.ackPeers = []
  · rw [if_pos hUnack]
    cases answers with
    | nil =>
      rw [show grantCount [] = 0 from rfl, Nat.add_zero, if_neg hWaiting.votes]
      exact ⟨rfl, rfl, fun _ hPeer => Or.inl hPeer⟩
    | cons heard rest => exact absurd hUnack (hUnheard.unackPeers_ne_nil (List.cons_ne_nil _ _))
  · rw [if_neg hUnack]
    split
    · rename_i hEnough
      have hPc := takeAll_enough hUnheard.reason hWaiting.votes hEnough
      simp only [hPc, if_true]
    · rename_i hEnough
      obtain ⟨hPc, hTaken⟩ := takeAll_notEnough hUnheard.reason hEnough
      simp only [hPc, reduceCtorEq, if_false]
      exact hTaken

/-- A session that waits has sent `Granted` after some rounds exactly if the votes are
enough then. -/
theorem rounds_granted_iff {rounds : List (List (Nat × VoteAnswer))}
    (hPeers : membership.peers id ≠ []) (hWaiting : Waiting membership session)
    (hUnheard : Unheard membership id session rounds.flatten) :
    (VoteSession.rounds membership id rounds session).voteResult = some .granted ↔
      EnoughVotes membership.ids.length (session.grantedVotes + grantCount rounds.flatten) := by
  induction rounds generalizing session with
  | nil =>
    refine iff_of_false ?_ hWaiting.votes
    rw [VoteSession.rounds, hWaiting.result]
    exact nofun
  | cons answers rest ih =>
    rw [List.flatten_cons] at hUnheard ⊢
    rw [grantCount_append, ← Nat.add_assoc]
    have hRound := round_cases hPeers hWaiting hUnheard.of_append
    rw [VoteSession.rounds]
    split at hRound
    · rename_i hEnough
      simp only [hRound, Option.isSome_some, if_true]
      exact iff_of_true trivial (hEnough.mono (Nat.le_add_right _ _))
    · rename_i hEnough
      have hNone := hRound.voteResult.trans hWaiting.result
      simp only [hNone, Option.isSome_none, Bool.false_eq_true, if_false]
      rw [← hRound.grantedVotes]
      exact ih ⟨by rwa [hRound.grantedVotes], hNone⟩ (hUnheard.later hRound)

/-- The threshold is that of a strict majority if the map does not list the node, or an
even number of nodes. -/
theorem enoughVotes_iff {votes : Nat} (h : id ∉ membership.ids ∨ Even membership.ids.length) :
    EnoughVotes membership.ids.length votes ↔ (membership.ids.insert id).length < 2 * votes := by
  unfold EnoughVotes
  by_cases hId : id ∈ membership.ids
  · obtain ⟨half, hHalf⟩ := h.resolve_left (not_not_intro hId)
    rw [List.length_insert_of_mem hId]
    omega
  · rw [List.length_insert_of_not_mem hId]
    omega

theorem MembershipMap.length_peers (membership : MembershipMap) {id : NodeId}
    (hId : id ∈ membership.ids) : (membership.peers id).length = membership.ids.length - 1 := by
  have hErase : membership.peers id = membership.ids.erase id := by
    rw [membership.nodup.erase_eq_filter, MembershipMap.peers]
    refine List.filter_congr fun peer _ => ?_
    by_cases hOwn : peer = id <;> simp [hOwn]
  rw [hErase, List.length_erase_of_mem hId]

def grantsOf (peers : List NodeId) : List (Nat × VoteAnswer) :=
  peers.map fun peer => (0, ⟨⟨0, 0, 0, 0⟩, ⟨0, true, peer, .ok⟩⟩)

theorem grantCount_grantsOf (peers : List NodeId) : grantCount (grantsOf peers) = peers.length := by
  rw [grantCount, grantsOf, List.countP_map]
  exact List.countP_eq_length.mpr fun _ _ => rfl

theorem heard_grantsOf {peers : List NodeId} (hPeers : peers.Sublist (membership.peers id)) :
    Heard membership id [grantsOf peers] := by
  have hIds : (grantsOf peers).map (fun heard => heard.2.response.id) = peers := by
    rw [grantsOf, List.map_map]
    exact List.map_id peers
  constructor
  · rw [List.flatten_singleton, hIds]
    exact hPeers.nodup (membership.nodup.filter _)
  · intro heard hHeard
    rw [List.flatten_singleton] at hHeard
    refine hPeers.subset ?_
    rw [← hIds]
    exact List.mem_map_of_mem (f := fun heard => heard.2.response.id) hHeard
  · intro heard hHeard
    rw [List.flatten_singleton] at hHeard
    obtain ⟨peer, _, rfl⟩ := List.mem_map.mp hHeard
    rfl

theorem rounds_noPeers {rounds : List (List (Nat × VoteAnswer))}
    (hPeers : membership.peers id = []) (hResult : session.voteResult = none) :
    (VoteSession.rounds membership id rounds session).voteResult ≠ some .granted := by
  cases rounds with
  | nil =>
    rw [VoteSession.rounds, hResult]
    exact nofun
  | cons answers rest =>
    have hRound : session.round membership id answers =
        { session with voteResult := some .noPeers } := by
      unfold VoteSession.round
      rw [if_pos hPeers]
    rw [VoteSession.rounds, hRound]
    exact nofun

theorem MembershipMap.length_pos {membership : MembershipMap} (hPeers : membership.peers id ≠ []) :
    0 < membership.ids.length :=
  List.length_pos_iff.mpr fun hNone => hPeers (by rw [MembershipMap.peers, hNone]; rfl)

theorem waiting_initial {startTerm : Nat} (hPeers : membership.peers id ≠ []) :
    Waiting membership { startTerm } := by
  have hPos := MembershipMap.length_pos hPeers
  refine ⟨?_, rfl⟩
  unfold EnoughVotes
  dsimp only
  omega

theorem sendsGranted_iff {startTerm : Nat} {rounds : List (List (Nat × VoteAnswer))}
    (hPeers : membership.peers id ≠ []) (hHeard : Heard membership id rounds) :
    SendsGranted membership id startTerm rounds ↔
      EnoughVotes membership.ids.length (1 + grantCount rounds.flatten) :=
  rounds_granted_iff hPeers (waiting_initial hPeers)
    ⟨hHeard.once, hHeard.peer, hHeard.reason, fun _ _ hAcked => by cases hAcked⟩

/-- A map that lists the node and an odd number of nodes: of `2 * half + 1` nodes, the node
and `half` peers are a majority, but do not win. -/
theorem not_electsAtMajority {half startTerm : Nat} (hId : id ∈ membership.ids) (hHalf : 1 ≤ half)
    (hLength : membership.ids.length = 2 * half + 1) :
    ¬ ElectsAtMajority membership id startTerm := by
  intro hElects
  have hPeersLength := membership.length_peers hId
  have hPeers : membership.peers id ≠ [] := List.length_pos_iff.mp (by omega)
  have hHeard := heard_grantsOf (List.take_sublist half (membership.peers id))
  have hCount : grantCount [grantsOf ((membership.peers id).take half)].flatten = half := by
    rw [List.flatten_singleton, grantCount_grantsOf, List.length_take]
    omega
  have hMajority : StrictMajority membership id [grantsOf ((membership.peers id).take half)] := by
    rw [StrictMajority, hCount, List.length_insert_of_mem hId]
    omega
  have hEnough := (sendsGranted_iff hPeers hHeard).mp ((hElects _ hHeard).mpr hMajority)
  rw [hCount, EnoughVotes] at hEnough
  omega

/-- A node without peers has the votes of all nodes, and sends `NoPeers`. -/
theorem not_electsAtMajority_of_noPeers {startTerm : Nat} (hPeers : membership.peers id = []) :
    ¬ ElectsAtMajority membership id startTerm := by
  intro hElects
  have hHeard : Heard membership id [] := ⟨List.nodup_nil, nofun, nofun⟩
  have hOne : (membership.ids.insert id).length = 1 := by
    by_cases hId : id ∈ membership.ids
    · have hLength := membership.length_peers hId
      have hPos := List.length_pos_of_mem hId
      rw [hPeers, List.length_nil] at hLength
      rw [List.length_insert_of_mem hId]
      omega
    · have hNone : membership.ids = [] := List.eq_nil_iff_forall_not_mem.mpr fun peer hPeer => by
        have hOther : peer ∈ membership.peers id :=
          List.mem_filter.mpr ⟨hPeer, decide_eq_true fun hSame => hId (hSame ▸ hPeer)⟩
        rw [hPeers] at hOther
        cases hOther
      rw [hNone]
      rfl
  have hMajority : StrictMajority membership id [] := by
    rw [StrictMajority, hOne]
    decide
  exact rounds_noPeers hPeers rfl ((hElects _ hHeard).mpr hMajority)

/-- A session is won exactly at a strict majority if the node has peers, and its map does not
list the node itself, or lists an even number of nodes. -/
theorem electsAtMajority_iff (membership : MembershipMap) (id : NodeId) (startTerm : Nat) :
    ElectsAtMajority membership id startTerm ↔
      membership.peers id ≠ [] ∧ (id ∉ membership.ids ∨ Even membership.ids.length) := by
  by_cases hPeers : membership.peers id = []
  · exact iff_of_false (not_electsAtMajority_of_noPeers hPeers) fun h => h.1 hPeers
  · constructor
    · intro hElects
      refine ⟨hPeers, ?_⟩
      by_contra hOther
      obtain ⟨hId, hOdd⟩ := not_or.mp hOther
      obtain ⟨half, hHalf⟩ := Nat.not_even_iff_odd.mp hOdd
      have hPeersLength := membership.length_peers (not_not.mp hId)
      have hPos := List.length_pos_iff.mpr hPeers
      exact not_electsAtMajority (not_not.mp hId) (by omega) hHalf hElects
    · intro h rounds hHeard
      exact (sendsGranted_iff hPeers hHeard).trans (enoughVotes_iff h.2)

end Rounds

/-- Three nodes with the map that lists all of them: node 2 grants its vote to node 1. -/
def threeNodes : MembershipMap := ⟨[1, 2, 3], nodup_triple⟩

def oneGrant : List (List (Nat × VoteAnswer)) :=
  [[(1, ⟨⟨1, 1, 0, 0⟩, ⟨0, true, 2, .ok⟩⟩)]]

/-- The steps of node 1 up to the point at which it has compared its two votes. -/
def oneGrantActions : List (Action Unit) :=
  [candidateActions, List.replicate 3 (.task 1), [.answerVote 1 ⟨0, true, 2, .ok⟩, .recv 0 1],
    List.replicate 2 (.task 0)].flatten

/-- Two votes of three are not enough for the session, and no round has one to count or a
result to send. -/
theorem majority_not_elected : Heard threeNodes 1 oneGrant ∧ StrictMajority threeNodes 1 oneGrant ∧
    (VoteSession.rounds threeNodes 1 oneGrant { startTerm := 1 }).voteResult = none ∧
    ¬ ElectsAtMajority threeNodes 1 1 ∧
    ∃ m : Machine (Stored Unit) Unit, Machine.Runs Unrestricted { node := emptyNode threeNodes } m ∧
      m.voteSessions[0]? = some (VoteSession.rounds threeNodes 1 oneGrant { startTerm := 1 }) ∧
      ∀ task ∈ m.tasks, task.comparing = none ∧ task.sendsGranted 0 = false := by
  have hHeard : Heard threeNodes 1 oneGrant := ⟨by decide, by decide, by decide⟩
  have hMajority : StrictMajority threeNodes 1 oneGrant := by
    unfold StrictMajority
    decide
  have hNone : (VoteSession.rounds threeNodes 1 oneGrant { startTerm := 1 }).voteResult = none := by
    decide
  refine ⟨hHeard, hMajority, hNone, fun hElects => ?_, ?_⟩
  · exact nomatch hNone.symm.trans ((hElects oneGrant hHeard).mpr hMajority)
  · obtain ⟨m, hRuns, hWaits⟩ := Machine.exists_of_run
      (show (Machine.run Unrestricted { node := emptyNode threeNodes } oneGrantActions).map
        (fun m => decide (m.voteSessions[0]? =
            some (VoteSession.rounds threeNodes 1 oneGrant { startTerm := 1 }) ∧
          ∀ task ∈ m.tasks, task.comparing = none ∧ task.sendsGranted 0 = false)) = some true by
        decide)
    exact ⟨m, hRuns, of_decide_eq_true hWaits⟩

end Zeroraft
