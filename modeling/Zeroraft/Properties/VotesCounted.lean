import Mathlib.Data.List.Dedup
import Zeroraft.Properties.Leadership

/-!
# Is every peer's vote counted once?

A round asks the peers that have not answered when it begins. While their answers to an
earlier round are still to come they are asked twice, and each round counts the grants it
takes without looking at who has been counted.
-/

namespace Zeroraft

variable {S R : Type}

def VoteSession.granters (session : VoteSession) : List NodeId :=
  (session.grants.map fun grant => grant.2.response.id).dedup

/-- The answer is not one more grant of a peer whose grant has been taken. -/
def VoteSession.FirstGrant (session : VoteSession) (answer : VoteAnswer) : Prop :=
  answer.response.reason.stepsDown = false → answer.response.voteGranted = true →
    answer.response.id ∉ session.granters

instance (session : VoteSession) (answer : VoteAnswer) : Decidable (session.FirstGrant answer) :=
  inferInstanceAs (Decidable (_ → _ → _))

def GrantsOnce (m : Machine S R) : Action R → Prop
  | .recv k j => ∀ received ∈ m.received k j, ∀ session ∈ m.voteSessions[received.1]?,
    session.FirstGrant received.2
  | _ => True

instance GrantsOnce.instDecidable (m : Machine S R) (action : Action R) :
    Decidable (GrantsOnce m action) :=
  match action with
  | .recv k j => inferInstanceAs (Decidable (∀ received ∈ m.received k j, ∀ session ∈ _, _))
  | .task _ | .main | .event _ | .overrun | .answerVote _ _ | .answerAppend _ _ | .lose _
  | .cancel _ | .elapse _ => isTrue trivial

def VoteSession.GrantsDiffer (session : VoteSession) : Prop :=
  (session.grants.map fun grant => grant.2.response.id).Nodup

theorem VoteSession.mem_granters {session : VoteSession} {voter : NodeId} :
    voter ∈ session.granters ↔ ∃ grant ∈ session.grants, grant.2.response.id = voter := by
  rw [granters, List.mem_dedup, List.mem_map]

theorem VoteSession.GrantsDiffer.length {session : VoteSession} (h : session.GrantsDiffer) :
    session.granters.length = session.grants.length := by
  rw [granters, List.Nodup.dedup h, List.length_map]

theorem VoteSession.GrantsDiffer.append {session session' : VoteSession} {j : Nat}
    {answer : VoteAnswer} (h : session.GrantsDiffer)
    (hNew : answer.response.id ∉ session.granters)
    (hGrants : session'.grants = session.grants ++ [(j, answer)]) : session'.GrantsDiffer := by
  rw [GrantsDiffer, hGrants, List.map_append, List.map_singleton]
  refine List.nodup_append_comm.mp (List.nodup_cons.mpr ⟨?_, h⟩)
  rwa [granters, List.mem_dedup] at hNew

section Run

variable [State S R] {m m' : Machine S R} {action : Action R}

theorem step_grantsDiffer (hStep : m.step action = some m') (hOnce : GrantsOnce m action)
    (h : ∀ session ∈ m.voteSessions, session.GrantsDiffer) :
    ∀ session ∈ m'.voteSessions, session.GrantsDiffer := by
  intro session' hSession'
  obtain ⟨i, hi⟩ := List.mem_iff_getElem?.mp hSession'
  cases step_sessionChange hStep hi with
  | kept hSession _ _ hGrants =>
    rw [VoteSession.GrantsDiffer, hGrants]
    exact h _ (List.mem_of_getElem? hSession)
  | new _ hNew =>
    subst hNew
    exact List.nodup_nil
  | @granted session k j _ _ _ answer hAction hSession hRound hSource hReason hGranted hNew =>
    subst hAction hNew
    have hReceived : m.received k j = some (i, answer) := by
      rw [Machine.received, hRound, hSource]
    have hFirst := hOnce _ hReceived session hSession hReason hGranted
    exact (h session (List.mem_of_getElem? hSession)).append hFirst rfl

theorem Machine.Runs.grantsDiffer {node : RaftNode S} (hRuns : Machine.Runs GrantsOnce { node } m) :
    ∀ session ∈ m.voteSessions, session.GrantsDiffer :=
  hRuns.invariant (fun _ hSession => (by cases hSession))
    fun _ _ _ hOnce hStep h => step_grantsDiffer hStep hOnce h

variable [FallibleState S R]

/-- As long as no round takes a second grant of a peer, a session counts no more votes than
its own and those of the different peers that have granted it theirs. -/
theorem grantedVotes_le_granters (node : RaftNode S) (m : Machine S R)
    (hRuns : Machine.Runs GrantsOnce { node } m) (i : Nat) (session : VoteSession)
    (hSession : m.voteSessions[i]? = some session) :
    session.grantedVotes ≤ 1 + session.granters.length ∧
      ∀ voter ∈ session.granters, voter ∈ (State.getMembership node.state).peers node.id ∧
        ∃ answer ∈ m.answers, answer.2.response.id = voter ∧
          answer.2.response.voteGranted = true := by
  have hTally := hRuns.tally
  have hGrants := hTally.grants i session hSession
  constructor
  · have hCounted := hTally.counted i session hSession
    have hLength := (hRuns.grantsDiffer session (List.mem_of_getElem? hSession)).length
    omega
  · intro voter hVoter
    obtain ⟨grant, hGrant, rfl⟩ := VoteSession.mem_granters.mp hVoter
    exact ⟨hGrants.peer grant hGrant, grant, hGrants.answered grant hGrant, rfl,
      hGrants.granted grant hGrant⟩

end Run

/-- The first round takes the grant of node 2 and the retry that of node 3, both before
either of them counts. -/
def askedApartActions : List (Action Unit) :=
  [candidateActions, List.replicate 3 (.task 1), [.event .retryTimeout, .main],
    List.replicate 3 (.task 4), List.replicate 3 (.task 6),
    [.answerVote 1 ⟨0, true, 2, .ok⟩, .answerVote 6 ⟨0, true, 3, .ok⟩, .recv 0 1, .recv 4 6],
    [.task 4, .task 0, .task 0, .task 4]].flatten

theorem grantedVotes_le_granters_pair : ∃ m : Machine (Stored Unit) Unit,
    ∃ session ∈ m.voteSessions[0]?, session.grantedVotes = 3 ∧ session.granters = [2, 3] ∧
      session.grantedVotes ≤ 1 + session.granters.length := by
  let node := emptyNode ⟨[1, 2, 3, 4], by decide⟩
  obtain ⟨m, hRuns, hElected⟩ := Machine.exists_of_run
    (show (Machine.run GrantsOnce { node } askedApartActions).map
      (fun m => decide (∃ session ∈ m.voteSessions[0]?, session.grantedVotes = 3 ∧
        session.granters = [2, 3])) = some true by decide)
  obtain ⟨session, hSession, hVotes, hGranters⟩ := of_decide_eq_true hElected
  exact ⟨m, session, hSession, hVotes, hGranters,
    (grantedVotes_le_granters node m hRuns 0 session hSession).1⟩

/-- In a cluster of four the first round and a retry ask node 2, and each of them takes
its grant. -/
def askedTwiceActions : List (Action Unit) :=
  [candidateActions, List.replicate 3 (.task 1), [.event .retryTimeout, .main],
    List.replicate 3 (.task 4), List.replicate 3 (.task 5),
    [.answerVote 1 ⟨0, true, 2, .ok⟩, .answerVote 5 ⟨0, true, 2, .ok⟩, .recv 0 1],
    List.replicate 2 (.task 0), [.recv 4 5], List.replicate 3 (.task 4)].flatten

/-- Node 2 alone has answered, and its vote counts twice: three votes are enough. -/
theorem vote_counted_twice : ∃ m : Machine (Stored Unit) Unit,
    Machine.Runs (fun _ _ => True) { node := emptyNode ⟨[1, 2, 3, 4], by decide⟩ } m ∧
      (∀ answer ∈ m.answers, answer.2.response.id = 2) ∧
      ∃ session ∈ m.voteSessions[0]?, session.grantedVotes = 3 ∧ session.granters = [2] ∧
        session.voteResult = some .granted ∧
        ¬ session.grantedVotes ≤ 1 + session.granters.length := by
  obtain ⟨m, hRuns, hCounted⟩ := Machine.exists_of_run
    (show (Machine.run (fun _ _ => True) { node := emptyNode ⟨[1, 2, 3, 4], by decide⟩ }
      askedTwiceActions).map (fun m => decide ((∀ answer ∈ m.answers, answer.2.response.id = 2) ∧
        ∃ session ∈ m.voteSessions[0]?, session.grantedVotes = 3 ∧ session.granters = [2] ∧
          session.voteResult = some .granted)) = some true by decide)
  obtain ⟨hAnswers, session, hSession, hVotes, hGranters, hResult⟩ := of_decide_eq_true hCounted
  refine ⟨m, hRuns, hAnswers, session, hSession, hVotes, hGranters, hResult, ?_⟩
  rw [hVotes, hGranters]
  decide

end Zeroraft
