import Zeroraft.Properties.OnlyLeaders
import Zeroraft.Runtime.LogSteps

/-!
# The log of a leader

A node that rewrites its log is not a leader: the handler has made it a follower,
and only the candidate loop makes a leader. The entries that the leader loop
creates are another matter, since it reads the term long after it has looked at
the role.
-/

namespace Zeroraft

variable {S R : Type}

section AppendOnly

/-- The main loop has found the request acceptable and is about to rewrite the log. -/
def Main.rewrites : Main R → Bool
  | .appendEntries _ _ _ (.readEntry _) | .appendEntries _ _ _ (.removeEntries _) => true
  | _ => false

def RewritesAsFollower (m : Machine S R) : Prop :=
  m.main.rewrites = true → m.node.currentState ≠ .leader

variable [State S R] {m m' : Machine S R}

theorem RewritesAsFollower.main (h : RewritesAsFollower m) (hMain : MainStepped m m') :
    RewritesAsFollower m' := by
  intro hRewrites
  cases hMain with
  | @appendEntries role request responseTx pc pc' hMain hEdge _ =>
    rw [RewritesAsFollower, hMain] at h
    obtain ⟨state, _, hNode⟩ := AppendEntriesPc.step_node m.node.id responseTx m.node request pc
    rw [hNode]
    cases hEdge with
    | follower _ => exact nofun
    | same _ => exact h rfl
    | _ => cases hRewrites
  | leave _ _ =>
    rw [RoleLoop.leave_main] at hRewrites
    cases hRewrites
  | _ => cases hRewrites

theorem step_asFollower {p : Main R → Bool} {action : Action R} (hStep : m.step action = some m')
    (hMain : MainStepped m m' → p m'.main = true → m'.node.currentState ≠ .leader)
    (hSelect : ∀ role event, SelectStepped m role event m' → p m'.main = false)
    (hFailed : p .failed = false) (h : p m.main = true → m.node.currentState ≠ .leader)
    (hPoint : p m'.main = true) :
    m'.node.currentState ≠ .leader := by
  cases step_cases hStep with
  | main hStepped => exact hMain hStepped hPoint
  | select _ hStepped =>
    rw [hSelect _ _ hStepped] at hPoint
    cases hPoint
  | vote _ hTask | replicate _ hTask =>
    intro hLeader
    have hBefore := h (hTask.frame.main ▸ hPoint)
    rcases step_becomeLeader hStep hLeader with hOld | ⟨hAction, _⟩
    · exact hBefore hOld
    · cases hAction
  | recv _ _ hRecv =>
    obtain ⟨voteSessions, rfl⟩ := hRecv.frame
    exact h hPoint
  | overrun _ =>
    rw [hFailed] at hPoint
    cases hPoint
  | answerVote _ | environment _ _ => exact h hPoint

theorem step_rewritesAsFollower {action : Action R} (hStep : m.step action = some m')
    (h : RewritesAsFollower m) : RewritesAsFollower m' :=
  step_asFollower hStep (fun hMain => h.main hMain)
    (fun _ _ hSelect => by cases hSelect <;> rfl) rfl h

/-- In the role of a leader a step leaves the log as it is or adds to its end. -/
theorem leader_appends_only [FallibleState S R] (node : RaftNode S) (m m' : Machine S R)
    (action : Action R) (hRuns : Machine.Runs (fun _ _ => True) { node } m)
    (hStep : m.step action = some m') (hLeader : m.node.currentState = .leader) :
    m.log <+: m'.log := by
  have hFollower : RewritesAsFollower m := hRuns.invariant (fun h => by cases h)
    fun _ _ _ _ hStep h => step_rewritesAsFollower hStep h
  cases step_logChange hStep with
  | kept h => exact h ▸ List.prefix_rfl
  | removed _ hMain _ _ => exact absurd hLeader (hFollower (by rw [hMain]; rfl))
  | replicated _ _ _ h | created _ _ _ h =>
    rw [h]
    exact List.prefix_append _ _

/-- The leader of two is about to append the entry of a client. -/
def appendActions : List (Action Unit) :=
  [electedActions, List.replicate 6 .main, [.event (.clientRequest () ⟨7, 0, false⟩), .main]].flatten

theorem leader_appends_only_client : ∃ m m' : Machine (Stored Unit) Unit,
    m.node.currentState = .leader ∧ m'.log = m.log ++ [⟨1, .clientRequest ()⟩] ∧
      m.log <+: m'.log := by
  obtain ⟨m, hRuns, hm⟩ := Machine.exists_of_run
    (show (Machine.run (fun _ _ => True) { node := emptyNode ⟨[1, 2], by decide⟩ }
      appendActions).map (fun m => decide (m.node.currentState = .leader ∧
        (m.step .main).map (·.log) = some (m.log ++ [⟨1, .clientRequest ()⟩]))) = some true by decide)
  obtain ⟨hLeader, hLog⟩ := of_decide_eq_true hm
  obtain ⟨m', hStep, hLog⟩ := Option.map_eq_some_iff.mp hLog
  exact ⟨m, m', hLeader, hLog, leader_appends_only _ m m' .main hRuns hStep hLeader⟩

end AppendOnly

section Creation

def Main.creates : Main R → Bool
  | .loadEntryTerm _ _ | .appendEntry _ _ => true
  | _ => false

def Main.createdEntry : Main R → Option (Nat × LogEntry R)
  | .appendEntry i entry => some (i, entry)
  | _ => none

theorem Main.createdEntry_eq_some {main : Main R} {i : Nat} {entry : LogEntry R} :
    main.createdEntry = some (i, entry) ↔ main = .appendEntry i entry := by
  cases main with
  | appendEntry _ _ =>
    rw [Main.createdEntry, Option.some.injEq, Prod.mk.injEq, Main.appendEntry.injEq]
  | _ => exact ⟨nofun, nofun⟩

def Main.loadsTerm : Main R → Bool
  | .loadEntryTerm _ _ => true
  | _ => false

def Main.entersLeader : Main R → Bool
  | .readCommit | .readMembership _ => true
  | _ => false

/-- The main loop is in the leader loop, or on its way from the role of a leader to it. -/
def Main.leads (main : Main R) : Bool :=
  main.entersLeader || main.role.any (·.taskState = .leader)

def Main.campaigns : Main R → Bool
  | .incrementTerm | .voteForSelf | .select (.candidate _) => true
  | _ => false

/-- The term in which the newest vote session was started. -/
def Machine.latestTerm (m : Machine S R) : Option Nat := m.voteSessions.getLast?.map (·.startTerm)

/-- The step takes the role of the entry that is being created, or its term before the
main loop has read it. -/
def StepDownPc.spoils (m : Machine S R) : StepDownPc → Bool
  | .storeCurrentTerm _ => false
  | .setCurrentTerm term => m.main.loadsTerm && term != m.node.currentTerm
  | .becomeFollower => m.main.creates

/-- The leader loop takes a request of a client only as the leader, in the term of the
session that elected it, and no task takes either away until the entry is appended. -/
def CreationSafe (m : Machine S R) : Action R → Prop
  | .event (.clientRequest _ _) => m.main.leads = true →
    m.node.currentState = .leader ∧ m.latestTerm = some m.node.currentTerm
  | .task k => ∀ task ∈ m.tasks[k]?, ∀ pc ∈ task.stepDownPc, pc.spoils m = false
  | _ => True

def LeaderSafe (m : Machine S R) (action : Action R) : Prop :=
  TallySafe m action ∧ CreationSafe m action

instance CreationSafe.instDecidable (m : Machine S R) (action : Action R) :
    Decidable (CreationSafe m action) :=
  match action with
  | .event (.clientRequest _ _) => inferInstanceAs (Decidable (_ → _ ∧ _))
  | .task k => inferInstanceAs (Decidable (∀ task ∈ m.tasks[k]?, ∀ pc ∈ task.stepDownPc, _))
  | .main | .event .shutdown | .event (.requestVote _ _) | .event (.appendEntries _ _)
  | .event .unimplementedRpc | .event .voteResult | .event .electionTimeout
  | .event .retryTimeout | .event .heartbeatTimeout | .overrun | .recv _ _ | .answerVote _ _
  | .answerAppend _ _ | .lose _ | .cancel _ | .elapse _ => isTrue trivial

instance (m : Machine S R) (action : Action R) : Decidable (LeaderSafe m action) :=
  inferInstanceAs (Decidable (_ ∧ _))

variable [State S R] {m m' : Machine S R}

/-- The newest vote session made the node the leader, at a moment `m₁` of the run. -/
structure ElectedAt (initial m₁ m : Machine S R) (result : VoteResult) : Prop where
  before : Machine.Runs LeaderSafe initial m₁
  after : Machine.Runs LeaderSafe m₁ m
  main : ∃ s, m₁.main = .becomeLeader s result ∧ s + 1 = m₁.voteSessions.length
  latest : m.voteSessions.length = m₁.voteSessions.length

/-- What the role of a leader and the leader loop go back to. -/
structure Tenure (initial m : Machine S R) : Prop where
  elected : m.node.currentState = .leader ∨ m.main.leads = true →
    ∃ m₁ result, ElectedAt initial m₁ m result
  campaigns : m.main.campaigns = true → m.node.currentState ≠ .leader
  current : ∀ s, m.main.role = some (.candidate s) → s + 1 = m.voteSessions.length

theorem ElectedAt.step {initial m₁ : Machine S R} {result : VoteResult} {action : Action R}
    (h : ElectedAt initial m₁ m result) (hSafe : LeaderSafe m action)
    (hStep : m.step action = some m')
    (hSame : m'.voteSessions.length = m.voteSessions.length) : ElectedAt initial m₁ m' result :=
  ⟨h.before, h.after.tail ⟨action, hSafe, hStep⟩, h.main, hSame.trans h.latest⟩

omit [State S R] in
theorem Main.leads_of_role {main : Main R} {i : Nat} (h : main.role = some (.leader i)) :
    main.leads = true := by
  rw [Main.leads, h, Bool.or_eq_true]
  exact Or.inr rfl

omit [State S R] in
theorem Main.role_of_leads {main : Main R} (h : main.leads = true) :
    main.entersLeader = true ∨ ∃ i, main.role = some (.leader i) := by
  refine (Bool.or_eq_true_iff.mp h).imp_right fun hAny => ?_
  cases hRole : main.role with
  | none =>
    rw [hRole] at hAny
    cases hAny
  | some role =>
    rw [hRole] at hAny
    cases role with
    | leader i => exact ⟨i, rfl⟩
    | follower | candidate _ => cases hAny

theorem MainStepped.entersLeader (h : MainStepped m m') (hEnters : m'.main.entersLeader = true) :
    m.node.currentState = .leader ∨ m.main.entersLeader = true := by
  cases h with
  | startLeader _ hState => exact Or.inl hState
  | readCommit hMain => exact Or.inr (by rw [hMain]; rfl)
  | leave _ _ =>
    rw [RoleLoop.leave_main] at hEnters
    cases hEnters
  | _ => cases hEnters

theorem step_leads {action : Action R} (hStep : m.step action = some m')
    (hLeads : m'.main.leads = true) :
    m.node.currentState = .leader ∨ m.main.leads = true := by
  rcases Main.role_of_leads hLeads with hEnters | ⟨i, hRole⟩
  · cases step_cases hStep with
    | main h =>
      exact (h.entersLeader hEnters).imp_right fun h => Bool.or_eq_true_iff.mpr (Or.inl h)
    | select _ h => cases h <;> cases hEnters
    | vote _ h | replicate _ h => exact Or.inr (h.frame.main ▸ hLeads)
    | recv _ _ h =>
      obtain ⟨voteSessions, rfl⟩ := h.frame
      exact Or.inr hLeads
    | overrun _ => cases hEnters
    | answerVote _ | environment _ _ => exact Or.inr hLeads
  · cases step_cases hStep with
    | main h =>
      rcases h.leader hRole with hOld | ⟨_, nextIndex, hMain⟩
      · exact Or.inr (Main.leads_of_role hOld)
      · exact Or.inr (by rw [hMain]; rfl)
    | select hMain h => exact Or.inr (Main.leads_of_role (by rw [hMain, Main.role, h.leader hRole]))
    | vote _ h | replicate _ h => exact Or.inr (h.frame.main ▸ hLeads)
    | recv _ _ h =>
      obtain ⟨voteSessions, rfl⟩ := h.frame
      exact Or.inr hLeads
    | overrun _ => cases hRole
    | answerVote _ | environment _ _ => exact Or.inr hLeads

theorem step_elected {initial : Machine S R} {action : Action R}
    (hBefore : Machine.Runs LeaderSafe initial m) (hSafe : LeaderSafe m action)
    (hStep : m.step action = some m') (h : Tenure initial m)
    (hLeads : m'.node.currentState = .leader ∨ m'.main.leads = true) :
    ∃ m₁ result, ElectedAt initial m₁ m' result := by
  have hOld : m.node.currentState = .leader ∨ m.main.leads = true ∨
      ∃ s result, action = .main ∧ m.main = .becomeLeader s result ∧
        m'.main = .checkRole (.candidate s) := by
    rcases hLeads with hLeader | hLeads
    · rcases step_becomeLeader hStep hLeader with hOld | ⟨hAction, s, result, hMain, hMain', _⟩
      · exact Or.inl hOld
      · exact Or.inr (Or.inr ⟨s, result, hAction, hMain, hMain'⟩)
    · exact (step_leads hStep hLeads).imp_right Or.inl
  rcases step_voteSessionCount hStep with hSame | ⟨hMain, hMain', _⟩
  · rcases hOld with hLeader | hLeads | ⟨s, result, rfl, hMain, _⟩
    · obtain ⟨m₁, result, hElected⟩ := h.elected (Or.inl hLeader)
      exact ⟨m₁, result, hElected.step hSafe hStep hSame⟩
    · obtain ⟨m₁, result, hElected⟩ := h.elected (Or.inr hLeads)
      exact ⟨m₁, result, hElected.step hSafe hStep hSame⟩
    · have hCurrent := h.current s (by rw [hMain]; rfl)
      exact ⟨m, result, hBefore, Relation.ReflTransGen.single ⟨.main, hSafe, hStep⟩,
        ⟨s, hMain, hCurrent⟩, hSame⟩
  · -- A node that starts a vote session is not the leader, nor is it in a leader loop.
    have hCampaigns := h.campaigns (by rw [hMain]; rfl)
    rcases hOld with hLeader | hLeads | ⟨s, result, _, hBecomes, _⟩
    · exact absurd hLeader hCampaigns
    · rw [hMain] at hLeads
      cases hLeads
    · rw [hMain] at hBecomes
      cases hBecomes

theorem step_campaigns {action : Action R} (hStep : m.step action = some m')
    (h : m.main.campaigns = true → m.node.currentState ≠ .leader)
    (hCampaigns : m'.main.campaigns = true) : m'.node.currentState ≠ .leader := by
  intro hLeader
  rcases step_becomeLeader hStep hLeader with hOld | ⟨_, s, result, _, hMain', _⟩
  · cases step_cases hStep with
    | main hMain =>
      cases hMain with
      | startCandidate _ hState =>
        rw [hState] at hOld
        cases hOld
      | incrementTerm hMain => exact h (by rw [hMain]; rfl) hOld
      | @stay role _ hState =>
        rw [hState] at hOld
        cases role with
        | candidate _ => cases hOld
        | follower | leader _ => cases hCampaigns
      | leave _ _ =>
        rw [RoleLoop.leave_main] at hCampaigns
        cases hCampaigns
      | _ => cases hCampaigns
    | select hMain hSelect =>
      cases hSelect with
      | restart => exact h (by rw [hMain]; rfl) hOld
      | _ => cases hCampaigns
    | vote _ hTask | replicate _ hTask => exact h (hTask.frame.main ▸ hCampaigns) hOld
    | recv _ _ hRecv =>
      obtain ⟨voteSessions, rfl⟩ := hRecv.frame
      exact h hCampaigns hOld
    | overrun _ => cases hCampaigns
    | answerVote _ | environment _ _ => exact h hCampaigns hOld
  · rw [hMain'] at hCampaigns
    cases hCampaigns

theorem step_current {action : Action R} (hStep : m.step action = some m')
    (h : ∀ s, m.main.role = some (.candidate s) → s + 1 = m.voteSessions.length) {s : Nat}
    (hRole : m'.main.role = some (.candidate s)) : s + 1 = m'.voteSessions.length := by
  rcases step_voteSessionCount hStep with hSame | ⟨_, hMain', hCount⟩
  · rw [hSame]
    rcases step_role hStep hRole with hOld | ⟨rfl, _⟩
    · exact h s hOld
    · cases step_cases hStep with
      | main hMain =>
        rcases hMain.candidate hRole with hOld | ⟨_, hNew, _⟩
        · exact h _ hOld
        · rw [hNew, List.length_append] at hSame
          exact absurd hSame (Nat.succ_ne_self _)
      | select hMain hSelect => exact h _ (by rw [hMain, Main.role, hSelect.candidate hRole])
      | vote _ hTask | replicate _ hTask => exact h _ (hTask.frame.main ▸ hRole)
      | recv _ _ hRecv =>
        obtain ⟨voteSessions, rfl⟩ := hRecv.frame
        exact h _ hRole
      | overrun _ => cases hRole
      | answerVote _ | environment _ _ => exact h _ hRole
  · rcases hMain' with hMain' | hFailed
    · rw [hMain'] at hRole
      cases hRole
      exact hCount.symm
    · rw [hFailed] at hRole
      cases hRole

theorem step_latestTerm {action : Action R} (hStep : m.step action = some m')
    (hSame : m'.voteSessions.length = m.voteSessions.length) : m'.latestTerm = m.latestTerm := by
  rw [Machine.latestTerm, Machine.latestTerm, List.getLast?_eq_getElem?, List.getLast?_eq_getElem?,
    hSame]
  cases hLast : m.voteSessions[m.voteSessions.length - 1]? with
  | none =>
    rw [List.getElem?_eq_none_iff] at hLast
    rw [List.getElem?_eq_none (by omega)]
  | some session =>
    obtain ⟨session', hSession', hLater⟩ := (step_grows hStep).voteSessions _ _ hLast
    rw [hSession', Option.map_some, Option.map_some, hLater.startTerm]

/-- The main loop as it creates an entry. -/
structure Creating (m : Machine S R) : Prop where
  creates : m.main.creates = true → m.node.currentState = .leader
  loads : m.main.loadsTerm = true → m.latestTerm = some m.node.currentTerm
  created : ∀ i entry, m.main = .appendEntry i entry → m.latestTerm = some entry.term

omit [State S R] in
theorem Creating.of_not_creates (h : m.main.creates = false) : Creating m := by
  constructor
  · intro hCreates
    rw [h] at hCreates
    cases hCreates
  · intro hLoads
    cases hMain : m.main with
    | loadEntryTerm _ _ =>
      rw [hMain] at h
      cases h
    | _ =>
      rw [hMain] at hLoads
      cases hLoads
  · intro i entry hMain
    rw [hMain] at h
    cases h

theorem Creating.main (h : Creating m) (hMain : MainStepped m m') : Creating m' := by
  cases hMain with
  | loadEntryTerm hMain =>
    refine ⟨fun _ => h.creates (by rw [hMain]; rfl), nofun, ?_⟩
    rintro i entry ⟨⟩
    exact h.loads (by rw [hMain]; rfl)
  | leave _ _ => exact Creating.of_not_creates (by rw [RoleLoop.leave_main]; rfl)
  | _ => exact Creating.of_not_creates rfl

omit [State S R] in
theorem SelectStepped.creating {role : RoleLoop} {event : Event R}
    (h : SelectStepped m role event m') (hMain : m.main = .select role)
    (hSafe : CreationSafe m (.event event)) : Creating m' := by
  cases h with
  | append _ _ =>
    obtain ⟨hLeader, hTerm⟩ := hSafe (Main.leads_of_role (by rw [hMain]; rfl))
    exact ⟨fun _ => hLeader, fun _ => hTerm, nofun⟩
  | _ => exact Creating.of_not_creates rfl

theorem Creating.task (h : Creating m) {task : Task R}
    (hSafe : ∀ pc ∈ task.stepDownPc, pc.spoils m = false) (hFrame : TaskFrame task m m')
    (hLatest : m'.latestTerm = m.latestTerm) : Creating m' := by
  constructor
  · intro hCreates
    rw [hFrame.main] at hCreates
    cases hFrame.writes with
    | state _ hNode | term _ _ hNode =>
      rw [hNode]
      exact h.creates hCreates
    | role hPc _ =>
      have hSpoils : m.main.creates = false := hSafe _ hPc
      rw [hSpoils] at hCreates
      cases hCreates
  · intro hLoads
    rw [hFrame.main] at hLoads
    rw [hLatest, h.loads hLoads]
    cases hFrame.writes with
    | state _ hNode | role _ hNode => rw [hNode]
    | term term hPc hNode =>
      have hSpoils : (m.main.loadsTerm && term != m.node.currentTerm) = false := hSafe _ hPc
      rw [hLoads, Bool.true_and, bne_eq_false_iff_eq] at hSpoils
      rw [hNode, hSpoils]
  · intro i entry hMain
    rw [hFrame.main] at hMain
    rw [hLatest]
    exact h.created i entry hMain

theorem step_creating {action : Action R} (hStep : m.step action = some m')
    (hSafe : CreationSafe m action) (h : Creating m) : Creating m' := by
  rcases step_voteSessionCount hStep with hSame | ⟨_, hMain', _⟩
  · have hLatest := step_latestTerm hStep hSame
    cases step_cases hStep with
    | main hMain => exact h.main hMain
    | select hMain hSelect => exact hSelect.creating hMain hSafe
    | vote hTask hStepped | replicate hTask hStepped =>
      exact h.task (fun pc hPc => hSafe _ hTask pc hPc) (hStepped.frame.setTask _ _) hLatest
    | recv _ _ hRecv =>
      obtain ⟨voteSessions, rfl⟩ := hRecv.frame
      exact ⟨h.creates, fun hLoads => hLatest.trans (h.loads hLoads),
        fun i entry hMain => hLatest.trans (h.created i entry hMain)⟩
    | overrun _ => exact Creating.of_not_creates rfl
    | answerVote _ | environment _ _ => exact ⟨h.creates, h.loads, h.created⟩
  · exact Creating.of_not_creates (by rcases hMain' with h | h <;> rw [h] <;> rfl)

theorem Machine.Runs.tenure {node : RaftNode S} (hRuns : Machine.Runs LeaderSafe { node } m)
    (hState : node.currentState ≠ .leader) : Tenure { node } m ∧ Creating m := by
  induction hRuns with
  | refl =>
    constructor
    · constructor
      · rintro (hLeader | hLeads)
        · exact absurd hLeader hState
        · cases hLeads
      · exact nofun
      · exact nofun
    · exact Creating.of_not_creates rfl
  | tail hBefore hLast ih =>
    obtain ⟨action, hSafe, hStep⟩ := hLast
    obtain ⟨hTenure, hCreating⟩ := ih
    refine ⟨⟨step_elected hBefore hSafe hStep hTenure, ?_, ?_⟩,
      step_creating hStep hSafe.2 hCreating⟩
    · exact step_campaigns hStep hTenure.campaigns
    · exact fun s hRole => step_current hStep hTenure.current hRole

/-- Whenever the leader loop is about to append the entry of a client, the node is the
leader and the entry has the term of the vote session that elected it, in which more
than half of the cluster has voted for it. -/
theorem created_by_leader [FallibleState S R] (node : RaftNode S) (m : Machine S R) (i : Nat)
    (entry : LogEntry R) (hState : node.currentState ≠ .leader)
    (hRuns : Machine.Runs LeaderSafe { node } m) (hMain : m.main = .appendEntry i entry) :
    m.node.currentState = .leader ∧ ∃ m₁ s session result,
      Machine.Runs LeaderSafe { node } m₁ ∧ Machine.Runs LeaderSafe m₁ m ∧
      m₁.main = .becomeLeader s result ∧ m₁.voteSessions[s]? = some session ∧
      session.startTerm = entry.term ∧ ((State.getMembership node.state).peers node.id ≠ [] →
        m₁.node.currentTerm = entry.term ∧
          GrantedByMajority (State.getMembership node.state) m₁) := by
  obtain ⟨hTenure, hCreating⟩ := hRuns.tenure hState
  have hLeads : m.main.leads = true := Main.leads_of_role (i := i) (by rw [hMain]; rfl)
  obtain ⟨m₁, result, hBefore, hAfter, ⟨s, hMain₁, hs⟩, hLatest⟩ :=
    hTenure.elected (Or.inr hLeads)
  obtain ⟨session, hSession⟩ : ∃ session, m₁.voteSessions[s]? = some session :=
    ⟨_, List.getElem?_eq_getElem (by omega)⟩
  obtain ⟨session', hSession', hLater⟩ := hAfter.grows.voteSessions s session hSession
  have hTerm : session.startTerm = entry.term := by
    have hCreated := hCreating.created i entry hMain
    rw [Machine.latestTerm, List.getLast?_eq_getElem?, hLatest, ← hs, Nat.add_sub_cancel,
      hSession', Option.map_some, Option.some.injEq] at hCreated
    rw [← hLater.startTerm, hCreated]
  refine ⟨hCreating.creates (by rw [hMain]; rfl), m₁, s, session, result, hBefore, hAfter, hMain₁,
    hSession, hTerm, fun hPeers => ?_⟩
  obtain ⟨hTally, hTimely⟩ := (Machine.Runs.mono (fun _ _ hSafe => hSafe.1) hBefore).timely
  cases result with
  | noPeers => exact absurd (hTally.taken s _ hMain₁) hPeers
  | granted =>
    obtain ⟨_, ⟨session₁, hSession₁, hTerm₁⟩, hMajority⟩ := hTimely.elected hTally hMain₁
    rw [hSession, Option.some.injEq] at hSession₁
    rw [hTerm₁, ← hSession₁, hTerm]
    exact ⟨rfl, hMajority⟩

theorem created_by_leader_client : ∃ m m₁ : Machine (Stored Unit) Unit,
    m.main = .appendEntry 0 ⟨1, .clientRequest ()⟩ ∧ m.node.currentState = .leader ∧
      Machine.Runs LeaderSafe m₁ m ∧ m₁.node.currentTerm = 1 ∧
      GrantedByMajority ⟨[1, 2], by decide⟩ m₁ := by
  obtain ⟨m, hRuns, hm⟩ := Machine.exists_of_run
    (show (Machine.run LeaderSafe { node := emptyNode ⟨[1, 2], by decide⟩ } appendActions).map
      (fun m => decide (m.main.createdEntry = some (0, ⟨1, .clientRequest ()⟩))) = some true by
      decide)
  have hMain := Main.createdEntry_eq_some.mp (of_decide_eq_true hm)
  obtain ⟨hLeader, m₁, _, _, _, _, hAfter, _, _, _, hElected⟩ :=
    created_by_leader (emptyNode ⟨[1, 2], by decide⟩) m 0 _ (by decide) hRuns hMain
  obtain ⟨hTerm, hMajority⟩ := hElected (by decide)
  exact ⟨m, m₁, hMain, hLeader, hAfter, hTerm, hMajority⟩

/-- While the leader of two waits for a request, node 2 answers a heartbeat that it is in
term 9, and the heartbeat task steps down; then a request of a client arrives. -/
def deposedAppendActions : List (Action Unit) :=
  [electedActions, List.replicate 6 .main, List.replicate 4 (.task 2),
    [.task 4, .answerAppend 4 ⟨9, false, 2, 0, .staleTerm⟩, .task 4],
    List.replicate 5 (.task 2), [.event (.clientRequest () ⟨7, 0, false⟩), .main]].flatten

/-- A follower creates an entry of a term in which nobody has elected it. -/
theorem created_by_follower : ∃ m : Machine (Stored Unit) Unit,
    Machine.Runs (fun _ _ => True) { node := emptyNode ⟨[1, 2], by decide⟩ } m ∧
      m.main = .appendEntry 0 ⟨9, .clientRequest ()⟩ ∧ m.node.currentState = .follower ∧
      ∀ session ∈ m.voteSessions, session.startTerm ≠ 9 := by
  obtain ⟨m, hRuns, hm⟩ := Machine.exists_of_run
    (show (Machine.run (fun _ _ => True) { node := emptyNode ⟨[1, 2], by decide⟩ }
      deposedAppendActions).map (fun m => decide
        (m.main.createdEntry = some (0, ⟨9, .clientRequest ()⟩) ∧ m.node.currentState = .follower ∧
          ∀ session ∈ m.voteSessions, session.startTerm ≠ 9)) = some true by decide)
  obtain ⟨hMain, hState, hTerms⟩ := of_decide_eq_true hm
  exact ⟨m, hRuns, Main.createdEntry_eq_some.mp hMain, hState, hTerms⟩

end Creation

end Zeroraft
