import Zeroraft.Runtime.Growth

/-!
# Clusters

The machines of a cluster and the messages between them. A request may arrive any
number of times and at any time after it was sent, or never, and so may a response.
-/

namespace Zeroraft

variable {S R : Type} [State S R]

abbrev Cluster (S R : Type) := NodeId → Machine S R

/-- The message on `out_rpc_tx` is this request of the task for node `i`. -/
def OutRpc.isRequest [DecidableEq R] (i : NodeId) (rpc : PeerRpc R) (task : Nat)
    (out : OutRpc R) : Bool := out = ⟨i, rpc, task⟩

/-- The reply is this response, sent to task `k` of node `i`. -/
def Reply.isVoteFor (i : NodeId) (k : Nat) (response : RequestVoteResponse) : Reply R → Bool
  | .requestVote responseTx answer =>
    responseTx.node = i ∧ responseTx.task = k ∧ answer.response = response
  | _ => false

def Reply.isAppendFor (i : NodeId) (k : Nat) (response : AppendEntriesResponse) : Reply R → Bool
  | .appendEntries responseTx _ response' =>
    responseTx.node = i ∧ responseTx.task = k ∧ response' = response
  | _ => false

namespace Cluster

variable [DecidableEq R]

/-- Requests and responses that reach a node have been sent by one. -/
def deliverable (c : Cluster S R) (i : NodeId) : Action R → Bool
  | .event (.requestVote request responseTx) =>
    (c responseTx.node).outRpc.any (OutRpc.isRequest i (.requestVote request) responseTx.task)
  | .event (.appendEntries request responseTx) =>
    (c responseTx.node).outRpc.any (OutRpc.isRequest i (.appendEntries request) responseTx.task)
  | .answerVote k response => (c response.id).replies.any (Reply.isVoteFor i k response)
  | .answerAppend k response => (c response.id).replies.any (Reply.isAppendFor i k response)
  | _ => true

def set (c : Cluster S R) (i : NodeId) (m : Machine S R) : Cluster S R :=
  fun j => if j = i then m else c j

def step (members : MembershipMap) (c : Cluster S R) (i : NodeId) (action : Action R) :
    Option (Cluster S R) :=
  if i ∈ members.ids ∧ c.deliverable i action then ((c i).step action).map (c.set i) else none

/-- Every node has just been built and has the same membership map. -/
def Initial (members : MembershipMap) (c : Cluster S R) : Prop :=
  ∀ i, ∃ state seeds node, RaftNodeBuilder.build ⟨i, state, seeds⟩ = .ok node ∧
    State.getMembership node.state = members ∧ c i = { node }

def Next (members : MembershipMap) (Allowed : Machine S R → Action R → Prop)
    (c c' : Cluster S R) : Prop :=
  ∃ i action, Allowed (c i) action ∧ c.step members i action = some c'

/-- The runs all of whose steps are allowed at the node that takes them. -/
def Runs (members : MembershipMap) (Allowed : Machine S R → Action R → Prop) :
    Cluster S R → Cluster S R → Prop :=
  Relation.ReflTransGen (Next members Allowed)

def run (members : MembershipMap) (Allowed : Machine S R → Action R → Prop)
    [∀ m action, Decidable (Allowed m action)] (c : Cluster S R) :
    List (NodeId × Action R) → Option (Cluster S R)
  | [] => some c
  | (i, action) :: rest =>
    if Allowed (c i) action then (c.step members i action).bind fun c' => run members Allowed c' rest
    else none

theorem step_eq_some {members : MembershipMap} {c c' : Cluster S R} {i : NodeId}
    {action : Action R} (h : c.step members i action = some c') :
    i ∈ members.ids ∧ c.deliverable i action ∧
      ∃ m, (c i).step action = some m ∧ c' = c.set i m := by
  unfold step at h
  split_ifs at h with hGuard
  obtain ⟨m, hStep, rfl⟩ := Option.map_eq_some_iff.mp h
  exact ⟨hGuard.1, hGuard.2, m, hStep, rfl⟩

omit [DecidableEq R] in
theorem Initial.machine {members : MembershipMap} {c : Cluster S R} (h : Initial members c)
    (i : NodeId) : ∃ node, c i = { node } ∧ node.identity = (i, members) ∧
      node.currentState = .follower := by
  obtain ⟨state, seeds, node, hBuild, hMembers, hNode⟩ := h i
  obtain ⟨hId, hState⟩ := RaftNodeBuilder.follower_of_build hBuild
  exact ⟨node, hNode, Prod.ext hId hMembers, hState⟩

omit [State S R] [DecidableEq R] in
@[simp] theorem set_self (c : Cluster S R) (i : NodeId) (m : Machine S R) : c.set i m i = m :=
  if_pos rfl

omit [State S R] [DecidableEq R] in
theorem set_of_ne (c : Cluster S R) {i j : NodeId} (m : Machine S R) (h : j ≠ i) :
    c.set i m j = c j := if_neg h

theorem runs_of_run {members : MembershipMap} {Allowed : Machine S R → Action R → Prop}
    [∀ m action, Decidable (Allowed m action)] {c c' : Cluster S R}
    {actions : List (NodeId × Action R)} (h : c.run members Allowed actions = some c') :
    Runs members Allowed c c' := by
  induction actions generalizing c with
  | nil =>
    cases h
    exact Relation.ReflTransGen.refl
  | cons first rest ih =>
    obtain ⟨hAllowed, h⟩ := Option.ite_none_right_eq_some.mp h
    obtain ⟨c₁, hFirst, hRest⟩ := Option.bind_eq_some_iff.mp h
    exact Relation.ReflTransGen.head ⟨first.1, first.2, hAllowed, hFirst⟩ (ih hRest)

/-- A run found by evaluation. -/
theorem exists_of_run {members : MembershipMap} {Allowed : Machine S R → Action R → Prop}
    [∀ m action, Decidable (Allowed m action)] {c : Cluster S R}
    {actions : List (NodeId × Action R)} {p : Cluster S R → Bool}
    (h : (c.run members Allowed actions).map p = some true) :
    ∃ c', Runs members Allowed c c' ∧ p c' = true := by
  obtain ⟨c', hRun, hp⟩ := Option.map_eq_some_iff.mp h
  exact ⟨c', runs_of_run hRun, hp⟩

theorem next_of_run {members : MembershipMap} {Allowed : Machine S R → Action R → Prop}
    [∀ m action, Decidable (Allowed m action)] {c : Cluster S R}
    {actions : List (NodeId × Action R)} {last : NodeId × Action R}
    {p : Cluster S R → Cluster S R → Bool}
    (h : ((c.run members Allowed actions).bind fun c₁ =>
      (c₁.run members Allowed [last]).map fun c₂ => p c₁ c₂) = some true) :
    ∃ c₁ c₂, Runs members Allowed c c₁ ∧ Next members Allowed c₁ c₂ ∧ p c₁ c₂ = true := by
  obtain ⟨c₁, hFirst, h⟩ := Option.bind_eq_some_iff.mp h
  obtain ⟨c₂, hLast, hp⟩ := Option.map_eq_some_iff.mp h
  obtain ⟨hAllowed, hLast⟩ := Option.ite_none_right_eq_some.mp hLast
  obtain ⟨c₃, hStep, hEnd⟩ := Option.bind_eq_some_iff.mp hLast
  cases hEnd
  exact ⟨c₁, c₂, runs_of_run hFirst, ⟨last.1, last.2, hAllowed, hStep⟩, hp⟩

/-- A run and its continuation, found by evaluation. -/
theorem exists_of_runs {members : MembershipMap} {Allowed : Machine S R → Action R → Prop}
    [∀ m action, Decidable (Allowed m action)] {c : Cluster S R}
    {actions rest : List (NodeId × Action R)} {p : Cluster S R → Cluster S R → Bool}
    (h : ((c.run members Allowed actions).bind fun c₁ =>
      (c₁.run members Allowed rest).map (p c₁)) = some true) :
    ∃ c₁ c₂, Runs members Allowed c c₁ ∧ Runs members Allowed c₁ c₂ ∧ p c₁ c₂ = true := by
  obtain ⟨c₁, hFirst, h⟩ := Option.bind_eq_some_iff.mp h
  obtain ⟨c₂, hRest, hp⟩ := exists_of_run h
  exact ⟨c₁, c₂, runs_of_run hFirst, hRest, hp⟩

theorem Runs.mono {members : MembershipMap} {Allowed Allowed' : Machine S R → Action R → Prop}
    {c c' : Cluster S R} (h : ∀ m action, Allowed m action → Allowed' m action)
    (hRuns : Runs members Allowed c c') : Runs members Allowed' c c' := by
  refine Relation.ReflTransGen.mono ?_ _ _ hRuns
  rintro c c' ⟨i, action, hAllowed, hStep⟩
  exact ⟨i, action, h _ _ hAllowed, hStep⟩

theorem Runs.machine {members : MembershipMap} {Allowed : Machine S R → Action R → Prop}
    {c c' : Cluster S R} (h : Runs members Allowed c c') (i : NodeId) :
    Machine.Runs Allowed (c i) (c' i) := by
  induction h with
  | refl => exact Relation.ReflTransGen.refl
  | tail _ hLast ih =>
    obtain ⟨j, action, hAllowed, hStep⟩ := hLast
    obtain ⟨_, _, m, hMachine, rfl⟩ := step_eq_some hStep
    by_cases hij : i = j
    · subst hij
      rw [set_self]
      exact Relation.ReflTransGen.tail ih ⟨action, hAllowed, hMachine⟩
    · rwa [set_of_ne _ _ hij]

theorem Runs.induction {members : MembershipMap} {Allowed : Machine S R → Action R → Prop}
    {Inv : Cluster S R → Prop} {c c' : Cluster S R} (hRuns : Runs members Allowed c c')
    (hInit : Inv c)
    (hStep : ∀ (c : Cluster S R) i action m', Inv c → i ∈ members.ids → Allowed (c i) action →
      c.deliverable i action → (c i).step action = some m' → Inv (c.set i m')) : Inv c' := by
  induction hRuns with
  | refl => exact hInit
  | tail _ hLast ih =>
    obtain ⟨i, action, hAllowed, hStepEq⟩ := hLast
    obtain ⟨hMember, hDelivered, m', hMachine, rfl⟩ := step_eq_some hStepEq
    exact hStep _ i action m' ih hMember hAllowed hDelivered hMachine

omit [State S R] [DecidableEq R] in
theorem forall_set {c : Cluster S R} {i : NodeId} {m : Machine S R}
    {P : NodeId → Machine S R → Prop} (hOwn : P i m) (hOthers : ∀ j, P j (c j)) (j : NodeId) :
    P j (c.set i m j) := by
  by_cases hij : j = i
  · subst hij
    rwa [set_self]
  · rw [set_of_ne _ _ hij]
    exact hOthers j

/-- What every machine keeps in its own steps, given that all have it, they all have in
every run of the cluster. -/
theorem Runs.invariant {members : MembershipMap} {Allowed : Machine S R → Action R → Prop}
    {Inv : NodeId → Machine S R → Prop} {c c' : Cluster S R} (hRuns : Runs members Allowed c c')
    (hInit : ∀ i, Inv i (c i))
    (hStep : ∀ (c : Cluster S R) i action m', (∀ j, Inv j (c j)) → Allowed (c i) action →
      c.deliverable i action → (c i).step action = some m' → Inv i m') : ∀ i, Inv i (c' i) := by
  refine @Runs.induction S R _ _ members Allowed (fun c => ∀ i, Inv i (c i)) c c' hRuns hInit
    fun c i action m' hAll _ hAllowed hDelivered hMachine => ?_
  exact forall_set (hStep c i action m' hAll hAllowed hDelivered hMachine) hAll

end Cluster

end Zeroraft
