import Zeroraft.Library.Simulation
import Zeroraft.Runtime.Deliveries

/-!
# Served nodes

The servers that the tests put around the nodes. Each forwards what its node puts on
`out_rpc_tx`, one exchange after the other, and passes on to its node what the others
forward. The network may refuse or lose a connection at any time.
-/

namespace Zeroraft

variable {S R : Type}

/-- Where `forward_outgoing_requests` is. -/
inductive Forwarder (R : Type) where
  | idle
  /-- The request is on the stream, and the server of the peer has not read it yet. -/
  | written (out : OutRpc R)
  /-- The server of the peer has put the request on its `in_rpc_tx`. -/
  | passed (out : OutRpc R)
  | answered (out : OutRpc R) (reply : Reply R)
  /-- `?` has ended the loop in this exchange. What is on the stream may still be read. -/
  | stopped (out : OutRpc R) (unread : Bool)
  deriving DecidableEq

/-- `RaftNodeServer`. `inRpc` keeps everything since the start, oldest first, and the two
counters say how much has been received from `outRpc` and from `inRpc`. -/
structure Server (S R : Type) where
  machine : Machine S R
  forwarder : Forwarder R := .idle
  forwarded : Nat := 0
  inRpc : List (PeerRpc R × Sender) := []
  taken : Nat := 0

inductive ServerAction (R : Type) where
  /-- A step of the node that no other node has a part in. -/
  | machine (action : Action R)
  /-- The main loop receives the next request from `in_rpc_rx`. -/
  | select
  /-- The forwarder receives the next message and writes its request to the peer. -/
  | connect
  /-- The forwarder receives the next message, and finds no address or no server for it. -/
  | refuse
  /-- The server of the peer reads the request. -/
  | read
  /-- The forwarder reads the response and sends it to the task. -/
  | respond
  /-- The stream ends before the response. -/
  | hangUp
  /-- The task finds that its sender was dropped with the forwarder. -/
  | drop

/-- `PeerRpc` with the channel that the server of the peer has made for the response. -/
def PeerRpc.event (rpc : PeerRpc R) (responseTx : Sender) : Event R :=
  match rpc with
  | .requestVote request => .requestVote request responseTx
  | .appendEntries request => .appendEntries request responseTx

def OutRpc.received (i : NodeId) (out : OutRpc R) : PeerRpc R × Sender :=
  (out.rpc, ⟨i, out.task, false⟩)

/-- What the response of a peer does to the task that waits for it. -/
def Reply.answer (task : Nat) : Reply R → Option (Action R)
  | .requestVote _ answer => some (.answerVote task answer.response)
  | .appendEntries _ _ response => some (.answerAppend task response)
  | .client _ _ => none

/-- The node alone, its timers, its clients and the signal to shut down. -/
def Action.internal : Action R → Bool
  | .event (.requestVote _ _) | .event (.appendEntries _ _) | .event .unimplementedRpc => false
  | .event (.clientRequest _ responseTx) => !responseTx.closed
  | .answerVote _ _ | .answerAppend _ _ | .lose _ => false
  | _ => true

/-- The response goes back on the stream on which the request came. -/
def Server.hear [DecidableEq R] (i peer : NodeId) (s : Server S R) (reply : Reply R) :
    Server S R :=
  match s.forwarder with
  | .passed out =>
    if out.peer = peer ∧ reply.answered = some (out.received i) then
      { s with forwarder := .answered out reply }
    else s
  | _ => s

/-- What the node does in a step of its server, if anything. -/
def Server.underlying [State S R] (s : Server S R) : ServerAction R → Option (Action R)
  | .machine action => some action
  | .select => (s.inRpc[s.taken]?).map fun (rpc, responseTx) => .event (rpc.event responseTx)
  | .respond =>
    match s.forwarder with
    | .answered out reply =>
      (reply.answer out.task).filter fun action => (s.machine.step action).isSome
    | _ => none
  | .drop =>
    match s.forwarder with
    | .stopped out _ => some (.lose out.task)
    | _ => none
  | .connect | .refuse | .read | .hangUp => none

abbrev ServedCluster (S R : Type) := NodeId → Server S R

namespace ServedCluster

def machines (c : ServedCluster S R) : Cluster S R := fun i => (c i).machine

def set (c : ServedCluster S R) (i : NodeId) (s : Server S R) : ServedCluster S R :=
  fun j => if j = i then s else c j

/-- The server of the peer has read a request. -/
def pass (c : ServedCluster S R) (peer : NodeId) (received : PeerRpc R × Sender) :
    ServedCluster S R :=
  c.set peer { c peer with inRpc := (c peer).inRpc ++ [received] }

variable [DecidableEq R]

/-- The node has taken a step, and what it has replied is on the streams. -/
def advance (c : ServedCluster S R) (i : NodeId) (m : Machine S R) : ServedCluster S R :=
  fun j => (m.replies.drop (c i).machine.replies.length).foldl (Server.hear j i)
    (c.set i { c i with machine := m } j)

variable [State S R]

def stepServer (c : ServedCluster S R) (i : NodeId) : ServerAction R → Option (ServedCluster S R)
  | .machine action =>
    if action.internal then ((c i).machine.step action).map (c.advance i) else none
  | .select => do
    let (rpc, responseTx) ← (c i).inRpc[(c i).taken]?
    let machine ← (c i).machine.step (.event (rpc.event responseTx))
    some (c.set i { c i with machine, taken := (c i).taken + 1 })
  | .connect =>
    match (c i).forwarder with
    | .idle => do
      let out ← (c i).machine.outRpc[(c i).forwarded]?
      if out.peer ∈ (State.getMembership (c i).machine.node.state).ids then
        some (c.set i { c i with forwarder := .written out, forwarded := (c i).forwarded + 1 })
      else none
    | _ => none
  | .refuse =>
    match (c i).forwarder with
    | .idle => do
      let out ← (c i).machine.outRpc[(c i).forwarded]?
      some (c.set i { c i with
        forwarder := .stopped out false, forwarded := (c i).forwarded + 1 })
    | _ => none
  | .read =>
    match (c i).forwarder with
    | .written out =>
      some ((c.set i { c i with forwarder := .passed out }).pass out.peer (out.received i))
    | .stopped out true =>
      some ((c.set i { c i with forwarder := .stopped out false }).pass out.peer (out.received i))
    | _ => none
  | .respond =>
    match (c i).forwarder with
    | .answered out reply => do
      let action ← reply.answer out.task
      match (c i).machine.step action with
      | some machine => some (c.set i { c i with machine, forwarder := .idle })
      | none => some (c.set i { c i with forwarder := .stopped out false })
    | _ => none
  | .hangUp =>
    match (c i).forwarder with
    | .written out => some (c.set i { c i with forwarder := .stopped out true })
    | .passed out | .answered out _ => some (c.set i { c i with forwarder := .stopped out false })
    | _ => none
  | .drop =>
    match (c i).forwarder with
    | .stopped out _ => do
      let machine ← (c i).machine.step (.lose out.task)
      some (c.set i { c i with machine })
    | _ => none

def step (members : MembershipMap) (c : ServedCluster S R) (i : NodeId)
    (action : ServerAction R) : Option (ServedCluster S R) :=
  if i ∈ members.ids then c.stepServer i action else none

/-- The steps all of whose actions are allowed at the node that takes them. -/
def Next (members : MembershipMap) (Allowed : Machine S R → Action R → Prop)
    (c c' : ServedCluster S R) : Prop :=
  ∃ i action, (∀ own ∈ (c i).underlying action, Allowed (c i).machine own) ∧
    c.step members i action = some c'

def Runs (members : MembershipMap) (Allowed : Machine S R → Action R → Prop) :
    ServedCluster S R → ServedCluster S R → Prop :=
  Relation.ReflTransGen (Next members Allowed)

def run (members : MembershipMap) (c : ServedCluster S R) :
    List (NodeId × ServerAction R) → Option (ServedCluster S R) :=
  List.foldlM (fun c (i, action) => c.step members i action) c

omit [DecidableEq R] in
/-- Every server has just been started around a node that has just been built. -/
def Initial (members : MembershipMap) (c : ServedCluster S R) : Prop :=
  Cluster.Initial members c.machines ∧ ∀ i, c i = { machine := (c i).machine }

omit [DecidableEq R] [State S R] in
@[simp] theorem set_self (c : ServedCluster S R) (i : NodeId) (s : Server S R) :
    c.set i s i = s := if_pos rfl

omit [DecidableEq R] [State S R] in
theorem set_of_ne (c : ServedCluster S R) {i j : NodeId} (s : Server S R) (h : j ≠ i) :
    c.set i s j = c j := if_neg h

/-- What a step of the server of node `i` does. -/
inductive Stepped (c : ServedCluster S R) (i : NodeId) : ServerAction R → ServedCluster S R → Prop
  | machine {action : Action R} {m : Machine S R} (hInternal : action.internal = true)
      (hStep : (c i).machine.step action = some m) : Stepped c i (.machine action) (c.advance i m)
  | select {rpc : PeerRpc R} {responseTx : Sender} {m : Machine S R}
      (hNext : (c i).inRpc[(c i).taken]? = some (rpc, responseTx))
      (hStep : (c i).machine.step (.event (rpc.event responseTx)) = some m) :
      Stepped c i .select (c.set i { c i with machine := m, taken := (c i).taken + 1 })
  | connect {out : OutRpc R} (hIdle : (c i).forwarder = .idle)
      (hOut : (c i).machine.outRpc[(c i).forwarded]? = some out) :
      Stepped c i .connect
        (c.set i { c i with forwarder := .written out, forwarded := (c i).forwarded + 1 })
  | refuse {out : OutRpc R} (hIdle : (c i).forwarder = .idle)
      (hOut : (c i).machine.outRpc[(c i).forwarded]? = some out) :
      Stepped c i .refuse
        (c.set i { c i with forwarder := .stopped out false, forwarded := (c i).forwarded + 1 })
  | read {out : OutRpc R} {forwarder : Forwarder R}
      (hRead : ((c i).forwarder = .written out ∧ forwarder = .passed out) ∨
        ((c i).forwarder = .stopped out true ∧ forwarder = .stopped out false)) :
      Stepped c i .read ((c.set i { c i with forwarder }).pass out.peer (out.received i))
  | respond {out : OutRpc R} {reply : Reply R} {action : Action R} {m : Machine S R}
      (hAnswered : (c i).forwarder = .answered out reply)
      (hAnswer : reply.answer out.task = some action)
      (hStep : (c i).machine.step action = some m) :
      Stepped c i .respond (c.set i { c i with machine := m, forwarder := .idle })
  | unheard {out : OutRpc R} {reply : Reply R} {action : Action R}
      (hAnswered : (c i).forwarder = .answered out reply)
      (hAnswer : reply.answer out.task = some action)
      (hStep : (c i).machine.step action = none) :
      Stepped c i .respond (c.set i { c i with forwarder := .stopped out false })
  | hangUp {out : OutRpc R} {unread : Bool}
      (hOpen : ((c i).forwarder = .written out ∧ unread = true) ∨
        (((c i).forwarder = .passed out ∨ ∃ reply, (c i).forwarder = .answered out reply) ∧
          unread = false)) :
      Stepped c i .hangUp (c.set i { c i with forwarder := .stopped out unread })
  | drop {out : OutRpc R} {unread : Bool} {m : Machine S R}
      (hStopped : (c i).forwarder = .stopped out unread)
      (hStep : (c i).machine.step (.lose out.task) = some m) :
      Stepped c i .drop (c.set i { c i with machine := m })

theorem stepServer_cases {c c' : ServedCluster S R} {i : NodeId} {action : ServerAction R}
    (h : c.stepServer i action = some c') : Stepped c i action c' := by
  cases action with
  | machine action =>
    simp only [stepServer] at h
    split_ifs at h with hInternal
    obtain ⟨m, hStep, rfl⟩ := Option.map_eq_some_iff.mp h
    exact Stepped.machine hInternal hStep
  | select =>
    obtain ⟨⟨rpc, responseTx⟩, hNext, h⟩ := Option.bind_eq_some_iff.mp h
    obtain ⟨m, hStep, h⟩ := Option.bind_eq_some_iff.mp h
    cases h
    exact Stepped.select hNext hStep
  | connect =>
    simp only [stepServer] at h
    split at h
    · rename_i hIdle
      obtain ⟨out, hOut, h⟩ := Option.bind_eq_some_iff.mp h
      obtain ⟨_, h⟩ := Option.ite_none_right_eq_some.mp h
      cases h
      exact Stepped.connect hIdle hOut
    · cases h
  | refuse =>
    simp only [stepServer] at h
    split at h
    · rename_i hIdle
      obtain ⟨out, hOut, h⟩ := Option.bind_eq_some_iff.mp h
      cases h
      exact Stepped.refuse hIdle hOut
    · cases h
  | read =>
    simp only [stepServer] at h
    split at h
    · rename_i hWritten
      cases h
      exact Stepped.read (Or.inl ⟨hWritten, rfl⟩)
    · rename_i hStopped
      cases h
      exact Stepped.read (Or.inr ⟨hStopped, rfl⟩)
    · cases h
  | respond =>
    simp only [stepServer] at h
    split at h
    · rename_i hAnswered
      obtain ⟨action, hAnswer, h⟩ := Option.bind_eq_some_iff.mp h
      split at h
      · rename_i hStep
        cases h
        exact Stepped.respond hAnswered hAnswer hStep
      · rename_i hStep
        cases h
        exact Stepped.unheard hAnswered hAnswer hStep
    · cases h
  | hangUp =>
    simp only [stepServer] at h
    split at h
    · rename_i hWritten
      cases h
      exact Stepped.hangUp (Or.inl ⟨hWritten, rfl⟩)
    · rename_i hPassed
      cases h
      exact Stepped.hangUp (Or.inr ⟨Or.inl hPassed, rfl⟩)
    · rename_i hAnswered
      cases h
      exact Stepped.hangUp (Or.inr ⟨Or.inr ⟨_, hAnswered⟩, rfl⟩)
    · cases h
  | drop =>
    simp only [stepServer] at h
    split at h
    · rename_i hStopped
      obtain ⟨m, hStep, h⟩ := Option.bind_eq_some_iff.mp h
      cases h
      exact Stepped.drop hStopped hStep
    · cases h

theorem runs_of_run {members : MembershipMap} {c c' : ServedCluster S R}
    {actions : List (NodeId × ServerAction R)} (h : c.run members actions = some c') :
    Runs members (fun _ _ => True) c c' := by
  induction actions generalizing c with
  | nil =>
    cases h
    exact Relation.ReflTransGen.refl
  | cons first rest ih =>
    obtain ⟨c₁, hFirst, hRest⟩ := Option.bind_eq_some_iff.mp h
    exact Relation.ReflTransGen.head ⟨_, _, fun _ _ => trivial, hFirst⟩ (ih hRest)

/-- A run found by evaluation. -/
theorem exists_of_run {members : MembershipMap} {c : ServedCluster S R}
    {actions : List (NodeId × ServerAction R)} {p : ServedCluster S R → Bool}
    (h : (c.run members actions).map p = some true) :
    ∃ c', Runs members (fun _ _ => True) c c' ∧ p c' = true := by
  obtain ⟨c', hRun, hp⟩ := Option.map_eq_some_iff.mp h
  exact ⟨c', runs_of_run hRun, hp⟩

end ServedCluster

section Hearing

/-- What the replies of a peer change of a server. -/
structure Server.Heard (i peer : NodeId) (replies : List (Reply R)) (s s' : Server S R) :
    Prop where
  machine : s'.machine = s.machine
  forwarded : s'.forwarded = s.forwarded
  inRpc : s'.inRpc = s.inRpc
  taken : s'.taken = s.taken
  forwarder : s'.forwarder = s.forwarder ∨ ∃ out reply, s.forwarder = .passed out ∧
    s'.forwarder = .answered out reply ∧ out.peer = peer ∧ reply ∈ replies ∧
    reply.answered = some (out.received i)

variable [DecidableEq R] {i peer : NodeId} {s : Server S R}

/-- The reply to another request is not heard. -/
theorem Server.hear_of_not_answered {reply : Reply R} (h : ∀ out, s.forwarder = .passed out →
    ¬ (out.peer = peer ∧ reply.answered = some (out.received i))) : s.hear i peer reply = s := by
  unfold Server.hear
  split
  · exact if_neg (h _ ‹_›)
  · rfl

theorem Server.hear_of_not_passed {reply : Reply R} (h : ∀ out, s.forwarder ≠ .passed out) :
    s.hear i peer reply = s :=
  Server.hear_of_not_answered fun out hPassed => absurd hPassed (h out)

theorem Server.foldl_hear_of_not_passed (replies : List (Reply R))
    (h : ∀ out, s.forwarder ≠ .passed out) : replies.foldl (Server.hear i peer) s = s := by
  induction replies with
  | nil => rfl
  | cons reply rest ih =>
    rw [List.foldl_cons, Server.hear_of_not_passed h, ih]

/-- The reply to the request on the stream is heard. -/
theorem Server.hear_answered {out : OutRpc R} {reply : Reply R}
    (hPassed : s.forwarder = .passed out) (hPeer : out.peer = peer)
    (hReply : reply.answered = some (out.received i)) :
    s.hear i peer reply = { s with forwarder := .answered out reply } := by
  unfold Server.hear
  rw [hPassed]
  exact if_pos ⟨hPeer, hReply⟩

theorem Server.heard (replies : List (Reply R)) :
    Server.Heard i peer replies s (replies.foldl (Server.hear i peer) s) := by
  induction replies with
  | nil => exact ⟨rfl, rfl, rfl, rfl, Or.inl rfl⟩
  | cons reply rest ih =>
    have hLater : Server.Heard i peer (reply :: rest) s (rest.foldl (Server.hear i peer) s) := by
      refine ⟨ih.machine, ih.forwarded, ih.inRpc, ih.taken, ih.forwarder.imp_right ?_⟩
      rintro ⟨out, later, hPassed, hAnswered, hPeer, hMem, hSame⟩
      exact ⟨out, later, hPassed, hAnswered, hPeer, List.mem_cons_of_mem _ hMem, hSame⟩
    rw [List.foldl_cons]
    cases hForwarder : s.forwarder with
    | passed out =>
      by_cases hReply : out.peer = peer ∧ reply.answered = some (out.received i)
      · rw [Server.hear_answered hForwarder hReply.1 hReply.2,
          Server.foldl_hear_of_not_passed _ fun _ h => (by cases h)]
        exact ⟨rfl, rfl, rfl, rfl, Or.inr ⟨out, reply, hForwarder, rfl, hReply.1,
          List.mem_cons_self, hReply.2⟩⟩
      · rwa [Server.hear_of_not_answered fun out' hPassed => ?_]
        cases hForwarder.symm.trans hPassed
        exact hReply
    | _ =>
      rw [Server.hear_of_not_passed (by rw [hForwarder]; exact nofun)]
      exact hLater

theorem ServedCluster.heard_advance (c : ServedCluster S R) (i : NodeId) (m : Machine S R)
    (j : NodeId) : Server.Heard j i (m.replies.drop (c i).machine.replies.length)
      (c.set i { c i with machine := m } j) (c.advance i m j) :=
  Server.heard _

end Hearing

end Zeroraft
