import Zeroraft.Library.Provenance
import Zeroraft.Properties.Lifecycle
import Zeroraft.Properties.TermMonotonicity
import Zeroraft.Runtime.Servers

/-!
# What the servers do for a cluster

A cluster of served nodes is a cluster. Its servers pass on the requests of every node in the
order in which they were sent, each once, and have at most one of them in hand at a time.
-/

namespace Zeroraft

variable {S R : Type}

section Names

/-- The node that the response names. -/
def Main.responder : Main R → Option NodeId
  | .requestVote _ _ _ (.send response) => some response.id
  | .appendEntries _ _ _ (.send response) => some response.id
  | _ => none

def Reply.responder : Reply R → Option NodeId
  | .requestVote _ answer => some answer.response.id
  | .appendEntries _ _ response => some response.id
  | .client _ _ => none

/-- The responses of the node name it. -/
structure Named (i : NodeId) (m : Machine S R) : Prop where
  id : m.node.id = i
  main : ∀ responder ∈ m.main.responder, responder = i
  replies : ∀ reply ∈ m.replies, ∀ responder ∈ reply.responder, responder = i

variable [State S R] {m m' : Machine S R} {action : Action R} {i : NodeId}

theorem RequestVotePc.Edge.responder {ourId : NodeId} {request : RequestVoteRequest}
    {node : RaftNode S} {pc pc' : RequestVotePc} (h : pc.Edge ourId request node pc')
    (role : RoleLoop) (responseTx : Sender) :
    ∀ responder ∈ (Main.requestVote (R := R) role request responseTx pc').responder,
      responder = ourId := by
  cases h <;> rintro _ ⟨⟩ <;> rfl

theorem AppendEntriesPc.Edge.responder {ourId : NodeId} {request : AppendEntriesRequest R}
    {node : RaftNode S} {pc pc' : AppendEntriesPc} (h : pc.Edge ourId request node pc')
    (role : RoleLoop) (responseTx : Sender) :
    ∀ responder ∈ (Main.appendEntries role request responseTx pc').responder,
      responder = ourId := by
  cases h <;> rintro _ ⟨⟩ <;> rfl

theorem MainStepped.responder (h : MainStepped m m') :
    ∀ responder ∈ m'.main.responder, responder = m.node.id := by
  cases h with
  | requestVote _ hEdge _ => exact hEdge.responder _ _
  | appendEntries _ hEdge _ => exact hEdge.responder _ _
  | leave _ _ =>
    rw [RoleLoop.leave_main]
    exact nofun
  | _ => exact nofun

theorem MainStepped.node_id (h : MainStepped m m') : m'.node.id = m.node.id := by
  cases h with
  | @requestVote role request responseTx pc pc' _ _ =>
    obtain ⟨state, _, hNode⟩ := RequestVotePc.step_node m.node.id responseTx m.node request pc
    rw [hNode]
    cases pc <;> rfl
  | @appendEntries role request responseTx pc pc' _ _ =>
    obtain ⟨state, _, hNode⟩ := AppendEntriesPc.step_node m.node.id responseTx m.node request pc
    rw [hNode]
    cases pc <;> rfl
  | leave _ _ => rw [RoleLoop.leave_node]
  | _ => rfl

theorem step_id (hStep : m.step action = some m') : m'.node.id = m.node.id := by
  cases step_cases hStep with
  | main h => exact h.node_id
  | select _ h => rw [h.node]
  | vote _ h | replicate _ h =>
    cases h.frame.writes with
    | state _ hNode | term _ _ hNode | role _ hNode =>
      exact (congrArg RaftNode.id hNode :)
  | recv _ _ h =>
    obtain ⟨voteSessions, rfl⟩ := h.frame
    rfl
  | overrun h =>
    obtain ⟨votedFor, rfl⟩ := h.frame
    rfl
  | answerVote _ | environment _ _ => rfl

theorem step_responder (hStep : m.step action = some m') (h : Named i m) :
    ∀ responder ∈ m'.main.responder, responder = i := by
  cases step_cases hStep with
  | main hMain => exact fun responder hMem => (hMain.responder responder hMem).trans h.id
  | select _ hSelect => cases hSelect <;> exact nofun
  | vote _ hTask | replicate _ hTask => exact hTask.frame.main ▸ h.main
  | recv _ _ hRecv =>
    obtain ⟨voteSessions, rfl⟩ := hRecv.frame
    exact h.main
  | overrun _ => exact nofun
  | answerVote _ | environment _ _ => exact h.main

omit [State S R] in
theorem Replied.responder {reply : Reply R} (h : Replied m reply) :
    reply.responder = m.main.responder := by
  cases h with
  | requestVote hMain | appendEntries hMain | client hMain _ =>
    rw [hMain]
    rfl

theorem step_named (hStep : m.step action = some m') (h : Named i m) : Named i m' where
  id := (step_id hStep).trans h.id
  main := step_responder hStep h
  replies := by
    intro reply hReply
    rcases step_replies hStep with hSame | ⟨_, _, last, hLast, hNew⟩
    · exact h.replies reply (hSame ▸ hReply)
    · rw [hNew] at hReply
      rcases List.mem_append.mp hReply with hOld | hMem
      · exact h.replies reply hOld
      · rw [List.mem_singleton.mp hMem, hLast.responder]
        exact h.main

end Names

section Order

/-- The request was made by a task of the node. -/
def askedBy (i : NodeId) (received : PeerRpc R × Sender) : Bool := received.2.node = i

/-- How far the forwarder is with the messages: `n` of them have been read by their peers. -/
def Forwarder.Fits (outRpc : List (OutRpc R)) (n forwarded : Nat) : Forwarder R → Prop
  | .idle | .passed _ | .answered _ _ => forwarded = n
  | .written out | .stopped out true => forwarded = n + 1 ∧ outRpc[n]? = some out
  | .stopped _ false => n ≤ forwarded ∧ forwarded ≤ n + 1

/-- The servers have put the first `n` requests of the node on the channels of its peers, each
once and in order. -/
structure InOrder (c : ServedCluster S R) (i : NodeId) (n : Nat) : Prop where
  sent : (c i).forwarded ≤ (c i).machine.outRpc.length
  fits : (c i).forwarder.Fits (c i).machine.outRpc n (c i).forwarded
  arrived : ∀ peer, (c peer).inRpc.filter (askedBy i) =
    (((c i).machine.outRpc.take n).filter (·.peer = peer)).map (OutRpc.received i)

variable {c c' : ServedCluster S R} {i : NodeId} {n : Nat}

theorem Forwarder.Fits.le {forwarder : Forwarder R} {outRpc : List (OutRpc R)} {forwarded : Nat}
    (h : forwarder.Fits outRpc n forwarded) : n ≤ forwarded ∧ forwarded ≤ n + 1 := by
  cases forwarder with
  | idle | passed _ | answered _ _ =>
    obtain rfl : forwarded = n := h
    exact ⟨Nat.le_refl _, Nat.le_succ _⟩
  | written _ =>
    obtain ⟨rfl, _⟩ := h
    exact ⟨Nat.le_succ _, Nat.le_refl _⟩
  | stopped _ unread =>
    cases unread with
    | true =>
      obtain ⟨rfl, _⟩ := h
      exact ⟨Nat.le_succ _, Nat.le_refl _⟩
    | false => exact h

theorem Forwarder.Fits.mono {forwarder : Forwarder R} {outRpc outRpc' : List (OutRpc R)}
    {forwarded : Nat} (h : forwarder.Fits outRpc n forwarded) (hPrefix : outRpc <+: outRpc') :
    forwarder.Fits outRpc' n forwarded := by
  have hLater : ∀ out, outRpc[n]? = some out → outRpc'[n]? = some out := by
    intro out hOut
    obtain ⟨rest, rfl⟩ := hPrefix
    rw [List.getElem?_append_left (List.getElem?_eq_some_iff.mp hOut).1, hOut]
  cases forwarder with
  | idle | passed _ | answered _ _ => exact h
  | written out => exact ⟨h.1, hLater out h.2⟩
  | stopped out unread =>
    cases unread with
    | true => exact ⟨h.1, hLater out h.2⟩
    | false => exact h

theorem InOrder.frame (h : InOrder c i n) (hOut : (c i).machine.outRpc <+: (c' i).machine.outRpc)
    (hForwarded : (c' i).forwarded = (c i).forwarded)
    (hFits : (c' i).forwarder.Fits (c i).machine.outRpc n (c i).forwarded)
    (hArrived : ∀ peer, (c' peer).inRpc.filter (askedBy i) = (c peer).inRpc.filter (askedBy i)) :
    InOrder c' i n where
  sent := hForwarded ▸ h.sent.trans hOut.length_le
  fits := hForwarded ▸ hFits.mono hOut
  arrived := by
    intro peer
    have hTake : n ≤ (c i).machine.outRpc.length := h.fits.le.1.trans h.sent
    obtain ⟨rest, hRest⟩ := hOut
    rw [hArrived, h.arrived, ← hRest, List.take_append_of_le_length hTake]

theorem InOrder.set {k : NodeId} {s : Server S R} (h : InOrder c i n)
    (hOut : (c k).machine.outRpc <+: s.machine.outRpc) (hForwarded : s.forwarded = (c k).forwarded)
    (hInRpc : s.inRpc = (c k).inRpc)
    (hFits : (c k).forwarder.Fits (c k).machine.outRpc n (c k).forwarded →
      s.forwarder.Fits (c k).machine.outRpc n (c k).forwarded) : InOrder (c.set k s) i n := by
  have hArrived : ∀ peer, ((c.set k s) peer).inRpc.filter (askedBy i) =
      (c peer).inRpc.filter (askedBy i) := by
    intro peer
    by_cases hPeer : peer = k
    · rw [hPeer, ServedCluster.set_self, hInRpc]
    · rw [ServedCluster.set_of_ne _ _ hPeer]
  by_cases hik : i = k
  · subst hik
    refine h.frame ?_ ?_ ?_ hArrived <;> rw [ServedCluster.set_self]
    · exact hOut
    · exact hForwarded
    · exact hFits h.fits
  · refine h.frame ?_ ?_ ?_ hArrived
    · simp only [ServedCluster.set_of_ne _ _ hik, List.prefix_rfl]
    · rw [ServedCluster.set_of_ne _ _ hik]
    · rw [ServedCluster.set_of_ne _ _ hik]
      exact h.fits

/-- The steps of other forwarders do not matter. -/
theorem InOrder.set_other {k : NodeId} {s : Server S R} (h : InOrder c i n) (hNe : i ≠ k)
    (hInRpc : s.inRpc = (c k).inRpc) : InOrder (c.set k s) i n := by
  refine h.frame ?_ ?_ ?_ fun peer => ?_
  · simp only [ServedCluster.set_of_ne _ _ hNe, List.prefix_rfl]
  · rw [ServedCluster.set_of_ne _ _ hNe]
  · rw [ServedCluster.set_of_ne _ _ hNe]
    exact h.fits
  · by_cases hPeer : peer = k
    · rw [hPeer, ServedCluster.set_self, hInRpc]
    · rw [ServedCluster.set_of_ne _ _ hPeer]

theorem ServedCluster.pass_apply (c : ServedCluster S R) (peer : NodeId)
    (received : PeerRpc R × Sender) (j : NodeId) : c.pass peer received j =
      { c j with inRpc := (c j).inRpc ++ if j = peer then [received] else [] } := by
  unfold ServedCluster.pass
  by_cases hPeer : j = peer
  · rw [hPeer, ServedCluster.set_self, if_pos rfl]
  · rw [ServedCluster.set_of_ne _ _ hPeer, if_neg hPeer, List.append_nil]

theorem filter_askedBy_received (i k : NodeId) (out : OutRpc R) :
    [out.received k].filter (askedBy i) = if i = k then [out.received i] else [] := by
  by_cases hik : i = k
  · subst hik
    rw [if_pos rfl]
    exact List.filter_cons_of_pos (decide_eq_true rfl)
  · rw [if_neg hik]
    exact List.filter_cons_of_neg fun hAsked => hik (of_decide_eq_true hAsked).symm

theorem InOrder.pass_other {k peer : NodeId} {out : OutRpc R} (h : InOrder c i n) (hNe : i ≠ k) :
    InOrder (c.pass peer (out.received k)) i n := by
  refine h.frame ?_ ?_ ?_ fun j => ?_
  · simp only [ServedCluster.pass_apply, List.prefix_rfl]
  · rw [ServedCluster.pass_apply]
  · rw [ServedCluster.pass_apply]
    exact h.fits
  · rw [ServedCluster.pass_apply]
    dsimp only
    split_ifs
    · rw [List.filter_append, filter_askedBy_received, if_neg hNe, List.append_nil]
    · rw [List.append_nil]

/-- The next request of the node has been read by its peer. -/
theorem InOrder.pass {out : OutRpc R} {forwarder : Forwarder R} (h : InOrder c i n)
    (hOut : (c i).machine.outRpc[n]? = some out) (hForwarded : (c i).forwarded = n + 1)
    (hFits : forwarder.Fits (c i).machine.outRpc (n + 1) (n + 1)) :
    InOrder ((c.set i { c i with forwarder }).pass out.peer (out.received i)) i (n + 1) where
  sent := by
    rw [ServedCluster.pass_apply, ServedCluster.set_self]
    exact h.sent
  fits := by
    rw [ServedCluster.pass_apply, ServedCluster.set_self]
    exact hForwarded ▸ hFits
  arrived := by
    intro peer
    have hOld : ((c.set i { c i with forwarder }) peer).inRpc = (c peer).inRpc := by
      by_cases hPeer : peer = i
      · rw [hPeer, ServedCluster.set_self]
      · rw [ServedCluster.set_of_ne _ _ hPeer]
    have hTake : (c i).machine.outRpc.take (n + 1) = (c i).machine.outRpc.take n ++ [out] := by
      rw [List.take_add_one, hOut, Option.toList_some]
    rw [ServedCluster.pass_apply, ServedCluster.pass_apply, ServedCluster.set_self]
    dsimp only
    rw [List.filter_append, hOld, h.arrived, hTake, List.filter_append, List.map_append]
    congr 1
    by_cases hPeer : peer = out.peer
    · subst hPeer
      rw [if_pos rfl, filter_askedBy_received, if_pos rfl, List.filter_singleton,
        decide_eq_true rfl]
      rfl
    · rw [if_neg hPeer, List.filter_singleton, decide_eq_false (Ne.symm hPeer)]
      rfl

theorem InOrder.heard {peer : NodeId} {replies : List (Reply R)} (h : InOrder c i n)
    (hHeard : ∀ j, Server.Heard j peer replies (c j) (c' j)) : InOrder c' i n := by
  refine h.frame ?_ (hHeard i).forwarded ?_ fun j => by rw [(hHeard j).inRpc]
  · simp only [(hHeard i).machine, List.prefix_rfl]
  · rcases (hHeard i).forwarder with hSame | ⟨out, reply, hPassed, hAnswered, _⟩
    · exact hSame ▸ h.fits
    · have hFits := h.fits
      rw [hPassed] at hFits
      rw [hAnswered]
      exact hFits

variable [DecidableEq R] [State S R]

theorem step_inOrder {k : NodeId} {action : ServerAction R}
    (hStep : ServedCluster.Stepped c k action c') (h : InOrder c i n) : ∃ n', InOrder c' i n' := by
  cases hStep with
  | @machine _ m _ hStep =>
    have hSet : InOrder (c.set k { c k with machine := m }) i n :=
      h.set (step_grows hStep).outRpc rfl rfl id
    exact ⟨n, hSet.heard (c.heard_advance k m)⟩
  | select _ hStep => exact ⟨n, h.set (step_grows hStep).outRpc rfl rfl id⟩
  | connect hIdle hOut | refuse hIdle hOut =>
    refine ⟨n, ?_⟩
    by_cases hik : i = k
    · subst hik
      have hFits := h.fits
      rw [hIdle] at hFits
      obtain rfl : (c i).forwarded = n := hFits
      have hLength := (List.getElem?_eq_some_iff.mp hOut).1
      constructor
      · rw [ServedCluster.set_self]
        exact hLength
      · rw [ServedCluster.set_self]
        first
        | exact ⟨rfl, hOut⟩
        | exact ⟨Nat.le_succ _, Nat.le_refl _⟩
      · intro peer
        rw [ServedCluster.set_self, ← h.arrived]
        by_cases hPeer : peer = i
        · rw [hPeer, ServedCluster.set_self]
        · rw [ServedCluster.set_of_ne _ _ hPeer]
    · exact h.set_other hik rfl
  | @read _ forwarder hRead =>
    by_cases hik : i = k
    · subst hik
      have hFits := h.fits
      refine ⟨n + 1, ?_⟩
      rcases hRead with ⟨hWritten, rfl⟩ | ⟨hWritten, rfl⟩ <;> rw [hWritten] at hFits
      · exact h.pass hFits.2 hFits.1 rfl
      · exact h.pass hFits.2 hFits.1 ⟨Nat.le_refl _, Nat.le_succ _⟩
    · exact ⟨n, InOrder.pass_other (InOrder.set_other h hik rfl) hik⟩
  | respond hAnswered _ hStep =>
    refine ⟨n, h.set (step_grows hStep).outRpc rfl rfl ?_⟩
    rw [hAnswered]
    exact id
  | unheard _ _ _ => exact ⟨n, h.set List.prefix_rfl rfl rfl Forwarder.Fits.le⟩
  | hangUp hOpen =>
    refine ⟨n, h.set List.prefix_rfl rfl rfl ?_⟩
    rcases hOpen with ⟨hWritten, rfl⟩ | ⟨_, rfl⟩
    · rw [hWritten]
      exact id
    · exact Forwarder.Fits.le
  | drop _ hStep => exact ⟨n, h.set (step_grows hStep).outRpc rfl rfl id⟩

end Order

section InHand

def Forwarder.busyWith : Forwarder R → Option (OutRpc R)
  | .passed out | .stopped out false => some out
  | .idle | .written _ | .answered _ _ | .stopped _ true => none

/-- The requests that the node has got from its server and not answered. -/
def Server.pending (s : Server S R) : List (PeerRpc R × Sender) :=
  s.machine.main.handling.toList ++ s.inRpc.drop s.taken

/-- No peer has a request of the node in hand but the one that its forwarder waits for, or has
waited for when it stopped. -/
def OneInHand (c : ServedCluster S R) (i : NodeId) : Prop :=
  ∀ peer, (c peer).pending.filter (askedBy i) = [] ∨
    ∃ out, (c i).forwarder.busyWith = some out ∧ out.peer = peer ∧
      (c peer).pending.filter (askedBy i) = [out.received i]

variable {c c' : ServedCluster S R} {i : NodeId}

theorem OneInHand.empty (h : OneInHand c i) (hIdle : (c i).forwarder.busyWith = none)
    (peer : NodeId) : (c peer).pending.filter (askedBy i) = [] := by
  rcases h peer with hNone | ⟨out, hBusy, _⟩
  · exact hNone
  · cases hIdle.symm.trans hBusy

theorem OneInHand.frame (h : OneInHand c i)
    (hPending : ∀ peer, (c' peer).pending.Sublist (c peer).pending)
    (hForwarder : ∀ out, (c i).forwarder.busyWith = some out →
      (c' i).forwarder.busyWith = some out ∨ (c' out.peer).pending.filter (askedBy i) = []) :
    OneInHand c' i := by
  intro peer
  have hSublist := (hPending peer).filter (askedBy i)
  rcases h peer with hNone | ⟨out, hBusy, rfl, hOne⟩
  · left
    rw [hNone] at hSublist
    exact List.sublist_nil.mp hSublist
  · rw [hOne] at hSublist
    rcases List.sublist_singleton.mp hSublist with hNone | hSame
    · exact Or.inl hNone
    · rcases hForwarder out hBusy with hStill | hAnswered
      · exact Or.inr ⟨out, hStill, rfl, hSame⟩
      · exact Or.inl hAnswered

theorem pending_sublist {s s' : Server S R} (hInRpc : s'.inRpc = s.inRpc)
    (hTaken : s'.taken = s.taken) (hHandling : ∀ received,
      s'.machine.main.handling = some received → s.machine.main.handling = some received) :
    s'.pending.Sublist s.pending := by
  unfold Server.pending
  rw [hInRpc, hTaken]
  refine List.Sublist.append ?_ (List.Sublist.refl _)
  cases hNew : s'.machine.main.handling with
  | none => exact List.nil_sublist _
  | some received => rw [hHandling received hNew]

theorem Action.delivers_of_internal {action : Action R} (h : action.internal = true) :
    action.delivers = none := by
  cases action with
  | event event =>
    cases event with
    | requestVote _ _ | appendEntries _ _ => cases h
    | _ => rfl
  | _ => rfl

theorem Action.delivers_of_answer {reply : Reply R} {task : Nat} {action : Action R}
    (h : reply.answer task = some action) : action.delivers = none := by
  cases reply <;> cases h <;> rfl

theorem pending_filter_of_handling {s : Server S R} {received : PeerRpc R × Sender}
    {out : OutRpc R} (hHandling : s.machine.main.handling = some received)
    (hAsked : askedBy i received = true)
    (hOne : s.pending.filter (askedBy i) = [out.received i]) :
    (s.inRpc.drop s.taken).filter (askedBy i) = [] := by
  rw [Server.pending, hHandling, Option.toList_some, List.filter_append,
    List.filter_cons_of_pos hAsked] at hOne
  exact (List.cons.inj hOne).2

theorem ServedCluster.pending_set {k : NodeId} {s : Server S R}
    (h : s.pending.Sublist (c k).pending) (peer : NodeId) :
    (c.set k s peer).pending.Sublist (c peer).pending := by
  by_cases hPeer : peer = k
  · subst hPeer
    rwa [ServedCluster.set_self]
  · rw [ServedCluster.set_of_ne _ _ hPeer]

/-- A forwarder that nobody has a request of in hand may do anything but pass one on. -/
theorem OneInHand.set {k : NodeId} {s : Server S R} (h : OneInHand c i)
    (hPending : s.pending.Sublist (c k).pending)
    (hForwarder : (c k).forwarder.busyWith = none ∨
      s.forwarder.busyWith = (c k).forwarder.busyWith) : OneInHand (c.set k s) i := by
  refine h.frame (ServedCluster.pending_set hPending) fun out hBusy => Or.inl ?_
  by_cases hik : i = k
  · subst hik
    rw [ServedCluster.set_self]
    rcases hForwarder with hIdle | hSame
    · cases hIdle.symm.trans hBusy
    · rw [hSame, hBusy]
  · rw [ServedCluster.set_of_ne _ _ hik, hBusy]

theorem pending_pass (hBounded : ∀ j, (c j).taken ≤ (c j).inRpc.length) (peer : NodeId)
    (received : PeerRpc R × Sender) (j : NodeId) : (c.pass peer received j).pending =
      (c j).pending ++ if j = peer then [received] else [] := by
  rw [ServedCluster.pass_apply]
  unfold Server.pending
  dsimp only
  rw [List.drop_append_of_le_length (hBounded j), List.append_assoc]

theorem OneInHand.pass {out : OutRpc R} {forwarder : Forwarder R}
    (hBounded : ∀ j, (c j).taken ≤ (c j).inRpc.length) (h : OneInHand c i)
    (hIdle : (c i).forwarder.busyWith = none) (hBusy : forwarder.busyWith = some out) :
    OneInHand ((c.set i { c i with forwarder }).pass out.peer (out.received i)) i := by
  have hOld : ∀ j, (c.set i { c i with forwarder } j).inRpc = (c j).inRpc ∧
      (c.set i { c i with forwarder } j).taken = (c j).taken ∧
      (c.set i { c i with forwarder } j).pending = (c j).pending := by
    intro j
    by_cases hji : j = i
    · rw [hji, ServedCluster.set_self]
      exact ⟨rfl, rfl, rfl⟩
    · rw [ServedCluster.set_of_ne _ _ hji]
      exact ⟨rfl, rfl, rfl⟩
  have hBounded' : ∀ j, (c.set i { c i with forwarder } j).taken ≤
      (c.set i { c i with forwarder } j).inRpc.length := by
    intro j
    rw [(hOld j).1, (hOld j).2.1]
    exact hBounded j
  intro peer
  rw [pending_pass hBounded', (hOld peer).2.2, List.filter_append, h.empty hIdle peer,
    List.nil_append]
  by_cases hPeer : peer = out.peer
  · right
    refine ⟨out, ?_, hPeer.symm, ?_⟩
    · rw [ServedCluster.pass_apply, ServedCluster.set_self]
      exact hBusy
    · rw [if_pos hPeer, filter_askedBy_received, if_pos rfl]
  · left
    rw [if_neg hPeer]
    rfl

theorem OneInHand.pass_other {k peer : NodeId} {out : OutRpc R}
    (hBounded : ∀ j, (c j).taken ≤ (c j).inRpc.length) (h : OneInHand c i) (hNe : i ≠ k) :
    OneInHand (c.pass peer (out.received k)) i := by
  intro j
  have hSame : (c.pass peer (out.received k) j).pending.filter (askedBy i) =
      (c j).pending.filter (askedBy i) := by
    rw [pending_pass hBounded, List.filter_append]
    split_ifs
    · rw [filter_askedBy_received, if_neg hNe, List.append_nil]
    · exact List.append_nil _
  rw [hSame, ServedCluster.pass_apply]
  exact h j

section Steps

variable [State S R] {m m' : Machine S R} {action : Action R}

theorem step_handling_kept (hStep : m.step action = some m') (hDelivers : action.delivers = none)
    (received : PeerRpc R × Sender) (h : m'.main.handling = some received) :
    m.main.handling = some received := by
  rcases step_handling hStep h with hOld | hNew
  · exact hOld
  · cases hDelivers.symm.trans hNew

theorem step_select {rpc : PeerRpc R} {responseTx : Sender}
    (hStep : m.step (.event (rpc.event responseTx)) = some m') :
    m.main.handling = none ∧ m'.main.handling = some (rpc, responseTx) := by
  cases hMain : m.main with
  | select role =>
    simp only [Machine.step, hMain] at hStep
    cases rpc <;> cases hStep <;> exact ⟨rfl, rfl⟩
  | _ =>
    simp only [Machine.step, hMain] at hStep
    cases hStep

theorem pending_select {s : Server S R} {rpc : PeerRpc R} {responseTx : Sender}
    (hNext : s.inRpc[s.taken]? = some (rpc, responseTx))
    (hStep : s.machine.step (.event (rpc.event responseTx)) = some m') :
    Server.pending { s with machine := m', taken := s.taken + 1 } = s.pending := by
  obtain ⟨hOld, hNew⟩ := step_select hStep
  obtain ⟨hLt, hGet⟩ := List.getElem?_eq_some_iff.mp hNext
  unfold Server.pending
  rw [hOld, hNew, List.drop_eq_getElem_cons hLt, hGet]
  rfl

/-- A peer that has answered has the request in hand no more. -/
theorem OneInHand.answered {k : NodeId} {reply : Reply R} {out : OutRpc R} (h : OneInHand c i)
    (hStep : (c k).machine.step action = some m)
    (hReply : reply ∈ m.replies.drop (c k).machine.replies.length)
    (hAnswered : reply.answered = some (out.received i)) :
    (m.main.handling.toList ++ (c k).inRpc.drop (c k).taken).filter (askedBy i) = [] := by
  have hAsked : askedBy i (out.received i) = true := decide_eq_true rfl
  rcases step_replies hStep with hSame | ⟨_, ⟨role, hMain⟩, last, hLast, hNew⟩
  · rw [hSame, List.drop_length] at hReply
    cases hReply
  · rw [hNew, List.drop_left] at hReply
    rw [List.mem_singleton.mp hReply] at hAnswered
    have hHandling := hLast.answered hAnswered
    rw [hMain]
    rcases h k with hNone | ⟨_, _, _, hOne⟩
    · rw [Server.pending, hHandling, Option.toList_some, List.filter_append,
        List.filter_cons_of_pos hAsked] at hNone
      cases hNone
    · exact pending_filter_of_handling hHandling hAsked hOne

variable [DecidableEq R]

theorem OneInHand.advance {k : NodeId} (h : OneInHand c i)
    (hStep : (c k).machine.step action = some m) (hDelivers : action.delivers = none) :
    OneInHand (c.advance k m) i := by
  have hHeard := c.heard_advance k m
  have hKept : ∀ peer, (c.advance k m peer).pending =
      (c.set k { c k with machine := m } peer).pending := by
    intro peer
    unfold Server.pending
    rw [(hHeard peer).machine, (hHeard peer).inRpc, (hHeard peer).taken]
  have hPending : (Server.pending { c k with machine := m }).Sublist (c k).pending :=
    pending_sublist rfl rfl (step_handling_kept hStep hDelivers)
  refine h.frame (fun peer => ?_) fun out hBusy => ?_
  · rw [hKept]
    exact ServedCluster.pending_set hPending peer
  · have hForwarder : (c.set k { c k with machine := m } i).forwarder = (c i).forwarder := by
      by_cases hik : i = k
      · rw [hik, ServedCluster.set_self]
      · rw [ServedCluster.set_of_ne _ _ hik]
    rcases (hHeard i).forwarder with hSame | ⟨out', reply, hPassed, _, rfl, hReply, hAnswered⟩
    · left
      rw [hSame, hForwarder, hBusy]
    · right
      rw [hForwarder] at hPassed
      rw [hPassed] at hBusy
      cases hBusy
      rw [hKept, ServedCluster.set_self]
      exact h.answered hStep hReply hAnswered

theorem step_oneInHand {k : NodeId} {serverAction : ServerAction R}
    (hStep : ServedCluster.Stepped c k serverAction c')
    (hBounded : ∀ j, (c j).taken ≤ (c j).inRpc.length) (h : OneInHand c i) : OneInHand c' i := by
  cases hStep with
  | machine hInternal hStep => exact h.advance hStep (Action.delivers_of_internal hInternal)
  | select hNext hStep =>
    refine h.set ?_ (Or.inr rfl)
    rw [pending_select hNext hStep]
  | connect hIdle _ | refuse hIdle _ =>
    refine h.set (List.Sublist.refl _) (Or.inl ?_)
    rw [hIdle]
    rfl
  | @read out forwarder hRead =>
    have hIdle : (c k).forwarder.busyWith = none ∧ forwarder.busyWith = some out := by
      rcases hRead with ⟨hWritten, rfl⟩ | ⟨hWritten, rfl⟩ <;> rw [hWritten] <;> exact ⟨rfl, rfl⟩
    by_cases hik : i = k
    · subst hik
      exact OneInHand.pass hBounded h hIdle.1 hIdle.2
    · have hSet : OneInHand (c.set k { c k with forwarder }) i :=
        h.set (List.Sublist.refl _) (Or.inl hIdle.1)
      refine OneInHand.pass_other (fun j => ?_) hSet hik
      by_cases hjk : j = k
      · rw [hjk, ServedCluster.set_self]
        exact hBounded k
      · rw [ServedCluster.set_of_ne _ _ hjk]
        exact hBounded j
  | respond hAnswered hAnswer hStep =>
    refine h.set (pending_sublist rfl rfl
      (step_handling_kept hStep (Action.delivers_of_answer hAnswer))) (Or.inl ?_)
    rw [hAnswered]
    rfl
  | unheard hAnswered _ _ =>
    refine h.set (List.Sublist.refl _) (Or.inl ?_)
    rw [hAnswered]
    rfl
  | hangUp hOpen =>
    refine h.set (List.Sublist.refl _) ?_
    rcases hOpen with ⟨hWritten, rfl⟩ | ⟨hPassed | ⟨reply, hAnswered⟩, rfl⟩
    · left
      rw [hWritten]
      rfl
    · right
      rw [hPassed]
      rfl
    · left
      rw [hAnswered]
      rfl
  | drop _ hStep =>
    exact h.set (pending_sublist rfl rfl (step_handling_kept hStep rfl)) (Or.inr rfl)

end Steps

end InHand

theorem OneInHand.eq_of_busy {c : ServedCluster S R} {i : NodeId} {out : OutRpc R}
    (h : OneInHand c i) (hBusy : (c i).forwarder.busyWith = some out)
    (hOne : (c out.peer).pending.filter (askedBy i) = [out.received i]) (peer : NodeId) :
    (c peer).pending.filter (askedBy i) = if peer = out.peer then [out.received i] else [] := by
  by_cases hPeer : peer = out.peer
  · rw [hPeer, if_pos rfl, hOne]
  · rw [if_neg hPeer]
    rcases h peer with hNone | ⟨out', hBusy', rfl, _⟩
    · exact hNone
    · cases hBusy.symm.trans hBusy'
      exact absurd rfl hPeer

section Refinement

/-- What holds of the servers and their streams at all times. -/
structure Served (c : ServedCluster S R) : Prop where
  named : ∀ i, Named i (c i).machine
  bounded : ∀ i, (c i).taken ≤ (c i).inRpc.length
  order : ∀ i, ∃ n, InOrder c i n
  inHand : ∀ i, OneInHand c i
  answered : ∀ i out reply, (c i).forwarder = .answered out reply →
    reply ∈ (c out.peer).machine.replies ∧ reply.answered = some (out.received i)

variable {c c' : ServedCluster S R} {i : NodeId} {action : ServerAction R}

theorem ServedCluster.machines_set (c : ServedCluster S R) (i : NodeId) (s : Server S R) :
    (c.set i s).machines = c.machines.set i s.machine := by
  funext j
  unfold ServedCluster.machines ServedCluster.set Cluster.set
  split_ifs <;> rfl

theorem ServedCluster.machines_pass (c : ServedCluster S R) (peer : NodeId)
    (received : PeerRpc R × Sender) : (c.pass peer received).machines = c.machines := by
  funext j
  rw [ServedCluster.machines, c.pass_apply]
  rfl

theorem Cluster.set_machine (c : ServedCluster S R) (i : NodeId) :
    c.machines.set i (c i).machine = c.machines := by
  funext j
  unfold Cluster.set
  split_ifs with hji
  · rw [hji]
    rfl
  · rfl

variable [DecidableEq R]

theorem ServedCluster.machines_advance (c : ServedCluster S R) (i : NodeId) (m : Machine S R) :
    (c.advance i m).machines = c.machines.set i m := by
  rw [← c.machines_set i { c i with machine := m }]
  funext j
  exact (c.heard_advance i m j).machine

variable [State S R]

/-- What the step of a server does to the nodes. -/
theorem ServedCluster.Stepped.machines (h : c.Stepped i action c') :
    c'.machines = c.machines ∨ ∃ own m, (c i).underlying action = some own ∧
      (c i).machine.step own = some m ∧ c'.machines = c.machines.set i m := by
  cases h with
  | machine _ hStep => exact Or.inr ⟨_, _, rfl, hStep, c.machines_advance i _⟩
  | select hNext hStep =>
    refine Or.inr ⟨_, _, ?_, hStep, c.machines_set i _⟩
    rw [Server.underlying, hNext]
    rfl
  | connect _ _ | refuse _ _ | unheard _ _ _ | hangUp _ =>
    left
    rw [c.machines_set, Cluster.set_machine]
  | read _ =>
    left
    rw [ServedCluster.machines_pass, c.machines_set, Cluster.set_machine]
  | respond hAnswered hAnswer hStep =>
    refine Or.inr ⟨_, _, ?_, hStep, c.machines_set i _⟩
    simp only [Server.underlying, hAnswered]
    rw [hAnswer, Option.filter_some, hStep]
    rfl
  | drop hStopped hStep =>
    refine Or.inr ⟨_, _, ?_, hStep, c.machines_set i _⟩
    simp only [Server.underlying, hStopped]

theorem ServedCluster.Stepped.grows (h : c.Stepped i action c') (j : NodeId) :
    (c j).machine.Grows (c' j).machine := by
  have hMachine : c'.machines j = (c' j).machine := rfl
  rcases h.machines with hSame | ⟨own, m, _, hStep, hSet⟩
  · rw [← hMachine, hSame]
    exact Machine.Grows.refl _
  · rw [← hMachine, hSet]
    exact Cluster.set_grows (c := c.machines) (step_grows hStep) j

theorem ServedCluster.Stepped.named (h : c.Stepped i action c')
    (hNamed : ∀ j, Named j (c j).machine) (j : NodeId) : Named j (c' j).machine := by
  have hMachine : c'.machines j = (c' j).machine := rfl
  rw [← hMachine]
  rcases h.machines with hSame | ⟨own, m, _, hStep, hSet⟩
  · rw [hSame]
    exact hNamed j
  · rw [hSet]
    exact Cluster.forall_set (step_named hStep (hNamed i)) hNamed j

omit [DecidableEq R] [State S R] in
theorem bounded_set {s : Server S R} (hBounded : ∀ j, (c j).taken ≤ (c j).inRpc.length)
    (hOwn : s.taken ≤ s.inRpc.length) (j : NodeId) :
    (c.set i s j).taken ≤ (c.set i s j).inRpc.length := by
  by_cases hji : j = i
  · rw [hji, ServedCluster.set_self]
    exact hOwn
  · rw [ServedCluster.set_of_ne _ _ hji]
    exact hBounded j

theorem ServedCluster.Stepped.bounded (h : c.Stepped i action c')
    (hBounded : ∀ j, (c j).taken ≤ (c j).inRpc.length) (j : NodeId) :
    (c' j).taken ≤ (c' j).inRpc.length := by
  cases h with
  | @machine _ m _ _ =>
    have hHeard := c.heard_advance i m j
    rw [hHeard.taken, hHeard.inRpc]
    exact bounded_set hBounded (by exact hBounded i) j
  | select hNext _ =>
    have hTaken := (List.getElem?_eq_some_iff.mp hNext).1
    exact bounded_set hBounded (by exact hTaken) j
  | read _ =>
    rw [ServedCluster.pass_apply]
    exact (bounded_set hBounded (by exact hBounded i) j).trans
      (List.length_append ▸ Nat.le_add_right _ _)
  | connect _ _ | refuse _ _ | respond _ _ _ | unheard _ _ _ | hangUp _ | drop _ _ =>
    exact bounded_set hBounded (by exact hBounded i) j

omit [DecidableEq R] [State S R] in
theorem forwarder_set {s : Server S R} {j : NodeId} {out : OutRpc R} {reply : Reply R}
    (h : (c.set i s j).forwarder = .answered out reply)
    (hOwn : s.forwarder = .answered out reply → s.forwarder = (c i).forwarder) :
    (c j).forwarder = .answered out reply := by
  by_cases hji : j = i
  · rw [hji, ServedCluster.set_self] at h
    rw [hji, ← hOwn h, h]
  · rwa [ServedCluster.set_of_ne _ _ hji] at h

/-- A response is read from the peer whose node has sent it. -/
theorem ServedCluster.Stepped.answered (h : c.Stepped i action c') {j : NodeId} {out : OutRpc R}
    {reply : Reply R} (hAnswered : (c' j).forwarder = .answered out reply) :
    (c j).forwarder = .answered out reply ∨
      (reply ∈ (c' out.peer).machine.replies ∧ reply.answered = some (out.received j)) := by
  cases h with
  | @machine _ m _ _ =>
    have hHeard := c.heard_advance i m j
    rcases hHeard.forwarder with hSame | ⟨out', reply', _, hNew, hPeer, hReply, hReceived⟩
    · left
      rw [hSame] at hAnswered
      exact forwarder_set hAnswered fun _ => rfl
    · right
      rw [hNew] at hAnswered
      cases hAnswered
      rw [(c.heard_advance i m out.peer).machine, hPeer, ServedCluster.set_self]
      exact ⟨List.mem_of_mem_drop hReply, hReceived⟩
  | select _ _ | drop _ _ => exact Or.inl (forwarder_set hAnswered fun _ => rfl)
  | @read _ forwarder hRead =>
    left
    rw [ServedCluster.pass_apply] at hAnswered
    refine forwarder_set hAnswered fun hForwarder => ?_
    rcases hRead with ⟨_, rfl⟩ | ⟨_, rfl⟩ <;> cases hForwarder
  | connect _ _ | refuse _ _ | respond _ _ _ | unheard _ _ _ | hangUp _ =>
    exact Or.inl (forwarder_set hAnswered fun hForwarder => by cases hForwarder)

theorem step_served (hStep : c.Stepped i action c') (h : Served c) : Served c' where
  named := hStep.named h.named
  bounded := hStep.bounded h.bounded
  order := fun j => (h.order j).elim fun _ hOrder => step_inOrder hStep hOrder
  inHand := fun j => step_oneInHand hStep h.bounded (h.inHand j)
  answered := by
    intro j out reply hAnswered
    rcases hStep.answered hAnswered with hOld | hNew
    · obtain ⟨hReply, hReceived⟩ := h.answered j out reply hOld
      exact ⟨(hStep.grows out.peer).replies.subset hReply, hReceived⟩
    · exact hNew

omit [State S R] [DecidableEq R] in
/-- What a server has passed on has been sent by the task whose channel it carries. -/
theorem Served.received (h : Served c) {rpc : PeerRpc R} {responseTx : Sender}
    (hReceived : (rpc, responseTx) ∈ (c i).inRpc) : responseTx.closed = false ∧
      ⟨i, rpc, responseTx.task⟩ ∈ (c responseTx.node).machine.outRpc := by
  obtain ⟨n, hOrder⟩ := h.order responseTx.node
  have hAsked : (rpc, responseTx) ∈ (c i).inRpc.filter (askedBy responseTx.node) :=
    List.mem_filter.mpr ⟨hReceived, decide_eq_true rfl⟩
  rw [hOrder.arrived] at hAsked
  obtain ⟨out, hOut, hSame⟩ := List.mem_map.mp hAsked
  obtain ⟨hTaken, hPeer⟩ := List.mem_filter.mp hOut
  obtain rfl : out.peer = i := of_decide_eq_true hPeer
  obtain ⟨rfl, hSender⟩ := Prod.mk.inj hSame
  have hTask : out.task = responseTx.task := congrArg Sender.task hSender
  refine ⟨(congrArg Sender.closed hSender).symm, ?_⟩
  rw [← hTask]
  exact List.mem_of_mem_take hTaken

omit [State S R] [DecidableEq R] in
/-- What a node has in hand has been sent to it. -/
theorem Served.sent_of_pending {out : OutRpc R} (h : Served c)
    (hTraced : Cluster.Traced c.machines) (hPending : out.received i ∈ (c out.peer).pending) :
    out ∈ (c i).machine.outRpc := by
  rcases List.mem_append.mp hPending with hHandling | hQueued
  · exact hTraced.took out.peer out.rpc _ (Or.inl (Option.mem_toList.mp hHandling))
  · exact (h.received (List.mem_of_mem_drop hQueued)).2

omit [State S R] in
theorem Served.deliverable_answer (h : Served c) {out : OutRpc R} {reply : Reply R}
    {own : Action R} (hAnswered : (c i).forwarder = .answered out reply)
    (hAnswer : reply.answer out.task = some own) : c.machines.deliverable i own = true := by
  obtain ⟨hReply, hReceived⟩ := h.answered i out reply hAnswered
  have hNamed := (h.named out.peer).replies reply hReply
  cases reply with
  | requestVote responseTx answer =>
    cases hAnswer
    have hId : answer.response.id = out.peer := hNamed _ rfl
    obtain ⟨_, rfl⟩ := Prod.mk.inj (Option.some.inj hReceived)
    rw [Cluster.deliverable, hId]
    exact List.any_eq_true.mpr ⟨_, hReply, decide_eq_true ⟨rfl, rfl, rfl⟩⟩
  | appendEntries responseTx request response =>
    cases hAnswer
    have hId : response.id = out.peer := hNamed _ rfl
    obtain ⟨_, rfl⟩ := Prod.mk.inj (Option.some.inj hReceived)
    rw [Cluster.deliverable, hId]
    exact List.any_eq_true.mpr ⟨_, hReply, decide_eq_true ⟨rfl, rfl, rfl⟩⟩
  | client _ _ => cases hAnswer

omit [State S R] in
theorem Cluster.deliverable_of_internal {c : Cluster S R} {own : Action R}
    (h : own.internal = true) : c.deliverable i own = true := by
  cases own with
  | event event =>
    cases event with
    | requestVote _ _ | appendEntries _ _ => cases h
    | _ => rfl
  | answerVote _ _ | answerAppend _ _ => cases h
  | _ => rfl

omit [State S R] in
theorem PeerRpc.deliverable {c : Cluster S R} {rpc : PeerRpc R} {responseTx : Sender}
    (h : ⟨i, rpc, responseTx.task⟩ ∈ (c responseTx.node).outRpc) :
    c.deliverable i (.event (rpc.event responseTx)) = true := by
  cases rpc <;> exact List.any_eq_true.mpr ⟨_, h, decide_eq_true rfl⟩

/-- What the node does is what the network may do, and the callers wait for the answer. -/
theorem Served.underlying (h : Served c) (hStep : c.Stepped i action c') {own : Action R}
    (hOwn : (c i).underlying action = some own) : c.machines.deliverable i own = true ∧
      CallersWait (c i).machine own := by
  cases hStep with
  | machine hInternal _ =>
    cases hOwn
    refine ⟨Cluster.deliverable_of_internal hInternal, ?_⟩
    cases own with
    | event event =>
      cases event with
      | requestVote _ _ | appendEntries _ _ | unimplementedRpc => cases hInternal
      | clientRequest _ responseTx => exact fun _ => Bool.not_eq_true' _ ▸ hInternal
      | _ => trivial
    | _ => trivial
  | @select rpc responseTx _ hNext _ =>
    rw [Server.underlying, hNext] at hOwn
    cases hOwn
    obtain ⟨hOpen, hSent⟩ := h.received (List.mem_of_getElem? hNext)
    refine ⟨PeerRpc.deliverable hSent, ?_⟩
    cases rpc <;> exact hOpen
  | @respond _ reply _ _ hAnswered hAnswer _ | @unheard _ reply _ hAnswered hAnswer _ =>
    simp only [Server.underlying, hAnswered] at hOwn
    rw [hAnswer] at hOwn
    obtain ⟨hSame, _⟩ := Option.filter_eq_some_iff.mp hOwn
    cases hSame
    refine ⟨h.deliverable_answer hAnswered hAnswer, ?_⟩
    cases reply <;> cases hAnswer <;> trivial
  | drop hStopped _ =>
    simp only [Server.underlying, hStopped] at hOwn
    cases hOwn
    exact ⟨rfl, trivial⟩
  | connect _ _ | refuse _ _ | read _ | hangUp _ => cases hOwn

omit [State S R] [DecidableEq R] in
theorem Reply.answer_ne_overrun {reply : Reply R} {task : Nat} :
    reply.answer task ≠ some .overrun := by
  cases reply <;> exact nofun

omit [DecidableEq R] in
theorem Server.eq_overrun_of_underlying {s : Server S R}
    (h : s.underlying action = some .overrun) : action = .machine .overrun := by
  cases action with
  | machine action =>
    cases h
    rfl
  | select =>
    obtain ⟨⟨rpc, responseTx⟩, _, hEvent⟩ := Option.map_eq_some_iff.mp h
    cases hEvent
  | respond =>
    simp only [Server.underlying] at h
    split at h
    · exact absurd (Option.filter_eq_some_iff.mp h).1 Reply.answer_ne_overrun
    · cases h
  | drop =>
    simp only [Server.underlying] at h
    split at h <;> cases h
  | connect | refuse | read | hangUp => cases h

variable {members : MembershipMap} {Allowed : Machine S R → Action R → Prop}
  {initial : ServedCluster S R}

omit [DecidableEq R] in
theorem ServedCluster.Initial.served (h : ServedCluster.Initial members initial) :
    Served initial := by
  obtain ⟨hMachines, hServers⟩ := h
  have hFresh : ∀ i, ∃ node, initial i = { machine := { node } } ∧ node.id = i := by
    intro i
    obtain ⟨node, hMachine, hIdentity, _⟩ := hMachines.machine i
    refine ⟨node, ?_, congrArg Prod.fst hIdentity⟩
    have hOwn : (initial i).machine = { node } := hMachine
    rw [hServers i, hOwn]
  constructor
  · intro i
    obtain ⟨node, hServer, hId⟩ := hFresh i
    rw [hServer]
    exact ⟨hId, nofun, nofun⟩
  · intro i
    obtain ⟨node, hServer, _⟩ := hFresh i
    rw [hServer]
    exact Nat.le_refl _
  · intro i
    obtain ⟨node, hServer, _⟩ := hFresh i
    refine ⟨0, ?_, ?_, fun peer => ?_⟩
    · rw [hServer]
      exact Nat.le_refl _
    · rw [hServer]
      exact rfl
    · obtain ⟨_, hPeer, _⟩ := hFresh peer
      rw [hPeer]
      rfl
  · intro i peer
    obtain ⟨_, hPeer, _⟩ := hFresh peer
    rw [hPeer]
    exact Or.inl rfl
  · intro i out reply hAnswered
    obtain ⟨_, hServer, _⟩ := hFresh i
    rw [hServer] at hAnswered
    cases hAnswered

/-- The nodes of the servers are the cluster. -/
def ServedCluster.Refines (c : ServedCluster S R) (machines : Cluster S R) : Prop :=
  machines = c.machines ∧ Served c

theorem next_refines (c c' : ServedCluster S R) (machines : Cluster S R)
    (hNext : ServedCluster.Next members Allowed c c') (hRefines : c.Refines machines) :
    ∃ machines', Cluster.Runs members (fun m own => Allowed m own ∧ CallersWait m own) machines
      machines' ∧ c'.Refines machines' := by
  obtain ⟨i, action, hAllowed, hStep⟩ := hNext
  obtain ⟨rfl, hServed⟩ := hRefines
  obtain ⟨hMember, hStep⟩ := Option.ite_none_right_eq_some.mp hStep
  have hStepped := ServedCluster.stepServer_cases hStep
  refine ⟨c'.machines, ?_, rfl, step_served hStepped hServed⟩
  rcases hStepped.machines with hSame | ⟨own, m, hOwn, hMachine, hSet⟩
  · rw [hSame]
    exact Relation.ReflTransGen.refl
  · obtain ⟨hDelivered, hWait⟩ := hServed.underlying hStepped hOwn
    refine Relation.ReflTransGen.single ⟨i, own, ⟨hAllowed own hOwn, hWait⟩, ?_⟩
    rw [Cluster.step, if_pos ⟨hMember, hDelivered⟩, hSet]
    exact congrArg (Option.map _) hMachine

/-- The callers of a served node wait, so that only a timer can end its main loop. -/
theorem next_surviving [ReliableState S R] (hNext : ServedCluster.Next members Allowed c c')
    (hServed : Served c) (h : Surviving (c i).machine) :
    Surviving (c' i).machine ∨ c.step members i (.machine .overrun) = some c' := by
  obtain ⟨j, action, _, hStep⟩ := hNext
  have hStepped := ServedCluster.stepServer_cases (Option.ite_none_right_eq_some.mp hStep).2
  rcases hStepped.machines with hSame | ⟨own, m, hOwn, hMachine, hSet⟩
  · have hMachines : (c' i).machine = (c i).machine := congrFun hSame i
    exact Or.inl (hMachines ▸ h)
  · have hMachines : (c' i).machine = c.machines.set j m i := congrFun hSet i
    rw [hMachines]
    by_cases hij : i = j
    · subst hij
      rw [Cluster.set_self]
      by_cases hLate : own.late = false
      · exact Or.inl (step_surviving ⟨(hServed.underlying hStepped hOwn).2, hLate⟩ hMachine h)
      · right
        cases own with
        | overrun => exact Server.eq_overrun_of_underlying hOwn ▸ hStep
        | _ => exact absurd rfl hLate
    · rw [Cluster.set_of_ne _ _ hij]
      exact Or.inl h

theorem ServedCluster.Runs.refines (hRuns : ServedCluster.Runs members Allowed initial c)
    (hInitial : ServedCluster.Initial members initial) :
    Cluster.Runs members (fun m own => Allowed m own ∧ CallersWait m own) initial.machines
      c.machines ∧ Served c := by
  obtain ⟨machines, hMachines, rfl, hServed⟩ :=
    Simulation.refines next_refines hRuns ⟨rfl, hInitial.served⟩
  exact ⟨hMachines, hServed⟩

end Refinement

section Pair

/-- The servers of a cluster of two. -/
def servedPair : ServedCluster (Stored Unit) Unit := fun i => { machine := unevenCluster i }

theorem servedPair_initial : ServedCluster.Initial pairMembers servedPair :=
  ⟨unevenCluster_initial, fun _ => rfl⟩

/-- Node 1 becomes a candidate and asks node 2, whose node takes the request. -/
def askingActions : List (NodeId × ServerAction Unit) :=
  [List.replicate 2 (1, .machine .main), [(1, .machine (.event .electionTimeout))],
    List.replicate 6 (1, .machine .main), List.replicate 3 (1, .machine (.task 0)),
    List.replicate 3 (1, .machine (.task 1)), [(1, .connect), (1, .read)],
    List.replicate 2 (2, .machine .main), [(2, .select)]].flatten

/-- Node 2 answers, and node 1 hears it. -/
def answeredActions : List (NodeId × ServerAction Unit) :=
  [askingActions, List.replicate 9 (2, .machine .main), [(1, .respond)]].flatten

end Pair

section Results

variable [State S R] [DecidableEq R]

/-- Whatever the servers do, their nodes are a cluster: what holds in all runs of a cluster
holds of the nodes. -/
theorem served_cluster_refines (members : MembershipMap)
    (Allowed : Machine S R → Action R → Prop) (initial c : ServedCluster S R)
    (hInitial : ServedCluster.Initial members initial)
    (hRuns : ServedCluster.Runs members Allowed initial c) :
    Cluster.Runs members Allowed initial.machines c.machines :=
  (hRuns.refines hInitial).1.mono fun _ _ h => h.1

theorem served_cluster_refines_pair : ∃ c : Cluster (Stored Unit) Unit,
    Cluster.Runs pairMembers (fun _ _ => True) unevenCluster c ∧ (c 1).answers.length = 1 := by
  obtain ⟨c, hRuns, hc⟩ := ServedCluster.exists_of_run
    (show (servedPair.run pairMembers answeredActions).map
      (fun c => decide ((c 1).machine.answers.length = 1)) = some true by decide)
  exact ⟨c.machines, served_cluster_refines _ _ servedPair c servedPair_initial hRuns,
    of_decide_eq_true hc⟩

/-- The servers pass on the requests of a node once each and in the order in which it has sent
them, with none left out but the one that the forwarder has taken last. -/
theorem requests_in_order (members : MembershipMap) (Allowed : Machine S R → Action R → Prop)
    (initial c : ServedCluster S R) (hInitial : ServedCluster.Initial members initial)
    (hRuns : ServedCluster.Runs members Allowed initial c) (i : NodeId) :
    ∃ n ≤ (c i).machine.outRpc.length, (c i).forwarded ≤ n + 1 ∧
      ∀ peer, (c peer).inRpc.filter (askedBy i) =
        (((c i).machine.outRpc.take n).filter (·.peer = peer)).map (OutRpc.received i) := by
  obtain ⟨n, hOrder⟩ := (hRuns.refines hInitial).2.order i
  exact ⟨n, hOrder.fits.le.1.trans hOrder.sent, hOrder.fits.le.2, hOrder.arrived⟩

theorem requests_in_order_pair : ∃ c : ServedCluster (Stored Unit) Unit,
    (c 2).inRpc.length = 1 ∧ ∃ n ≤ (c 1).machine.outRpc.length, (c 1).forwarded ≤ n + 1 ∧
      ∀ peer, (c peer).inRpc.filter (askedBy 1) =
        (((c 1).machine.outRpc.take n).filter (·.peer = peer)).map (OutRpc.received 1) := by
  obtain ⟨c, hRuns, hc⟩ := ServedCluster.exists_of_run
    (show (servedPair.run pairMembers askingActions).map
      (fun c => decide ((c 2).inRpc.length = 1)) = some true by decide)
  exact ⟨c, of_decide_eq_true hc, requests_in_order _ _ servedPair c servedPair_initial hRuns 1⟩

/-- In the whole cluster at most one request of a node is waiting to be answered. -/
theorem one_request_in_hand (members : MembershipMap) (Allowed : Machine S R → Action R → Prop)
    (initial c : ServedCluster S R) (hInitial : ServedCluster.Initial members initial)
    (hRuns : ServedCluster.Runs members Allowed initial c) (i : NodeId) :
    (∀ peer, (c peer).pending.filter (askedBy i) = []) ∨ ∃ out ∈ (c i).machine.outRpc,
      ∀ peer, (c peer).pending.filter (askedBy i) =
        if peer = out.peer then [out.received i] else [] := by
  obtain ⟨hMachines, hServed⟩ := hRuns.refines hInitial
  have hInHand := hServed.inHand i
  by_cases hNone : ∀ peer, (c peer).pending.filter (askedBy i) = []
  · exact Or.inl hNone
  · obtain ⟨peer, hSome⟩ := not_forall.mp hNone
    obtain ⟨out, hBusy, rfl, hOne⟩ := (hInHand peer).resolve_left hSome
    have hMem : out.received i ∈ (c out.peer).pending.filter (askedBy i) :=
      hOne ▸ List.mem_singleton_self _
    exact Or.inr ⟨out, hServed.sent_of_pending (hMachines.traced hInitial.1)
      (List.mem_filter.mp hMem).1, hInHand.eq_of_busy hBusy hOne⟩

theorem one_request_in_hand_pair : ∃ c : ServedCluster (Stored Unit) Unit,
    (c 2).pending.length = 1 ∧ ((∀ peer, (c peer).pending.filter (askedBy 1) = []) ∨
      ∃ out ∈ (c 1).machine.outRpc, ∀ peer, (c peer).pending.filter (askedBy 1) =
        if peer = out.peer then [out.received 1] else []) := by
  obtain ⟨c, hRuns, hc⟩ := ServedCluster.exists_of_run
    (show (servedPair.run pairMembers askingActions).map
      (fun c => decide ((c 2).pending.length = 1)) = some true by decide)
  exact ⟨c, of_decide_eq_true hc,
    one_request_in_hand _ _ servedPair c servedPair_initial hRuns 1⟩

/-- The servers wait for every answer, so that a node fails in one way only: it reads a timer
after it has run out. -/
theorem served_nodes_fail_late [ReliableState S R] (members : MembershipMap)
    (Allowed : Machine S R → Action R → Prop) (initial c : ServedCluster S R)
    (hInitial : ServedCluster.Initial members initial)
    (hRuns : ServedCluster.Runs members Allowed initial c) (i : NodeId)
    (hFailed : (c i).machine.main = .failed) :
    ∃ c₁ c₂, ServedCluster.Runs members Allowed initial c₁ ∧
      c₁.step members i (.machine .overrun) = some c₂ ∧
      ServedCluster.Runs members Allowed c₂ c := by
  have hEnds : ¬ Surviving (c i).machine := fun h => h.main hFailed
  have hLate := Provenance.holds_or_made
    (fun (c : ServedCluster S R) i => ¬ Surviving (c i).machine)
    (fun c c' i => c.step members i (.machine .overrun) = some c')
    (fun u u' hBefore hNext i h => not_or_of_imp fun hSurviving =>
      (next_surviving hNext (ServedCluster.Runs.refines hBefore hInitial).2
        hSurviving).resolve_left h) hRuns hEnds
  rcases hLate with hFirst | ⟨c₁, c₂, hBefore, _, hAfter, hOverrun⟩
  · obtain ⟨node, hNode, _, hState⟩ := hInitial.1.machine i
    have hMachine : (initial i).machine = { node } := hNode
    exact absurd (hMachine ▸ ⟨nofun, hState ▸ nofun, nofun⟩) hFirst
  · exact ⟨c₁, c₂, hBefore, hOverrun, hAfter⟩

/-- The follower of node 1 reads its election timeout once more when it has run out. -/
theorem served_nodes_fail_late_pair : ∃ c : ServedCluster (Stored Unit) Unit,
    (c 1).machine.main = .failed ∧ ∃ c₁ c₂,
      ServedCluster.Runs pairMembers (fun _ _ => True) servedPair c₁ ∧
      c₁.step pairMembers 1 (.machine .overrun) = some c₂ ∧
      ServedCluster.Runs pairMembers (fun _ _ => True) c₂ c := by
  obtain ⟨c, hRuns, hc⟩ := ServedCluster.exists_of_run
    (show (servedPair.run pairMembers [(1, .machine .main), (1, .machine .main),
      (1, .machine .overrun)]).map (fun c => (c 1).machine.main.hasFailed) = some true by decide)
  have hFailed := Main.hasFailed_iff.mp hc
  exact ⟨c, hFailed, served_nodes_fail_late _ _ servedPair c servedPair_initial hRuns 1 hFailed⟩

end Results

end Zeroraft
