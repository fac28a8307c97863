import Zeroraft.Runtime.Servers

/-!
# Exchanges between served nodes

How runs of the nodes are put together to runs of a served cluster: a node goes on by
itself, and a request is forwarded, handled and answered.
-/

namespace Zeroraft

variable {S R : Type}

/-- No other node has a part in the step. -/
def Internally (_ : Machine S R) (action : Action R) : Prop := action.internal = true

instance Internally.instDecidable (m : Machine S R) (action : Action R) :
    Decidable (Internally m action) := inferInstanceAs (Decidable (_ = _))

variable [State S R]

/-- Between the request and the reply to it the node goes on by itself. -/
inductive Machine.Answers (m : Machine S R) (received : PeerRpc R × Sender) (reply : Reply R) :
    Prop
  | mk {m₁ m₂ m₃ m₄ : Machine S R} (hBefore : Machine.Runs Internally m m₁)
      (hQuiet : m₁.replies = m.replies)
      (hTaken : m₁.step (.event (received.1.event received.2)) = some m₂)
      (hHandled : Machine.Runs Internally m₂ m₃) (hPending : m₃.replies = m.replies)
      (hReplied : m₃.step .main = some m₄) (hReply : m₄.replies = m.replies ++ [reply])

omit [State S R] in
theorem eq_of_prefixes {α : Type} {first mid : List α} (hFirst : first <+: mid)
    (hLast : mid <+: first) : mid = first :=
  hLast.eq_of_length (Nat.le_antisymm hLast.length_le hFirst.length_le)

namespace ServedCluster

omit [State S R] in
theorem set_set (c : ServedCluster S R) (i : NodeId) (s s' : Server S R) :
    (c.set i s).set i s' = c.set i s' := by
  funext j
  by_cases hij : j = i
  · subst hij
    rw [set_self, set_self]
  · rw [set_of_ne _ _ hij, set_of_ne _ _ hij, set_of_ne _ _ hij]

omit [State S R] in
theorem set_eq_self (c : ServedCluster S R) (i : NodeId) : c.set i (c i) = c := by
  funext j
  by_cases hij : j = i
  · subst hij
    rw [set_self]
  · rw [set_of_ne _ _ hij]

variable [DecidableEq R] {members : MembershipMap} {c c₁ c₂ : ServedCluster S R} {i peer : NodeId}

omit [State S R] in
/-- A step without replies concerns nobody else. -/
theorem advance_of_replies_eq {m : Machine S R} (h : m.replies = (c i).machine.replies) :
    c.advance i m = c.set i { c i with machine := m } := by
  funext j
  rw [advance, h, List.drop_length]
  rfl

theorem Runs.step {action : ServerAction R} (hRuns : Runs members (fun _ _ => True) c c₁)
    (hMember : i ∈ members.ids) (hStep : c₁.stepServer i action = some c₂) :
    Runs members (fun _ _ => True) c c₂ :=
  Relation.ReflTransGen.tail hRuns ⟨i, action, fun _ _ => trivial, (if_pos hMember).trans hStep⟩

/-- A node goes on by itself and replies to nobody. -/
theorem runs_of_internal {m : Machine S R} (hMember : i ∈ members.ids)
    (hRuns : Machine.Runs Internally (c i).machine m)
    (hReplies : m.replies = (c i).machine.replies) :
    Runs members (fun _ _ => True) c (c.set i { c i with machine := m }) := by
  induction hRuns with
  | refl =>
    rw [show ({ c i with machine := (c i).machine } : Server S R) = c i from rfl, set_eq_self]
    exact Relation.ReflTransGen.refl
  | @tail m₁ m₂ hBefore hLast ih =>
    obtain ⟨action, hInternal, hStep⟩ := hLast
    have hFirst : Machine.Runs Internally (c i).machine m₁ := hBefore
    have hSame : m₁.replies = (c i).machine.replies :=
      eq_of_prefixes hFirst.grows.replies (hReplies ▸ (step_grows hStep).replies)
    have hAdvance : (c.set i { c i with machine := m₁ }).advance i m₂ =
        c.set i { c i with machine := m₂ } := by
      rw [advance_of_replies_eq, set_self, set_set]
      rw [set_self, hReplies, hSame]
    have hOwn : action.internal = true := hInternal
    have hServer : (c.set i { c i with machine := m₁ }).stepServer i (.machine action) =
        some (c.set i { c i with machine := m₂ }) := by
      rw [← hAdvance, stepServer, if_pos hOwn, set_self, hStep]
      rfl
    exact (ih hSame).step hMember hServer

/-- The forwarder takes the next request to the peer, whose server reads it. -/
theorem forwards {out : OutRpc R} (hMember : i ∈ members.ids) (hIdle : (c i).forwarder = .idle)
    (hOut : (c i).machine.outRpc[(c i).forwarded]? = some out) (hNe : out.peer ≠ i)
    (hKnown : out.peer ∈ (State.getMembership (c i).machine.node.state).ids) :
    ∃ c₁, Runs members (fun _ _ => True) c c₁ ∧
      c₁ i = { c i with forwarder := .passed out, forwarded := (c i).forwarded + 1 } ∧
      c₁ out.peer = { c out.peer with inRpc := (c out.peer).inRpc ++ [out.received i] } ∧
      ∀ j, j ≠ i → j ≠ out.peer → c₁ j = c j := by
  let c₀ := c.set i { c i with forwarder := .written out, forwarded := (c i).forwarded + 1 }
  have hConnect : c.stepServer i .connect = some c₀ := by
    simp only [stepServer, hIdle, hOut, Option.bind_eq_bind, Option.bind_some, if_pos hKnown]
    rfl
  have hWritten : (c₀ i).forwarder = .written out := by
    rw [show c₀ i = _ from set_self c i _]
  have hRead : c₀.stepServer i .read =
      some ((c₀.set i { c₀ i with forwarder := .passed out }).pass out.peer (out.received i)) := by
    rw [stepServer, hWritten]
  refine ⟨_, (Runs.step Relation.ReflTransGen.refl hMember hConnect).step hMember hRead, ?_, ?_, ?_⟩
  · rw [pass, set_of_ne _ _ hNe.symm, set_self, show c₀ i = _ from set_self c i _]
  · rw [pass, set_self, set_of_ne _ _ hNe, show c₀ out.peer = _ from set_of_ne c _ hNe]
  · intro j hi hPeer
    rw [pass, set_of_ne _ _ hPeer, set_of_ne _ _ hi]
    exact set_of_ne c _ hi

omit [State S R] in
/-- The reply of the peer is heard by the server that has forwarded the request, and by no
other. -/
theorem advance_reply {m : Machine S R} {out : OutRpc R} {reply : Reply R}
    (hPassed : (c i).forwarder = .passed out) (hNe : out.peer ≠ i)
    (hReply : m.replies = (c out.peer).machine.replies ++ [reply])
    (hAnswered : reply.answered = some (out.received i)) :
    c.advance out.peer m i = { c i with forwarder := .answered out reply } ∧
      ∀ j, j ≠ i → j ≠ out.peer → c.advance out.peer m j = c j := by
  have hNew : ∀ j, c.advance out.peer m j =
      (c.set out.peer { c out.peer with machine := m } j).hear j out.peer reply := by
    intro j
    rw [advance, hReply, List.drop_left]
    rfl
  have hOther : ∀ j (s : Server S R), j ≠ i → s.hear j out.peer reply = s := by
    intro j s hji
    refine Server.hear_of_not_answered fun other _ hSame => hji ?_
    have hReceived := Option.some.inj (hSame.2.symm.trans hAnswered)
    exact congrArg (fun received => received.2.node) hReceived
  refine ⟨?_, fun j hi hPeer => ?_⟩
  · rw [hNew, set_of_ne _ _ hNe.symm]
    exact Server.hear_answered hPassed rfl hAnswered
  · rw [hNew, set_of_ne _ _ hPeer, hOther _ _ hi]

/-- The peer takes the request from its queue, handles it and replies. -/
theorem replies {out : OutRpc R} {reply : Reply R} (hMember : out.peer ∈ members.ids)
    (hNe : out.peer ≠ i) (hPassed : (c i).forwarder = .passed out)
    (hNext : (c out.peer).inRpc[(c out.peer).taken]? = some (out.received i))
    (hAnswers : (c out.peer).machine.Answers (out.received i) reply)
    (hAnswered : reply.answered = some (out.received i)) :
    ∃ c₁, Runs members (fun _ _ => True) c c₁ ∧
      c₁ i = { c i with forwarder := .answered out reply } ∧
      ∀ j, j ≠ i → j ≠ out.peer → c₁ j = c j := by
  obtain @⟨m₁, m₂, m₃, m₄, hBefore, hQuiet, hTaken, hHandled, hPending, hReplied, hReply⟩ :=
    hAnswers
  let s₂ : Server S R := { c out.peer with machine := m₂, taken := (c out.peer).taken + 1 }
  let s₃ : Server S R := { s₂ with machine := m₃ }
  have hSelect : (c.set out.peer { c out.peer with machine := m₁ }).stepServer out.peer .select =
      some (c.set out.peer s₂) := by
    simp only [stepServer, set_self, hNext, Option.bind_eq_bind, Option.bind_some]
    rw [hTaken, Option.bind_some, set_set]
  have hKept : m₃.replies = m₂.replies := by
    have hMid : m₂.replies = (c out.peer).machine.replies := by
      apply eq_of_prefixes
      · exact hQuiet ▸ (step_grows hTaken).replies
      · exact hPending ▸ hHandled.grows.replies
    rw [hPending, hMid]
  have hHandle : Runs members (fun _ _ => True) (c.set out.peer s₂) (c.set out.peer s₃) := by
    have hRuns := runs_of_internal (c := c.set out.peer s₂) hMember
      (by rw [set_self]; exact hHandled) (by rw [set_self]; exact hKept)
    rwa [set_set, set_self] at hRuns
  have hRuns := ((runs_of_internal hMember hBefore hQuiet).step hMember hSelect).trans hHandle
  have hReplyStep : (c.set out.peer s₃).stepServer out.peer (.machine .main) =
      some ((c.set out.peer s₃).advance out.peer m₄) := by
    rw [stepServer, if_pos (show Action.internal (.main : Action R) = true from rfl), set_self,
      hReplied]
    rfl
  have hHeard := advance_reply (c := c.set out.peer s₃) (m := m₄) (i := i)
    (by rw [set_of_ne _ _ hNe.symm]; exact hPassed) hNe
    (by rw [set_self, hReply, ← hPending]) hAnswered
  refine ⟨_, Runs.step hRuns hMember hReplyStep, ?_, fun j hi hPeer => ?_⟩
  · rw [hHeard.1, set_of_ne _ _ hNe.symm]
  · rw [hHeard.2 j hi hPeer, set_of_ne _ _ hPeer]

/-- The forwarder takes the next request to the peer, and the answer back to the task. -/
theorem exchange {out : OutRpc R} {reply : Reply R} {action : Action R} {m : Machine S R}
    (hMember : i ∈ members.ids) (hPeer : out.peer ∈ members.ids) (hNe : out.peer ≠ i)
    (hIdle : (c i).forwarder = .idle) (hOut : (c i).machine.outRpc[(c i).forwarded]? = some out)
    (hKnown : out.peer ∈ (State.getMembership (c i).machine.node.state).ids)
    (hTaken : (c out.peer).taken = (c out.peer).inRpc.length)
    (hAnswers : (c out.peer).machine.Answers (out.received i) reply)
    (hAnswered : reply.answered = some (out.received i))
    (hAnswer : reply.answer out.task = some action) (hStep : (c i).machine.step action = some m) :
    ∃ c₁, Runs members (fun _ _ => True) c c₁ ∧
      c₁ i = { c i with machine := m, forwarder := .idle, forwarded := (c i).forwarded + 1 } ∧
      ∀ j, j ≠ i → j ≠ out.peer → c₁ j = c j := by
  obtain ⟨c₁, hForwarded, hOwn₁, hPeer₁, hOther₁⟩ := forwards hMember hIdle hOut hNe hKnown
  have hNext : (c₁ out.peer).inRpc[(c₁ out.peer).taken]? = some (out.received i) := by
    rw [hPeer₁, hTaken]
    exact List.getElem?_concat_length
  obtain ⟨c₂, hReplied, hOwn₂, hOther₂⟩ := replies hPeer hNe (by rw [hOwn₁]) hNext
    (by rw [hPeer₁]; exact hAnswers) hAnswered
  have hRespond : c₂.stepServer i .respond =
      some (c₂.set i { c₂ i with machine := m, forwarder := .idle }) := by
    have hMachine : (c₂ i).machine = (c i).machine := by rw [hOwn₂, hOwn₁]
    have hForwarder : (c₂ i).forwarder = .answered out reply := by rw [hOwn₂]
    simp only [stepServer, hForwarder, hAnswer, Option.bind_eq_bind, Option.bind_some, hMachine,
      hStep]
  refine ⟨_, Runs.step (hForwarded.trans hReplied) hMember hRespond, ?_, fun j hi hPeer => ?_⟩
  · rw [set_self, hOwn₂, hOwn₁]
  · rw [set_of_ne _ _ hi, hOther₂ j hi hPeer, hOther₁ j hi hPeer]

end ServedCluster

end Zeroraft
