import Zeroraft.Model.Timeout

/-!
# The loops of the roles and their timers

Every turn of a loop builds all branches of its `select!`, which reads each of the
loop's timers, and then takes one branch, whichever is ready first or happens to be
served. Only what a branch does to the timers is kept. A result of `none` says that
some reading of a timer has panicked, which is the step `overrun` of the machine.
-/

namespace Zeroraft

/-- A turn of a loop: the branch taken, the time until it is taken (for a timer's branch the
time by which it is late), that of its body up to the last thing it does with the timers,
and that until the next `select!`. -/
structure Turn (B : Type) where
  branch : B
  wait : Nat
  body : Nat
  check : Nat

namespace FollowerRole

inductive Branch where
  | shutdown
  | rpc (drawn : Nat)
  | clientRequest
  | electionTimeout
  deriving DecidableEq, Repr

structure Clock where
  now : Nat
  electionTimeout : Timeout
  deriving DecidableEq, Repr

def turn (s : Clock) (t : Turn Branch) : Option Clock := do
  let remaining ← s.electionTimeout.getRemaining s.now
  match t.branch with
  | .shutdown | .clientRequest => return { s with now := s.now + (t.wait + t.body + t.check) }
  | .rpc drawn =>
    let handled := s.now + t.wait + t.body
    return { now := handled + t.check, electionTimeout := s.electionTimeout.reset drawn handled }
  -- The node is a candidate then; the loop goes on if a task makes it a follower at once.
  | .electionTimeout =>
    return { s with now := s.now + (remaining + t.wait + t.body + t.check) }

/-- `FollowerRole::start`: the loop begins `setup` after its timer. -/
def start (range : Nat × Nat) (drawn now setup : Nat) (turns : List (Turn Branch)) :
    Option Clock :=
  turns.foldlM turn ⟨now + setup, Timeout.startRange range.1 range.2 drawn now⟩

end FollowerRole

namespace LeaderRole

inductive Branch where
  | shutdown
  | rpc
  | clientRequest
  | heartbeatTimeout
  deriving DecidableEq, Repr

structure Clock where
  now : Nat
  heartbeatTimeout : Timeout
  deriving DecidableEq, Repr

/-- `send_heartbeats` reads the timer before it spawns its task. -/
def sendHeartbeats (heartbeat : Timeout) (now : Nat) : Option Unit :=
  (heartbeat.getRemaining now).map fun _ => ()

def turn (s : Clock) (t : Turn Branch) : Option Clock := do
  let remaining ← s.heartbeatTimeout.getRemaining s.now
  match t.branch with
  | .shutdown | .rpc | .clientRequest =>
    return { s with now := s.now + (t.wait + t.body + t.check) }
  | .heartbeatTimeout =>
    let elapsed := s.now + remaining + t.wait
    let heartbeat := s.heartbeatTimeout.reset 0 elapsed
    sendHeartbeats heartbeat (elapsed + t.body)
    return { now := elapsed + t.body + t.check, heartbeatTimeout := heartbeat }

/-- `LeaderRole::start`: the session is initialised before the first heartbeats go out. -/
def start (heartbeatInterval now init setup : Nat) (turns : List (Turn Branch)) :
    Option Clock := do
  let heartbeat := Timeout.startFixed heartbeatInterval now
  sendHeartbeats heartbeat (now + init)
  turns.foldlM turn ⟨now + init + setup, heartbeat⟩

end LeaderRole

namespace CandidateRole

/-- When a round of vote requests reads the two timers: the time between the two readings
of `request_votes`, and for every peer that `send_to_peers` asks the time since then and the
time between its two readings. -/
structure Round where
  gap : Nat
  sends : List (Nat × Nat)
  deriving DecidableEq, Repr

inductive Branch where
  | shutdown
  | voteResult
  | rpc
  | clientRequest
  | retryTimeout (round : Round)
  /-- The election timer is reset `pause` before the retry timer. -/
  | electionTimeout (drawn pause : Nat) (round : Round)
  deriving DecidableEq, Repr

/-- A turn whose `select!` reads the election timer `gap` after the retry timer. -/
structure CandidateTurn extends Turn Branch where
  gap : Nat

structure Clock where
  now : Nat
  retryTimeout : Timeout
  electionTimeout : Timeout
  deriving DecidableEq, Repr

/-- Both timers are read, `gap` apart, as `select!` and `timeouts` do. -/
def timeouts (retry election : Timeout) (now gap : Nat) : Option (Nat × Nat) := do
  let retryRemaining ← retry.getRemaining now
  let electionRemaining ← election.getRemaining (now + gap)
  return (retryRemaining, electionRemaining)

/-- `send_to_peers` on the copies of the timers that the round was given. -/
def sendToPeers (retry election : Timeout) (now : Nat) : List (Nat × Nat) → Option Unit
  | [] => some ()
  | (delay, gap) :: rest => do
    let _ ← timeouts retry election (now + delay) gap
    sendToPeers retry election now rest

def requestVotes (retry election : Timeout) (now : Nat) (round : Round) : Option Unit := do
  let _ ← timeouts retry election now round.gap
  sendToPeers retry election now round.sends

def turn (s : Clock) (t : CandidateTurn) : Option Clock := do
  let (retryRemaining, electionRemaining) ←
    timeouts s.retryTimeout s.electionTimeout s.now t.gap
  match t.branch with
  | .shutdown | .voteResult | .rpc | .clientRequest =>
    return { s with now := s.now + (t.gap + t.wait + t.body) + t.check }
  | .retryTimeout round =>
    let elapsed := s.now + (max retryRemaining t.gap + t.wait)
    let retry := s.retryTimeout.reset 0 elapsed
    requestVotes retry s.electionTimeout (elapsed + t.body) round
    return { s with now := elapsed + t.body + t.check, retryTimeout := retry }
  | .electionTimeout drawn pause round =>
    let elapsed := s.now + (t.gap + electionRemaining + t.wait)
    let election := s.electionTimeout.reset drawn elapsed
    let retry := s.retryTimeout.reset 0 (elapsed + pause)
    requestVotes retry election (elapsed + pause + t.body) round
    return {
      now := elapsed + pause + t.body + t.check
      retryTimeout := retry
      electionTimeout := election }

/-- `CandidateRole::start`: the timers, the session after `initialize`, the first round. -/
def start (range : Nat × Nat) (heartbeatInterval drawn now pause init setup : Nat)
    (round : Round) (turns : List CandidateTurn) : Option Clock := do
  let election := Timeout.startRange range.1 range.2 drawn now
  let retry := Timeout.startFixed heartbeatInterval (now + pause)
  requestVotes retry election (now + pause + init) round
  turns.foldlM turn ⟨now + pause + init + setup, retry, election⟩

end CandidateRole

end Zeroraft
