import WordFifo.Source
import WordFifo.Writer

/-!
# The loopback pair

Two ends in one process, with a queue for each direction.  A queue is in order
and loses nothing.  Words that were sent are received even after the sender is
gone, and only then is the queue closed.

A sender does not notice that its peer is gone.

A receive that finds the queue empty and the sender alive has to wait.  How long
it does is its own choice (`await`, `poll`, `awaitUntil`).  As a `Source` a queue
cannot wait, and answers with an error that says so.
-/

namespace WordFifo

/-- One direction of a loopback pair. -/
structure LoopbackQueue where
  /-- The words that were sent and not received, oldest first. -/
  words : List UInt32 := []
  senderAlive : Bool := true
  /-- How many words were ever sent. -/
  sent : Nat := 0
deriving DecidableEq, Repr

/-- What a receive finds. -/
inductive Received where
  | word (w : UInt32)
  | waiting
  | closed
deriving DecidableEq, Repr

namespace LoopbackQueue

/-- The queue with a header and its words behind the others. -/
def push (q : LoopbackQueue) (header : UInt32) (extra : List UInt32) : LoopbackQueue :=
  { q with words := q.words ++ header :: extra, sent := q.sent + (1 + extra.length) }

/-- The oldest word, and the queue without it. -/
def pop (q : LoopbackQueue) : Received × LoopbackQueue :=
  match q.words with
  | w :: rest => (.word w, { q with words := rest })
  | [] => if q.senderAlive then (.waiting, q) else (.closed, q)

/-- The queue after its sender left. -/
def dropSender (q : LoopbackQueue) : LoopbackQueue := { q with senderAlive := false }

/-- The answer in place of a wait. -/
def wouldBlock : CarrierError := .io ⟨.wouldBlock, "would block"⟩

/-- The next word.  A wait is an error. -/
def receive (q : LoopbackQueue) : Except CarrierError UInt32 × LoopbackQueue :=
  match q.pop with
  | (.word w, q) => (.ok w, q)
  | (.waiting, q) => (.error wouldBlock, q)
  | (.closed, q) => (.error .closed, q)

/-- Whether a receive that may wait has to. -/
def isBlocked (q : LoopbackQueue) : Bool := q.words.isEmpty && q.senderAlive

/-- Waits for the next word.  There is no result while it does. -/
def await (q : LoopbackQueue) : Option (Except CarrierError UInt32 × LoopbackQueue) :=
  if q.isBlocked then none
  else
    match q.words with
    | w :: rest => some (.ok w, { q with words := rest })
    | [] => some (.error .closed, q)

/-- The next word, if one is there. -/
def poll (q : LoopbackQueue) : Except CarrierError (Option UInt32) × LoopbackQueue :=
  match q.words with
  | w :: rest => (.ok (some w), { q with words := rest })
  | [] => if q.senderAlive then (.ok none, q) else (.error .closed, q)

/-- Waits for the next word until its time is over.  There is no result while it
does. -/
def awaitUntil (isOver : Bool) (q : LoopbackQueue) :
    Option (Except CarrierError (Option UInt32) × LoopbackQueue) :=
  if q.isBlocked && !isOver then none else some q.poll

theorem receive_cons {q : LoopbackQueue} {w : UInt32} {rest : List UInt32}
    (h : q.words = w :: rest) : q.receive = (.ok w, { q with words := rest }) := by
  simp [receive, pop, h]

theorem receive_nil {q : LoopbackQueue} (h : q.words = []) :
    q.receive = (.error (if q.senderAlive then wouldBlock else .closed), q) := by
  cases hs : q.senderAlive <;> simp [receive, pop, h, hs]

instance : FiniteSource LoopbackQueue where
  receive := receive
  size q := q.words.length
  size_lt {q q' w} h := by
    cases hw : q.words with
    | nil => simp [receive_nil hw] at h
    | cons a rest => simp [receive_cons hw] at h; simp [← h.2]
  size_le q := by
    cases hw : q.words with
    | nil => simp [receive_nil hw, hw]
    | cons a rest => simp [receive_cons hw]

instance : Sink LoopbackQueue where
  send q header extra := (.ok (), q.push header extra)

end LoopbackQueue

/-- An end of a pair. -/
inductive Side where
  | a
  | b
deriving DecidableEq, Repr

/-- The end across. -/
def Side.peer : Side → Side
  | .a => .b
  | .b => .a

namespace Side

theorem peer_ne (side : Side) : side.peer ≠ side := by cases side <;> exact Side.noConfusion

@[simp] theorem peer_peer (side : Side) : side.peer.peer = side := by cases side <;> rfl

theorem eq_or_eq_peer (side other : Side) : side = other ∨ side = other.peer := by
  cases side <;> cases other <;> decide

end Side

/-- Two connected ends. -/
structure LoopbackPair where
  fromA : LoopbackQueue := {}
  fromB : LoopbackQueue := {}
deriving DecidableEq, Repr

namespace LoopbackPair

/-- The queue that an end sends to. -/
def outbound (p : LoopbackPair) : Side → LoopbackQueue
  | .a => p.fromA
  | .b => p.fromB

/-- The queue that an end receives from. -/
def inbound (p : LoopbackPair) (side : Side) : LoopbackQueue := p.outbound side.peer

/-- The pair with the queue that an end sends to replaced. -/
def setOutbound (p : LoopbackPair) (side : Side) (q : LoopbackQueue) : LoopbackPair :=
  match side with
  | .a => { p with fromA := q }
  | .b => { p with fromB := q }

/-- The pair with the queue that an end receives from replaced. -/
def setInbound (p : LoopbackPair) (side : Side) (q : LoopbackQueue) : LoopbackPair :=
  p.setOutbound side.peer q

/-- Whether an end is still there. -/
def isAlive (p : LoopbackPair) (side : Side) : Bool := (p.outbound side).senderAlive

/-- How many words wait for an end. -/
def pending (p : LoopbackPair) (side : Side) : Nat := (p.inbound side).words.length

/-- How many words an end has sent. -/
def sent (p : LoopbackPair) (side : Side) : Nat := (p.outbound side).sent

/-- What the counter of an end shows.  It has 64 bits. -/
def counter (p : LoopbackPair) (side : Side) : UInt64 := UInt64.ofNat (p.sent side)

/-- Sends a header and its words from an end. -/
def send (p : LoopbackPair) (side : Side) (header : UInt32) (extra : List UInt32) :
    LoopbackPair :=
  p.setOutbound side ((p.outbound side).push header extra)

/-- Receives at an end. -/
def receive (p : LoopbackPair) (side : Side) : Received × LoopbackPair :=
  let (r, q) := (p.inbound side).pop
  (r, p.setInbound side q)

/-- Drops an end. -/
def drop (p : LoopbackPair) (side : Side) : LoopbackPair :=
  p.setOutbound side (p.outbound side).dropSender

@[simp] theorem inbound_peer (p : LoopbackPair) (side : Side) :
    p.inbound side.peer = p.outbound side := by cases side <;> rfl

@[simp] theorem setInbound_peer (p : LoopbackPair) (side : Side) (q : LoopbackQueue) :
    p.setInbound side.peer q = p.setOutbound side q := by cases side <;> rfl

@[simp] theorem outbound_setOutbound (p : LoopbackPair) (side : Side) (q : LoopbackQueue) :
    (p.setOutbound side q).outbound side = q := by cases side <;> rfl

@[simp] theorem setOutbound_outbound (p : LoopbackPair) (side : Side) :
    p.setOutbound side (p.outbound side) = p := by cases side <;> rfl

@[simp] theorem outbound_peer_setOutbound (p : LoopbackPair) (side : Side) (q : LoopbackQueue) :
    (p.setOutbound side q).outbound side.peer = p.outbound side.peer := by cases side <;> rfl

@[simp] theorem outbound_setOutbound_peer (p : LoopbackPair) (side : Side) (q : LoopbackQueue) :
    (p.setOutbound side.peer q).outbound side = p.outbound side := by cases side <;> rfl

end LoopbackPair

end WordFifo
