import WordFifo.Loopback
import WordFifo.Payload

/-!
# Streams of bytes

A connected pair of byte streams carries words as four bytes each, least
significant first.  A direction is a queue of bytes that is in order and loses
nothing.  Writes leave no boundaries in it.

A read that finds no bytes and a live writer gives up after a timeout.  A word
that is cut by the timeout is lost: the bytes that were taken do not come back.
A word that is cut by the end of the stream is the end of the stream.

An end that is closed with bytes unread resets its peer, once, after the peer
has read what was sent.
-/

namespace WordFifo

/-- One direction of a stream. -/
structure ByteQueue where
  /-- The bytes that were written and not read, oldest first. -/
  bytes : List UInt8 := []
  writerOpen : Bool := true
  readerOpen : Bool := true
  /-- Whether the writing end was closed with bytes unread, and the reader does
  not know yet. -/
  reset : Bool := false
deriving DecidableEq, Repr

namespace ByteQueue

/-- The bytes of one connection that has come to its end. -/
def ended (bytes : List UInt8) : ByteQueue := { bytes := bytes, writerOpen := false }

/-- Writes bytes.  With the reader gone only an empty write succeeds. -/
def write (q : ByteQueue) (bs : List UInt8) : Except IoError Unit × ByteQueue :=
  if bs.isEmpty || q.readerOpen then (.ok (), { q with bytes := q.bytes ++ bs })
  else (.error .pipe, q)

/-- What a read of an empty queue finds.  No bytes is the end of the stream. -/
def readEmpty (q : ByteQueue) : Except IoError (List UInt8) × ByteQueue :=
  if q.reset then (.error .reset, { q with reset := false })
  else if q.writerOpen then (.error .unavailable, q)
  else (.ok [], q)

/-- One read of at most `n` bytes. -/
def read (q : ByteQueue) (n : Nat) : Except IoError (List UInt8) × ByteQueue :=
  if q.bytes.isEmpty then q.readEmpty
  else (.ok (q.bytes.take n), { q with bytes := q.bytes.drop n })

/-- Receives a word.  Bytes of a partial word are lost. -/
def receive (q : ByteQueue) : Except CarrierError UInt32 × ByteQueue :=
  match q.bytes with
  | a :: b :: c :: d :: rest => (.ok (Payload.word a b c d), { q with bytes := rest })
  | _ =>
    match { q with bytes := [] }.readEmpty with
    | (.ok _, q) => (.error .closed, q)
    | (.error e, q) => (.error (.io e), q)

/-- The bytes of a header and its words. -/
def encode (header : UInt32) (extra : List UInt32) : List UInt8 :=
  (header :: extra).flatMap Payload.bytes

/-- Words went to a stream. -/
def wordsSent (header : UInt32) (extra : List UInt32) : Event :=
  ⟨.trace, "sent words", [Event.word "header" header, Event.num "extra" extra.length]⟩

theorem length_bytes_readEmpty (q : ByteQueue) : (q.readEmpty).2.bytes = q.bytes := by
  unfold readEmpty
  split
  · rfl
  · split <;> rfl

theorem receive_cons {q : ByteQueue} {a b c d : UInt8} {rest : List UInt8}
    (h : q.bytes = a :: b :: c :: d :: rest) :
    q.receive = (.ok (Payload.word a b c d), { q with bytes := rest }) := by
  simp [receive, h]

/-- With fewer than four bytes a receive takes them all and gives no word. -/
theorem receive_short {q : ByteQueue} (h : q.bytes.length < 4) :
    ∃ e, q.receive.1 = .error e ∧ q.receive.2.bytes = [] := by
  have key : ∀ q' : ByteQueue, q'.bytes = [] →
      ∃ e, (match q'.readEmpty with
        | (.ok _, q) => (Except.error CarrierError.closed, q)
        | (.error e, q) => (Except.error (CarrierError.io e), q) :
          Except CarrierError UInt32 × ByteQueue).1 = .error e ∧
        (match q'.readEmpty with
        | (.ok _, q) => (Except.error CarrierError.closed, q)
        | (.error e, q) => (Except.error (CarrierError.io e), q) :
          Except CarrierError UInt32 × ByteQueue).2.bytes = [] := by
    intro q' hq
    have := length_bytes_readEmpty q'
    cases hr : q'.readEmpty with
    | mk item q'' =>
      rw [hr] at this
      cases item with
      | ok _ => exact ⟨_, rfl, by simpa [hq] using this⟩
      | error _ => exact ⟨_, rfl, by simpa [hq] using this⟩
  unfold receive
  split
  · rename_i hb
    simp [hb] at h
    omega
  · exact key _ rfl

instance : FiniteSource ByteQueue where
  receive := receive
  size q := q.bytes.length
  size_lt {q q' w} h := by
    by_cases hl : q.bytes.length < 4
    · obtain ⟨e, he, _⟩ := receive_short hl
      simp [h] at he
    · match hb : q.bytes with
      | a :: b :: c :: d :: rest =>
        rw [receive_cons hb] at h
        simp at h
        simp [← h.2]
        omega
      | [] | [_] | [_, _] | [_, _, _] => simp [hb] at hl
  size_le q := by
    by_cases hl : q.bytes.length < 4
    · obtain ⟨_, _, hr⟩ := receive_short hl
      simp [hr]
    · match hb : q.bytes with
      | a :: b :: c :: d :: rest => simp [receive_cons hb]; omega
      | [] | [_] | [_, _] | [_, _, _] => simp [hb] at hl

instance : Sink ByteQueue where
  send q header extra :=
    match q.write (encode header extra) with
    | (.ok (), q) => (.ok (), q)
    | (.error e, q) => (.error (.io e), q)
  sendEvents header extra := [wordsSent header extra]

end ByteQueue

/-- Two connected streams. -/
structure StreamPair where
  fromA : ByteQueue := {}
  fromB : ByteQueue := {}
deriving DecidableEq, Repr

namespace StreamPair

/-- The queue that an end writes to. -/
def outbound (p : StreamPair) : Side → ByteQueue
  | .a => p.fromA
  | .b => p.fromB

/-- The queue that an end reads from. -/
def inbound (p : StreamPair) (side : Side) : ByteQueue := p.outbound side.peer

/-- The pair with the queue that an end writes to replaced. -/
def setOutbound (p : StreamPair) (side : Side) (q : ByteQueue) : StreamPair :=
  match side with
  | .a => { p with fromA := q }
  | .b => { p with fromB := q }

/-- The pair with the queue that an end reads from replaced. -/
def setInbound (p : StreamPair) (side : Side) (q : ByteQueue) : StreamPair :=
  p.setOutbound side.peer q

/-- Whether an end is open. -/
def isOpen (p : StreamPair) (side : Side) : Bool := (p.outbound side).writerOpen

/-- Closes an end.  Bytes it has not read are lost. -/
def close (p : StreamPair) (side : Side) : StreamPair :=
  let unread := !(p.inbound side).bytes.isEmpty
  let p := p.setOutbound side { p.outbound side with writerOpen := false, reset := unread }
  p.setInbound side { p.inbound side with bytes := [], readerOpen := false }

end StreamPair

namespace StreamEnd

/-- The text of an end. -/
def describe : String := "FifoStream \x7b type: \"unix\" \x7d"

/-- Sets a timeout in milliseconds.  None waits for ever, and zero is refused. -/
def setTimeout (ms : Option Nat) : Except CarrierError (Option Nat) :=
  if ms = some 0 then .error (.io ⟨.invalidInput, "cannot set a 0 duration timeout"⟩)
  else .ok ms

end StreamEnd

end WordFifo
