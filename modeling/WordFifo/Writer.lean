import WordFifo.Log
import WordFifo.Message

/-!
# Writing messages

A sink is a place to send words to.  One call carries a header and the words
that belong to it, so a message is never half sent.

`writeMessage` encodes a message and makes one call.  A message that cannot be
encoded makes none.  A `Writer` holds its sink and its limit, and `perform` is
one operation on it.

`Recorder` is a sink that keeps the calls it is given, and fails those it is
told to fail.  `Watched` keeps the calls that are made of another sink, also
those that fail, and `Tap` a copy of the words that it took.
-/

namespace WordFifo

variable {σ : Type}

/-- A place to send words to. -/
class Sink (σ : Type) where
  /-- Sends a header and the words that follow it. -/
  send : σ → UInt32 → List UInt32 → Except CarrierError Unit × σ
  /-- What a call that succeeds tells. -/
  sendEvents : UInt32 → List UInt32 → List Event := fun _ _ => []

/-- Sends a word with no words behind it. -/
def Sink.sendWord [Sink σ] (s : σ) (w : UInt32) : Except CarrierError Unit × σ := Sink.send s w []

/-- A sink behind a reference or in a box. -/
structure Behind (σ : Type) where
  inner : σ

instance [Sink σ] : Sink (Behind σ) where
  send s header extra :=
    let sent := Sink.send s.inner header extra
    (sent.1, ⟨sent.2⟩)
  sendEvents header extra := Sink.sendEvents σ header extra

/-- What a write gives. -/
structure Writing (σ : Type) where
  result : Except MessageError Encoded
  sink : σ
  events : List Event

/-- A sink, and the limit for the payloads that are written to it. -/
structure Writer (σ : Type) where
  sink : σ
  /-- In bytes. -/
  limit : Nat := Message.defaultLimit

namespace Writer

/-- A message went out. -/
def messageSent (e : Encoded) : Event :=
  ⟨.debug, "sent fifo message", [Event.word "header" e.header, Event.num "words" e.wordCount]⟩

/-- Encodes and sends a message.  `limit` bounds a payload, in bytes. -/
def writeMessage [Sink σ] (limit : Nat) (m : Message) (s : σ) : Writing σ :=
  match m.encode limit with
  | .error e => ⟨.error e, s, []⟩
  | .ok encoded =>
    match Sink.send s encoded.header encoded.extra with
    | (.error e, s) => ⟨.error (.carrier e), s, []⟩
    | (.ok (), s) =>
      ⟨.ok encoded, s,
        Sink.sendEvents σ encoded.header encoded.extra ++ [messageSent encoded]⟩

/-! ## Operations -/

/-- What can be asked of a writer. -/
inductive Operation where
  | sendValue32 (channel : Channel) (value : UInt32)
  | sendAddress (channel : Channel) (address : UInt32)
  | sendData (channel : Channel) (payload : List UInt8)
  | sendSpecial (command : Command)
  | sendMessage (message : Message)
  | setLimit (limit : Nat)
deriving DecidableEq, Repr

/-- What an operation gives. -/
structure Performed (σ : Type) where
  /-- What was sent, or why nothing was.  A new limit gives nothing back. -/
  result : Option (Except MessageError Encoded)
  writer : Writer σ
  events : List Event

/-- Writes a message under the limit that is in force. -/
def send [Sink σ] (writer : Writer σ) (m : Message) : Performed σ :=
  let written := writeMessage writer.limit m writer.sink
  ⟨some written.result, { writer with sink := written.sink }, written.events⟩

/-- One operation. -/
def perform [Sink σ] (writer : Writer σ) : Operation → Performed σ
  | .sendValue32 c v => writer.send (.value32 c v)
  | .sendAddress c a => writer.send (.address c a)
  | .sendData c bytes => writer.send (.data c bytes)
  | .sendSpecial cmd => writer.send (.special cmd)
  | .sendMessage m => writer.send m
  | .setLimit limit => ⟨none, { writer with limit := limit }, []⟩

end Writer

/-! ## Sinks that remember -/

/-- A sink that keeps its calls. -/
structure Recorder where
  /-- The calls that succeeded, in order. -/
  calls : List (UInt32 × List UInt32)
  /-- How many calls were made. -/
  attempts : Nat
  /-- The error of a call, by how many calls came before it. -/
  failure : Nat → Option CarrierError

namespace Recorder

/-- A recorder with no calls yet. -/
def new (failure : Nat → Option CarrierError) : Recorder := ⟨[], 0, failure⟩

/-- Every word of the calls that succeeded, in order. -/
def words (r : Recorder) : List UInt32 := r.calls.flatMap fun call => call.1 :: call.2

instance : Sink Recorder where
  send r header extra :=
    match r.failure r.attempts with
    | some e => (.error e, { r with attempts := r.attempts + 1 })
    | none =>
      (.ok (), { r with attempts := r.attempts + 1, calls := r.calls ++ [(header, extra)] })

end Recorder

/-- A sink that keeps every call that is made of another one. -/
structure Watched (σ : Type) where
  inner : σ
  calls : List (UInt32 × List UInt32)

instance {σ : Type} [Sink σ] : Sink (Watched σ) where
  send s header extra :=
    let sent := Sink.send s.inner header extra
    (sent.1, ⟨sent.2, s.calls ++ [(header, extra)]⟩)
  sendEvents header extra := Sink.sendEvents σ header extra

/-- A sink that copies the words that another one took. -/
structure Tap (σ : Type) where
  inner : σ
  words : List UInt32

instance [Sink σ] : Sink (Tap σ) where
  send t header extra :=
    match Sink.send t.inner header extra with
    | (.ok (), inner) => (.ok (), ⟨inner, t.words ++ header :: extra⟩)
    | (.error e, inner) => (.error e, { t with inner := inner })
  sendEvents header extra := Sink.sendEvents σ header extra

end WordFifo
