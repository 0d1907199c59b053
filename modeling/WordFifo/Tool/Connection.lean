import WordFifo.ByteStream
import WordFifo.SocketDirectory
import WordFifo.Tool.Conversion

/-!
# Messages over a socket

`send` connects to a socket and writes one message.  `listen` binds a socket and
prints the messages that come in, connection after connection.

A listener goes on to the next connection when a sender closes between two
messages.  It ends when a message cannot be read, or when it has printed as many
messages as it was asked for.  The count is looked at behind a message that was
printed, so a listener that was asked for none prints one.

A filter names channels.  A message on another channel is passed over.  A special
command belongs to no channel and is always printed.
-/

namespace WordFifo.Tool

/-! ## Sending -/

/-- Sends a message to the socket at a path. -/
def send (d : SocketDirectory) (path : String) (c : Channel) (payload : PayloadOptions)
    (timeout : String) : Outcome :=
  match Argument.duration timeout with
  | .error e => Outcome.failure e.failure
  | .ok _ =>
    match payload.message c with
    | .error f => Outcome.failure f
    | .ok m =>
      match d.reach path with
      | .error e => Outcome.failure (Failure.ofCarrier "connect failed" (.connect path e))
      | .ok _ =>
        let w := Writer.writeMessage Message.defaultLimit m ({} : ByteQueue)
        let events := SocketDirectory.connected path :: w.events
        match w.result with
        | .error e =>
          { events := events
            completion := .failed (Failure.ofMessage "send failed" e)
            wire := some w.sink.bytes }
        | .ok e =>
          { printed := [encodedRecord m e]
            events := events
            completion := .done
            wire := some w.sink.bytes }

/-! ## Listening -/

/-- Whether a filter lets a message pass. -/
def passes (filter : Option (List Channel)) (m : Message) : Bool :=
  match m.channel, filter with
  | some c, some cs => cs.contains c
  | _, _ => true

/-- The record of a message that came in. -/
def receivedRecord (m : Message) : Printed :=
  .record (Record.ofMessage Record.receivedSchema m none)

/-- A sender is connected. -/
def senderConnected : Event := ⟨.debug, "sender connected", []⟩

/-- What one connection gives. -/
structure Session where
  printed : List Printed
  events : List Event
  /-- How the listener ends with this connection.  None goes on to the next. -/
  completion : Option Completion

/-- Prints the messages of some readings.  `already` were printed before. -/
def session {σ : Type} (filter : Option (List Channel)) (count : Option Nat) :
    (already : Nat) → List (Reading σ Message) → Session
  | _, [] => ⟨[], [], none⟩
  | already, r :: rest =>
    match r.result with
    | .error (.carrier .closed) => ⟨[], r.events, none⟩
    | .error e => ⟨[], r.events, some (.failed (Failure.ofMessage "receive failed" e))⟩
    | .ok m =>
      if passes filter m then
        if count.any (· ≤ already + 1) then ⟨[receivedRecord m], r.events, some .done⟩
        else
          let s := session filter count (already + 1) rest
          ⟨receivedRecord m :: s.printed, r.events ++ s.events, s.completion⟩
      else
        let s := session filter count already rest
        ⟨s.printed, r.events ++ s.events, s.completion⟩

/-- Serves connections one after the other.  Each is the bytes of a sender that
then closes. -/
def serve (filter : Option (List Channel)) (count : Option Nat) (limit : Nat) :
    (already : Nat) → List (List UInt8) → Outcome
  | _, [] => { completion := .waiting }
  | already, bytes :: rest =>
    let s := session filter count already (Reader.readings limit (ByteQueue.ended bytes))
    let events := SocketDirectory.accepted :: senderConnected :: s.events
    match s.completion with
    | some completion => { printed := s.printed, events := events, completion := completion }
    | none =>
      let o := serve filter count limit (already + s.printed.length) rest
      { o with printed := s.printed ++ o.printed, events := events ++ o.events }

/-- The socket listens. -/
def listening (path : String) : Event := ⟨.info, "listening", [Event.str "path" path]⟩

/-- Listens at a path.  `connections` are the bytes of the senders, in order. -/
def listen (d : SocketDirectory) (connections : List (List UInt8)) (path : String)
    (filter : Option (List Channel)) (count : Option Nat) (limit : Nat) : Outcome :=
  let b := d.bind path SocketDirectory.defaultMode
  match b.result with
  | .error e =>
    { events := b.events, completion := .failed (Failure.ofCarrier "bind failed" e) }
  | .ok l =>
    let o := serve filter count limit 0 connections
    let closing := if o.completion = .waiting then [] else (b.directory.close l).2
    { o with events := b.events ++ listening path :: o.events ++ closing }

end WordFifo.Tool
