import WordFifo.Command
import WordFifo.Payload

/-!
# Messages

What the user of a channel sees: a value, an address, a block of bytes, or a
special command.

`Message.encode` packs a message into a header and the words that follow it.  A
value goes in the header when it fits and in a word of its own when it does not.
A block longer than the limit is refused before its length is looked at.
-/

namespace WordFifo

open Layout

/-- A complete message. -/
inductive Message where
  | value32 (channel : Channel) (value : UInt32)
  | address (channel : Channel) (address : UInt32)
  | data (channel : Channel) (payload : List UInt8)
  | special (command : Command)
deriving DecidableEq, Repr

/-- A message packed for the wire. -/
structure Encoded where
  header : UInt32
  extra : List UInt32
deriving DecidableEq, Repr

namespace Encoded

/-- All words, in the order of the wire. -/
def words (e : Encoded) : List UInt32 := e.header :: e.extra

/-- How many words the message takes. -/
def wordCount (e : Encoded) : Nat := 1 + e.extra.length

theorem length_words (e : Encoded) : e.words.length = e.wordCount := by
  simp [words, wordCount]
  omega

end Encoded

namespace Message

/-- The largest payload, in bytes, where no other limit is set. -/
def defaultLimit : Nat := 128

/-- The channel of a message.  A special command has none. -/
def channel : Message → Option Channel
  | .value32 c _ => some c
  | .address c _ => some c
  | .data c _ => some c
  | .special _ => none

/-- Packs a message.  `limit` bounds a payload, in bytes. -/
def encode (limit : Nat) : Message → Except MessageError Encoded
  | .value32 c v =>
    if needsExtraWord v then .ok ⟨Pack.largeImmediate c.toWord, [v]⟩
    else .ok ⟨Pack.smallImmediate c.toWord v, []⟩
  | .address c a =>
    match Pack.checkedAddress c a with
    | .ok header => .ok ⟨header, []⟩
    | .error e => .error e
  | .data c bytes =>
    if limit < bytes.length then .error (.payloadTooLarge bytes.length limit)
    else
      match Pack.checkedData c bytes.length with
      | .ok header => .ok ⟨header, Payload.pack bytes⟩
      | .error e => .error e
  | .special cmd => .ok ⟨cmd.toWord, []⟩

/-- The message that a reader gets: a special command is known by its code. -/
def received : Message → Message
  | .special cmd => .special (Command.ofCode cmd.code)
  | m => m

end Message

end WordFifo
