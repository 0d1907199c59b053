import WordFifo.Reader
import WordFifo.Tool.Printed

/-!
# Words and messages on paper

Two commands need nothing but their arguments.  `encode` prints the words of a
message, and `decode` prints the messages of some words.

`decode` reads from a tape until the words are used up.  A message that is cut
short or too long ends it, after the messages before it were printed.  The tape
keeps a record of the words that are received, and a message is printed with the
words of the record, which then starts anew.
-/

namespace WordFifo.Tool

/-- A message was encoded. -/
def encodedEvent (words : Nat) : Event := ⟨.debug, "encoded message", [Event.num "words" words]⟩

/-- A command that failed before it did anything. -/
def Outcome.failure (f : Failure) : Outcome := { completion := .failed f }

/-- The record of a message that was encoded. -/
def encodedRecord (m : Message) (e : Encoded) : Printed :=
  .record (Record.ofMessage Record.encodedSchema m (some e.words))

/-- Prints the words of a message. -/
def encode (c : Channel) (payload : PayloadOptions) (limit : Nat) : Outcome :=
  match payload.message c with
  | .error f => Outcome.failure f
  | .ok m =>
    match m.encode limit with
    | .error e => Outcome.failure (Failure.ofMessage "encode failed" e)
    | .ok e =>
      { printed := [encodedRecord m e]
        events := [encodedEvent e.wordCount]
        completion := .done }

/-- Words, and a record of those that were received. -/
structure Tape where
  /-- The words that are left. -/
  pending : List UInt32
  /-- The words that were received since the record was started, oldest first. -/
  taken : List UInt32 := []
deriving DecidableEq, Repr

namespace Tape

/-- The tape with a new record. -/
def clear (t : Tape) : Tape := { t with taken := [] }

instance : FiniteSource Tape where
  receive t :=
    match Source.receive t.pending with
    | (.ok w, rest) => (.ok w, ⟨rest, t.taken ++ [w]⟩)
    | (.error e, rest) => (.error e, { t with pending := rest })
  size t := t.pending.length
  size_lt {t t' w} h := by
    obtain ⟨pending, taken⟩ := t
    cases pending with
    | nil => simp at h
    | cons w rest => simp at h; simp [← h.2]
  size_le t := by
    obtain ⟨pending, taken⟩ := t
    cases pending <;> simp

end Tape

/-- The record of a message that was decoded, with its words. -/
def decodedRecord (m : Message) (words : List UInt32) : Printed :=
  .record (Record.ofMessage Record.decodedSchema m (some words))

/-- Prints the messages of a tape. -/
def decodeTape (limit : Nat) (t : Tape) : Outcome :=
  let r := Reader.readMessage limit t
  match _h : r.result with
  | .ok m =>
    let later := decodeTape limit r.rest.clear
    { later with
      printed := decodedRecord m r.rest.taken :: later.printed
      events := r.events ++ later.events }
  | .error (.carrier .closed) => { events := r.events, completion := .done }
  | .error e =>
    { events := r.events, completion := .failed (Failure.ofMessage "decode failed" e) }
termination_by t.pending.length
decreasing_by exact Reader.size_rest_lt _h

/-- Prints the messages of some words. -/
def decode (words : List UInt32) (limit : Nat) : Outcome := decodeTape limit ⟨words, []⟩

end WordFifo.Tool
