import WordFifo.Log
import WordFifo.Message
import WordFifo.Source

/-!
# Reading messages

`readMessage` takes a header off a source, and then the words that the header
announces.  So a caller gets whole messages.

A payload longer than the limit is taken off the source all the same and then
refused, so the next read starts at the next header.

A source that closes before a header is at its regular end.  One that closes
after it has cut a message short, and the error counts the missing words.

`readings` reads until the first error.  It ends on every finite source
(`size_rest_lt`).
-/

namespace WordFifo

variable {σ : Type}

/-- What a read gives. -/
structure Reading (σ α : Type) where
  /-- What was read, or why nothing was. -/
  result : Except MessageError α
  /-- The source after the read. -/
  rest : σ
  /-- What the read tells. -/
  events : List Event

namespace Reader

/-! ## Events -/

/-- A header word came in. -/
def headerSeen (w : UInt32) : Event := ⟨.trace, "header word", [Event.word "word" w]⟩

/-- The source closed inside a payload that was being skipped. -/
def skipCut (skipped count : Nat) : Event :=
  ⟨.debug, "fifo closed while discarding payload",
    [Event.num "skipped" skipped, Event.num "count" count]⟩

/-! ## Words behind a header -/

/-- Takes `count` words that belong to one message. -/
def collect [Source σ] : (count : Nat) → σ → Except MessageError (List UInt32) × σ
  | 0, s => (.ok [], s)
  | count + 1, s =>
    match Source.receive s with
    | (.ok w, s) =>
      match collect count s with
      | (.ok ws, s) => (.ok (w :: ws), s)
      | (.error e, s) => (.error e, s)
    | (.error .closed, s) => (.error (.truncated (count + 1)), s)
    | (.error e, s) => (.error (.carrier e), s)

/-- How skipping words ended. -/
inductive Skip where
  | whole
  /-- The source closed with words missing. -/
  | cut (missing : Nat)
  | failed (cause : CarrierError)
deriving DecidableEq, Repr

/-- Takes `count` words and forgets them. -/
def skip [Source σ] : (count : Nat) → σ → Skip × σ
  | 0, s => (.whole, s)
  | count + 1, s =>
    match Source.receive s with
    | (.ok _, s) => skip count s
    | (.error .closed, s) => (.cut (count + 1), s)
    | (.error e, s) => (.failed e, s)

/-! ## Reads -/

/-- Reads a header.  The words it announces stay in the source. -/
def readHeader [Source σ] (s : σ) : Reading σ Header :=
  match Source.receive s with
  | (.ok w, s) => ⟨.ok (Header.ofWord w), s, [headerSeen w]⟩
  | (.error e, s) => ⟨.error (.carrier e), s, []⟩

/-- Skips a payload of `length` bytes and refuses it. -/
def refuseData [Source σ] (limit length : Nat) (s : σ) : Reading σ Message :=
  let count := Kind.wordsFor length
  match skip count s with
  | (.whole, s) => ⟨.error (.payloadTooLarge length limit), s, []⟩
  | (.cut missing, s) =>
    ⟨.error (.payloadTooLarge length limit), s, [skipCut (count - missing) count]⟩
  | (.failed e, s) => ⟨.error (.carrier e), s, []⟩

/-- Reads what follows a header. -/
def readBody [Source σ] (limit : Nat) (h : Header) (s : σ) : Reading σ Message :=
  match h.kind with
  | .smallImmediate v => ⟨.ok (.value32 h.channel v), s, []⟩
  | .largeImmediate =>
    match collect 1 s with
    | (.ok ws, s) => ⟨.ok (.value32 h.channel (ws.headD 0)), s, []⟩
    | (.error e, s) => ⟨.error e, s, []⟩
  | .address a => ⟨.ok (.address h.channel a), s, []⟩
  | .data length =>
    if limit < length.toNat then refuseData limit length.toNat s
    else
      match collect (Kind.wordsFor length.toNat) s with
      | (.ok ws, s) => ⟨.ok (.data h.channel (Payload.unpack ws length.toNat)), s, []⟩
      | (.error e, s) => ⟨.error e, s, []⟩
  | .special code => ⟨.ok (.special (Command.ofCode code)), s, []⟩

/-- Reads the next complete message.  `limit` bounds a payload, in bytes. -/
def readMessage [Source σ] (limit : Nat) (s : σ) : Reading σ Message :=
  let first := readHeader s
  match first.result with
  | .error e => ⟨.error e, first.rest, first.events⟩
  | .ok h =>
    let body := readBody limit h first.rest
    ⟨body.result, body.rest, first.events ++ body.events⟩

/-! ## Reading to the end -/

theorem size_collect_le [FiniteSource σ] (count : Nat) (s : σ) :
    FiniteSource.size (collect count s).2 ≤ FiniteSource.size s := by
  induction count generalizing s with
  | zero => exact Nat.le_refl _
  | succ count ih =>
    have step := FiniteSource.size_le s
    unfold collect
    split <;> rename_i h <;> rw [h] at step <;> simp only at step ⊢
    · have := ih ‹σ›
      split <;> rename_i h' <;> rw [h'] at this <;> simp only at this ⊢ <;> omega
    · exact step
    · exact step

theorem size_le_of_collect_eq [FiniteSource σ] {count : Nat} {s s' : σ}
    {r : Except MessageError (List UInt32)} (h : collect count s = (r, s')) :
    FiniteSource.size s' ≤ FiniteSource.size s := by
  simpa [h] using size_collect_le count s

theorem size_skip_le [FiniteSource σ] (count : Nat) (s : σ) :
    FiniteSource.size (skip count s).2 ≤ FiniteSource.size s := by
  induction count generalizing s with
  | zero => exact Nat.le_refl _
  | succ count ih =>
    have step := FiniteSource.size_le s
    unfold skip
    split <;> rename_i h <;> rw [h] at step <;> simp only at step ⊢
    · exact Nat.le_trans (ih _) step
    · exact step
    · exact step

theorem size_refuseData_le [FiniteSource σ] (limit length : Nat) (s : σ) :
    FiniteSource.size (refuseData limit length s).rest ≤ FiniteSource.size s := by
  have step := size_skip_le (Kind.wordsFor length) s
  unfold refuseData
  simp only
  split <;> rename_i h <;> rw [h] at step <;> exact step

theorem size_readBody_le [FiniteSource σ] (limit : Nat) (h : Header) (s : σ) :
    FiniteSource.size (readBody limit h s).rest ≤ FiniteSource.size s := by
  unfold readBody
  split
  · exact Nat.le_refl _
  · split <;> rename_i h <;> exact size_le_of_collect_eq h
  · exact Nat.le_refl _
  · split
    · exact size_refuseData_le ..
    · split <;> rename_i h <;> exact size_le_of_collect_eq h
  · exact Nat.le_refl _

/-- A message takes at least its header off a finite source. -/
theorem size_rest_lt [FiniteSource σ] {limit : Nat} {s : σ} {m : Message}
    (h : (readMessage limit s).result = .ok m) :
    FiniteSource.size (readMessage limit s).rest < FiniteSource.size s := by
  unfold readMessage readHeader at h ⊢
  cases hr : Source.receive s with
  | mk item s' =>
    cases item with
    | error e => simp [hr] at h
    | ok w =>
      have := FiniteSource.size_lt hr
      have := size_readBody_le limit (Header.ofWord w) s'
      simp only
      omega

/-- Reads until the first error.  The last reading is the one that failed. -/
def readings [FiniteSource σ] (limit : Nat) (s : σ) : List (Reading σ Message) :=
  match _h : (readMessage limit s).result with
  | .ok _ => readMessage limit s :: readings limit (readMessage limit s).rest
  | .error _ => [readMessage limit s]
termination_by FiniteSource.size s
decreasing_by exact size_rest_lt _h

end Reader

end WordFifo
