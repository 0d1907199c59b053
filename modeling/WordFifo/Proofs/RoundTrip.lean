import WordFifo.Proofs.Packing

/-!
# The round trip of a stream

A `Frame` is a message with a limit that admits it, and its words.  Frames go
over the wire one behind the other, and a source may end anywhere in them.

`answers` says what a reader makes of the first words of some frames.  It is
said of messages and counts of words alone.  `calls_of_holds_take` is the main
result: whatever the payload words look like, the reader gives these answers,
call by call, and then `closed` for ever.
-/

namespace WordFifo

variable {σ : Type} [Source σ] {s t u : σ}

/-- A message that a limit of its own admits, and its words. -/
structure Frame where
  message : Message
  limit : Nat
  encoded : Encoded
  encode_eq : message.encode limit = .ok encoded

namespace Frame

/-- The words of a frame, in the order of the wire. -/
def words (f : Frame) : List UInt32 := f.encoded.words

/-- The words of some frames, one frame behind the other. -/
def stream (fs : List Frame) : List UInt32 := fs.flatMap words

/-- What a reader gives for the first `k` words of some frames. -/
def answers (limit : Nat) : List Frame → Nat → List (Except MessageError Message)
  | [], _ => []
  | f :: fs, k =>
    if f.encoded.wordCount ≤ k then
      f.message.answer limit :: answers limit fs (k - f.encoded.wordCount)
    else if k = 0 then []
    else [.error (f.message.cutAnswer limit (f.encoded.wordCount - k))]

theorem packed (f : Frame) : f.message.Packed f.limit f.encoded :=
  Message.encode_eq_ok_iff.mp f.encode_eq

theorem length_words (f : Frame) : f.words.length = f.encoded.wordCount :=
  Encoded.length_words f.encoded

theorem stream_cons (f : Frame) (fs : List Frame) : stream (f :: fs) = f.words ++ stream fs :=
  List.flatMap_cons

/-! ## One frame -/

/-- A frame that is all there is answered and taken whole. -/
theorem readMessage_of_gives (f : Frame) (limit : Nat) (h : Source.Gives s f.words t) :
    (Reader.readMessage limit s).result = f.message.answer limit ∧
      (Reader.readMessage limit s).rest = t :=
  f.packed.readMessage_of_gives limit h

/-- A frame of which the source holds the first `k` words. -/
theorem readMessage_of_cut (f : Frame) (limit : Nat) {k : Nat} (hk : 0 < k)
    (hlt : k < f.encoded.wordCount) (h : Source.Gives s (f.words.take k) t)
    (he : Source.receive t = (.error .closed, u)) :
    (Reader.readMessage limit s).result =
        .error (f.message.cutAnswer limit (f.encoded.wordCount - k)) ∧
      (Reader.readMessage limit s).rest = u := by
  obtain ⟨k, rfl⟩ := Nat.exists_eq_add_one.mpr hk
  have hextra := f.packed.extraWords
  have hcount : f.encoded.wordCount = 1 + f.encoded.extra.length := rfl
  have htake : (f.encoded.extra.take k).length = k := by
    rw [List.length_take]
    omega
  have hmissing : (Kind.ofWord f.encoded.header).extraWords - (f.encoded.extra.take k).length =
      f.encoded.wordCount - (k + 1) := by omega
  rw [← f.packed.decodeStopped_eq limit, ← hmissing]
  exact Reader.readMessage_of_stop limit h he (by omega)

/-! ## Streams of frames -/

/-- The first words of a stream are its first frame and then words of the
others, when they reach that far. -/
theorem take_stream_of_le {f : Frame} (fs : List Frame) {k : Nat}
    (h : f.encoded.wordCount ≤ k) :
    (stream (f :: fs)).take k = f.words ++ (stream fs).take (k - f.encoded.wordCount) := by
  rw [stream_cons, List.take_append, f.length_words,
    List.take_of_length_le (by rw [f.length_words]; exact h)]

theorem take_stream_of_lt {f : Frame} (fs : List Frame) {k : Nat}
    (h : k < f.encoded.wordCount) : (stream (f :: fs)).take k = f.words.take k := by
  rw [stream_cons, List.take_append_of_le_length (by rw [f.length_words]; omega)]

end Frame

open WordFifo.Frame Reader

/-- A reader that refuses no frame of a stream gives their messages, one by one,
and then `closed` for ever. -/
theorem calls_of_holds_stream {fs : List Frame} {limit : Nat}
    (hadmits : ∀ f ∈ fs, f.message.answer limit = .ok f.message.received)
    (h : Source.Holds s (stream fs)) (n : Nat) :
    (calls (List.replicate n limit) s).1 = thenClosed n (fs.map fun f => .ok f.message.received) := by
  induction fs generalizing s n with
  | nil =>
      obtain ⟨t, hg, ht⟩ := h
      cases hg
      rw [calls_of_ended _ ht, List.length_replicate, List.map_nil]
  | cons f fs ih =>
      cases n with
      | zero => rfl
      | succ n =>
          obtain ⟨t, hg, ht⟩ := h
          rw [stream_cons] at hg
          obtain ⟨r, hf, hfs⟩ := hg.split
          obtain ⟨hres, hrest⟩ := f.readMessage_of_gives limit hf
          have hlater := ih (fun g hg => hadmits g (List.mem_cons_of_mem f hg)) ⟨t, hfs, ht⟩ n
          rw [List.replicate_succ, calls, hres, hrest, hlater, hadmits f List.mem_cons_self,
            List.map_cons, thenClosed]

/-- A reader over the first words of a stream of frames answers every frame that
is all there, in order, then the frame that the end of the words cuts, and then
`closed` for ever. -/
theorem calls_of_holds_take (fs : List Frame) (limit k n : Nat)
    (h : Source.Holds s ((stream fs).take k)) :
    (calls (List.replicate n limit) s).1 = thenClosed n (answers limit fs k) := by
  -- The induction takes one frame off the stream and one call off the row.
  induction fs generalizing k n s with
  | nil =>
      obtain ⟨t, hg, ht⟩ := h
      rw [stream, List.flatMap_nil, List.take_nil] at hg
      cases hg
      rw [calls_of_ended _ ht, List.length_replicate, answers]
  | cons f fs ih =>
      cases n with
      | zero => rfl
      | succ n =>
          obtain ⟨t, hg, ht⟩ := h
          rw [List.replicate_succ, calls]
          by_cases hk : f.encoded.wordCount ≤ k
          · rw [take_stream_of_le fs hk] at hg
            obtain ⟨r, hf, hfs⟩ := hg.split
            obtain ⟨hres, hrest⟩ := f.readMessage_of_gives limit hf
            rw [hres, hrest, ih _ n ⟨t, hfs, ht⟩, answers, if_pos hk, thenClosed]
          · rw [take_stream_of_lt fs (Nat.lt_of_not_le hk)] at hg
            obtain ⟨u, hr, hu⟩ := ht.receive
            by_cases hzero : k = 0
            · subst hzero
              rw [List.take_zero] at hg
              cases hg
              obtain ⟨hres, hrest⟩ := readMessage_of_end limit hr
              rw [hres, hrest, calls_of_ended _ hu, List.length_replicate, answers, if_neg hk,
                if_pos rfl, thenClosed]
            · obtain ⟨hres, hrest⟩ := f.readMessage_of_cut limit (Nat.pos_of_ne_zero hzero)
                (Nat.lt_of_not_le hk) hg hr
              rw [hres, hrest, calls_of_ended _ hu, List.length_replicate, answers, if_neg hk,
                if_neg hzero, thenClosed]

/-- A block too long for the reader, a command under an alias of its code, and a
value that is cut before its second word.  All payload words look like reset
requests. -/
theorem calls_of_holds_take_lookalikes :
    let block : Frame := ⟨.data 1 [0x0B, 0x00, 0x04, 0x0C, 0xFF], 5,
      ⟨0x10000005, [0x0C04000B, 0x000000FF]⟩, rfl⟩
    let command : Frame := ⟨.special (.other 0x0104000B), 0, ⟨0x0C04000B, []⟩, rfl⟩
    let value : Frame := ⟨.value32 2 0x0C04000B, 0, ⟨0x26000000, [0x0C04000B]⟩, rfl⟩
    let held : List UInt32 := [0x10000005, 0x0C04000B, 0x000000FF, 0x0C04000B, 0x26000000]
    Source.Holds held ((stream [block, command, value]).take 5) ∧
      (calls (List.replicate 4 4) held).1 =
        [.error (.payloadTooLarge 5 4), .ok (.special .resetPrimary), .error (.truncated 1),
          .error (.carrier .closed)] := by
  intro block command value held
  have h : Source.Holds held ((stream [block, command, value]).take 5) := Source.holds_words held
  exact ⟨h, (calls_of_holds_take [block, command, value] 4 5 4 h).trans rfl⟩

end WordFifo
