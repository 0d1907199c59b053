import WordFifo.Proofs.ByteStreams
import WordFifo.Proofs.Padding

/-!
# Receives that time out

A stream with a live writer may run empty under a reader.  The reader waits for a while and
then gives up, and it may call again.  Here bytes come in chunks of any size, before the
calls and while they wait, and a reader calls on after every timeout.

A call that waits is no different from one that comes when all its chunks are there
(`receiveWaiting_eq`).  So a call gives a word where four bytes are there by then, and where
there are fewer it gives up and takes these with it (`turns_receive`).  A timeout on an empty
stream costs nothing.  A timeout inside a word costs the bytes of the word that had come, and
what comes behind them is cut into words in the wrong places.

So the words are those of the whole stream exactly when every timeout falls between two words
(`words_eq_iff_timeoutsBetween`).  In the counterexample one does not, and a reset request is
received that nobody sent.

The step from the words back to the timeouts is by counting: no call adds bytes
(`length_left_le`), so where some are lost there are too few left for the words of the stream.
-/

namespace WordFifo

namespace ByteQueue

variable {need : Nat} {bs : List UInt8}

/-! ## Calls that wait -/

/-- The bytes in front are taken first, and the read goes on with those behind them. -/
theorem readExact_append (q : ByteQueue) (taken rest : List UInt8) (h : taken.length ≤ need) :
    ({ q with bytes := taken ++ rest } : ByteQueue).readExact need =
      match ({ q with bytes := rest } : ByteQueue).readExact (need - taken.length) with
      | (.ok (some later), q') => (.ok (some (taken ++ later)), q')
      | (result, q') => (result, q') := by
  by_cases henough : need ≤ (taken ++ rest).length
  · have hrest : need - taken.length ≤ rest.length := by
      rw [List.length_append] at henough
      omega
    rw [readExact_of_enough henough, readExact_of_enough hrest]
    simp only [List.take_append, List.drop_append, List.take_of_length_le h,
      List.drop_of_length_le h, List.nil_append]
  · have hrest : rest.length < need - taken.length := by
      rw [List.length_append] at henough
      omega
    rw [readExact_of_short (Nat.lt_of_not_le henough), readExact_of_short hrest]
    cases q.reset <;> cases q.writerOpen <;> rfl

/-- Reads until `need` bytes are there.  Where the stream runs empty, the next chunk comes in
before the wait is over. -/
def readWaiting (q : ByteQueue) (need : Nat) :
    (coming : List (List UInt8)) → Except IoError (Option (List UInt8)) × ByteQueue
  | [] => q.readExact need
  | chunk :: coming =>
    if need ≤ q.bytes.length then
      -- It does not wait, and the chunks come in behind it.
      let r := q.readExact need
      (r.1, { r.2 with bytes := r.2.bytes ++ (chunk :: coming).flatten })
    else
      match readWaiting { q with bytes := chunk } (need - q.bytes.length) coming with
      | (.ok (some later), q') => (.ok (some (q.bytes ++ later)), q')
      | (result, q') => (result, q')

/-- Receives a word while chunks come in. -/
def receiveWaiting (q : ByteQueue) (coming : List (List UInt8)) :
    Except CarrierError UInt32 × ByteQueue :=
  match q.readWaiting 4 coming with
  | (.ok (some [a, b, c, d]), q) => (.ok (Payload.word a b c d), q)
  | (.ok _, q) => (.error .closed, q)
  | (.error e, q) => (.error (.io e), q)

theorem readWaiting_eq (q : ByteQueue) (need : Nat) (coming : List (List UInt8)) :
    q.readWaiting need coming =
      ({ q with bytes := q.bytes ++ coming.flatten } : ByteQueue).readExact need := by
  induction coming generalizing q need with
  | nil => rw [readWaiting, List.flatten_nil, List.append_nil]
  | cons chunk coming ih =>
      rw [readWaiting]
      by_cases hthere : need ≤ q.bytes.length
      · have hlater : need ≤ (q.bytes ++ (chunk :: coming).flatten).length := by
          rw [List.length_append]
          exact Nat.le_add_right_of_le hthere
        rw [if_pos hthere, readExact_of_enough hthere, readExact_of_enough hlater,
          List.take_append_of_le_length hthere, List.drop_append_of_le_length hthere]
      · rw [if_neg hthere, ih, readExact_append q _ _ (Nat.le_of_not_le hthere)]
        rfl

theorem receiveWaiting_eq (q : ByteQueue) (coming : List (List UInt8)) :
    q.receiveWaiting coming =
      ({ q with bytes := q.bytes ++ coming.flatten } : ByteQueue).receive := by
  rw [receiveWaiting, readWaiting_eq]
  exact (receive_eq_readExact _).symm

/-! ## Calls and chunks in turn -/

/-- What happens to a stream that has a live writer. -/
inductive Turn where
  /-- A chunk comes in. -/
  | arrive (chunk : List UInt8)
  /-- The reader calls, and chunks come in while it waits. -/
  | receive (coming : List (List UInt8))
deriving DecidableEq, Repr

/-- The bytes that come in. -/
def Turn.bytes : Turn → List UInt8
  | .arrive chunk => chunk
  | .receive coming => coming.flatten

/-- All bytes that come in. -/
def arrived (ts : List Turn) : List UInt8 := ts.flatMap Turn.bytes

/-- The answers of the calls, and the stream behind them. -/
def turns (q : ByteQueue) : List Turn → List (Except CarrierError UInt32) × ByteQueue
  | [] => ([], q)
  | .arrive chunk :: ts => turns (q.write chunk).2 ts
  | .receive coming :: ts =>
    let r := q.receiveWaiting coming
    let later := turns r.2 ts
    (r.1 :: later.1, later.2)

/-- The words of the calls that gave one. -/
def wordsOf (answers : List (Except CarrierError UInt32)) : List UInt32 :=
  answers.filterMap Except.toOption

theorem wordsOf_ok (w : UInt32) (answers : List (Except CarrierError UInt32)) :
    wordsOf (.ok w :: answers) = w :: wordsOf answers := rfl

theorem wordsOf_error (e : CarrierError) (answers : List (Except CarrierError UInt32)) :
    wordsOf (.error e :: answers) = wordsOf answers := rfl

section

variable {ts : List Turn} {coming : List (List UInt8)}

theorem turns_append (q : ByteQueue) (ts us : List Turn) :
    turns q (ts ++ us) =
      ((turns q ts).1 ++ (turns (turns q ts).2 us).1, (turns (turns q ts).2 us).2) := by
  induction ts generalizing q with
  | nil => rfl
  | cons t ts ih =>
      cases t with
      | arrive chunk => exact ih _
      | receive coming => simp only [List.cons_append, turns, ih]

theorem turns_arrive (bs chunk : List UInt8) (ts : List Turn) :
    turns { bytes := bs } (.arrive chunk :: ts) = turns { bytes := bs ++ chunk } ts := by
  simp [turns, write]

/-- With a live writer a call gives a word, or it times out and the stream is empty. -/
theorem turns_receive (bs : List UInt8) (coming : List (List UInt8)) (ts : List Turn) :
    (∃ w rest, bs ++ coming.flatten = Payload.bytes w ++ rest ∧
        turns { bytes := bs } (.receive coming :: ts) =
          (.ok w :: (turns { bytes := rest } ts).1, (turns { bytes := rest } ts).2)) ∨
      (bs ++ coming.flatten).length < 4 ∧
        turns { bytes := bs } (.receive coming :: ts) =
          (.error (.io .unavailable) :: (turns {} ts).1, (turns {} ts).2) := by
  rw [turns, receiveWaiting_eq]
  match bs ++ coming.flatten with
  | a :: b :: c :: d :: rest =>
      exact Or.inl ⟨Payload.word a b c d, rest, by rw [Payload.bytes_word]; rfl, rfl⟩
  | [] | [_] | [_, _] | [_, _, _] => exact Or.inr ⟨by simp, rfl⟩

theorem length_of_word {w : UInt32} {rest : List UInt8}
    (h : bs ++ coming.flatten = Payload.bytes w ++ rest) :
    bs.length + coming.flatten.length = rest.length + 4 := by
  have hlen := congrArg List.length h
  rw [List.length_append, List.length_append] at hlen
  exact hlen.trans (Nat.add_comm 4 rest.length)

/-! ## Timeouts between two words -/

/-- No call times out inside a word, where `n` bytes have come in before. -/
inductive TimeoutsBetween : Nat → List Turn → Prop
  | nil (n : Nat) : TimeoutsBetween n []
  | arrive {n : Nat} {ts : List Turn} (chunk : List UInt8)
      (h : TimeoutsBetween (n + chunk.length) ts) : TimeoutsBetween n (.arrive chunk :: ts)
  /-- Four bytes have come in by the end of the call. -/
  | word {n m : Nat} {ts : List Turn} (coming : List (List UInt8))
      (hn : n + coming.flatten.length = m + 4) (h : TimeoutsBetween m ts) :
      TimeoutsBetween n (.receive coming :: ts)
  /-- None have. -/
  | timeout {ts : List Turn} (coming : List (List UInt8)) (hn : coming.flatten = [])
      (h : TimeoutsBetween 0 ts) : TimeoutsBetween 0 (.receive coming :: ts)

/-- No call adds bytes, and none gives a word for fewer than four. -/
theorem length_left_le (bs : List UInt8) (ts : List Turn) :
    4 * (wordsOf (turns { bytes := bs } ts).1).length +
        (turns { bytes := bs } ts).2.bytes.length ≤ bs.length + (arrived ts).length := by
  induction ts generalizing bs with
  | nil => exact Nat.le_of_eq (Nat.zero_add _)
  | cons t ts ih =>
      rw [arrived, List.flatMap_cons, List.length_append, ← arrived]
      cases t with
      | arrive chunk =>
          have hlater := ih (bs ++ chunk)
          rw [List.length_append] at hlater
          rw [turns_arrive, Turn.bytes]
          omega
      | receive coming =>
          rw [Turn.bytes]
          rcases turns_receive bs coming ts with ⟨w, rest, hbytes, hturns⟩ | ⟨-, hturns⟩
          · have hlen := length_of_word hbytes
            have hlater := ih rest
            simp only [hturns, wordsOf_ok, List.length_cons]
            omega
          · have hlater := ih []
            rw [List.length_nil] at hlater
            simp only [hturns, wordsOf_error]
            omega

/-- Where every timeout falls between two words, all bytes are in the words or still there. -/
theorem bytes_of_timeoutsBetween (bs : List UInt8) (h : TimeoutsBetween bs.length ts) :
    (wordsOf (turns { bytes := bs } ts).1).flatMap Payload.bytes ++
      (turns { bytes := bs } ts).2.bytes = bs ++ arrived ts := by
  generalize hn : bs.length = n at h
  induction h generalizing bs with
  | nil n => exact (List.append_nil bs).symm
  | arrive chunk _ ih =>
      rw [turns_arrive, ih _ (by rw [List.length_append, hn]), List.append_assoc]
      rfl
  | word coming hm _ ih =>
      rw [arrived, List.flatMap_cons, ← arrived, Turn.bytes, ← List.append_assoc]
      rcases turns_receive bs coming _ with ⟨w, rest, hbytes, hturns⟩ | ⟨hshort, -⟩
      · have hlen := length_of_word hbytes
        rw [hbytes, hturns, wordsOf_ok, List.flatMap_cons, List.append_assoc, List.append_assoc,
          ih rest (by omega)]
      · rw [List.length_append] at hshort
        omega
  | timeout coming hnone _ ih =>
      obtain rfl := List.length_eq_zero_iff.mp hn
      rw [arrived, List.flatMap_cons, ← arrived, Turn.bytes, hnone]
      rcases turns_receive [] coming _ with ⟨w, rest, hbytes, -⟩ | ⟨-, hturns⟩
      · rw [hnone] at hbytes
        cases hbytes
      · rw [hturns, wordsOf_error]
        exact ih [] rfl

/-- Where no byte is missing, every timeout falls between two words. -/
theorem timeoutsBetween_of_length (bs : List UInt8)
    (h : bs.length + (arrived ts).length ≤
      4 * (wordsOf (turns { bytes := bs } ts).1).length +
        (turns { bytes := bs } ts).2.bytes.length) :
    TimeoutsBetween bs.length ts := by
  induction ts generalizing bs with
  | nil => exact .nil _
  | cons t ts ih =>
      rw [arrived, List.flatMap_cons, List.length_append, ← arrived] at h
      cases t with
      | arrive chunk =>
          rw [turns_arrive, Turn.bytes] at h
          refine .arrive chunk ?_
          rw [← List.length_append]
          exact ih _ (by rw [List.length_append]; omega)
      | receive coming =>
          rw [Turn.bytes] at h
          rcases turns_receive bs coming ts with ⟨w, rest, hbytes, hturns⟩ | ⟨-, hturns⟩
          · have hlen := length_of_word hbytes
            simp only [hturns, wordsOf_ok, List.length_cons] at h
            exact .word coming hlen (ih rest (by omega))
          · -- What a timeout takes is missing in the end.
            have hle := length_left_le [] ts
            simp only [hturns, wordsOf_error] at h
            rw [List.length_nil] at hle
            obtain rfl := List.length_eq_zero_iff.mp (show bs.length = 0 by omega)
            refine .timeout coming (List.length_eq_zero_iff.mp (by omega)) (ih [] ?_)
            omega

/-! ## Reading on -/

/-- The stream stays live, and nothing but its bytes changes. -/
theorem turns_live (bs : List UInt8) (ts : List Turn) :
    (turns { bytes := bs } ts).2 = { bytes := (turns { bytes := bs } ts).2.bytes } := by
  induction ts generalizing bs with
  | nil => rfl
  | cons t ts ih =>
      cases t with
      | arrive chunk =>
          rw [turns_arrive]
          exact ih (bs ++ chunk)
      | receive coming =>
          rcases turns_receive bs coming ts with ⟨w, rest, -, hturns⟩ | ⟨-, hturns⟩
          · rw [hturns]
            exact ih rest
          · rw [hturns]
            exact ih []

theorem answers_cases (bs : List UInt8) (ts : List Turn) :
    ∀ a ∈ (turns { bytes := bs } ts).1, (∃ w, a = .ok w) ∨ a = .error (.io .unavailable) := by
  induction ts generalizing bs with
  | nil => exact fun a ha => absurd ha List.not_mem_nil
  | cons t ts ih =>
      cases t with
      | arrive chunk =>
          rw [turns_arrive]
          exact ih (bs ++ chunk)
      | receive coming =>
          rcases turns_receive bs coming ts with ⟨w, rest, -, hturns⟩ | ⟨-, hturns⟩
          · rw [hturns]
            exact List.forall_mem_cons.mpr ⟨Or.inl ⟨w, rfl⟩, ih rest⟩
          · rw [hturns]
            exact List.forall_mem_cons.mpr ⟨Or.inr rfl, ih []⟩

/-- Calls with nothing else between them give all words that are there. -/
theorem words_of_calls (bs : List UInt8) {k : Nat} (hk : bs.length / 4 ≤ k) :
    wordsOf (turns { bytes := bs } (List.replicate k (.receive []))).1 =
      Payload.wholeWords bs := by
  induction k generalizing bs with
  | zero =>
      rw [Payload.wholeWords_of_short (by omega)]
      rfl
  | succ k ih =>
      rw [List.replicate_succ]
      rcases turns_receive bs [] (List.replicate k (.receive [])) with
        ⟨w, rest, hbytes, hturns⟩ | ⟨hshort, hturns⟩
      · have hlen := length_of_word hbytes
        rw [List.flatten_nil, List.append_nil] at hbytes
        rw [List.flatten_nil, List.length_nil] at hlen
        have hfirst := Payload.wholeWords_flatMap_bytes_append [w] rest
        rw [List.flatMap_singleton] at hfirst
        rw [hturns, hbytes, hfirst, wordsOf_ok, ih rest (by omega)]
        rfl
      · rw [List.flatten_nil, List.append_nil] at hshort
        rw [hturns, Payload.wholeWords_of_short hshort, wordsOf_error]
        exact ih [] (Nat.zero_le k)

/-- More bytes come in, and all that is there is read. -/
def readOn (later : List UInt8) (calls : Nat) : List Turn :=
  .arrive later :: List.replicate calls (.receive [])

theorem words_of_readOn (ts : List Turn) (later : List UInt8) {calls : Nat}
    (hcalls : (arrived ts ++ later).length ≤ calls) :
    wordsOf (turns {} (ts ++ readOn later calls)).1 =
      wordsOf (turns {} ts).1 ++ Payload.wholeWords ((turns {} ts).2.bytes ++ later) := by
  have hle := length_left_le [] ts
  have hlive := turns_live [] ts
  rw [List.length_append] at hcalls
  rw [List.length_nil, Nat.zero_add] at hle
  have hread := words_of_calls ((turns {} ts).2.bytes ++ later) (k := calls) (by
    rw [List.length_append]
    omega)
  rw [turns_append, readOn, hlive, turns_arrive, wordsOf, List.filterMap_append, ← hread]
  rfl

end

/-- A call gives a word or times out.  All bytes are in the words that were given or still
there exactly when every timeout falls between two words, and exactly then the words are
those of the whole stream, whatever comes behind. -/
theorem words_eq_iff_timeoutsBetween (ts : List Turn) :
    (∀ a ∈ (turns {} ts).1, (∃ w, a = .ok w) ∨ a = .error (.io .unavailable)) ∧
      ((wordsOf (turns {} ts).1).flatMap Payload.bytes ++ (turns {} ts).2.bytes = arrived ts ↔
        TimeoutsBetween 0 ts) ∧
      ((∀ later, wordsOf (turns {} (ts ++ readOn later (arrived ts ++ later).length)).1 =
          Payload.wholeWords (arrived ts ++ later)) ↔ TimeoutsBetween 0 ts) := by
  refine ⟨answers_cases [] ts, ⟨fun h => ?_, bytes_of_timeoutsBetween []⟩,
    fun h => ?_, fun h later => ?_⟩
  · have hlen := congrArg List.length h
    rw [List.length_append, Payload.length_flatMap_bytes] at hlen
    exact timeoutsBetween_of_length [] (by rw [List.length_nil]; omega)
  · -- Where the stream ends with a whole word, every byte that is missing is missed.
    have hwords := congrArg List.length (h (List.replicate (3 * (arrived ts).length) 0))
    rw [words_of_readOn ts _ (Nat.le_refl _), List.length_append, Payload.length_wholeWords,
      Payload.length_wholeWords, List.length_append, List.length_append,
      List.length_replicate] at hwords
    exact timeoutsBetween_of_length [] (by rw [List.length_nil]; omega)
  · rw [words_of_readOn ts later (Nat.le_refl _), ← List.nil_append (arrived ts),
      ← bytes_of_timeoutsBetween [] h, List.append_assoc,
      Payload.wholeWords_flatMap_bytes_append]

/-- The reader waits on an empty stream, and twice for the rest of a word. -/
theorem words_eq_iff_timeoutsBetween_late :
    let ts : List Turn := [.receive [], .arrive [0x0B], .receive [[0x00], [0x04, 0x0C, 0x0B]],
      .receive [[0x00, 0x04, 0x0C]], .receive [], .arrive [0x05]]
    (turns {} ts).1 = [.error (.io .unavailable), .ok 0x0C04000B, .ok 0x0C04000B,
        .error (.io .unavailable)] ∧
      TimeoutsBetween 0 ts ∧
      ((∀ a ∈ (turns {} ts).1, (∃ w, a = .ok w) ∨ a = .error (.io .unavailable)) ∧
        wordsOf (turns {} (ts ++ readOn [0x00, 0x00, 0x00] 12)).1 =
          [0x0C04000B, 0x0C04000B, 0x00000005]) := by
  intro ts
  have hbetween : TimeoutsBetween 0 ts :=
    .timeout [] rfl (.arrive _ (.word (m := 1) _ rfl (.word (m := 0) _ rfl
      (.timeout [] rfl (.arrive _ (.nil 1))))))
  obtain ⟨hanswers, -, hwords⟩ := words_eq_iff_timeoutsBetween ts
  have hcalls : (turns {} ts).1 = [.error (.io .unavailable), .ok 0x0C04000B, .ok 0x0C04000B,
      .error (.io .unavailable)] := by
    simp only [ts, turns, receiveWaiting_eq]
    rfl
  exact ⟨hcalls, hbetween, hanswers, hwords.mpr hbetween [0x00, 0x00, 0x00]⟩

/-- A call that times out with two bytes of a word takes them along.  Two words come in, and
a reset request is received that is neither of them. -/
theorem words_of_timeout_inside :
    let ts : List Turn := [.arrive [0x00, 0x00], .receive [],
      .arrive [0x0B, 0x00, 0x04, 0x0C, 0x00, 0x00], .receive [], .receive []]
    arrived ts = [0x000B0000, 0x00000C04].flatMap Payload.bytes ∧
      (turns {} ts).1 = [.error (.io .unavailable), .ok 0x0C04000B, .error (.io .unavailable)] ∧
      Payload.wholeWords (arrived ts) = [0x000B0000, 0x00000C04] ∧
      wordsOf (turns {} ts).1 ≠ Payload.wholeWords (arrived ts) := by
  intro ts
  have hcalls : (turns {} ts).1 =
      [.error (.io .unavailable), .ok 0x0C04000B, .error (.io .unavailable)] := by
    simp only [ts, turns, receiveWaiting_eq]
    rfl
  refine ⟨rfl, hcalls, rfl, ?_⟩
  rw [hcalls]
  decide

end ByteQueue

end WordFifo
