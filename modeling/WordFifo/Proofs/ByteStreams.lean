import WordFifo.ByteStream
import WordFifo.Proofs.RoundTrip

/-!
# Words over a stream of bytes

One end of a stream writes bytes, in calls of any size, and is then closed.  The
other end reads four bytes at a time.

A receive is an exact read of four bytes (`receive_eq_readExact`).  So what was
written is cut into words wherever a call ended, and a rest of fewer than four
bytes is the end of the stream.  The stream holds the whole words of its bytes
(`holds_ended`), and then a reader cannot tell it from a list of these words.

`Delivered` is what can be seen of that, and it holds after every run of both
ends (`delivered_run`).
-/

namespace WordFifo

/-! ## Whole words -/

namespace Payload

/-- The words of some bytes, four bytes each.  A rest of fewer is dropped. -/
def wholeWords : List UInt8 → List UInt32
  | [] => []
  | [_] => []
  | [_, _] => []
  | [_, _, _] => []
  | a :: b :: c :: d :: rest => word a b c d :: wholeWords rest

theorem toNat_word (a b c d : UInt8) :
    (word a b c d).toNat = a.toNat + b.toNat * 2 ^ 8 + c.toNat * 2 ^ 16 + d.toNat * 2 ^ 24 := by
  have ha := a.toNat_lt
  have hb := b.toNat_lt
  have hc := c.toNat_lt
  have hd := d.toNat_lt
  simp [word]
  omega

theorem wholeWords_of_short {bs : List UInt8} (h : bs.length < 4) : wholeWords bs = [] := by
  match bs with
  | [] | [_] | [_, _] | [_, _, _] => rfl
  | _ :: _ :: _ :: _ :: rest => simp only [List.length_cons] at h; omega

theorem length_wholeWords (bs : List UInt8) : (wholeWords bs).length = bs.length / 4 := by
  fun_induction wholeWords bs with
  | case5 a b c d rest ih =>
      simp only [List.length_cons, ih]
      omega
  | _ => simp

/-- The word at a place has the four bytes at that place, the least significant first. -/
theorem getElem?_wholeWords (bs : List UInt8) {i : Nat} (h : 4 * i + 3 < bs.length) :
    (wholeWords bs)[i]? = some (word bs[4 * i] bs[4 * i + 1] bs[4 * i + 2] bs[4 * i + 3]) := by
  fun_induction wholeWords bs generalizing i with
  | case5 a b c d rest ih =>
      cases i with
      | zero => rfl
      | succ i =>
          simp only [List.length_cons] at h
          rw [List.getElem?_cons_succ, ih (by omega)]
          rfl
  | _ =>
      simp only [List.length_cons, List.length_nil] at h
      omega

/-- The bytes of words in front of others are read as these words. -/
theorem wholeWords_flatMap_bytes_append (ws : List UInt32) (bs : List UInt8) :
    wholeWords (ws.flatMap bytes ++ bs) = ws ++ wholeWords bs := by
  induction ws with
  | nil => rfl
  | cons w ws ih =>
      simp only [List.flatMap_cons, bytes, List.cons_append, List.nil_append, wholeWords,
        word_bytes, ih]

theorem wholeWords_flatMap_bytes (ws : List UInt32) : wholeWords (ws.flatMap bytes) = ws := by
  have h := wholeWords_flatMap_bytes_append ws []
  rwa [List.append_nil, wholeWords, List.append_nil] at h

/-- The bytes of words, cut anywhere, are the words in front of the cut. -/
theorem wholeWords_take_flatMap_bytes (ws : List UInt32) (n : Nat) :
    wholeWords ((ws.flatMap bytes).take n) = ws.take (n / 4) := by
  induction ws generalizing n with
  | nil => rw [List.flatMap_nil, List.take_nil, List.take_nil, wholeWords]
  | cons w ws ih =>
      by_cases hn : n < 4
      · rw [wholeWords_of_short (by rw [List.length_take]; omega), Nat.div_eq_of_lt hn,
          List.take_zero]
      · obtain ⟨k, rfl⟩ := Nat.exists_eq_add_of_le' (Nat.le_of_not_lt hn)
        have hk : (k + 4) / 4 = k / 4 + 1 := by omega
        simp only [List.flatMap_cons, bytes, List.cons_append, List.nil_append,
          List.take_succ_cons, wholeWords, word_bytes, hk, ih]

end Payload

namespace ByteQueue

/-! ## Exact reads -/

/-- Reads until `need` bytes are there.  None is the end of the stream before that. -/
def readExact (q : ByteQueue) (need : Nat) : Except IoError (Option (List UInt8)) × ByteQueue :=
  if need = 0 then (.ok (some []), q)
  else
    match q.read need with
    | (.error e, q) => (.error e, q)
    | (.ok [], q) => (.ok none, q)
    | (.ok (b :: bs), q) =>
      match readExact q (need - (bs.length + 1)) with
      | (.ok (some later), q) => (.ok (some (b :: bs ++ later)), q)
      | (result, q) => (result, q)
termination_by need

theorem readExact_of_empty {q : ByteQueue} {need : Nat} (h : q.bytes = []) (hneed : need ≠ 0) :
    q.readExact need = match q.readEmpty with
      | (.ok _, q) => (.ok none, q)
      | (.error e, q) => (.error e, q) := by
  obtain ⟨bytes, writerOpen, readerOpen, reset⟩ := q
  subst h
  rw [readExact, if_neg hneed]
  cases reset <;> cases writerOpen <;> rfl

/-- Where too few bytes are there, they are all taken before it shows. -/
theorem readExact_of_short {q : ByteQueue} {need : Nat} (h : q.bytes.length < need) :
    q.readExact need = match ({ q with bytes := [] } : ByteQueue).readEmpty with
      | (.ok _, q) => (.ok none, q)
      | (.error e, q) => (.error e, q) := by
  obtain ⟨bytes, writerOpen, readerOpen, reset⟩ := q
  have hneed : need ≠ 0 := Nat.ne_zero_of_lt h
  cases bytes with
  | nil => exact readExact_of_empty rfl hneed
  | cons b bs =>
      have hread : ({ bytes := b :: bs, writerOpen, readerOpen, reset } : ByteQueue).read need =
          (.ok (b :: bs), { bytes := [], writerOpen, readerOpen, reset }) := by
        simp only [read, List.isEmpty_cons, Bool.false_eq_true, if_false,
          List.take_of_length_le (Nat.le_of_lt h), List.drop_of_length_le (Nat.le_of_lt h)]
      rw [readExact, if_neg hneed, hread]
      have hempty := readExact_of_empty
        (q := { bytes := [], writerOpen, readerOpen, reset }) rfl (Nat.sub_ne_zero_of_lt h)
      rw [List.length_cons] at hempty
      simp only [hempty]
      cases reset <;> cases writerOpen <;> rfl

/-- Where enough bytes are there, no more are taken. -/
theorem readExact_of_enough {q : ByteQueue} {need : Nat} (h : need ≤ q.bytes.length) :
    q.readExact need =
      (.ok (some (q.bytes.take need)), { q with bytes := q.bytes.drop need }) := by
  obtain ⟨bytes, writerOpen, readerOpen, reset⟩ := q
  rw [readExact]
  cases need with
  | zero => rfl
  | succ need =>
      cases bytes with
      | nil => cases h
      | cons b bs =>
          -- One read takes them all.
          have hlen : (bs.take need).length = need :=
            List.length_take_of_le (Nat.le_of_succ_le_succ h)
          simp only [read, Nat.succ_ne_zero, if_false, List.isEmpty_cons, Bool.false_eq_true,
            List.take_succ_cons, List.drop_succ_cons, hlen, Nat.sub_self]
          rw [readExact, if_pos rfl]
          simp only [List.append_nil]

/-- A receive reads exactly four bytes. -/
theorem receive_eq_readExact (q : ByteQueue) :
    q.receive =
      match q.readExact 4 with
      | (.ok (some [a, b, c, d]), q) => (.ok (Payload.word a b c d), q)
      | (.ok _, q) => (.error .closed, q)
      | (.error e, q) => (.error (.io e), q) := by
  by_cases hshort : q.bytes.length < 4
  · rw [readExact_of_short hshort]
    obtain ⟨bytes, writerOpen, readerOpen, reset⟩ := q
    match bytes with
    | [] | [_] | [_, _] | [_, _, _] => cases reset <;> cases writerOpen <;> rfl
    | _ :: _ :: _ :: _ :: rest => simp only [List.length_cons] at hshort; omega
  · obtain ⟨bytes, writerOpen, readerOpen, reset⟩ := q
    match bytes with
    | [] | [_] | [_, _] | [_, _, _] => simp at hshort
    | a :: b :: c :: d :: rest => simp [receive, readExact, read]

/-! ## A stream that was closed -/

theorem ended_nil : Source.Ended (ended []) := Source.ended_of_receive_self rfl

/-- A stream that was closed holds the whole words of its bytes. -/
theorem holds_ended (bs : List UInt8) : Source.Holds (ended bs) (Payload.wholeWords bs) := by
  fun_induction Payload.wholeWords bs with
  | case5 a b c d rest ih =>
      obtain ⟨t, hg, ht⟩ := ih
      exact ⟨t, .cons rfl hg, ht⟩
  | _ =>
      refine ⟨_, .nil, fun n => ?_⟩
      cases n with
      | zero => rfl
      | succ n => exact ended_nil n

end ByteQueue

/-! ## Runs -/

namespace StreamPair

/-- What is done at an end. -/
inductive Action where
  | send (header : UInt32) (extra : List UInt32)
  | sendWord (word : UInt32)
  /-- Writes bytes as they are. -/
  | write (bytes : List UInt8)
  | receive
  /-- Reads at most so many bytes as they are. -/
  | read (count : Nat)
deriving DecidableEq, Repr

namespace Action

/-- The bytes that an action writes. -/
def bytes : Action → List UInt8
  | .send header extra => ByteQueue.encode header extra
  | .sendWord word => ByteQueue.encode word []
  | .write bytes => bytes
  | .receive => []
  | .read _ => []

/-- Whether an action takes bytes off the stream. -/
def takes : Action → Bool
  | .receive => true
  | .read _ => true
  | _ => false

end Action

/-- An action at an end. -/
def act (p : StreamPair) (side : Side) : Action → StreamPair
  | .send header extra => p.setOutbound side (Sink.send (p.outbound side) header extra).2
  | .sendWord word => p.setOutbound side (Sink.sendWord (p.outbound side) word).2
  | .write bytes => p.setOutbound side ((p.outbound side).write bytes).2
  | .receive => p.setInbound side (p.inbound side).receive.2
  | .read count => p.setInbound side ((p.inbound side).read count).2

/-- Actions of both ends, one after the other, on a new pair. -/
def run (acts : List (Side × Action)) : StreamPair :=
  acts.foldl (fun p a => p.act a.1 a.2) {}

/-- The bytes that an end writes in a row of actions. -/
def written (side : Side) (acts : List (Side × Action)) : List UInt8 :=
  acts.flatMap fun a => if a.1 = side then a.2.bytes else []

section

variable {p : StreamPair} {side : Side} {bs : List UInt8}

theorem outbound_setOutbound (p : StreamPair) (side : Side) (q : ByteQueue) :
    (p.setOutbound side q).outbound side = q := by cases side <;> rfl

theorem outbound_setInbound (p : StreamPair) (side : Side) (q : ByteQueue) :
    (p.setInbound side q).outbound side = p.outbound side := by cases side <;> rfl

theorem outbound_setOutbound_peer (p : StreamPair) (side : Side) (q : ByteQueue) :
    (p.setOutbound side.peer q).outbound side = p.outbound side := by cases side <;> rfl

/-- What an end writes goes behind the bytes it wrote before. -/
theorem outbound_act (h : p.outbound side = { bytes := bs }) (a : Action) :
    (p.act side a).outbound side = { bytes := bs ++ a.bytes } := by
  cases a with
  | send header extra =>
      rw [act, outbound_setOutbound, h]
      simp [Sink.send, ByteQueue.write, Action.bytes]
  | sendWord word =>
      rw [act, outbound_setOutbound, h]
      simp [Sink.sendWord, Sink.send, ByteQueue.write, Action.bytes]
  | write bytes =>
      rw [act, outbound_setOutbound, h]
      simp [ByteQueue.write, Action.bytes]
  | receive => rw [act, outbound_setInbound, h, Action.bytes, List.append_nil]
  | read count => rw [act, outbound_setInbound, h, Action.bytes, List.append_nil]

/-- What the other end writes does not go there. -/
theorem outbound_act_peer (p : StreamPair) (side : Side) {a : Action} (ha : a.takes = false) :
    (p.act side.peer a).outbound side = p.outbound side := by
  cases a with
  | send header extra => rw [act, outbound_setOutbound_peer]
  | sendWord word => rw [act, outbound_setOutbound_peer]
  | write bytes => rw [act, outbound_setOutbound_peer]
  | receive => cases ha
  | read count => cases ha

/-- As long as its peer takes nothing, all that an end has written is on its way. -/
theorem outbound_foldl {acts : List (Side × Action)}
    (hpeer : ∀ a ∈ acts, a.1 = side.peer → a.2.takes = false)
    (h : p.outbound side = { bytes := bs }) :
    (acts.foldl (fun p a => p.act a.1 a.2) p).outbound side =
      { bytes := bs ++ written side acts } := by
  induction acts generalizing p bs with
  | nil => rw [List.foldl_nil, h, written, List.flatMap_nil, List.append_nil]
  | cons a acts ih =>
      have hlater := fun b hb => hpeer b (List.mem_cons_of_mem a hb)
      rw [List.foldl_cons, written, List.flatMap_cons, ← List.append_assoc, ← written]
      apply ih hlater
      rcases side.eq_or_eq_peer a.1 with hside | hside
      · rw [if_pos hside.symm, ← hside]
        exact outbound_act h a.2
      · have hother : a.1 = side.peer := by rw [hside, Side.peer_peer]
        have hne : ¬ a.1 = side := by rw [hother]; exact Side.peer_ne side
        rw [if_neg hne, List.append_nil, hother,
          outbound_act_peer p side (hpeer a List.mem_cons_self hother), h]

/-- An end that was closed with nothing unread leaves a stream that has come to its end. -/
theorem inbound_close (h : p.outbound side = { bytes := bs })
    (hunread : (p.inbound side).bytes = []) :
    (p.close side).inbound side.peer = ByteQueue.ended bs := by
  obtain ⟨fromA, fromB⟩ := p
  cases side with
  | a =>
      cases h
      simp only [inbound, outbound, Side.peer] at hunread
      simp [close, inbound, outbound, setInbound, setOutbound, Side.peer, ByteQueue.ended, hunread]
  | b =>
      cases h
      simp only [inbound, outbound, Side.peer] at hunread
      simp [close, inbound, outbound, setInbound, setOutbound, Side.peer, ByteQueue.ended, hunread]

end

/-! ## What the reader gets -/

/-- What can be seen of a stream on which some bytes were sent before it was closed, where `ws`
are the words of the bytes. -/
structure Delivered (sent : List UInt8) (ws : List UInt32) (q : ByteQueue) : Prop where
  length_eq : ws.length = sent.length / 4
  /-- Each word is four bytes in a row, the least significant first. -/
  word : ∀ i (h : 4 * i + 3 < sent.length), ∃ w, ws[i]? = some w ∧
    w.toNat = sent[4 * i].toNat + sent[4 * i + 1].toNat * 2 ^ 8 + sent[4 * i + 2].toNat * 2 ^ 16 +
      sent[4 * i + 3].toNat * 2 ^ 24
  /-- They are received in order, and `closed` follows for ever. -/
  receive : ∀ i, (Source.receive (Source.after i q)).1 = (ws[i]?).elim (.error .closed) .ok
  /-- A reader is given what a list of the words would give it. -/
  calls : ∀ limits, (Reader.calls limits q).1 = (Reader.calls limits ws).1
  /-- A message that ends behind its first word is cut short, also inside a word. -/
  truncated : ∀ (f : Frame) (limit n : Nat), f.message.refused? limit = none →
    sent = (f.words.flatMap Payload.bytes).take n → 4 ≤ n → n < 4 * f.encoded.wordCount →
    (Reader.readMessage limit q).result = .error (.truncated (f.encoded.wordCount - n / 4))

theorem delivered_ended (sent : List UInt8) :
    Delivered sent (Payload.wholeWords sent) (ByteQueue.ended sent) := by
  have hholds := ByteQueue.holds_ended sent
  exact {
    length_eq := Payload.length_wholeWords sent
    word := fun i h => ⟨_, Payload.getElem?_wholeWords sent h, Payload.toNat_word _ _ _ _⟩
    receive := Source.receive_after_of_holds hholds
    calls := fun limits => Reader.calls_of_holds limits hholds
    truncated := by
      intro f limit n hadmits hsent hfour hcut
      obtain ⟨t, hg, ht⟩ := hholds
      obtain ⟨u, hr, -⟩ := ht.receive
      rw [hsent, Payload.wholeWords_take_flatMap_bytes, ← hsent] at hg
      obtain ⟨hresult, -⟩ := f.readMessage_of_cut limit (by omega) (by omega) hg hr
      rw [hresult, Message.cutAnswer, hadmits] }

/-- Whatever an end writes, and in whatever calls, its peer receives the words of all its
bytes once the end is closed.  The end has nothing unread then, and its peer has not
begun to read. -/
theorem delivered_run (acts : List (Side × Action)) (side : Side)
    (hpeer : ∀ a ∈ acts, a.1 = side.peer → a.2.takes = false)
    (hunread : ((run acts).inbound side).bytes = []) :
    let sent := written side acts
    Delivered sent (Payload.wholeWords sent) (((run acts).close side).inbound side.peer) := by
  intro sent
  have hstart : ({} : StreamPair).outbound side = { bytes := [] } := by cases side <;> rfl
  have hrun : (run acts).outbound side = { bytes := sent } := outbound_foldl hpeer hstart
  rw [inbound_close hrun hunread]
  exact delivered_ended sent

/-- A block in three writes that cut its words, closed inside its last word.  The word in
front of that looks like a reset request. -/
theorem delivered_run_cut :
    let acts : List (Side × Action) := [(.b, .sendWord 7), (.a, .write [0x05, 0x00]),
      (.a, .receive), (.a, .write [0x00, 0x10, 0x0B, 0x00, 0x04, 0x0C]), (.a, .write [0xFF, 0x00])]
    ((run acts).inbound .a).bytes = [] ∧
      (Reader.calls [5, 5] (((run acts).close .a).inbound .b)).1 =
        [.error (.truncated 1), .error (.carrier .closed)] := by
  intro acts
  have hunread : ((run acts).inbound .a).bytes = [] := rfl
  have hpeer : ∀ a ∈ acts, a.1 = Side.a.peer → a.2.takes = false := by decide
  exact ⟨hunread, (delivered_run acts .a hpeer hunread).calls [5, 5]⟩

end StreamPair

end WordFifo
