import WordFifo.Proofs.RoundTrip

/-!
# Messages over a loopback pair

Both ends write messages, read messages and are dropped, in any order.  A write
is one action.  A read is not.  It receives word after word, and between two
words the other end may do anything.

`Past.taken` holds the words that the read under way has received.  With every
word more it is the reader itself that says how far they go (`attempt`).  Where
the reader would wait for another word, so does the read.  Otherwise the read is
over with the reader's result, and words that the reader left are the first of
the queue again (`State.resume`).

The queue holds whole frames, but for the words that the read under way has taken
off the first (`Whole`).  Every move keeps this, so a read never finds half a
message, and `intact_run` says what its results are.
-/

namespace WordFifo

/-- The queue with words in front of the others. -/
def LoopbackQueue.putBack (q : LoopbackQueue) (ws : List UInt32) : LoopbackQueue :=
  { q with words := ws ++ q.words }

namespace Exchange

open Reader

/-! ## Reads word by word -/

/-- A read of words with no others behind them. -/
def attempt (taken : List UInt32) (senderAlive : Bool) : Reading LoopbackQueue Message :=
  readMessage Message.defaultLimit { words := taken, senderAlive := senderAlive }

/-- A read that has taken nothing is told that the sender is gone. -/
theorem attempt_nil :
    (attempt [] false).result = .error (.carrier .closed) ∧ (attempt [] false).rest.words = [] :=
  ⟨rfl, rfl⟩

theorem gives_attempt (taken : List UInt32) :
    Source.Gives ({ words := taken } : LoopbackQueue) taken {} :=
  Source.gives_queue [] taken (List.append_nil taken).symm

end Exchange

namespace Frame

open Reader Exchange

theorem length_words_pos (f : Frame) : 0 < f.words.length := Nat.succ_pos _

/-- A source that gives a frame of the default limit gives its message, and the
words behind it are left. -/
theorem readMessage_default {σ : Type} [Source σ] {s t : σ} (f : Frame)
    (hf : f.limit = Message.defaultLimit) (h : Source.Gives s f.words t) :
    (readMessage Message.defaultLimit s).result = .ok f.message.received ∧
      (readMessage Message.defaultLimit s).rest = t := by
  rw [← hf, ← f.packed.answer_eq]
  exact f.readMessage_of_gives f.limit h

/-- A whole frame is what the read waits for, and nothing of it is left. -/
theorem attempt_words (f : Frame) (hf : f.limit = Message.defaultLimit) :
    (attempt f.words true).result = .ok f.message.received ∧
      (attempt f.words true).rest.words = [] := by
  obtain ⟨hresult, hrest⟩ := f.readMessage_default hf (gives_attempt f.words)
  exact ⟨hresult, congrArg LoopbackQueue.words hrest⟩

/-- Where words of a frame are missing, the reader waits for more. -/
theorem attempt_of_prefix (f : Frame) {v : List UInt32} (h : v <+: f.words)
    (hlt : v.length < f.words.length) :
    (attempt v true).result = .error (.carrier LoopbackQueue.wouldBlock) := by
  have hend : Source.receive ({} : LoopbackQueue) = (.error LoopbackQueue.wouldBlock, {}) := rfl
  cases v with
  | nil => exact (readMessage_of_end Message.defaultLimit hend).1
  | cons w ws =>
      obtain ⟨rest, hrest⟩ := h
      obtain ⟨rfl, -⟩ := List.cons.inj hrest
      have hlen : ws.length < (Kind.ofWord f.encoded.header).extraWords :=
        f.packed.extraWords ▸ Nat.lt_of_succ_lt_succ hlt
      have hother : LoopbackQueue.wouldBlock ≠ .closed := by decide
      rw [attempt, (readMessage_of_stop Message.defaultLimit (gives_attempt _) hend hlen).1,
        decodeStopped_of_ne_closed hother, stopped_of_ne_closed hother]

/-- Words are taken off a stream one by one.  The next one makes the first frame
whole, or there are more words behind it. -/
theorem stream_take {taken rest : List UInt32} {w : UInt32} {fs : List Frame}
    (h : taken ++ w :: rest = stream fs)
    (hlt : ∀ f ∈ fs.head?, taken.length < f.words.length) :
    ∃ f fs', fs = f :: fs' ∧
      (taken ++ [w] = f.words ∧ rest = stream fs' ∨
        (taken ++ [w]).length < f.words.length ∧ taken ++ [w] <+: f.words ∧ rest ≠ []) := by
  cases fs with
  | nil => exact absurd h (by simp [stream])
  | cons f fs =>
      have hlen : (taken ++ [w]).length ≤ f.words.length := by
        rw [List.length_append]
        exact hlt f rfl
      rw [stream_cons, List.append_cons] at h
      refine ⟨f, fs, rfl, ?_⟩
      rcases Nat.lt_or_eq_of_le hlen with hshort | hfull
      · have hprefix : taken ++ [w] <+: f.words :=
          List.prefix_of_prefix_length_le ⟨rest, h⟩ (List.prefix_append _ _) hlen
        refine Or.inr ⟨hshort, hprefix, ?_⟩
        rintro rfl
        have hall := congrArg List.length h
        simp only [List.append_nil, List.length_append] at hall hshort
        omega
      · exact Or.inl (List.append_inj h hfull)

end Frame

namespace Exchange

open WordFifo.Frame Reader

/-! ## The two ends -/

/-- What was done at an end. -/
structure Past where
  /-- The messages that were written and not refused. -/
  accepted : List Message := []
  /-- The words that the read under way has received. -/
  taken : List UInt32 := []
  /-- What the reads gave that are over. -/
  results : List (Except MessageError Message) := []

/-- A pair, and what was done at its ends. -/
structure State where
  pair : LoopbackPair := {}
  past : Side → Past := fun _ => {}

/-- An end writes a message, receives a word for a read, or is dropped. -/
inductive Move where
  | write (m : Message)
  | receive
  | drop

namespace State

/-- The state with the past of an end replaced. -/
def record (st : State) (side : Side) (past : Past) : State :=
  { st with past := fun other => if other = side then past else st.past other }

def write (st : State) (side : Side) (m : Message) : State :=
  let written := Writer.writeMessage Message.defaultLimit m (st.pair.outbound side)
  let st := { st with pair := st.pair.setOutbound side written.sink }
  match written.result with
  | .ok _ => st.record side { st.past side with accepted := (st.past side).accepted ++ [m] }
  | .error _ => st

/-- The read under way has received some words.  It waits for more, or it is over
and leaves words to the next one. -/
def resume (st : State) (side : Side) (taken : List UInt32) (senderAlive : Bool) : State :=
  let reading := attempt taken senderAlive
  let past := st.past side
  if waits reading.result then st.record side { past with taken := taken }
  else
    let queue := (st.pair.inbound side).putBack reading.rest.words
    { st with pair := st.pair.setInbound side queue }.record side
      { past with taken := [], results := past.results ++ [reading.result] }

/-- Receives a word for the read under way.  A new one begins if there is none. -/
def receive (st : State) (side : Side) : State :=
  let taken := (st.past side).taken
  match st.pair.receive side with
  | (.word w, pair) => { st with pair := pair }.resume side (taken ++ [w]) true
  | (.waiting, pair) => { st with pair := pair }
  | (.closed, pair) => { st with pair := pair }.resume side taken false

/-- A move at an end.  Where the end is gone nothing happens. -/
def step (st : State) (move : Side × Move) : State :=
  if st.pair.isAlive move.1 then
    match move.2 with
    | .write m => st.write move.1 m
    | .receive => st.receive move.1
    | .drop => { st with pair := st.pair.drop move.1 }
  else st

end State

/-- Moves of both ends, one after the other, from a new pair. -/
def run (moves : List (Side × Move)) : State := moves.foldl State.step {}

/-! ## What the queue holds -/

/-- How one direction stands.  The frames of `done` were read, and those of
`coming` are still to be. -/
structure Whole (done coming : List Frame) (q : LoopbackQueue) (accepted : List Message)
    (taken : List UInt32) (results : List (Except MessageError Message)) : Prop where
  limit_eq : ∀ f ∈ done ++ coming, f.limit = Message.defaultLimit
  accepted_eq : accepted = (done ++ coming).map Frame.message
  /-- The read under way has taken the first words. -/
  words_eq : taken ++ q.words = stream coming
  /-- It has not taken the whole of the first frame. -/
  taken_lt : ∀ f ∈ coming.head?, taken.length < f.words.length
  /-- Behind the messages the reads give `closed`, when there are no more. -/
  results_eq : ∃ n, results = done.map (fun f => .ok f.message.received) ++
      List.replicate n (.error (.carrier .closed)) ∧
    (n ≠ 0 → coming = [] ∧ q.senderAlive = false)

variable {done coming : List Frame} {q : LoopbackQueue} {accepted : List Message}
  {taken : List UInt32} {results : List (Except MessageError Message)}

namespace Whole

theorem start : Whole [] [] {} [] [] [] where
  limit_eq := fun _ hmem => absurd hmem List.not_mem_nil
  accepted_eq := rfl
  words_eq := rfl
  taken_lt := nofun
  results_eq := ⟨0, rfl, fun h => absurd rfl h⟩

/-- Without words in the queue no message is on its way, and no read has begun. -/
theorem of_empty (h : Whole done coming q accepted taken results) (hwords : q.words = []) :
    coming = [] ∧ taken = [] := by
  have heq := h.words_eq
  rw [hwords, List.append_nil] at heq
  cases hc : coming with
  | nil =>
      rw [hc] at heq
      exact ⟨rfl, heq⟩
  | cons f fs =>
      have hlt := h.taken_lt f (by rw [hc]; rfl)
      rw [heq, hc, stream_cons, List.length_append] at hlt
      omega

theorem write (h : Whole done coming q accepted taken results) (halive : q.senderAlive)
    {f : Frame} (hf : f.limit = Message.defaultLimit) :
    Whole done (coming ++ [f]) (q.push f.encoded.header f.encoded.extra) (accepted ++ [f.message])
      taken results where
  limit_eq := by
    rw [← List.append_assoc]
    exact List.forall_mem_append.mpr ⟨h.limit_eq, List.forall_mem_singleton.mpr hf⟩
  accepted_eq := by
    rw [h.accepted_eq, ← List.append_assoc, @List.map_append _ _ _ _ [f]]
    rfl
  words_eq := by
    show taken ++ (q.words ++ f.words) = stream (coming ++ [f])
    rw [← List.append_assoc, h.words_eq, stream, stream, List.flatMap_append,
      List.flatMap_singleton]
  taken_lt := by
    cases hc : coming with
    | nil =>
        have heq := h.words_eq
        rw [hc] at heq
        rw [(List.append_eq_nil_iff.mp heq).1]
        intro g _
        exact g.length_words_pos
    | cons g gs =>
        have hlt := h.taken_lt
        rw [hc] at hlt
        exact hlt
  results_eq := by
    obtain ⟨n, hresults, hend⟩ := h.results_eq
    refine ⟨n, hresults, fun hn => ?_⟩
    rw [(hend hn).2] at halive
    cases halive

theorem leave (h : Whole done coming q accepted taken results) :
    Whole done coming q.dropSender accepted taken results where
  limit_eq := h.limit_eq
  accepted_eq := h.accepted_eq
  words_eq := h.words_eq
  taken_lt := h.taken_lt
  results_eq := by
    obtain ⟨n, hresults, hend⟩ := h.results_eq
    exact ⟨n, hresults, fun hn => ⟨(hend hn).1, rfl⟩⟩

/-- A word that is there takes the read under way on, or to its end. -/
theorem take (h : Whole done coming q accepted taken results) {w : UInt32} {rest : List UInt32}
    (hwords : q.words = w :: rest) :
    ((attempt (taken ++ [w]) true).result = .error (.carrier LoopbackQueue.wouldBlock) ∧
        rest ≠ [] ∧ Whole done coming { q with words := rest } accepted (taken ++ [w]) results) ∨
      ∃ f fs, coming = f :: fs ∧ taken ++ [w] = f.words ∧
        (attempt (taken ++ [w]) true).result = .ok f.message.received ∧
        (attempt (taken ++ [w]) true).rest.words = [] ∧
        Whole (done ++ [f]) fs { q with words := rest } accepted []
          (results ++ [.ok f.message.received]) := by
  have heq := h.words_eq
  rw [hwords] at heq
  obtain ⟨f, fs, rfl, ⟨htaken, hrest⟩ | ⟨hshort, hprefix, hmore⟩⟩ := stream_take heq h.taken_lt
  · have hf : f.limit = Message.defaultLimit :=
      h.limit_eq f (List.mem_append_right _ List.mem_cons_self)
    have hframes : done ++ [f] ++ fs = done ++ f :: fs := (List.append_cons done f fs).symm
    obtain ⟨hresult, hleft⟩ := f.attempt_words hf
    refine Or.inr ⟨f, fs, rfl, htaken, htaken ▸ hresult, htaken ▸ hleft, ?_⟩
    exact {
      limit_eq := by rw [hframes]; exact h.limit_eq
      accepted_eq := by rw [hframes]; exact h.accepted_eq
      words_eq := hrest
      taken_lt := fun g _ => g.length_words_pos
      results_eq := by
        obtain ⟨n, hresults, hend⟩ := h.results_eq
        -- No read can have been told `closed` while this frame was there.
        have hn : n = 0 := Decidable.not_not.mp fun hn => nomatch (hend hn).1
        refine ⟨0, ?_, fun h0 => absurd rfl h0⟩
        rw [hresults, hn, List.map_append]
        simp }
  · refine Or.inl ⟨f.attempt_of_prefix hprefix hshort, hmore, ?_⟩
    exact {
      limit_eq := h.limit_eq
      accepted_eq := h.accepted_eq
      words_eq := by rw [← heq, ← List.append_cons]
      taken_lt := by
        intro g hg
        obtain rfl := Option.some.inj hg
        exact hshort
      results_eq := h.results_eq }

/-- A read that finds the end has taken no word. -/
theorem stop (h : Whole done coming q accepted taken results) (hwords : q.words = [])
    (hgone : q.senderAlive = false) :
    Whole done coming q accepted [] (results ++ [.error (.carrier .closed)]) := by
  obtain ⟨rfl, rfl⟩ := h.of_empty hwords
  exact {
    limit_eq := h.limit_eq
    accepted_eq := h.accepted_eq
    words_eq := h.words_eq
    taken_lt := h.taken_lt
    results_eq := by
      obtain ⟨n, hresults, -⟩ := h.results_eq
      refine ⟨n + 1, ?_, fun _ => ⟨rfl, hgone⟩⟩
      rw [hresults, List.replicate_succ', List.append_assoc] }

end Whole

/-! ## Moves -/

namespace State

variable {st : State} {d : Side}

@[simp] theorem past_record (st : State) (side : Side) (past : Past) :
    (st.record side past).past side = past := if_pos rfl

@[simp] theorem past_peer_record (st : State) (side : Side) (past : Past) :
    (st.record side past).past side.peer = st.past side.peer := if_neg (Side.peer_ne side)

@[simp] theorem past_record_peer (st : State) (side : Side) (past : Past) :
    (st.record side.peer past).past side = st.past side := if_neg (Side.peer_ne side).symm

theorem step_of_gone {side : Side} (h : st.pair.isAlive side = false) (move : Move) :
    st.step (side, move) = st := by
  rw [step.eq_def]
  simp only [h, Bool.false_eq_true, if_false]

/-- A message that is refused changes nothing. -/
theorem step_write_of_refused {side : Side} {m : Message} {e : MessageError}
    (he : m.encode Message.defaultLimit = .error e) : st.step (side, .write m) = st := by
  cases h : st.pair.isAlive side with
  | false => exact step_of_gone h _
  | true =>
      simp only [step, h, if_true, write, Writer.writeMessage, he, LoopbackPair.setOutbound_outbound]

/-- All words of a message go into the queue at once. -/
theorem step_write (h : st.pair.isAlive d) {m : Message} {e : Encoded}
    (he : m.encode Message.defaultLimit = .ok e) :
    st.step (d, .write m) = { st with pair := st.pair.send d e.header e.extra }.record d
      { st.past d with accepted := (st.past d).accepted ++ [m] } := by
  simp only [step, h, if_true, write, Writer.writeMessage, he]
  rfl

theorem resume_of_waits {side : Side} {taken : List UInt32} {senderAlive : Bool}
    (h : (attempt taken senderAlive).result = .error (.carrier LoopbackQueue.wouldBlock)) :
    st.resume side taken senderAlive = st.record side { st.past side with taken := taken } := by
  rw [resume, h]
  rfl

/-- A read that leaves no word changes nothing but the past of its end. -/
theorem resume_of_over {side : Side} {taken : List UInt32} {senderAlive : Bool}
    {result : Except MessageError Message} (h : (attempt taken senderAlive).result = result)
    (hover : waits result = false) (hrest : (attempt taken senderAlive).rest.words = []) :
    st.resume side taken senderAlive =
      st.record side { st.past side with
        taken := [], results := (st.past side).results ++ [result] } := by
  have hpair : st.pair.setInbound side ((st.pair.inbound side).putBack []) = st.pair :=
    LoopbackPair.setOutbound_outbound st.pair side.peer
  simp only [resume, h, hrest, hover, hpair, Bool.false_eq_true, if_false]

theorem step_receive_of_word (h : st.pair.isAlive d.peer) {w : UInt32} {rest : List UInt32}
    (hwords : (st.pair.outbound d).words = w :: rest) :
    st.step (d.peer, .receive) =
      { st with pair := st.pair.setOutbound d { st.pair.outbound d with words := rest } }.resume
        d.peer ((st.past d.peer).taken ++ [w]) true := by
  simp only [step, h, if_true, receive, LoopbackPair.receive, LoopbackPair.inbound_peer,
    LoopbackPair.setInbound_peer, LoopbackQueue.pop, hwords]

theorem step_receive_of_empty (h : st.pair.isAlive d.peer)
    (hwords : (st.pair.outbound d).words = []) :
    st.step (d.peer, .receive) =
      if st.pair.isAlive d then st else st.resume d.peer (st.past d.peer).taken false := by
  simp only [step, h, if_true, receive, LoopbackPair.receive, LoopbackPair.inbound_peer,
    LoopbackPair.setInbound_peer, LoopbackQueue.pop, hwords]
  cases halive : (st.pair.outbound d).senderAlive with
  | false => simp [LoopbackPair.isAlive, halive]
  | true => simp [LoopbackPair.isAlive, halive]

theorem step_drop (h : st.pair.isAlive d) :
    st.step (d, .drop) = { st with pair := st.pair.drop d } := by
  simp only [step, h, if_true]

end State

end Exchange

end WordFifo
