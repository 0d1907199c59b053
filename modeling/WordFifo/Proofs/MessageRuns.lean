import WordFifo.Proofs.WholeMessages

/-!
# Runs of message exchanges

In a run both ends write, read and leave in any order, and receive word by word.
`Standing` says that the queue of a direction holds whole frames, and every move
of either end keeps it (`Standing.step`).

`Intact` is what can be seen of that from outside.  Messages arrive in order and
whole, a read waits or finds the end only where it has taken nothing, and no
other result is ever given.  It holds after every run (`intact_run`).
-/

namespace WordFifo.Exchange

open WordFifo.Frame Reader

variable {st st' : State} {d : Side}

/-! ## The invariant -/

/-- A direction, named after its sender, holds whole frames. -/
def Standing (st : State) (d : Side) : Prop :=
  ∃ done coming, Whole done coming (st.pair.outbound d) (st.past d).accepted
    (st.past d.peer).taken (st.past d.peer).results

theorem Standing.congr (h : Standing st d) (hqueue : st'.pair.outbound d = st.pair.outbound d)
    (haccepted : (st'.past d).accepted = (st.past d).accepted)
    (htaken : (st'.past d.peer).taken = (st.past d.peer).taken)
    (hresults : (st'.past d.peer).results = (st.past d.peer).results) : Standing st' d := by
  rw [Standing, hqueue, haccepted, htaken, hresults]
  exact h

theorem standing_start (d : Side) : Standing {} d := by
  cases d <;> exact ⟨[], [], Whole.start⟩

/-- The sender of a direction reads from the other one. -/
theorem Standing.resume (h : Standing st d) (taken : List UInt32) (senderAlive : Bool) :
    Standing (st.resume d taken senderAlive) d := by
  rw [State.resume]
  dsimp only
  split
  · refine h.congr rfl ?_ ?_ ?_
    · rw [State.past_record]
    · rw [State.past_peer_record]
    · rw [State.past_peer_record]
  · refine h.congr (LoopbackPair.outbound_setOutbound_peer _ _ _) ?_ ?_ ?_
    · rw [State.past_record]
    · rw [State.past_peer_record]
    · rw [State.past_peer_record]

/-- What the sender of a direction does. -/
theorem Standing.step_sender (h : Standing st d) (halive : st.pair.isAlive d) (move : Move) :
    Standing (st.step (d, move)) d := by
  cases move with
  | write m =>
      cases he : m.encode Message.defaultLimit with
      | error e =>
          rw [State.step_write_of_refused he]
          exact h
      | ok e =>
          obtain ⟨done, coming, hw⟩ := h
          rw [State.step_write halive he, Standing, State.past_record, State.past_peer_record]
          refine ⟨done, coming ++ [⟨m, Message.defaultLimit, e, he⟩], ?_⟩
          show Whole _ _ ((st.pair.send d e.header e.extra).outbound d) _ _ _
          rw [LoopbackPair.send, LoopbackPair.outbound_setOutbound]
          exact hw.write halive rfl
  | receive =>
      -- The words come out of the other direction.
      obtain ⟨e, rfl⟩ : ∃ e : Side, d = e.peer := ⟨d.peer, (Side.peer_peer d).symm⟩
      cases hwords : (st.pair.outbound e).words with
      | nil =>
          rw [State.step_receive_of_empty halive hwords]
          split
          · exact h
          · exact h.resume _ _
      | cons w rest =>
          rw [State.step_receive_of_word halive hwords]
          apply Standing.resume
          exact h.congr (LoopbackPair.outbound_peer_setOutbound _ _ _) rfl rfl rfl
  | drop =>
      obtain ⟨done, coming, hw⟩ := h
      rw [State.step_drop halive]
      refine ⟨done, coming, ?_⟩
      show Whole _ _ ((st.pair.drop d).outbound d) _ _ _
      rw [LoopbackPair.drop, LoopbackPair.outbound_setOutbound]
      exact hw.leave

/-- What the receiver of a direction does. -/
theorem Standing.step_receiver (h : Standing st d) (halive : st.pair.isAlive d.peer)
    (move : Move) : Standing (st.step (d.peer, move)) d := by
  cases move with
  | write m =>
      cases he : m.encode Message.defaultLimit with
      | error e =>
          rw [State.step_write_of_refused he]
          exact h
      | ok e =>
          rw [State.step_write halive he]
          refine h.congr ?_ ?_ ?_ ?_
          · exact LoopbackPair.outbound_setOutbound_peer _ _ _
          · rw [State.past_record_peer]
          · rw [State.past_record]
          · rw [State.past_record]
  | receive =>
      obtain ⟨done, coming, hw⟩ := h
      cases hwords : (st.pair.outbound d).words with
      | nil =>
          rw [State.step_receive_of_empty halive hwords]
          split
          · exact ⟨done, coming, hw⟩
          · next hgone =>
              obtain ⟨-, htaken⟩ := hw.of_empty hwords
              rw [htaken, State.resume_of_over attempt_nil.1 rfl attempt_nil.2, Standing,
                State.past_record, State.past_record_peer]
              exact ⟨done, coming, hw.stop hwords (Bool.eq_false_iff.mpr hgone)⟩
      | cons w rest =>
          rw [State.step_receive_of_word halive hwords]
          rcases hw.take hwords with ⟨hwaits, -, hw'⟩ | ⟨f, fs, -, -, hresult, hleft, hw'⟩
          · rw [State.resume_of_waits hwaits, Standing, State.past_record, State.past_record_peer]
            show ∃ done coming, Whole done coming ((st.pair.setOutbound d _).outbound d) _ _ _
            rw [LoopbackPair.outbound_setOutbound]
            exact ⟨_, _, hw'⟩
          · rw [State.resume_of_over hresult rfl hleft, Standing, State.past_record,
              State.past_record_peer]
            show ∃ done coming, Whole done coming ((st.pair.setOutbound d _).outbound d) _ _ _
            rw [LoopbackPair.outbound_setOutbound]
            exact ⟨_, _, hw'⟩
  | drop =>
      rw [State.step_drop halive]
      exact h.congr (LoopbackPair.outbound_setOutbound_peer _ _ _) rfl rfl rfl

theorem Standing.step (h : Standing st d) (move : Side × Move) : Standing (st.step move) d := by
  obtain ⟨side, move⟩ := move
  cases halive : st.pair.isAlive side with
  | false =>
      rw [State.step_of_gone halive]
      exact h
  | true =>
      rcases Side.eq_or_eq_peer side d with rfl | rfl
      · exact h.step_sender halive move
      · exact h.step_receiver halive move

theorem standing_run (moves : List (Side × Move)) (d : Side) : Standing (run moves) d := by
  have hrun : ∀ st, Standing st d → Standing (moves.foldl State.step st) d := by
    induction moves with
    | nil => exact fun _ h => h
    | cons move moves ih => exact fun _ h => ih _ (h.step move)
  exact hrun {} (standing_start d)

/-! ## What can be seen -/

/-- The messages among some results. -/
def messages (results : List (Except MessageError Message)) : List Message :=
  results.filterMap Except.toOption

/-- What a run shows of a direction. -/
structure Intact (st : State) (d : Side) : Prop where
  /-- The messages that were read are the first of those that were accepted. -/
  messages_prefix :
    messages (st.past d.peer).results <+: (st.past d).accepted.map Message.received
  /-- No other error than `closed` is given. -/
  results : ∀ result ∈ (st.past d.peer).results,
    (∃ m, result = .ok m) ∨ result = .error (.carrier .closed)
  /-- It is given where every message was read and the sender is gone. -/
  closed : .error (.carrier .closed) ∈ (st.past d.peer).results →
    messages (st.past d.peer).results = (st.past d).accepted.map Message.received ∧
      st.pair.pending d.peer = 0 ∧ st.pair.isAlive d = false
  /-- A message that the encoder rejects changes nothing. -/
  write_refused : ∀ m e, m.encode Message.defaultLimit = .error e → st.step (d, .write m) = st
  /-- Any other is accepted, and all its words go into the queue. -/
  write : ∀ m e, st.pair.isAlive d → m.encode Message.defaultLimit = .ok e →
    (st.step (d, .write m)).pair = st.pair.send d e.header e.extra ∧
      ((st.step (d, .write m)).past d).accepted = (st.past d).accepted ++ [m]
  /-- A receive takes a word that is there.  There are more words to go on with, or
  the read is over.  Then it has taken the words of the next message, no others,
  and gives this message. -/
  receive_cons : ∀ w rest, st.pair.isAlive d.peer → (st.pair.outbound d).words = w :: rest →
    let next := st.step (d.peer, .receive)
    let taken := (st.past d.peer).taken ++ [w]
    next.pair = st.pair.setOutbound d { st.pair.outbound d with words := rest } ∧
      ((next.past d.peer).results = (st.past d.peer).results ∧
          (next.past d.peer).taken = taken ∧ rest ≠ [] ∨
        (next.past d.peer).taken = [] ∧
          ∃ m e, (st.past d).accepted[(messages (st.past d.peer).results).length]? = some m ∧
            m.encode Message.defaultLimit = .ok e ∧ taken = e.words ∧
            (next.past d.peer).results = (st.past d.peer).results ++ [.ok m.received])
  /-- Where no word is there, the read has taken none.  It waits for the sender, or
  is told that it is gone. -/
  receive_nil : st.pair.isAlive d.peer → (st.pair.outbound d).words = [] →
    (st.past d.peer).taken = [] ∧ st.step (d.peer, .receive) =
      if st.pair.isAlive d then st
      else st.record d.peer { st.past d.peer with
        taken := [], results := (st.past d.peer).results ++ [.error (.carrier .closed)] }
  /-- A read that nothing interrupts takes the words of the next message off the
  queue and leaves all others there.  Without a word it does what a receive does. -/
  read : (st.past d.peer).taken = [] →
    let reading := readMessage Message.defaultLimit (st.pair.inbound d.peer)
    (∃ m e rest, (st.past d).accepted[(messages (st.past d.peer).results).length]? = some m ∧
        m.encode Message.defaultLimit = .ok e ∧ (st.pair.outbound d).words = e.words ++ rest ∧
        reading.rest = { st.pair.outbound d with words := rest } ∧
        reading.result = .ok m.received) ∨
      reading.rest = st.pair.inbound d.peer ∧ (st.pair.outbound d).words = [] ∧
        reading.result = .error (.carrier
          (if st.pair.isAlive d then LoopbackQueue.wouldBlock else .closed))

namespace Whole

variable {done coming : List Frame} {q : LoopbackQueue} {accepted : List Message}
  {taken : List UInt32} {results : List (Except MessageError Message)}

theorem messages_eq (h : Whole done coming q accepted taken results) :
    messages results = done.map fun f => f.message.received := by
  obtain ⟨n, hresults, -⟩ := h.results_eq
  rw [hresults, messages, List.filterMap_append, List.filterMap_map,
    List.filterMap_replicate_of_none rfl, List.append_nil]
  exact congrFun List.filterMap_eq_map done

theorem received_eq (h : Whole done coming q accepted taken results) :
    accepted.map Message.received =
      messages results ++ coming.map fun f => f.message.received := by
  rw [h.accepted_eq, h.messages_eq, List.map_map, List.map_append]
  rfl

/-- The first frame that is still to be read is the next message. -/
theorem next_message {f : Frame} {fs : List Frame}
    (h : Whole done (f :: fs) q accepted taken results) :
    accepted[(messages results).length]? = some f.message := by
  rw [h.accepted_eq, h.messages_eq, List.length_map, List.map_append,
    List.getElem?_append_right (Nat.le_of_eq (List.length_map _)), List.length_map, Nat.sub_self]
  rfl

theorem closed_mem (h : Whole done coming q accepted taken results)
    (hmem : .error (.carrier .closed) ∈ results) : coming = [] ∧ q.senderAlive = false := by
  obtain ⟨n, hresults, hend⟩ := h.results_eq
  rw [hresults] at hmem
  rcases List.mem_append.mp hmem with hread | hclosed
  · obtain ⟨f, -, hf⟩ := List.mem_map.mp hread
    cases hf
  · exact hend (List.mem_replicate.mp hclosed).1

theorem results_mem (h : Whole done coming q accepted taken results)
    {result : Except MessageError Message} (hmem : result ∈ results) :
    (∃ m, result = .ok m) ∨ result = .error (.carrier .closed) := by
  obtain ⟨n, hresults, -⟩ := h.results_eq
  rw [hresults] at hmem
  rcases List.mem_append.mp hmem with hread | hclosed
  · obtain ⟨f, -, rfl⟩ := List.mem_map.mp hread
    exact Or.inl ⟨_, rfl⟩
  · exact Or.inr (List.mem_replicate.mp hclosed).2

/-- The frame that is still to be read, under the default limit. -/
theorem encode_eq {f : Frame} {fs : List Frame}
    (h : Whole done (f :: fs) q accepted taken results) :
    f.limit = Message.defaultLimit ∧ f.message.encode Message.defaultLimit = .ok f.encoded := by
  have hf : f.limit = Message.defaultLimit :=
    h.limit_eq f (List.mem_append_right _ List.mem_cons_self)
  exact ⟨hf, hf ▸ f.encode_eq⟩

/-- A read that nothing interrupts gives the next message, or finds nothing. -/
theorem readMessage_queue (h : Whole done coming q accepted [] results) :
    let reading := readMessage Message.defaultLimit q
    (∃ m e rest, accepted[(messages results).length]? = some m ∧
        m.encode Message.defaultLimit = .ok e ∧ q.words = e.words ++ rest ∧
        reading.rest = { q with words := rest } ∧ reading.result = .ok m.received) ∨
      reading.rest = q ∧ q.words = [] ∧ reading.result = .error (.carrier
        (if q.senderAlive then LoopbackQueue.wouldBlock else .closed)) := by
  intro reading
  have hwords : q.words = stream coming := h.words_eq
  cases coming with
  | nil =>
      have hreceive : Source.receive q = _ := LoopbackQueue.receive_nil hwords
      obtain ⟨hresult, hrest⟩ := readMessage_of_end Message.defaultLimit hreceive
      exact Or.inr ⟨hrest, hwords, hresult⟩
  | cons f fs =>
      obtain ⟨hf, hencode⟩ := h.encode_eq
      rw [stream_cons] at hwords
      obtain ⟨hresult, hrest⟩ := f.readMessage_default hf (Source.gives_queue _ _ hwords)
      exact Or.inl ⟨f.message, f.encoded, _, h.next_message, hencode, hwords, hrest, hresult⟩

end Whole

theorem Standing.intact (h : Standing st d) : Intact st d := by
  obtain ⟨done, coming, h⟩ := h
  exact {
    messages_prefix := ⟨_, h.received_eq.symm⟩
    results := fun _ => h.results_mem
    closed := by
      intro hmem
      obtain ⟨rfl, hgone⟩ := h.closed_mem hmem
      have hwords : (st.pair.outbound d).words = [] := (List.append_eq_nil_iff.mp h.words_eq).2
      refine ⟨?_, ?_, hgone⟩
      · rw [h.received_eq, List.map_nil, List.append_nil]
      · rw [LoopbackPair.pending, LoopbackPair.inbound_peer, hwords, List.length_nil]
    write_refused := fun _ _ he => State.step_write_of_refused he
    write := by
      intro m e halive he
      rw [State.step_write halive he, State.past_record]
      exact ⟨rfl, rfl⟩
    receive_cons := by
      intro w rest halive hwords next taken
      have hnext : next = _ := State.step_receive_of_word halive hwords
      rcases h.take hwords with ⟨hwaits, hmore, -⟩ | ⟨f, fs, rfl, htaken, hresult, hleft, -⟩
      · rw [hnext, State.resume_of_waits hwaits, State.past_record]
        exact ⟨rfl, Or.inl ⟨rfl, rfl, hmore⟩⟩
      · rw [hnext, State.resume_of_over hresult rfl hleft, State.past_record]
        exact ⟨rfl, Or.inr ⟨rfl, f.message, f.encoded, h.next_message, h.encode_eq.2, htaken, rfl⟩⟩
    receive_nil := by
      intro halive hwords
      obtain ⟨-, htaken⟩ := h.of_empty hwords
      refine ⟨htaken, ?_⟩
      rw [State.step_receive_of_empty halive hwords, htaken,
        State.resume_of_over attempt_nil.1 rfl attempt_nil.2]
    read := by
      intro htaken
      rw [htaken] at h
      rw [LoopbackPair.inbound_peer]
      exact h.readMessage_queue }

/-- However the two ends take turns, no message is ever seen in part.  Messages
are read whole and in the order in which they were accepted, until the sender is
gone and the last was read. -/
theorem intact_run (moves : List (Side × Move)) (d : Side) : Intact (run moves) d :=
  (standing_run moves d).intact

/-- A write that is rejected, and a value that arrives word by word while its
sender leaves.  Its second word is the word of a reset request. -/
theorem intact_run_lookalike :
    let value : Message := .value32 2 0x0C04000B
    let moves : List (Side × Move) := [(.b, .write (.address 0 5)), (.b, .write value),
      (.a, .receive), (.b, .drop), (.a, .receive), (.a, .receive)]
    let results := ((run moves).past .a).results
    results = [.ok value, .error (.carrier .closed)] ∧
      messages results = ((run moves).past .b).accepted.map Message.received := by
  intro value moves results
  have hresults : results = [.ok value, .error (.carrier .closed)] := rfl
  have hclosed : .error (.carrier .closed) ∈ results := by
    rw [hresults]
    exact List.mem_of_getElem? (i := 1) rfl
  have hpeer : Side.b.peer = .a := rfl
  have h := (intact_run moves .b).closed
  rw [hpeer] at h
  exact ⟨hresults, (h hclosed).1⟩

end WordFifo.Exchange
