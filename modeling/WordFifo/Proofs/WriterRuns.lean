import WordFifo.Proofs.RoundTrip

/-!
# Runs of a writer

A run is a row of operations on one writer.  Messages that are refused, calls of
the sink that fail and new limits come in any order.

`Operation.answer` says what an operation is to give, and `Operation.encoding?`
which call it is to make.  Only the limit and its own call count.  `step_eq` says
that one operation does so, and `operate_watching` follows for the answers and the
calls of a whole run.

`Reported` is what can be seen of that.  The calls that the sink keeps are the
encodings that were given back, and a reader makes their messages of them again.
It holds of every run, and a reference or a box around the sink changes nothing
(`reported_run`).
-/

namespace WordFifo

open WordFifo.Frame (stream stream_cons)
open Reader

/-- The arguments of the one call that sends a message. -/
def Encoded.call (e : Encoded) : UInt32 × List UInt32 := (e.header, e.extra)

namespace Writer

/-! ## What an operation is to do -/

namespace Operation

/-- The message of an operation that sends one. -/
def message? : Operation → Option Message
  | .sendValue32 c v => some (.value32 c v)
  | .sendAddress c a => some (.address c a)
  | .sendData c bytes => some (.data c bytes)
  | .sendSpecial cmd => some (.special cmd)
  | .sendMessage m => some m
  | .setLimit _ => none

/-- The limit after an operation. -/
def nextLimit (limit : Nat) : Operation → Nat
  | .setLimit limit => limit
  | _ => limit

/-- The encoding of the message of an operation, when there is one. -/
def encoding? (limit : Nat) (op : Operation) : Option Encoded :=
  op.message?.bind fun m => (m.encode limit).toOption

/-- What an operation gives, where `failure` is what the sink does with a call. -/
def answer (failure : Option CarrierError) (limit : Nat) (op : Operation) :
    Option (Except MessageError Encoded) :=
  op.message?.map fun m =>
    match m.encode limit, failure with
    | .error e, _ => .error e
    | .ok _, some cause => .error (.carrier cause)
    | .ok e, none => .ok e

end Operation

/-- The limit after some operations. -/
def limitAfter (limit : Nat) (ops : List Operation) : Nat := ops.foldl Operation.nextLimit limit

/-- The encodings of the messages of some operations, without those that are
refused. -/
def encodings : Nat → List Operation → List Encoded
  | _, [] => []
  | limit, op :: ops => (op.encoding? limit).toList ++ encodings (op.nextLimit limit) ops

/-- What some operations give, where `attempts` calls were made before them. -/
def answers (failure : Nat → Option CarrierError) :
    (attempts limit : Nat) → List Operation → List (Option (Except MessageError Encoded))
  | _, _, [] => []
  | attempts, limit, op :: ops =>
    op.answer (failure attempts) limit ::
      answers failure (attempts + (op.encoding? limit).toList.length) (op.nextLimit limit) ops

theorem limitAfter_cons (limit : Nat) (op : Operation) (ops : List Operation) :
    limitAfter limit (op :: ops) = limitAfter (op.nextLimit limit) ops := rfl

theorem encodings_append (limit : Nat) (past later : List Operation) :
    encodings limit (past ++ later) =
      encodings limit past ++ encodings (limitAfter limit past) later := by
  induction past generalizing limit with
  | nil => rfl
  | cons op past ih =>
      rw [List.cons_append, encodings, encodings, limitAfter_cons, ih, List.append_assoc]

theorem answers_append (failure : Nat → Option CarrierError) (attempts limit : Nat)
    (past later : List Operation) :
    answers failure attempts limit (past ++ later) = answers failure attempts limit past ++
      answers failure (attempts + (encodings limit past).length) (limitAfter limit past) later := by
  induction past generalizing attempts limit with
  | nil => rfl
  | cons op past ih =>
      rw [List.cons_append, answers, answers, limitAfter_cons, ih, encodings, List.length_append,
        Nat.add_assoc, List.cons_append]

theorem length_answers (failure : Nat → Option CarrierError) (attempts limit : Nat)
    (ops : List Operation) : (answers failure attempts limit ops).length = ops.length := by
  induction ops generalizing attempts limit with
  | nil => rfl
  | cons op ops ih => exact congrArg (· + 1) (ih _ _)

/-! ## Runs -/

/-- A writer, and what its operations gave. -/
structure Session (σ : Type) where
  writer : Writer σ
  answers : List (Option (Except MessageError Encoded))

def Session.step {σ : Type} [Sink σ] (st : Session σ) (op : Operation) : Session σ :=
  let done := st.writer.perform op
  ⟨done.writer, st.answers ++ [done.result]⟩

/-- Operations in a row. -/
def operate {σ : Type} [Sink σ] (writer : Writer σ) (ops : List Operation) : Session σ :=
  ops.foldl Session.step ⟨writer, []⟩

/-- The encoding that was given back, if one was. -/
def gave? : Option (Except MessageError Encoded) → Option Encoded
  | some (.ok e) => some e
  | _ => none

/-- The messages of the operations that gave their encoding back. -/
def accepted (ops : List Operation) (answers : List (Option (Except MessageError Encoded))) :
    List Message :=
  (ops.zip answers).filterMap fun done => (gave? done.2).bind fun _ => done.1.message?

/-! ## One operation -/

theorem perform_of_message {op : Operation} {m : Message} (h : op.message? = some m) {σ : Type}
    [Sink σ] (writer : Writer σ) : writer.perform op = writer.send m := by
  cases op with
  | setLimit limit => cases h
  | _ =>
      cases h
      rfl

theorem nextLimit_of_message {op : Operation} {m : Message} (h : op.message? = some m)
    (limit : Nat) : op.nextLimit limit = limit := by
  cases op with
  | setLimit limit => cases h
  | _ => rfl

theorem eq_setLimit_of_message {op : Operation} (h : op.message? = none) :
    ∃ limit, op = .setLimit limit := by
  cases op with
  | setLimit limit => exact ⟨limit, rfl⟩
  | _ => cases h

/-- What an operation does over a sink that fails some calls.  It makes a call for
its encoding, when there is one, and the sink keeps what is given back. -/
theorem step_eq (r : Recorder) (made : List (UInt32 × List UInt32)) (limit : Nat)
    (answers : List (Option (Except MessageError Encoded))) (op : Operation) :
    let encoding := (op.encoding? limit).toList
    let answer := op.answer (r.failure r.attempts) limit
    (⟨⟨⟨r, made⟩, limit⟩, answers⟩ : Session (Watched Recorder)).step op =
      ⟨⟨⟨⟨r.calls ++ (gave? answer).toList.map Encoded.call, r.attempts + encoding.length,
        r.failure⟩, made ++ encoding.map Encoded.call⟩, op.nextLimit limit⟩,
        answers ++ [answer]⟩ := by
  intro encoding answer
  cases hm : op.message? with
  | none =>
      obtain ⟨limit', rfl⟩ := eq_setLimit_of_message hm
      simp [encoding, answer, Session.step, perform, Operation.encoding?, Operation.answer,
        Operation.nextLimit, Operation.message?, gave?]
  | some m =>
      -- The message is refused, or its one call fails, or the call is kept.
      rw [Session.step, perform_of_message hm, nextLimit_of_message hm]
      cases he : m.encode limit with
      | error e =>
          simp [encoding, answer, send, writeMessage, Operation.encoding?, Operation.answer, hm, he,
            gave?, Except.toOption]
      | ok e =>
          cases hf : r.failure r.attempts <;>
            simp [encoding, answer, send, writeMessage, Operation.encoding?, Operation.answer, hm, he,
              hf, gave?, Except.toOption, Sink.send, Encoded.call]

/-- What gives its encoding back has a message with that encoding. -/
theorem encode_of_answer {op : Operation} {failure : Option CarrierError} {limit : Nat} {e : Encoded}
    (h : gave? (op.answer failure limit) = some e) :
    ∃ m, op.message? = some m ∧ m.encode limit = .ok e := by
  cases hm : op.message? with
  | none =>
      rw [Operation.answer, hm] at h
      cases h
  | some m =>
      refine ⟨m, rfl, ?_⟩
      rw [Operation.answer, hm, Option.map_some] at h
      cases he : m.encode limit with
      | error cause =>
          rw [he] at h
          cases h
      | ok e' =>
          rw [he] at h
          cases failure with
          | some cause => cases h
          | none =>
              obtain rfl := Option.some.inj h
              rfl

/-! ## A run -/

/-- Operations in a row, on a sink that was called before. -/
theorem foldl_step_eq (ops : List Operation) (r : Recorder) (made : List (UInt32 × List UInt32))
    (limit : Nat) (given : List (Option (Except MessageError Encoded))) :
    let given' := answers r.failure r.attempts limit ops
    ops.foldl Session.step (⟨⟨⟨r, made⟩, limit⟩, given⟩ : Session (Watched Recorder)) =
      ⟨⟨⟨⟨r.calls ++ (given'.filterMap gave?).map Encoded.call,
        r.attempts + (encodings limit ops).length, r.failure⟩,
        made ++ (encodings limit ops).map Encoded.call⟩, limitAfter limit ops⟩, given ++ given'⟩ := by
  induction ops generalizing r made limit given with
  | nil => simp [answers, encodings, limitAfter]
  | cons op ops ih =>
      intro given'
      rw [List.foldl_cons, step_eq, ih]
      cases hgave : gave? (op.answer (r.failure r.attempts) limit) <;>
        simp [given', answers, encodings, limitAfter_cons, hgave, Nat.add_assoc]

/-- A writer over a sink that fails some calls and keeps the others.  It is watched
from outside. -/
def watching (failure : Nat → Option CarrierError) (limit : Nat) : Writer (Watched Recorder) :=
  ⟨⟨Recorder.new failure, []⟩, limit⟩

/-- What a run gives and what comes of its sink, in terms of what its operations are
to do. -/
theorem operate_watching (failure : Nat → Option CarrierError) (limit : Nat)
    (ops : List Operation) :
    let given := answers failure 0 limit ops
    (watching failure limit).operate ops =
      ⟨⟨⟨⟨(given.filterMap gave?).map Encoded.call, (encodings limit ops).length, failure⟩,
        (encodings limit ops).map Encoded.call⟩, limitAfter limit ops⟩, given⟩ := by
  intro given
  have hrun := foldl_step_eq ops (Recorder.new failure) [] limit []
  simp only [Recorder.new, List.nil_append, Nat.zero_add] at hrun
  exact hrun

/-- What is given back are the encodings of the messages that were accepted. -/
theorem frames_of_answers (failure : Nat → Option CarrierError) (attempts limit : Nat)
    (ops : List Operation) :
    let given := answers failure attempts limit ops
    ∃ fs : List Frame, given.filterMap gave? = fs.map Frame.encoded ∧
      accepted ops given = fs.map Frame.message := by
  induction ops generalizing attempts limit with
  | nil => exact ⟨[], rfl, rfl⟩
  | cons op ops ih =>
      intro given
      obtain ⟨fs, hencoded, hmessages⟩ :=
        ih (attempts + (op.encoding? limit).toList.length) (op.nextLimit limit)
      rw [accepted] at hmessages
      -- The other operations bring no frame, whatever their message is.
      cases hgave : gave? (op.answer (failure attempts) limit) with
      | none =>
          refine ⟨fs, ?_, ?_⟩
          · simp only [given, answers, List.filterMap_cons, hgave, hencoded]
          · simp only [given, answers, accepted, List.zip_cons_cons, List.filterMap_cons, hgave,
              Option.bind_none, hmessages]
      | some e =>
          obtain ⟨m, hm, he⟩ := encode_of_answer hgave
          refine ⟨⟨m, limit, e, he⟩ :: fs, ?_, ?_⟩
          · simp only [given, answers, List.filterMap_cons, hgave, hencoded, List.map_cons]
          · simp only [given, answers, accepted, List.zip_cons_cons, List.filterMap_cons, hgave,
              Option.bind_some, hm, hmessages, List.map_cons]

/-- A sink that kept the calls of some frames has their words. -/
theorem words_of_frames {r : Recorder} {fs : List Frame}
    (h : r.calls = (fs.map Frame.encoded).map Encoded.call) : r.words = stream fs := by
  rw [Recorder.words, h, List.map_map, List.flatMap_map]
  rfl

/-! ## A sink that is held elsewhere -/

section

variable {σ : Type} [Sink σ]

/-- The writer with its sink behind a reference or in a box. -/
def behind (writer : Writer σ) : Writer (Behind σ) := ⟨⟨writer.sink⟩, writer.limit⟩

def Session.behind (st : Session σ) : Session (Behind σ) := ⟨st.writer.behind, st.answers⟩

theorem send_behind (writer : Writer σ) (m : Message) :
    let sent := writer.send m
    writer.behind.send m = ⟨sent.result, sent.writer.behind, sent.events⟩ := by
  intro sent
  rw [show sent = writer.send m from rfl, send, send, writeMessage, writeMessage]
  cases he : m.encode writer.limit with
  | error e => simp only [behind, he]
  | ok e =>
      -- Either sink is asked the same, and tells the same.
      simp only [behind, he, Sink.send, Sink.sendEvents]
      cases hs : Sink.send writer.sink e.header e.extra with
      | mk outcome s => cases outcome <;> rfl

theorem Session.step_behind (st : Session σ) (op : Operation) :
    st.behind.step op = (st.step op).behind := by
  cases hm : op.message? with
  | none =>
      obtain ⟨limit, rfl⟩ := eq_setLimit_of_message hm
      rfl
  | some m =>
      rw [step, step, perform_of_message hm, perform_of_message hm]
      show (⟨(st.writer.behind.send m).writer, _ ++ [(st.writer.behind.send m).result]⟩ : Session _) = _
      rw [send_behind]
      rfl

theorem operate_behind (writer : Writer σ) (ops : List Operation) :
    writer.behind.operate ops = (writer.operate ops).behind := by
  show ops.foldl Session.step (Session.behind ⟨writer, []⟩) = _
  exact List.foldl_hom Session.behind Session.step_behind

end

/-! ## What a run reports -/

/-- What a run reports, and what it puts on its sink. -/
structure Reported (failure : Nat → Option CarrierError) (limit : Nat) (ops : List Operation)
    (run : Session (Watched Recorder)) : Prop where
  answers_length : run.answers.length = ops.length
  limit_eq : run.writer.limit = limitAfter limit ops
  /-- An operation gives its answer under the limit that is in force, by what the sink
  does with its own call. -/
  answer : ∀ past op later, ops = past ++ op :: later →
    run.answers[past.length]? =
      some (op.answer (failure (encodings limit past).length) (limitAfter limit past))
  /-- It makes one call when its message has an encoding, and none when it is refused. -/
  call : ∀ past op later, ops = past ++ op :: later →
    ((watching failure limit).operate (past ++ [op])).writer.sink.calls =
      ((watching failure limit).operate past).writer.sink.calls ++
        (op.encoding? (limitAfter limit past)).toList.map Encoded.call
  /-- So the calls of a run are those for the encodings, in order. -/
  calls_eq : run.writer.sink.calls = (encodings limit ops).map Encoded.call
  attempts_eq : run.writer.sink.inner.attempts = (encodings limit ops).length
  /-- The sink keeps what was given back, in order. -/
  recorded_eq : run.writer.sink.inner.calls = (run.answers.filterMap gave?).map Encoded.call
  /-- A call that fails changes no other answer. -/
  answer_congr : ∀ failure' past op later, ops = past ++ op :: later →
    failure' (encodings limit past).length = failure (encodings limit past).length →
    ((watching failure' limit).operate ops).answers[past.length]? = run.answers[past.length]?
  /-- A reader that refuses no payload makes the messages of the words again. -/
  read : ∀ bound n,
    (∀ c bytes, .data c bytes ∈ accepted ops run.answers → bytes.length ≤ bound) →
    (calls (List.replicate n bound) run.writer.sink.inner.words).1 =
      thenClosed n ((accepted ops run.answers).map fun m => .ok m.received)

theorem getElem?_answers (failure : Nat → Option CarrierError) (limit : Nat)
    (past : List Operation) (op : Operation) (later : List Operation) :
    (answers failure 0 limit (past ++ op :: later))[past.length]? =
      some (op.answer (failure (encodings limit past).length) (limitAfter limit past)) := by
  rw [answers_append, List.getElem?_append_right (Nat.le_of_eq (length_answers _ _ _ _)),
    length_answers, Nat.sub_self, answers, Nat.zero_add]
  rfl

/-- What a writer reports is what it puts on the sink.  It makes one call for every
message that has an encoding, and gives the encoding back when the call succeeds.
A reference or a box around the sink changes nothing. -/
theorem reported_run (failure : Nat → Option CarrierError) (limit : Nat) (ops : List Operation) :
    let start := watching failure limit
    Reported failure limit ops (start.operate ops) ∧
      start.behind.operate ops = (start.operate ops).behind := by
  intro start
  refine ⟨?_, operate_behind start ops⟩
  rw [show start.operate ops = _ from operate_watching failure limit ops]
  obtain ⟨fs, hencoded, hmessages⟩ := frames_of_answers failure 0 limit ops
  exact {
    answers_length := length_answers failure 0 limit ops
    limit_eq := rfl
    answer := by
      rintro past op later rfl
      exact getElem?_answers failure limit past op later
    call := by
      intro past op later _
      rw [operate_watching, operate_watching, encodings_append, List.map_append, encodings, encodings,
        List.append_nil]
    calls_eq := rfl
    attempts_eq := rfl
    recorded_eq := rfl
    answer_congr := by
      rintro failure' past op later rfl hsame
      rw [operate_watching, getElem?_answers, getElem?_answers, hsame]
    read := by
      intro bound n hbound
      have hwords : Source.Holds (stream fs) (stream fs) := Source.holds_words _
      rw [words_of_frames (congrArg _ hencoded), calls_of_holds_stream _ hwords, hmessages,
        List.map_map]
      · rfl
      · intro f hf
        refine Message.answer_eq_received fun c bytes hdata => hbound c bytes ?_
        rw [hmessages, ← hdata]
        exact List.mem_map_of_mem hf }

/-- A block that the first limit refuses and the second does not, a value whose call
fails, and an address outside the window. -/
theorem reported_run_refusals :
    let failure : Nat → Option CarrierError := fun n => if n = 1 then some .closed else none
    let block : Message := .data 1 [0x0B, 0x00, 0x04, 0x0C, 0xFF]
    let ops : List Operation := [.sendMessage block, .setLimit 5, .sendMessage block,
      .sendValue32 2 0x0C04000B, .sendAddress 0 5, .sendSpecial (.other 0x0104000B)]
    let run := (watching failure 4).operate ops
    run.answers = [some (.error (.payloadTooLarge 5 4)), none,
        some (.ok ⟨0x10000005, [0x0C04000B, 0x000000FF]⟩), some (.error (.carrier .closed)),
        some (.error (.addressOutsideWindow 5)), some (.ok ⟨0x0C04000B, []⟩)] ∧
      run.writer.sink.inner.attempts = 3 ∧
      (calls (List.replicate 3 5) run.writer.sink.inner.words).1 =
        [.ok block, .ok (.special .resetPrimary), .error (.carrier .closed)] := by
  intro failure block ops run
  obtain ⟨h, -⟩ := reported_run failure 4 ops
  have haccepted : accepted ops run.answers = [block, .special (.other 0x0104000B)] := rfl
  have hread := h.read 5 3
  rw [haccepted] at hread
  refine ⟨rfl, h.attempts_eq, hread fun c bytes hmem => ?_⟩
  rcases List.mem_cons.mp hmem with hblock | hcommand
  · obtain ⟨-, rfl⟩ := Message.data.inj hblock
    exact Nat.le_refl 5
  · cases List.mem_singleton.mp hcommand

end Writer

end WordFifo
