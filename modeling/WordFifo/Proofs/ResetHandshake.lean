import WordFifo.Proofs.ExitOnce
import WordFifo.Proofs.RoundTrip

/-!
# The reset handshake

A coprocessor sends ordinary traffic over a loopback pair, runs its exit on the
same end, and drops the end.  The primary reads at the other end.  When it has
read a command that asks it for a reset, it may run its own exit in answer.

A `Plan` is what the coprocessor is going to do.  `Plan.run` carries out any list
of moves of the two sides, so every order of them is a run.

The words of the traffic and the word of the command make one stream of frames
(`Plan.frames`).  The lemmas at the end say what a write, the exit and a read do to
the queue between the sides.
-/

namespace WordFifo.Handshake

open WordFifo.Frame Reader

/-! ## The two sides -/

/-- What the coprocessor is going to do. -/
structure Plan where
  /-- The ordinary messages, with their words. -/
  traffic : List Frame
  /-- The default limit admits them. -/
  limited : ∀ f ∈ traffic, f.limit = Message.defaultLimit
  /-- None of them is a command. -/
  ordinary : ∀ f ∈ traffic, f.message.channel ≠ none
  code : Int
  /-- What the loader left behind, for both processors. -/
  boot : Boot

/-- How far the coprocessor is.  It has messages to send, or its exit has run, or
its end is dropped. -/
inductive Phase where
  | sending (rest : List Frame)
  | exited
  | gone

namespace Phase

/-- How many moves the coprocessor has left. -/
def left : Phase → Nat
  | .sending rest => rest.length + 2
  | .exited => 1
  | .gone => 0

/-- Whether the exit has run. -/
def hasExited : Phase → Bool
  | .sending _ => false
  | _ => true

end Phase

/-- Both sides and what is between them. -/
structure State where
  /-- The two ends.  The primary has the first. -/
  pair : LoopbackPair
  phase : Phase
  coprocessor : Coordinator
  primary : Coordinator
  /-- What the primary has read. -/
  reads : List (Except MessageError Message)
  coprocessorEffects : List Effect
  primaryEffects : List Effect

/-- The coprocessor sends its next message, exits, or drops its end.  The primary
reads a message, or runs its exit in answer to a command. -/
inductive Move where
  | coprocessor
  | read
  | answer (code : Int)
deriving DecidableEq

/-- Whether a read gives a command that asks the primary for a reset. -/
def asksPrimary : Except MessageError Message → Bool
  | .ok (.special c) => c.resetTarget == some .primary
  | _ => false

namespace State

/-- The next move of the coprocessor. -/
def proceed (code : Int) (st : State) : State :=
  match st.phase with
  | .sending (f :: rest) =>
    let written := Writer.writeMessage Message.defaultLimit f.message (st.pair.outbound .b)
    { st with pair := st.pair.setOutbound .b written.sink, phase := .sending rest }
  | .sending [] =>
    let exit := st.coprocessor.request code (st.pair.outbound .b)
    { st with
      pair := st.pair.setOutbound .b exit.sink, phase := .exited,
      coprocessor := exit.coordinator,
      coprocessorEffects := st.coprocessorEffects ++ exit.effects }
  | .exited => { st with pair := st.pair.drop .b, phase := .gone }
  | .gone => st

/-- A read of the primary.  One that has to wait is not over, and gives nothing. -/
def read (st : State) : State :=
  let reading := readMessage Message.defaultLimit (st.pair.inbound .a)
  let pair := st.pair.setInbound .a reading.rest
  if waits reading.result then { st with pair := pair }
  else { st with pair := pair, reads := st.reads ++ [reading.result] }

/-- The primary answers a command that it has read. -/
def answer (code : Int) (st : State) : State :=
  if st.reads.any asksPrimary then
    let exit := st.primary.request code (st.pair.outbound .a)
    { st with
      pair := st.pair.setOutbound .a exit.sink,
      primary := exit.coordinator,
      primaryEffects := st.primaryEffects ++ exit.effects }
  else st

end State

namespace Plan

/-- Both sides before the first move. -/
def start (plan : Plan) : State where
  pair := {}
  phase := .sending plan.traffic
  coprocessor := { role := .coprocessor, boot := plan.boot }
  primary := { role := .primary, boot := plan.boot }
  reads := []
  coprocessorEffects := []
  primaryEffects := []

def step (plan : Plan) (st : State) : Move → State
  | .coprocessor => st.proceed plan.code
  | .read => st.read
  | .answer code => st.answer code

/-- Moves one after the other, in any order. -/
def run (plan : Plan) (moves : List Move) : State := moves.foldl plan.step plan.start

/-- The command that asks the primary for a reset, with its word. -/
def reset : Frame := ⟨.special .resetPrimary, Message.defaultLimit, ⟨0x0C04000B, []⟩, rfl⟩

/-- What the exit sends. -/
def resets (plan : Plan) : List Frame := if plan.boot.isResetCapable then [reset] else []

/-- All that the coprocessor sends. -/
def frames (plan : Plan) : List Frame := plan.traffic ++ plan.resets

/-- What the primary is to read, before the end is closed. -/
def answers (plan : Plan) : List (Except MessageError Message) :=
  plan.frames.map fun f => .ok f.message

/-- What the primary is to get when it has read `n` times. -/
def answerAt (plan : Plan) (n : Nat) : Except MessageError Message :=
  plan.answers.getD n (.error (.carrier .closed))

/-- What the coprocessor is still going to send. -/
def coming (plan : Plan) : Phase → List Frame
  | .sending rest => rest ++ plan.resets
  | .exited => []
  | .gone => []

end Plan

/-! ## What is sent -/

namespace Plan

variable (plan : Plan)

theorem eq_reset {f : Frame} (h : f ∈ plan.resets) : f = reset := by
  rw [resets] at h
  split at h
  · exact List.mem_singleton.mp h
  · cases h

theorem limit_eq {f : Frame} (h : f ∈ plan.frames) : f.limit = Message.defaultLimit := by
  rcases List.mem_append.mp h with ht | hr
  · exact plan.limited f ht
  · rw [plan.eq_reset hr]
    rfl

/-- A reader with the default limit gets every message as it was sent. -/
theorem answer_eq {f : Frame} (h : f ∈ plan.frames) :
    f.message.answer Message.defaultLimit = .ok f.message := by
  have hreceived : f.message.received = f.message := by
    rcases List.mem_append.mp h with ht | hr
    · have hc := plan.ordinary f ht
      cases hm : f.message with
      | special c =>
          rw [hm] at hc
          exact absurd rfl hc
      | _ => rfl
    · rw [plan.eq_reset hr]
      rfl
  have hanswer := f.packed.answer_eq
  rw [plan.limit_eq h, hreceived] at hanswer
  exact hanswer

/-- A command among the answers is the one behind the traffic. -/
theorem command_at {i : Nat} {c : Command} (h : plan.answers[i]? = some (.ok (.special c))) :
    i = plan.traffic.length ∧ c = .resetPrimary ∧ plan.boot.isResetCapable := by
  rw [answers, List.getElem?_map, Option.map_eq_some_iff] at h
  obtain ⟨f, hf, hm⟩ := h
  have hm : f.message = .special c := Except.ok.inj hm
  rw [frames] at hf
  by_cases hi : i < plan.traffic.length
  · rw [List.getElem?_append_left hi] at hf
    have hc := plan.ordinary f (List.mem_of_getElem? hf)
    rw [hm] at hc
    exact absurd rfl hc
  · rw [List.getElem?_append_right (Nat.le_of_not_lt hi), resets] at hf
    split at hf
    · next hcap =>
        obtain ⟨hlt, hreset⟩ := List.getElem?_eq_some_iff.mp hf
        rw [List.length_singleton] at hlt
        rw [List.getElem_singleton] at hreset
        subst hreset
        cases hm
        exact ⟨by omega, rfl, hcap⟩
    · cases hf

theorem answerAt_of_lt {sent rest : List Frame} (h : plan.frames = sent ++ rest) {n : Nat}
    (hlt : n < sent.length) : plan.answerAt n = .ok sent[n].message := by
  rw [answerAt, answers, List.getD_eq_getElem?_getD, List.getElem?_map, h,
    List.getElem?_append_left hlt, List.getElem?_eq_getElem hlt]
  rfl

theorem answerAt_of_le {n : Nat} (h : plan.frames.length ≤ n) :
    plan.answerAt n = .error (.carrier .closed) := by
  have hover : plan.answers.length ≤ n := by
    rw [answers, List.length_map]
    exact h
  rw [answerAt, List.getD_eq_getElem?_getD, List.getElem?_eq_none hover, Option.getD_none]

end Plan

theorem writeMessage_frame {f : Frame} (h : f.limit = Message.defaultLimit) (q : LoopbackQueue) :
    (Writer.writeMessage Message.defaultLimit f.message q).sink =
      q.push f.encoded.header f.encoded.extra := by
  have he := f.encode_eq
  rw [h] at he
  rw [Writer.writeMessage, he]
  rfl

/-! ## The exit of the coprocessor -/

/-- It sends the command or powers off. -/
theorem exit_coprocessor (plan : Plan) (q : LoopbackQueue) :
    let exit := plan.start.coprocessor.request plan.code q
    exit.sink.words = q.words ++ stream plan.resets ∧ exit.sink.senderAlive = q.senderAlive ∧
      Effect.entered exit.effects = [] ∧ (∀ p, Effect.ignored p exit.effects = 0) ∧
      Effect.powerOffs exit.effects = if plan.boot.isResetCapable then 0 else 1 := by
  intro exit
  rw [Plan.resets]
  by_cases hcap : plan.boot.isResetCapable
  · obtain ⟨-, hsink, hoffs, hentered, hignored⟩ := Coordinator.request_of_coprocessor
      (c := plan.start.coprocessor) rfl (Boot.accepts_iff.mp hcap) rfl plan.code q
    have hpush : exit.sink = q.push 0x0C04000B [] := hsink
    rw [if_pos hcap, if_pos hcap, hpush]
    exact ⟨rfl, rfl, hentered, hignored rfl, hoffs⟩
  · obtain ⟨-, hsink, hoffs, hentered, hignored⟩ := Coordinator.request_of_mismatch
      (c := plan.start.coprocessor) rfl (mt Boot.accepts_iff.mpr hcap) plan.code q
    have hkeep : exit.sink = q := hsink
    rw [if_neg hcap, if_neg hcap, hkeep]
    exact ⟨(List.append_nil _).symm, rfl, hentered, hignored, hoffs⟩

/-! ## The reads -/

variable {plan : Plan} {st : State}

/-- A read over a queue of whole frames gives the oldest one. -/
theorem read_of_frame {f : Frame} {rest : List Frame} (hf : f ∈ plan.frames)
    (hwords : st.pair.fromB.words = stream (f :: rest)) :
    st.read = { st with
      pair := { st.pair with fromB := { st.pair.fromB with words := stream rest } }
      reads := st.reads ++ [.ok f.message] } := by
  rw [stream_cons] at hwords
  obtain ⟨hresult, hrest⟩ := f.readMessage_of_gives Message.defaultLimit
    (Source.gives_queue (stream rest) f.words hwords)
  rw [plan.answer_eq hf] at hresult
  simp only [State.read, LoopbackPair.inbound, LoopbackPair.outbound, Side.peer, hresult, hrest,
    waits, LoopbackPair.setInbound, LoopbackPair.setOutbound]
  rfl

/-- A read over an empty queue waits while the sender is there. -/
theorem read_of_empty (hwords : st.pair.fromB.words = []) :
    st.read = if st.pair.fromB.senderAlive then st
      else { st with reads := st.reads ++ [.error (.carrier .closed)] } := by
  have hreceive : Source.receive st.pair.fromB = _ := LoopbackQueue.receive_nil hwords
  obtain ⟨hresult, hrest⟩ := readMessage_of_end Message.defaultLimit hreceive
  simp only [State.read, LoopbackPair.inbound, LoopbackPair.outbound, Side.peer, hresult, hrest,
    LoopbackPair.setInbound, LoopbackPair.setOutbound]
  cases st.pair.fromB.senderAlive <;> rfl

end WordFifo.Handshake
