import WordFifo.Proofs.ResetHandshake

/-!
# Runs of the reset handshake

`Invariant` says how the words in the queue, the reads so far and the two
coordinators hang together.  Each move keeps it, so every run does
(`invariant_run`), and it gives what a run can show (`kept_run`).

The queue holds whole frames at every moment.  So no payload word is ever taken
for the command, whatever its bits are.
-/

namespace WordFifo.Handshake

open WordFifo.Frame Reader

/-! ## The invariant -/

/-- What the exit of the coprocessor did, by how far it is. -/
def Exited (plan : Plan) (coordinator : Coordinator) (effects : List Effect) : Phase → Prop
  | .sending _ => coordinator = plan.start.coprocessor ∧ effects = []
  | _ => Effect.entered effects = [] ∧ (∀ p, Effect.ignored p effects = 0) ∧
      Effect.powerOffs effects = if plan.boot.isResetCapable then 0 else 1

/-- What the exit of the primary did, by whether it has acted. -/
def Answered (plan : Plan) (coordinator : Coordinator) (effects : List Effect)
    (reads : List (Except MessageError Message)) : Prop :=
  coordinator = plan.start.primary ∧ effects = [] ∨
    coordinator.state.isHalted ∧ reads.any asksPrimary ∧ Effect.powerOffs effects = 0 ∧
      Effect.entered effects = (if plan.boot.hasEntries then [.primary] else []) ∧
      ∀ p, Effect.ignored p effects = if p = .primary ∧ plan.boot.hasEntries = false then 1 else 0

/-- How the two sides hang together. -/
structure Invariant (plan : Plan) (st : State) : Prop where
  /-- The queue holds whole frames: those that were sent and not read. -/
  queued : ∃ sent, plan.frames = sent ++ plan.coming st.phase ∧
    st.pair.fromB.words = stream (sent.drop st.reads.length) ∧
    (st.pair.fromB.senderAlive → st.reads.length ≤ sent.length)
  /-- The end of the coprocessor is there until it is dropped. -/
  alive : st.pair.fromB.senderAlive ↔ st.phase ≠ .gone
  /-- The primary has read the first of the answers. -/
  reads_eq : st.reads = thenClosed st.reads.length plan.answers
  silent : st.pair.fromA = {}
  /-- The coprocessor exits once. -/
  exited : Exited plan st.coprocessor st.coprocessorEffects st.phase
  /-- The primary exits once, and only in answer. -/
  answered : Answered plan st.primary st.primaryEffects st.reads

variable {plan : Plan} {st : State}

theorem invariant_start (plan : Plan) : Invariant plan plan.start where
  queued := ⟨[], rfl, rfl, fun _ => Nat.le_refl 0⟩
  alive := iff_of_true rfl Phase.noConfusion
  reads_eq := rfl
  silent := rfl
  exited := ⟨rfl, rfl⟩
  answered := Or.inl ⟨rfl, rfl⟩

theorem command_of_asks {reads : List (Except MessageError Message)}
    (h : reads.any asksPrimary) : ∃ c, .ok (.special c) ∈ reads := by
  obtain ⟨answer, hmem, hasks⟩ := List.any_eq_true.mp h
  unfold asksPrimary at hasks
  split at hasks
  · exact ⟨_, hmem⟩
  · cases hasks

/-- A command among the reads is the one behind the traffic. -/
theorem Invariant.command_at (h : Invariant plan st) {i : Nat} {c : Command}
    (hi : st.reads[i]? = some (.ok (.special c))) :
    i = plan.traffic.length ∧ c = .resetPrimary ∧ plan.boot.isResetCapable := by
  rw [h.reads_eq] at hi
  exact plan.command_at (getElem?_of_thenClosed hi)

theorem Invariant.command_of_mem (h : Invariant plan st) {c : Command}
    (hmem : .ok (.special c) ∈ st.reads) : c = .resetPrimary ∧ plan.boot.isResetCapable := by
  obtain ⟨i, hi⟩ := List.getElem?_of_mem hmem
  exact (h.command_at hi).2

/-! ### Moves of the coprocessor -/

theorem Invariant.send {f : Frame} {rest : List Frame} (h : Invariant plan st)
    (hphase : st.phase = .sending (f :: rest)) : Invariant plan (st.proceed plan.code) := by
  obtain ⟨sent, hframes, hwords, hlen⟩ := h.queued
  have halive : st.pair.fromB.senderAlive := h.alive.mpr (by rw [hphase]; exact Phase.noConfusion)
  rw [hphase, Plan.coming, List.cons_append] at hframes
  have hf : f ∈ plan.frames := by
    rw [hframes]
    exact List.mem_append_right sent List.mem_cons_self
  have hwrite := writeMessage_frame (plan.limit_eq hf) st.pair.fromB
  have hexited := h.exited
  rw [hphase] at hexited
  simp only [State.proceed, hphase, LoopbackPair.outbound, LoopbackPair.setOutbound, hwrite]
  exact {
    queued := by
      refine ⟨sent ++ [f], ?_, ?_, fun _ => ?_⟩
      · rw [hframes, Plan.coming, List.append_assoc, List.singleton_append]
      · show st.pair.fromB.words ++ f.words = _
        rw [hwords, List.drop_append_of_le_length (hlen halive), stream, stream,
          List.flatMap_append, List.flatMap_singleton]
      · rw [List.length_append]
        exact Nat.le_add_right_of_le (hlen halive)
    alive := iff_of_true halive Phase.noConfusion
    reads_eq := h.reads_eq
    silent := h.silent
    exited := hexited
    answered := h.answered }

theorem Invariant.exit (h : Invariant plan st) (hphase : st.phase = .sending []) :
    Invariant plan (st.proceed plan.code) := by
  obtain ⟨sent, hframes, hwords, hlen⟩ := h.queued
  have halive : st.pair.fromB.senderAlive := h.alive.mpr (by rw [hphase]; exact Phase.noConfusion)
  have hexited := h.exited
  rw [hphase] at hexited hframes
  obtain ⟨hcoordinator, heffects⟩ := hexited
  obtain ⟨hsink, hsender, hdone⟩ := exit_coprocessor plan st.pair.fromB
  simp only [State.proceed, hphase, hcoordinator, heffects, LoopbackPair.outbound,
    LoopbackPair.setOutbound, List.nil_append]
  exact {
    queued := by
      refine ⟨sent ++ plan.resets, ?_, ?_, fun _ => ?_⟩
      · rw [hframes, Plan.coming, Plan.coming, List.nil_append, List.append_nil]
      · rw [hsink, hwords, List.drop_append_of_le_length (hlen halive), stream, stream, stream,
          List.flatMap_append]
      · rw [List.length_append]
        exact Nat.le_add_right_of_le (hlen halive)
    alive := iff_of_true (hsender.trans halive) Phase.noConfusion
    reads_eq := h.reads_eq
    silent := h.silent
    exited := hdone
    answered := h.answered }

theorem Invariant.drop (h : Invariant plan st) (hphase : st.phase = .exited) :
    Invariant plan (st.proceed plan.code) := by
  obtain ⟨sent, hframes, hwords, -⟩ := h.queued
  have hexited := h.exited
  rw [hphase] at hexited hframes
  simp only [State.proceed, hphase]
  exact {
    queued := ⟨sent, hframes, hwords, fun halive => Bool.noConfusion halive⟩
    alive := iff_of_false Bool.noConfusion fun hne => hne rfl
    reads_eq := h.reads_eq
    silent := h.silent
    exited := hexited
    answered := h.answered }

theorem Invariant.proceed (h : Invariant plan st) : Invariant plan (st.proceed plan.code) := by
  cases hphase : st.phase with
  | sending rest =>
      cases rest with
      | nil => exact h.exit hphase
      | cons f rest => exact h.send hphase
  | exited => exact h.drop hphase
  | gone =>
      have hstays : st.proceed plan.code = st := by simp only [State.proceed, hphase]
      rw [hstays]
      exact h

/-! ### Moves of the primary -/

/-- A read gives the next answer, unless it has to wait. -/
theorem Invariant.read_cases (h : Invariant plan st) :
    (st.pair.fromB.words = [] ∧ st.phase ≠ .gone ∧ st.read = st) ∨
      ∃ q, q.senderAlive = st.pair.fromB.senderAlive ∧
        (∃ sent, plan.frames = sent ++ plan.coming st.phase ∧
          q.words = stream (sent.drop (st.reads.length + 1)) ∧
          (q.senderAlive → st.reads.length + 1 ≤ sent.length)) ∧
        st.read = { st with
          pair := { st.pair with fromB := q }
          reads := st.reads ++ [plan.answerAt st.reads.length] } := by
  obtain ⟨sent, hframes, hwords, hlen⟩ := h.queued
  by_cases hlt : st.reads.length < sent.length
  · -- There is a frame to read.
    have hdrop := List.drop_eq_getElem_cons hlt
    have hmem : sent[st.reads.length] ∈ plan.frames := by
      rw [hframes]
      exact List.mem_append_left _ (List.getElem_mem hlt)
    rw [hdrop] at hwords
    refine Or.inr ⟨{ st.pair.fromB with words := stream (sent.drop (st.reads.length + 1)) }, rfl,
      ⟨sent, hframes, rfl, fun _ => hlt⟩, ?_⟩
    rw [read_of_frame hmem hwords, plan.answerAt_of_lt hframes hlt]
  · -- All that was sent is read.
    have hge : sent.length ≤ st.reads.length := Nat.le_of_not_lt hlt
    rw [List.drop_eq_nil_of_le hge] at hwords
    have hread : st.read = _ := read_of_empty hwords
    by_cases halive : st.pair.fromB.senderAlive
    · rw [if_pos halive] at hread
      exact Or.inl ⟨hwords, h.alive.mp halive, hread⟩
    · rw [if_neg halive] at hread
      refine Or.inr ⟨st.pair.fromB, rfl, ⟨sent, hframes, ?_, fun ha => absurd ha halive⟩, ?_⟩
      · rw [hwords, List.drop_eq_nil_of_le (Nat.le_succ_of_le hge), stream, List.flatMap_nil]
      · have hgone : st.phase = .gone := by
          by_cases hp : st.phase = .gone
          · exact hp
          · exact absurd (h.alive.mpr hp) halive
        have hover : plan.frames.length ≤ st.reads.length := by
          rw [hframes, hgone, Plan.coming, List.append_nil]
          exact hge
        rw [hread, plan.answerAt_of_le hover]

theorem Invariant.read (h : Invariant plan st) : Invariant plan st.read := by
  rcases h.read_cases with ⟨-, -, hread⟩ | ⟨q, halive, hqueued, hread⟩
  · rw [hread]
    exact h
  · rw [hread]
    have hlen : (st.reads ++ [plan.answerAt st.reads.length]).length =
        st.reads.length + 1 := by rw [List.length_append, List.length_singleton]
    exact {
      queued := by
        rw [hlen]
        exact hqueued
      alive := by
        rw [halive]
        exact h.alive
      reads_eq := by
        rw [hlen, thenClosed_succ, ← h.reads_eq]
        rfl
      silent := h.silent
      exited := h.exited
      answered := by
        rcases h.answered with hbefore | ⟨hhalted, hasked, hdone⟩
        · exact Or.inl hbefore
        · refine Or.inr ⟨hhalted, ?_, hdone⟩
          rw [List.any_append, hasked]
          rfl }

theorem Invariant.answer (h : Invariant plan st) (code : Int) :
    Invariant plan (st.answer code) := by
  by_cases ha : st.reads.any asksPrimary
  · obtain ⟨c, hmem⟩ := command_of_asks ha
    obtain ⟨-, hcap⟩ := h.command_of_mem hmem
    rcases h.answered with ⟨hprimary, heffects⟩ | ⟨hhalted, hasked, hdone⟩
    · obtain ⟨-, hsink, hacts⟩ := Coordinator.request_of_primary (c := plan.start.primary) rfl
        (Boot.accepts_iff.mp hcap) rfl code st.pair.fromA
      simp only [State.answer, if_pos ha, hprimary, heffects, LoopbackPair.outbound,
        LoopbackPair.setOutbound, hsink, List.nil_append]
      exact {
        queued := h.queued
        alive := h.alive
        reads_eq := h.reads_eq
        silent := h.silent
        exited := h.exited
        answered := Or.inr ⟨ExitCoordinator.isHalted_request _ _ _, ha, hacts⟩ }
    · have hstays : st.answer code = st := by
        rw [State.answer, if_pos ha]
        simp only [ExitCoordinator.request_of_halted hhalted, LoopbackPair.outbound,
          LoopbackPair.setOutbound, List.append_nil]
      rw [hstays]
      exact h
  · rw [State.answer, if_neg ha]
    exact h

/-! ## Runs -/

theorem Invariant.step (h : Invariant plan st) (move : Move) :
    Invariant plan (plan.step st move) := by
  cases move with
  | coprocessor => exact h.proceed
  | read => exact h.read
  | answer code => exact h.answer code

theorem invariant_run (plan : Plan) (moves : List Move) : Invariant plan (plan.run moves) := by
  have hrun : ∀ st, Invariant plan st → Invariant plan (moves.foldl plan.step st) := by
    induction moves with
    | nil => exact fun _ h => h
    | cons move moves ih => exact fun _ h => ih _ (h.step move)
  exact hrun plan.start (invariant_start plan)

/-- The coprocessor never waits. -/
theorem left_step (plan : Plan) (st : State) (move : Move) :
    (plan.step st move).phase.left =
      st.phase.left - if move == .coprocessor then 1 else 0 := by
  cases move with
  | coprocessor =>
      show (st.proceed plan.code).phase.left = st.phase.left - 1
      unfold State.proceed
      split <;> next hphase => rw [hphase]; rfl
  | read =>
      show st.read.phase.left = st.phase.left
      unfold State.read
      dsimp only
      split <;> rfl
  | answer code =>
      show (st.answer code).phase.left = st.phase.left
      unfold State.answer
      split <;> rfl

theorem left_run (plan : Plan) (moves : List Move) :
    (plan.run moves).phase.left = plan.traffic.length + 2 - moves.count .coprocessor := by
  have hrun : ∀ st, (moves.foldl plan.step st).phase.left =
      st.phase.left - moves.count .coprocessor := by
    induction moves with
    | nil => exact fun _ => rfl
    | cons move moves ih =>
        intro st
        rw [List.foldl_cons, ih, left_step, List.count_cons]
        omega
  exact hrun plan.start

/-- What a run shows, however far it is. -/
structure Kept (plan : Plan) (st : State) : Prop where
  /-- The primary has read the first of the answers, and `closed` behind the last. -/
  reads_eq : st.reads = thenClosed st.reads.length plan.answers
  /-- A command is read behind all traffic and only when the loader can take over.
  It asks the primary for a reset. -/
  command_at : ∀ i c, st.reads[i]? = some (.ok (.special c)) →
    i = plan.traffic.length ∧ c = .resetPrimary ∧ c.resetTarget = some .primary ∧
      plan.boot.isResetCapable
  /-- A read is over at once, or there is not a single word for it and the
  coprocessor is not gone. -/
  reading : st.read.reads.length = st.reads.length + 1 ∨
    st.pair.pending .a = 0 ∧ st.phase ≠ .gone ∧ st.read = st
  silent : st.pair.sent .a = 0 ∧ st.pair.pending .b = 0
  /-- When a command was read, an answer runs the exit of the primary. -/
  answers : ∀ c, .ok (.special c) ∈ st.reads → ∀ code, (st.answer code).primary.state.isHalted
  /-- Without the command it does not run. -/
  asked : st.primary.state.isHalted → .ok (.special .resetPrimary) ∈ st.reads
  /-- Only the exit of the primary enters the loader, and only the primary, once. -/
  entered : Effect.entered (st.coprocessorEffects ++ st.primaryEffects) =
    if st.primary.state.isHalted ∧ plan.boot.hasEntries then [.primary] else []
  /-- It tries to where there is none. -/
  ignored : ∀ p, Effect.ignored p (st.coprocessorEffects ++ st.primaryEffects) =
    if st.primary.state.isHalted ∧ p = .primary ∧ plan.boot.hasEntries = false then 1 else 0
  /-- The power goes off only where the loader cannot take over. -/
  powerOffs : Effect.powerOffs (st.coprocessorEffects ++ st.primaryEffects) =
    if st.phase.hasExited ∧ plan.boot.isResetCapable = false then 1 else 0

theorem Exited.effects {c : Coordinator} {es : List Effect} {phase : Phase}
    (h : Exited plan c es phase) :
    Effect.entered es = [] ∧ (∀ p, Effect.ignored p es = 0) ∧
      Effect.powerOffs es =
        if phase.hasExited ∧ plan.boot.isResetCapable = false then 1 else 0 := by
  cases phase with
  | sending rest =>
      obtain ⟨-, rfl⟩ := h
      refine ⟨rfl, fun _ => rfl, ?_⟩
      rw [if_neg fun hexited => Bool.noConfusion hexited.1]
      rfl
  | _ =>
      obtain ⟨hentered, hignored, hoffs⟩ := h
      refine ⟨hentered, hignored, ?_⟩
      rw [hoffs]
      cases plan.boot.isResetCapable <;> rfl

theorem Answered.effects {es : List Effect} {reads : List (Except MessageError Message)}
    {c : Coordinator} (h : Answered plan c es reads) :
    Effect.powerOffs es = 0 ∧
      Effect.entered es = (if c.state.isHalted ∧ plan.boot.hasEntries then [.primary] else []) ∧
      ∀ p, Effect.ignored p es =
        if c.state.isHalted ∧ p = .primary ∧ plan.boot.hasEntries = false then 1 else 0 := by
  rcases h with ⟨rfl, rfl⟩ | ⟨hhalted, -, hoffs, hentered, hignored⟩
  · refine ⟨rfl, ?_, fun p => ?_⟩
    · rw [if_neg fun hhalted => Bool.noConfusion hhalted.1]
      rfl
    · rw [if_neg fun hhalted => Bool.noConfusion hhalted.1]
      rfl
  · refine ⟨hoffs, ?_, fun p => ?_⟩
    · simp only [hentered, hhalted, true_and]
    · simp only [hignored, hhalted, true_and]

theorem Invariant.kept (h : Invariant plan st) : Kept plan st := by
  obtain ⟨hentered, hignored, hoffs⟩ := h.exited.effects
  obtain ⟨hoffs', hentered', hignored'⟩ := h.answered.effects
  exact {
    reads_eq := h.reads_eq
    command_at := by
      intro i c hi
      obtain ⟨hat, rfl, hcap⟩ := h.command_at hi
      exact ⟨hat, rfl, rfl, hcap⟩
    reading := by
      rcases h.read_cases with ⟨hwords, hphase, hread⟩ | ⟨q, -, -, hread⟩
      · exact Or.inr ⟨congrArg List.length hwords, hphase, hread⟩
      · rw [hread]
        exact Or.inl List.length_append
    silent := by
      show st.pair.fromA.sent = 0 ∧ st.pair.fromA.words.length = 0
      rw [h.silent]
      exact ⟨rfl, rfl⟩
    answers := by
      intro c hmem code
      obtain ⟨rfl, -⟩ := h.command_of_mem hmem
      have hasks : st.reads.any asksPrimary := List.any_eq_true.mpr ⟨_, hmem, rfl⟩
      rw [State.answer, if_pos hasks]
      exact ExitCoordinator.isHalted_request _ _ _
    asked := by
      intro hhalted
      rcases h.answered with ⟨hprimary, -⟩ | ⟨-, hasked, -⟩
      · rw [hprimary] at hhalted
        cases hhalted
      · obtain ⟨c, hmem⟩ := command_of_asks hasked
        obtain ⟨rfl, -⟩ := h.command_of_mem hmem
        exact hmem
    entered := by rw [Effect.entered_append, hentered, hentered', List.nil_append]
    ignored := by
      intro p
      rw [Effect.ignored_append, hignored, hignored', Nat.zero_add]
    powerOffs := by rw [Effect.powerOffs_append, hoffs, hoffs', Nat.add_zero] }

/-- Once the coprocessor is gone no read waits. -/
theorem Invariant.reads_of_gone (h : Invariant plan st) (hgone : st.phase = .gone) (n : Nat) :
    ((List.replicate n Move.read).foldl plan.step st).reads =
      thenClosed (st.reads.length + n) plan.answers := by
  induction n generalizing st with
  | zero => exact h.reads_eq
  | succ n ih =>
      rcases h.read_cases with ⟨-, hphase, -⟩ | ⟨q, -, -, hread⟩
      · exact absurd hgone hphase
      · have hlen : st.read.reads.length = st.reads.length + 1 := by
          rw [hread]
          exact List.length_append
        have hstays : st.read.phase = .gone := by
          rw [hread]
          exact hgone
        rw [List.replicate_succ, List.foldl_cons, Plan.step, ih h.read hstays, hlen,
          Nat.add_assoc, Nat.add_comm 1 n]

/-- In any order of the moves the handshake is kept.  After enough moves of the
coprocessor the primary reads all that was sent, and then only `closed`. -/
theorem kept_run (plan : Plan) (moves : List Move) :
    Kept plan (plan.run moves) ∧
      (plan.traffic.length + 2 ≤ moves.count .coprocessor → ∀ n,
        (plan.run (moves ++ List.replicate n .read)).reads =
          thenClosed ((plan.run moves).reads.length + n) plan.answers) := by
  have h := invariant_run plan moves
  refine ⟨h.kept, fun hmoves n => ?_⟩
  have hgone : (plan.run moves).phase = .gone := by
    have hleft := left_run plan moves
    cases hphase : (plan.run moves).phase with
    | gone => rfl
    | _ =>
        rw [hphase, Phase.left] at hleft
        omega
  rw [Plan.run, List.foldl_append]
  exact h.reads_of_gone hgone n

/-- A block whose payload word is the word of the command, read before and after
the coprocessor exits. -/
theorem kept_run_lookalike :
    let block : Frame := ⟨.data 1 [0x0B, 0x00, 0x04, 0x0C], Message.defaultLimit,
      ⟨0x10000004, [0x0C04000B]⟩, rfl⟩
    let plan : Plan := ⟨[block, block], by simp [block], by simp [block, Message.channel], 0,
      .cooperative⟩
    let moves : List Move := [.read, .coprocessor, .read, .coprocessor, .coprocessor, .coprocessor]
    plan.traffic.length + 2 ≤ moves.count .coprocessor ∧
      (plan.run (moves ++ List.replicate 3 .read)).reads =
        [.ok block.message, .ok block.message, .ok (.special .resetPrimary),
          .error (.carrier .closed)] := by
  intro block plan moves
  have hmoves : plan.traffic.length + 2 ≤ moves.count .coprocessor := by decide
  exact ⟨hmoves, ((kept_run plan moves).2 hmoves 3).trans rfl⟩

end WordFifo.Handshake
