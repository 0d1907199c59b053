import WordFifo.Exit.Coordinator

/-!
# A coordinator acts once

A run is a row of requests to one coordinator.  The first request decides: it
reports its code and then powers off, enters the loader or asks the peer, and it
leaves the coordinator halted.  Every later request is refused and does nothing
(`requests_of_halted`), also when the first one failed.  A coordinator whose role
is in a box does what the coordinator of that role does (`requests_boxed`).

`reports`, `entered`, `ignored` and `powerOffs` read off the effects of a run
what it did to the outside.  The sink is `Watched`, so that a call that fails is
seen as well.
-/

namespace WordFifo

/-! ## Reading off effects -/

namespace Effect

/-- The codes that were reported. -/
def reports (es : List Effect) : List Int :=
  es.filterMap fun
    | .report code => some code
    | _ => none

/-- The processors that entered the loader. -/
def entered (es : List Effect) : List Processor :=
  es.filterMap fun
    | .enterLoader p => some p
    | _ => none

/-- How often a processor was to enter a loader that is not there. -/
def ignored (p : Processor) (es : List Effect) : Nat := es.count (.tell (Boot.entryMissing p))

/-- How often the power went off. -/
def powerOffs (es : List Effect) : Nat := es.count .powerOff

theorem reports_append (es fs : List Effect) : reports (es ++ fs) = reports es ++ reports fs :=
  List.filterMap_append

theorem entered_append (es fs : List Effect) : entered (es ++ fs) = entered es ++ entered fs :=
  List.filterMap_append

theorem ignored_append (p : Processor) (es fs : List Effect) :
    ignored p (es ++ fs) = ignored p es + ignored p fs :=
  List.count_append

theorem powerOffs_append (es fs : List Effect) :
    powerOffs (es ++ fs) = powerOffs es + powerOffs fs :=
  List.count_append

/-! What is only told does nothing to the outside. -/

theorem reports_map_tell (events : List Event) : reports (events.map .tell) = [] := by
  induction events with
  | nil => rfl
  | cons event events ih => exact ih

theorem entered_map_tell (events : List Event) : entered (events.map .tell) = [] := by
  induction events with
  | nil => rfl
  | cons event events ih => exact ih

theorem powerOffs_map_tell (events : List Event) : powerOffs (events.map .tell) = 0 := by
  induction events with
  | nil => rfl
  | cons event events ih => exact ih

end Effect

/-! ## Entering the loader -/

namespace Boot

theorem accepts_iff {b : Boot} {expected : UInt64} :
    b.accepts expected ↔ b.signature = expected := beq_iff_eq

theorem entered_enter (b : Boot) (p : Processor) :
    Effect.entered (b.enter p) = if b.hasEntries then [p] else [] := by
  rw [enter]
  split <;> rfl

theorem ignored_enter (b : Boot) (p q : Processor) :
    Effect.ignored q (b.enter p) = if q = p ∧ b.hasEntries = false then 1 else 0 := by
  rw [enter]
  cases b.hasEntries <;> cases p <;> cases q <;> rfl

theorem powerOffs_enter (b : Boot) (p : Processor) : Effect.powerOffs (b.enter p) = 0 := by
  rw [enter]
  split <;> rfl

end Boot

/-! ## Requests in a row -/

/-- What a row of requests gives. -/
structure ExitRun (σ ρ : Type) where
  results : List (Except ExitError ExitOutcome)
  coordinator : ExitCoordinator ρ
  sink : σ
  /-- What they do to the outside, in order. -/
  effects : List Effect

namespace ExitCoordinator

variable {σ ρ : Type} [Sink σ] [Role ρ] {c : ExitCoordinator ρ}

/-- One request for each code. -/
def requests (c : ExitCoordinator ρ) : List Int → σ → ExitRun σ ρ
  | [], s => ⟨[], c, s, []⟩
  | code :: codes, s =>
    let first := c.request code s
    let later := first.coordinator.requests codes first.sink
    ⟨first.result :: later.results, later.coordinator, later.sink, first.effects ++ later.effects⟩

/-- A halted coordinator refuses every request and does nothing. -/
theorem requests_of_halted (h : c.state.isHalted) (codes : List Int) (s : σ) :
    c.requests codes s =
      ⟨List.replicate codes.length (.error .alreadyHalted), c, s, []⟩ := by
  induction codes with
  | nil => rfl
  | cons code codes ih =>
      rw [requests, request_of_halted h, ih]
      rfl

/-- All that a row of requests does is done by the first. -/
theorem requests_cons (code : Int) (codes : List Int) (s : σ) :
    c.requests (code :: codes) s =
      ⟨(c.request code s).result :: List.replicate codes.length (.error .alreadyHalted),
        (c.request code s).coordinator, (c.request code s).sink, (c.request code s).effects⟩ := by
  rw [requests, requests_of_halted (isHalted_request c code s), List.append_nil]

/-! A role in a box is asked what the role itself would be asked. -/

/-- The coordinator with its role in a box. -/
def boxed (c : ExitCoordinator ρ) : ExitCoordinator (Boxed ρ) :=
  ⟨⟨c.role⟩, c.boot, c.expected, c.state⟩

theorem request_boxed (c : ExitCoordinator ρ) (code : Int) (s : σ) :
    let step := c.request code s
    c.boxed.request code s = ⟨step.result, step.coordinator.boxed, step.sink, step.effects⟩ := by
  intro step
  have hact : c.boxed.act s = c.act s := rfl
  simp only [step, request, hact]
  cases hhalted : c.state.isHalted with
  | true => simp only [boxed, hhalted, if_true]
  | false =>
      simp only [boxed, hhalted, Bool.false_eq_true, if_false]
      rfl

theorem requests_boxed (c : ExitCoordinator ρ) (codes : List Int) (s : σ) :
    let run := c.requests codes s
    c.boxed.requests codes s = ⟨run.results, run.coordinator.boxed, run.sink, run.effects⟩ := by
  induction codes generalizing c s with
  | nil => rfl
  | cons code codes ih => simp only [requests, request_boxed, ih]

end ExitCoordinator

namespace Coordinator

open ExitCoordinator

variable {σ : Type} [Sink σ] {c : Coordinator} {s s' : σ}

/-! ## The one action

It never reports a code, which the request around it does. -/

theorem request_of_running (h : c.state = .running) (code : Int) (s : σ) :
    c.request code s =
      ⟨(c.act s).1, { c with state := .halted (c.act s).1.toOption }, (c.act s).2.1,
        .tell (requested c.role code) :: reportEffects code ++ (c.act s).2.2 ++
          [.tell (finished c.role (.halted (c.act s).1.toOption))]⟩ := by
  rw [request, h]
  rfl

theorem result_of_running (h : c.state = .running) (code : Int) (s : σ) :
    (c.request code s).result = (c.act s).1 ∧ (c.request code s).sink = (c.act s).2.1 := by
  rw [request_of_running h]
  exact ⟨rfl, rfl⟩

theorem act_of_mismatch (h : c.boot.signature ≠ c.expected) (s : σ) :
    c.act s =
      (.ok .shutDown, s, [.tell (mismatch c.role c.boot.signature), .powerOff]) := by
  rw [act, if_neg (mt Boot.accepts_iff.mp h)]
  rfl

theorem act_of_primary (h : c.boot.signature = c.expected) (hp : c.role = .primary) (s : σ) :
    c.act s = (.ok .rebootedLocally, s, c.boot.enter .primary) := by
  rw [act, if_pos (Boot.accepts_iff.mpr h), hp]
  rfl

theorem act_of_sent (h : c.boot.signature = c.expected) (hp : c.role = .coprocessor)
    (hs : Sink.send s 0x0C04000B [] = (.ok (), s')) :
    c.act s = (.ok (.resetRequested 0x0C04000B), s',
      (Sink.sendEvents σ 0x0C04000B [] ++
        [Processor.resetRequestSent .coprocessor 0x0C04000B]).map .tell) := by
  have hw : (Command.resetRequest .coprocessor).toWord = 0x0C04000B := by decide
  rw [act, if_pos (Boot.accepts_iff.mpr h), hp]
  simp only [Role.strategy, Processor.strategy, Role.requestReset, Processor.requestReset,
    Sink.sendWord, hw, hs]

theorem act_of_unsent {e : CarrierError} (h : c.boot.signature = c.expected)
    (hp : c.role = .coprocessor) (hs : Sink.send s 0x0C04000B [] = (.error e, s')) :
    c.act s = (.error (.carrier e), s', []) := by
  have hw : (Command.resetRequest .coprocessor).toWord = 0x0C04000B := by decide
  rw [act, if_pos (Boot.accepts_iff.mpr h), hp]
  simp only [Role.strategy, Processor.strategy, Role.requestReset, Processor.requestReset,
    Sink.sendWord, hw, hs]
  rfl

/-! ## What a request does to the outside -/

theorem reports_act (s : σ) : Effect.reports (c.act s).2.2 = [] := by
  by_cases h : c.boot.signature = c.expected
  · cases hp : c.role with
    | primary =>
        rw [act_of_primary h hp, Boot.enter]
        cases c.boot.hasEntries <;> rfl
    | coprocessor =>
        cases hs : Sink.send s 0x0C04000B [] with
        | mk sent s' =>
            cases sent with
            | ok _ =>
                rw [act_of_sent h hp hs]
                exact Effect.reports_map_tell _
            | error e =>
                rw [act_of_unsent h hp hs]
                rfl
  · rw [act_of_mismatch h]
    rfl

/-- Around its action a request only reports the code. -/
theorem effects_of_running (h : c.state = .running) (code : Int) (s : σ) :
    Effect.reports (c.request code s).effects = (if code = 0 then [] else [code]) ∧
      Effect.entered (c.request code s).effects = Effect.entered (c.act s).2.2 ∧
      (∀ p, Effect.ignored p (c.request code s).effects = Effect.ignored p (c.act s).2.2) ∧
      Effect.powerOffs (c.request code s).effects = Effect.powerOffs (c.act s).2.2 := by
  rw [request_of_running h]
  -- A code that is reported is the only one, and nothing else comes of it.
  have hreport : Effect.reports (reportEffects code) = (if code = 0 then [] else [code]) ∧
      Effect.entered (reportEffects code) = [] ∧
      (∀ p, Effect.ignored p (reportEffects code) = 0) ∧
      Effect.powerOffs (reportEffects code) = 0 := by
    rw [reportEffects]
    split <;> exact ⟨rfl, rfl, fun _ => rfl, rfl⟩
  obtain ⟨hr, he, hi, ho⟩ := hreport
  refine ⟨?_, ?_, ?_, ?_⟩
  · rw [← List.singleton_append, Effect.reports_append, Effect.reports_append,
      Effect.reports_append, hr, reports_act, List.append_nil]
    exact List.append_nil _
  · rw [← List.singleton_append, Effect.entered_append, Effect.entered_append,
      Effect.entered_append, he]
    exact List.append_nil _
  · intro p
    rw [← List.singleton_append, Effect.ignored_append, Effect.ignored_append,
      Effect.ignored_append, hi]
    exact Nat.zero_add _
  · rw [← List.singleton_append, Effect.powerOffs_append, Effect.powerOffs_append,
      Effect.powerOffs_append, ho]
    exact Nat.zero_add _

/-! ## The first request -/

theorem request_of_mismatch (h : c.state = .running) (hb : c.boot.signature ≠ c.expected)
    (code : Int) (s : σ) :
    let step := c.request code s
    step.result = .ok .shutDown ∧ step.sink = s ∧ Effect.powerOffs step.effects = 1 ∧
      Effect.entered step.effects = [] ∧ ∀ q, Effect.ignored q step.effects = 0 := by
  intro step
  obtain ⟨hresult, hsink⟩ := result_of_running h code s
  obtain ⟨-, hentered, hignored, hoffs⟩ := effects_of_running h code s
  rw [hresult, hsink, hentered, hoffs, act_of_mismatch hb]
  refine ⟨rfl, rfl, rfl, rfl, fun q => ?_⟩
  rw [hignored, act_of_mismatch hb]
  rfl

theorem request_of_primary (h : c.state = .running) (hb : c.boot.signature = c.expected)
    (hp : c.role = .primary) (code : Int) (s : σ) :
    let step := c.request code s
    step.result = .ok .rebootedLocally ∧ step.sink = s ∧ Effect.powerOffs step.effects = 0 ∧
      Effect.entered step.effects = (if c.boot.hasEntries then [.primary] else []) ∧
      ∀ q, Effect.ignored q step.effects =
        if q = .primary ∧ c.boot.hasEntries = false then 1 else 0 := by
  intro step
  obtain ⟨hresult, hsink⟩ := result_of_running h code s
  obtain ⟨-, hentered, hignored, hoffs⟩ := effects_of_running h code s
  rw [hresult, hsink, hentered, hoffs, act_of_primary hb hp]
  refine ⟨rfl, rfl, Boot.powerOffs_enter c.boot .primary, Boot.entered_enter c.boot .primary,
    fun q => ?_⟩
  rw [hignored, act_of_primary hb hp]
  exact Boot.ignored_enter c.boot .primary q

/-- A sink may tell anything.  Where it tells nothing, no loader is missed. -/
theorem request_of_coprocessor (h : c.state = .running) (hb : c.boot.signature = c.expected)
    (hp : c.role = .coprocessor) (code : Int) (s : σ) :
    let step := c.request code s
    let sent := Sink.send s 0x0C04000B []
    step.result = (match sent.1 with
        | .ok () => .ok (.resetRequested 0x0C04000B)
        | .error e => .error (.carrier e)) ∧
      step.sink = sent.2 ∧ Effect.powerOffs step.effects = 0 ∧ Effect.entered step.effects = [] ∧
      (Sink.sendEvents σ 0x0C04000B [] = [] → ∀ q, Effect.ignored q step.effects = 0) := by
  intro step sent
  obtain ⟨hresult, hsink⟩ := result_of_running h code s
  obtain ⟨-, hentered, hignored, hoffs⟩ := effects_of_running h code s
  rw [hresult, hsink, hentered, hoffs]
  cases hs : sent with
  | mk outcome s' =>
      cases outcome with
      | ok _ =>
          rw [act_of_sent hb hp hs]
          refine ⟨rfl, rfl, Effect.powerOffs_map_tell _, Effect.entered_map_tell _, ?_⟩
          intro hsilent q
          rw [hignored, act_of_sent hb hp hs, hsilent]
          cases q <;> rfl
      | error e =>
          rw [act_of_unsent hb hp hs]
          refine ⟨rfl, rfl, rfl, rfl, fun _ q => ?_⟩
          rw [hignored, act_of_unsent hb hp hs]
          rfl

/-- Over any row of requests a coordinator acts once.  The first request reports
its code and then powers off, enters the loader, or makes one call of the sink,
which may fail.  It leaves the coordinator halted, with what was done, and every
later request is refused.  With its role in a box a coordinator does the same. -/
theorem requests_act_once (p : Processor) (boot : Boot) (expected : UInt64) (s : σ) (code : Int)
    (codes : List Int) :
    let start : Coordinator := ⟨p, boot, expected, .running⟩
    let run := start.requests (code :: codes) (⟨s, []⟩ : Watched σ)
    let sent := Sink.send s 0x0C04000B []
    ∃ first,
      run.results = first :: List.replicate codes.length (.error .alreadyHalted) ∧
      run.coordinator = { start with state := .halted first.toOption } ∧
      run.effects = (start.request code (⟨s, []⟩ : Watched σ)).effects ∧
      Effect.reports run.effects = (if code = 0 then [] else [code]) ∧
      (boot.signature ≠ expected →
        first = .ok .shutDown ∧ run.sink = ⟨s, []⟩ ∧ Effect.powerOffs run.effects = 1 ∧
        Effect.entered run.effects = [] ∧ ∀ q, Effect.ignored q run.effects = 0) ∧
      (boot.signature = expected → p = .primary →
        first = .ok .rebootedLocally ∧ run.sink = ⟨s, []⟩ ∧ Effect.powerOffs run.effects = 0 ∧
        Effect.entered run.effects = (if boot.hasEntries then [.primary] else []) ∧
        ∀ q, Effect.ignored q run.effects =
          if q = .primary ∧ boot.hasEntries = false then 1 else 0) ∧
      (boot.signature = expected → p = .coprocessor →
        first = (match sent.1 with
          | .ok () => .ok (.resetRequested 0x0C04000B)
          | .error e => .error (.carrier e)) ∧
        run.sink = ⟨sent.2, [(0x0C04000B, [])]⟩ ∧ Effect.powerOffs run.effects = 0 ∧
        Effect.entered run.effects = [] ∧
        (Sink.sendEvents σ 0x0C04000B [] = [] → ∀ q, Effect.ignored q run.effects = 0)) ∧
      start.boxed.requests (code :: codes) (⟨s, []⟩ : Watched σ) =
        ⟨run.results, run.coordinator.boxed, run.sink, run.effects⟩ := by
  intro start run sent
  have hrun : run = _ := requests_cons code codes _
  obtain ⟨hreports, -⟩ := effects_of_running (c := start) rfl code (⟨s, []⟩ : Watched σ)
  have hboxed : start.boxed.requests (code :: codes) (⟨s, []⟩ : Watched σ) =
      ⟨run.results, run.coordinator.boxed, run.sink, run.effects⟩ := requests_boxed start _ _
  rw [hboxed, hrun]
  refine ⟨_, rfl, ?_, rfl, hreports, fun hb => ?_, fun hb hp => ?_, fun hb hp => ?_, rfl⟩
  · rw [request_of_running rfl]
  · exact request_of_mismatch (c := start) rfl hb code (⟨s, []⟩ : Watched σ)
  · exact request_of_primary (c := start) rfl hb hp code (⟨s, []⟩ : Watched σ)
  · exact request_of_coprocessor (c := start) rfl hb hp code (⟨s, []⟩ : Watched σ)

end Coordinator

end WordFifo
