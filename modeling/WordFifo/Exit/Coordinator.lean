import WordFifo.Exit.Boot
import WordFifo.Writer

/-!
# The coordinated exit

When a program ends, both processors have to come to rest together.  The
coordinator of a processor acts once.  It reports a failing code and then does
one of three things.

* With the expected boot signature, the primary jumps to the loader.
* With the expected boot signature, the coprocessor asks the primary for a reset.
* With any other signature, the power goes off and no word is sent.

After that it is halted, also when the request could not be sent, and a halted
coordinator does nothing (`request_of_halted`).

What a coordinator needs to know of its processor is a `Role`.  A role may be kept
in a box, which asks the role inside for everything.
-/

namespace WordFifo

/-- How a processor brings the system back to the loader. -/
inductive ResetStrategy where
  | rebootLocally
  | requestPeerReset
deriving DecidableEq, Repr

/-- What goes wrong at an exit. -/
inductive ExitError where
  | alreadyHalted
  /-- The reset request did not go out. -/
  | carrier (cause : CarrierError)
deriving DecidableEq, Repr

/-- The wording of an exit error. -/
def ExitError.message : ExitError → String
  | .alreadyHalted => "exit coordinator already halted"
  | .carrier cause => "reset request not sent: " ++ cause.message

/-- What a coordinator did. -/
inductive ExitOutcome where
  /-- A reset request was handed to the FIFO. -/
  | resetRequested (word : UInt32)
  | rebootedLocally
  | shutDown
deriving DecidableEq, Repr

/-- Where a coordinator stands. -/
inductive ExitState where
  | running
  /-- It has acted.  Without an outcome its request was lost. -/
  | halted (outcome : Option ExitOutcome)
deriving DecidableEq, Repr

namespace ExitOutcome

/-- The text of an outcome inside a state. -/
def describe : ExitOutcome → String
  | .resetRequested word => "ResetRequested \x7b word: " ++ Digits.decimal word.toNat ++ " \x7d"
  | .rebootedLocally => "RebootedLocally"
  | .shutDown => "ShutDown"

/-- The name of an outcome in a report. -/
def name : ExitOutcome → String
  | .resetRequested _ => "reset-requested"
  | .rebootedLocally => "rebooted-locally"
  | .shutDown => "shut-down"

end ExitOutcome

namespace ExitState

/-- The text of a state. -/
def describe : ExitState → String
  | .running => "Running"
  | .halted none => "Halted \x7b outcome: None \x7d"
  | .halted (some o) => "Halted \x7b outcome: Some(" ++ o.describe ++ ") \x7d"

/-- Whether the coordinator has acted. -/
def isHalted : ExitState → Bool
  | .running => false
  | .halted _ => true

end ExitState

/-! ## Roles -/

/-- What an attempt to send a reset request gives. -/
structure ResetRequest (σ : Type) where
  result : Except ExitError UInt32
  sink : σ
  events : List Event

namespace Processor

/-- How a processor brings the system back to the loader. -/
def strategy : Processor → ResetStrategy
  | .primary => .rebootLocally
  | .coprocessor => .requestPeerReset

/-- A reset request went out. -/
def resetRequestSent (p : Processor) (w : UInt32) : Event :=
  ⟨.debug, "reset request sent", [Event.str "processor" p.name, Event.word "word" w]⟩

/-- Sends the reset request of a processor to its peer. -/
def requestReset {σ : Type} [Sink σ] (p : Processor) (s : σ) : ResetRequest σ :=
  let w := (Command.resetRequest p).toWord
  match Sink.sendWord s w with
  | (.ok (), s) => ⟨.ok w, s, Sink.sendEvents σ w [] ++ [resetRequestSent p w]⟩
  | (.error e, s) => ⟨.error (.carrier e), s, []⟩

end Processor

/-- What a processor can do at an exit. -/
class Role (ρ : Type) where
  processor : ρ → Processor
  strategy : ρ → ResetStrategy
  /-- Sends the reset request. -/
  requestReset : {σ : Type} → [Sink σ] → ρ → σ → ResetRequest σ
  /-- Enters the loader. -/
  reboot : ρ → Boot → List Effect

instance : Role Processor where
  processor p := p
  strategy := Processor.strategy
  requestReset := Processor.requestReset
  reboot p b := b.enter p

/-- A role in a box. -/
structure Boxed (ρ : Type) where
  inner : ρ
deriving DecidableEq, Repr

instance {ρ : Type} [Role ρ] : Role (Boxed ρ) where
  processor r := Role.processor r.inner
  strategy r := Role.strategy r.inner
  requestReset r s := Role.requestReset r.inner s
  reboot r b := Role.reboot r.inner b

/-! ## The coordinator -/

/-- One processor's side of the exit. -/
structure ExitCoordinator (ρ : Type) where
  role : ρ
  boot : Boot
  expected : UInt64 := Boot.capableSignature
  state : ExitState := .running
deriving DecidableEq, Repr

/-- The coordinator of a processor whose role is in no box. -/
abbrev Coordinator := ExitCoordinator Processor

/-- What a request to a coordinator gives. -/
structure ExitStep (σ ρ : Type) where
  result : Except ExitError ExitOutcome
  coordinator : ExitCoordinator ρ
  sink : σ
  /-- What it does to the outside, in order. -/
  effects : List Effect

namespace ExitCoordinator

/-- An exit begins. -/
def requested (p : Processor) (code : Int) : Event :=
  ⟨.info, "coordinated exit requested",
    [Event.str "processor" p.name, ("exit_code", .number code)]⟩

/-- A failing code is about to be reported. -/
def reporting (code : Int) : Event := ⟨.debug, "reporting error exit", [("exit_code", .number code)]⟩

/-- The signature is not the expected one. -/
def mismatch (p : Processor) (signature : UInt64) : Event :=
  ⟨.warn, "boot signature mismatch; shutting down instead of resetting",
    [Event.str "processor" p.name, Event.num "signature" signature.toNat]⟩

/-- An exit is over. -/
def finished (p : Processor) (s : ExitState) : Event :=
  ⟨.info, "exit coordinator halted",
    [Event.str "processor" p.name, Event.str "state" s.describe]⟩

/-- What a failing code causes.  Zero causes nothing. -/
def reportEffects (code : Int) : List Effect :=
  if code = 0 then [] else [.tell (reporting code), .report code]

variable {σ ρ : Type} [Sink σ] [Role ρ]

/-- The one action of a coordinator: result, sink and effects. -/
def act (c : ExitCoordinator ρ) (s : σ) : Except ExitError ExitOutcome × σ × List Effect :=
  if c.boot.accepts c.expected then
    match Role.strategy c.role with
    | .rebootLocally => (.ok .rebootedLocally, s, Role.reboot c.role c.boot)
    | .requestPeerReset =>
      let r := Role.requestReset c.role s
      (match r.result with
        | .ok w => .ok (.resetRequested w)
        | .error e => .error e,
        r.sink, r.events.map .tell)
  else
    (.ok .shutDown, s,
      [.tell (mismatch (Role.processor c.role) c.boot.signature), .powerOff])

/-- Runs the exit with a code.  A halted coordinator refuses. -/
def request (c : ExitCoordinator ρ) (code : Int) (s : σ) : ExitStep σ ρ :=
  if c.state.isHalted then ⟨.error .alreadyHalted, c, s, []⟩
  else
    let (result, s, effects) := c.act s
    let state := ExitState.halted result.toOption
    ⟨result, { c with state := state }, s,
      .tell (requested (Role.processor c.role) code) :: reportEffects code ++ effects ++
        [.tell (finished (Role.processor c.role) state)]⟩

/-- A line that shows a coordinator. -/
def describe (c : ExitCoordinator ρ) : String :=
  "ExitCoordinator \x7b boot: " ++ c.boot.describe ++
    ", config: CoordinatorConfig \x7b expected_signature: " ++ Digits.decimal c.expected.toNat ++
    " \x7d, state: " ++ c.state.describe ++ ", .. \x7d"

/-- A halted coordinator does nothing. -/
theorem request_of_halted {c : ExitCoordinator ρ} (h : c.state.isHalted) (code : Int) (s : σ) :
    c.request code s = ⟨.error .alreadyHalted, c, s, []⟩ := by
  simp [request, h]

/-- After a request a coordinator is halted. -/
theorem isHalted_request (c : ExitCoordinator ρ) (code : Int) (s : σ) :
    (c.request code s).coordinator.state.isHalted := by
  unfold request
  split
  · assumption
  · rfl

end ExitCoordinator

end WordFifo
