import WordFifo.Tool.Connection

/-!
# The exit of a processor

The command `exit` runs the coordinated exit of one processor and reports what it
did.  The reset request goes to a socket, or to a loopback pair whose other end
is then read to its end.

On a host the loader cannot be entered and the power stays on.  Both are told
instead, and so is a failing exit code.
-/

namespace WordFifo.Tool

/-- The program failed. -/
def programFailed (code : Int) : Event :=
  ⟨.error, "program exited with an error", [("code", .number code)]⟩

/-- A processor enters the loader. -/
def enteringLoader (p : Processor) : Event :=
  ⟨.info, "entering loader", [Event.str "processor" p.name]⟩

/-- The power goes off. -/
def poweringOff : Event := ⟨.warn, "no reset-capable loader; powering off", []⟩

/-- What an effect of the exit tells on a host. -/
def hostEvent : Effect → Event
  | .tell e => e
  | .report code => programFailed code
  | .enterLoader p => enteringLoader p
  | .powerOff => poweringOff

/-- The code that was reported. -/
def reportedCode (effects : List Effect) : Option Int :=
  effects.reverse.findSome? fun
    | .report code => some code
    | _ => none

/-- The processor that entered the loader. -/
def enteredLoader (effects : List Effect) : Option Processor :=
  effects.reverse.findSome? fun
    | .enterLoader p => some p
    | _ => none

/-- The report of an exit.  `received` is what the peer read. -/
def exitReport (boot : Boot) (p : Processor) (code : Int) (outcome : ExitOutcome)
    (effects : List Effect) (sent : List UInt32) (received : List String) : Report where
  schema := Record.schemaAddress "exit-report"
  fields := [
    ("processor", .text p.name),
    ("exit_code", .number code),
    ("signature", .text (Boot.signatureText boot.signature)),
    ("reset_capable", .bool boot.isResetCapable),
    ("outcome", .text outcome.name),
    ("error_reported", .ofOption .number (reportedCode effects)),
    ("loader_entry", .ofOption (fun p => .text p.name) (enteredLoader effects)),
    ("words_sent", .texts (sent.map Digits.hexWord)),
    ("peer_received", .texts received)]

/-- The descriptor that an exit finds.  Without a signature the loader can take
over. -/
def bootOf (signature : Option UInt64) : Boot :=
  ⟨signature.getD Boot.capableSignature, true⟩

/-- Runs the coordinator of a processor over a sink. -/
def coordinate {σ : Type} [Sink σ] (p : Processor) (code : Int) (signature : Option UInt64)
    (s : σ) : ExitStep (Tap σ) Processor :=
  ({ role := p, boot := bootOf signature } : Coordinator).request code ⟨s, []⟩

/-- The texts of the messages that were read. -/
def describeReadings {σ : Type} (readings : List (Reading σ Message)) : List String :=
  readings.filterMap fun r =>
    match r.result with
    | .ok m => some m.describe
    | .error _ => none

/-- How a command ends whose readings end with an error.  A close between two
messages is the regular end. -/
def completionOf {σ : Type} (context : String) (readings : List (Reading σ Message)) :
    Completion :=
  match readings.getLast? with
  | some ⟨.error (.carrier .closed), _, _⟩ => .done
  | some ⟨.error e, _, _⟩ => .failed (Failure.ofMessage context e)
  | _ => .done

/-- Runs an exit over a loopback pair. -/
def exitLoopback (p : Processor) (code : Int) (signature : Option UInt64) : Outcome :=
  let step := coordinate p code signature ({} : LoopbackQueue)
  let events := step.effects.map hostEvent
  match step.result with
  | .error e => { events := events, completion := .failed (Failure.ofExit "exit failed" e) }
  | .ok outcome =>
    let readings := Reader.readings Message.defaultLimit step.sink.inner.dropSender
    let events := events ++ readings.flatMap (·.events)
    match completionOf "peer decode failed" readings with
    | .done =>
      { printed := [.report (exitReport (bootOf signature) p code outcome step.effects
          step.sink.words (describeReadings readings))]
        events := events
        completion := .done }
    | completion => { events := events, completion := completion }

/-- Runs an exit over the socket at a path. -/
def exitSocket (d : SocketDirectory) (p : Processor) (code : Int) (signature : Option UInt64)
    (path : String) : Outcome :=
  match d.reach path with
  | .error e => Outcome.failure (Failure.ofCarrier "connect failed" (.connect path e))
  | .ok _ =>
    let step := coordinate p code signature ({} : ByteQueue)
    let events := SocketDirectory.connected path :: step.effects.map hostEvent
    let wire := some step.sink.inner.bytes
    match step.result with
    | .error e =>
      { events := events, completion := .failed (Failure.ofExit "exit failed" e), wire := wire }
    | .ok outcome =>
      { printed := [.report (exitReport (bootOf signature) p code outcome step.effects
          step.sink.words [])]
        events := events
        completion := .done
        wire := wire }

end WordFifo.Tool
