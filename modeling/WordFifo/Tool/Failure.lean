import WordFifo.Exit.Coordinator

/-!
# Failures of the tool

A command that fails ends with a status and a message.  The status is a number
that a script can act on, so each cause of failure has its own.

The message is a context, a colon and the wording of the cause.  Where the
operating system is at fault the carrier around it is left out.
-/

namespace WordFifo.Tool

/-- How a command ended. -/
inductive ExitStatus where
  /-- It did what it was asked to do. -/
  | success
  /-- There is nobody to talk to. -/
  | failure
  | carrierClosed
  | permissionDenied
  /-- The words make no message. -/
  | dataInvalid
  /-- It was asked for something that makes no sense. -/
  | usage
  | timeout
  /-- Anything else. -/
  | internal
deriving DecidableEq, Repr

/-- The number of a status. -/
def ExitStatus.code : ExitStatus → Nat
  | .success => 0
  | .failure => 1
  | .carrierClosed => 3
  | .permissionDenied => 50
  | .dataInvalid => 60
  | .usage => 64
  | .timeout => 124
  | .internal => 125

/-- Why a command failed. -/
structure Failure where
  status : ExitStatus
  message : String
deriving DecidableEq, Repr

namespace Failure

/-- The status of an error of the operating system. -/
def statusOfIo : IoErrorKind → ExitStatus
  | .permissionDenied => .permissionDenied
  | .timedOut => .timeout
  | .wouldBlock => .timeout
  | .connectionRefused => .failure
  | .notFound => .failure
  | _ => .internal

/-- A failure of the operating system. -/
def ofIo (context : String) (e : IoError) : Failure :=
  ⟨statusOfIo e.kind, context ++ ": " ++ e.text⟩

/-- A failure of a carrier. -/
def ofCarrier (context : String) : CarrierError → Failure
  | .bind _ cause => ofIo context cause
  | .connect _ cause => ofIo context cause
  | .accept cause => ofIo context cause
  | .io cause => ofIo context cause
  | e@(.pathTooLong ..) => ⟨.usage, context ++ ": " ++ e.message⟩
  | .closed => ⟨.carrierClosed, context ++ ": " ++ CarrierError.closed.message⟩

/-- A failure to encode, read or send a message. -/
def ofMessage (context : String) : MessageError → Failure
  | .carrier cause => ofCarrier context cause
  | e@(.payloadTooLarge ..) => ⟨.dataInvalid, context ++ ": " ++ e.message⟩
  | e@(.truncated ..) => ⟨.dataInvalid, context ++ ": " ++ e.message⟩
  | e => ⟨.usage, context ++ ": " ++ e.message⟩

/-- A failure of the coordinated exit. -/
def ofExit (context : String) : ExitError → Failure
  | .carrier cause => ofCarrier context cause
  | .alreadyHalted => ⟨.internal, context ++ ": " ++ ExitError.alreadyHalted.message⟩

end Failure

end WordFifo.Tool
