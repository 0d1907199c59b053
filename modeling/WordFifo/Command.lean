import WordFifo.Header

/-!
# Special commands

A special command travels on no channel.  Two codes are a contract between the
processors and never change: each asks the other processor for a reset.  Every
other code is passed through.

`Command.other` may hold any number.  Only its low 24 bits reach the wire, so a
command read back is `Command.ofCode` of the code that was sent.
-/

namespace WordFifo

open Layout

/-- The two processors that share the FIFO. -/
inductive Processor where
  /-- The processor that owns the loader. -/
  | primary
  /-- The processor beside it. -/
  | coprocessor
deriving DecidableEq, Repr

namespace Processor

/-- The other processor. -/
def peer : Processor → Processor
  | primary => coprocessor
  | coprocessor => primary

/-- The name of a processor. -/
def name : Processor → String
  | primary => "primary"
  | coprocessor => "coprocessor"

/-- The processor with a name. -/
def ofName? : String → Option Processor
  | "primary" => some primary
  | "coprocessor" => some coprocessor
  | _ => none

theorem peer_peer (p : Processor) : p.peer.peer = p := by cases p <;> rfl

theorem ofName?_name (p : Processor) : ofName? p.name = some p := by cases p <;> rfl

end Processor

/-- The code that asks for a reset of the primary. -/
def primaryResetCode : UInt32 := 0x4000B

/-- The code that asks for a reset of the coprocessor. -/
def coprocessorResetCode : UInt32 := 0x4000C

/-- A special command. -/
inductive Command where
  | resetPrimary
  | resetCoprocessor
  | other (code : UInt32)
deriving DecidableEq, Repr

namespace Command

/-- The command with a code.  Only the low 24 bits count. -/
def ofCode (code : UInt32) : Command :=
  if code % commandSize = primaryResetCode then .resetPrimary
  else if code % commandSize = coprocessorResetCode then .resetCoprocessor
  else .other (code % commandSize)

/-- The code that reaches the wire. -/
def code : Command → UInt32
  | .resetPrimary => primaryResetCode
  | .resetCoprocessor => coprocessorResetCode
  | .other code => code % commandSize

/-- The request that a processor sends to reset its peer. -/
def resetRequest : Processor → Command
  | .coprocessor => .resetPrimary
  | .primary => .resetCoprocessor

/-- The processor that a command asks to reset. -/
def resetTarget : Command → Option Processor
  | .resetPrimary => some .primary
  | .resetCoprocessor => some .coprocessor
  | .other _ => none

/-- The word of a command. -/
def toWord (c : Command) : UInt32 := Pack.special c.code

/-- The command of a word that is known to be one. -/
def ofWord (w : UInt32) : Command := ofCode (Word.code w)

/-- The text of a command.  A number in `other` is shown whole. -/
def describe : Command → String
  | .resetPrimary => "coprocessor-requests-primary-reset (" ++ Digits.hex primaryResetCode.toNat ++ ")"
  | .resetCoprocessor =>
    "primary-requests-coprocessor-reset (" ++ Digits.hex coprocessorResetCode.toNat ++ ")"
  | .other code => "command " ++ Digits.hex code.toNat

theorem code_ofCode (code : UInt32) : (ofCode code).code = code % commandSize := by
  unfold ofCode
  split
  · simp [Command.code, *]
  · split
    · simp [Command.code, *]
    · apply UInt32.toNat_inj.mp
      simp [Command.code, commandSize]

theorem resetTarget_resetRequest (p : Processor) :
    (resetRequest p).resetTarget = some p.peer := by cases p <;> rfl

example : (resetRequest .coprocessor).toWord = 0x0C04000B := by decide
example : (resetRequest .primary).toWord = 0x0C04000C := by decide

end Command

end WordFifo
