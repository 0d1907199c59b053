import WordFifo.Text.Numeral
import WordFifo.Text.Quoted
import WordFifo.Tool.Failure

/-!
# Argument values

The values that are written on the command line: words, signatures, channels and
durations.  Words and channels share the literals of 32 bits, and a signature is
a literal of 64 bits.

A duration is a decimal number with a unit, `ms` or `s`.  Without a unit it is in
seconds.  Zero is no duration.
-/

namespace WordFifo.Tool

/-- Why a value is refused. -/
inductive ArgumentError where
  /-- It is no literal of its width. -/
  | literal (bits : Nat) (input : String) (cause : NumeralError)
  /-- It names no channel. -/
  | channel (cause : MessageError)
deriving DecidableEq, Repr

/-- The wording of a refusal. -/
def ArgumentError.message : ArgumentError → String
  | .literal bits input cause =>
    "invalid " ++ Digits.decimal bits ++ "-bit value " ++ Quoted.text input ++ ": " ++
      cause.message
  | .channel cause => cause.message

namespace Argument

/-- A literal of some bits. -/
def literal (bits : Nat) (s : String) : Except ArgumentError Nat :=
  match Numeral.literal bits s with
  | .ok n => .ok n
  | .error e => .error (.literal bits s e)

/-- A word. -/
def word (s : String) : Except ArgumentError UInt32 := (literal 32 s).map UInt32.ofNat

/-- A boot signature. -/
def signature (s : String) : Except ArgumentError UInt64 := (literal 64 s).map UInt64.ofNat

/-- A channel. -/
def channel (s : String) : Except ArgumentError Channel :=
  match word s with
  | .error e => .error e
  | .ok id =>
    match Channel.ofId id with
    | .ok c => .ok c
    | .error e => .error (.channel e)

/-- Why a duration is refused. -/
inductive DurationError where
  | empty
  /-- The number is none.  The text is the duration without blanks around it. -/
  | invalid (text : String)
  | zero
deriving DecidableEq, Repr

/-- The wording of a refusal. -/
def DurationError.message : DurationError → String
  | .empty => "duration must not be empty"
  | .invalid text => "invalid duration value: " ++ text
  | .zero => "duration must be greater than zero"

/-- A duration. -/
structure Duration where
  milliseconds : Nat
deriving DecidableEq, Repr

namespace Duration

/-- The whole seconds. -/
def seconds (d : Duration) : Nat := d.milliseconds / 1000

/-- What is left of the seconds, in nanoseconds. -/
def nanoseconds (d : Duration) : Nat := d.milliseconds % 1000 * 1000000

end Duration

/-- Takes the unit off a duration.  The number is how many milliseconds it has. -/
def splitUnit (cs : List Char) : List Char × Nat :=
  match cs.reverse with
  | 's' :: 'm' :: rest => (rest.reverse, 1)
  | 's' :: rest => (rest.reverse, 1000)
  | _ => (cs, 1000)

/-- A duration. -/
def duration (s : String) : Except DurationError Duration :=
  let cs := Blank.trim s.toList
  if cs.isEmpty then .error .empty
  else
    let (number, unit) := splitUnit cs
    match Numeral.unsigned 10 UInt64.size number with
    | .error _ => .error (.invalid (String.ofList cs))
    | .ok n => if n = 0 then .error .zero else .ok ⟨n * unit⟩

/-- A duration that is refused is a wrong use of the tool. -/
def DurationError.failure (e : DurationError) : Failure := ⟨.usage, e.message⟩

end Argument

end WordFifo.Tool
