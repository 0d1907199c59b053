import WordFifo.Text.Json

/-!
# Log events

What an operation tells besides its result.  Operations return their events, in
order, and write nothing.  An *event* is a level, a message and fields.

`Event.render` writes an event as a line of text or as a JSON line.  `Log.lines`
writes those of a list that a threshold lets pass.
-/

namespace WordFifo

/-- How much an event matters, most first. -/
inductive LogLevel where
  | error
  /-- Something fell back to a lesser behaviour. -/
  | warn
  | info
  | debug
  | trace
deriving DecidableEq, Repr

namespace LogLevel

/-- The rank of a level.  Greater matters less. -/
def rank : LogLevel → Nat
  | error => 0
  | warn => 1
  | info => 2
  | debug => 3
  | trace => 4

/-- The level as a user writes it. -/
def name : LogLevel → String
  | error => "error"
  | warn => "warn"
  | info => "info"
  | debug => "debug"
  | trace => "trace"

/-- The level as a log line shows it. -/
def label : LogLevel → String
  | error => "ERROR"
  | warn => "WARN"
  | info => "INFO"
  | debug => "DEBUG"
  | trace => "TRACE"

/-- Every level. -/
def all : List LogLevel := [error, warn, info, debug, trace]

/-- The level with a given name.  Names are small letters only. -/
def ofName? (s : String) : Option LogLevel := all.find? fun l => l.name == s

/-- Whether a threshold lets a level pass. -/
def passes (threshold level : LogLevel) : Bool := level.rank ≤ threshold.rank

end LogLevel

/-- The two forms of log lines. -/
inductive LogFormat where
  | text
  | json
deriving DecidableEq, Repr

/-- The form with a given name. -/
def LogFormat.ofName? : String → Option LogFormat
  | "text" => some .text
  | "json" => some .json
  | _ => none

/-- The value of a field of an event. -/
inductive FieldValue where
  | number (n : Int)
  | text (s : String)
deriving DecidableEq, Repr

/-- Something worth telling. -/
structure Event where
  level : LogLevel
  message : String
  fields : List (String × FieldValue)
deriving DecidableEq, Repr

namespace Event

/-- A field whose value is a number. -/
def num (key : String) (n : Nat) : String × FieldValue := (key, .number n)

/-- A field whose value is a word. -/
def word (key : String) (w : UInt32) : String × FieldValue := (key, .number w.toNat)

/-- A field whose value is text. -/
def str (key value : String) : String × FieldValue := (key, .text value)

/-- The value of a field in a line of text. -/
def plain : FieldValue → String
  | .number n => Digits.signed n
  | .text s => s

/-- The value of a field in a JSON line. -/
def quoted : FieldValue → String
  | .number n => Digits.signed n
  | .text s => Json.string s

/-- One line for an event. -/
def render (format : LogFormat) (e : Event) : String :=
  match format with
  | .text =>
    let label := String.ofList (List.replicate (5 - e.level.label.length) ' ') ++ e.level.label
    " ".intercalate (label :: e.message :: e.fields.map fun f => f.1 ++ "=" ++ plain f.2)
  | .json =>
    Json.members [("level", Json.string e.level.label),
      ("fields", Json.members
        (("message", Json.string e.message) :: e.fields.map fun f => (f.1, quoted f.2)))]

end Event

/-- The lines of the events that a threshold lets pass, in order. -/
def Log.lines (format : LogFormat) (threshold : LogLevel) (events : List Event) : List String :=
  (events.filter fun e => threshold.passes e.level).map (Event.render format)

end WordFifo
