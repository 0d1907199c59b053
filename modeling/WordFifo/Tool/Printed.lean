import WordFifo.Message
import WordFifo.Text.Json
import WordFifo.Text.Table
import WordFifo.Tool.Invocation

/-!
# What the tool prints

A command prints records, reports and plain lines.  A record shows one message.
A report is a list of named values.  Both have three forms: a JSON line, a table
and lines for the eye.

A JSON record carries a time stamp, which the caller supplies.
-/

namespace WordFifo

namespace Message

/-- The name of the kind of a message. -/
def kindName : Message → String
  | .value32 _ _ => "value32"
  | .address _ _ => "address"
  | .data _ _ => "data"
  | .special _ => "special-command"

/-- A payload as text, or its size when it is no text. -/
def preview (bytes : List UInt8) : String :=
  match String.fromUTF8? (ByteArray.mk bytes.toArray) with
  | some s => s
  | none => "<binary " ++ Digits.decimal bytes.length ++ " bytes>"

/-- What a message holds. -/
def valueText : Message → String
  | .value32 _ v => Digits.decimal v.toNat ++ " (" ++ Digits.hex v.toNat ++ ")"
  | .address _ a => Digits.hexWord a
  | .data _ bytes => preview bytes
  | .special cmd => cmd.describe

/-- Kind and content in one line. -/
def describe (m : Message) : String := m.kindName ++ " " ++ m.valueText

end Message

namespace Tool

/-- A message as it is printed. -/
structure Record where
  /-- The address of the schema of its JSON form. -/
  schema : String
  kind : String
  channel : Option Channel
  /-- What it holds. -/
  value : String
  /-- The bytes of a payload. -/
  payloadSize : Option Nat
  words : Option (List UInt32)
deriving DecidableEq, Repr

namespace Record

/-- The address of a schema. -/
def schemaAddress (name : String) : String :=
  "https://schemas.3leaps.dev/fifoprims/cli/v1/" ++ name ++ ".schema.json"

/-- The schema of an encoded message. -/
def encodedSchema : String := schemaAddress "encoded-message"

/-- The schema of a decoded message. -/
def decodedSchema : String := schemaAddress "decoded-message"

/-- The schema of a received message. -/
def receivedSchema : String := schemaAddress "message-received"

/-- The bytes of a payload. -/
def payloadSizeOf : Message → Option Nat
  | .data _ bytes => some bytes.length
  | _ => none

/-- The record of a message. -/
def ofMessage (schema : String) (m : Message) (words : Option (List UInt32)) : Record where
  schema := schema
  kind := m.kindName
  channel := m.channel
  value := m.valueText
  payloadSize := payloadSizeOf m
  words := words

/-- The channel for the eye.  A dash stands for none. -/
def channelLabel (r : Record) : String := (r.channel.map Channel.label).getD "-"

/-- The fields of the JSON form. -/
def fields (r : Record) (time : String) : List (String × Json.Value) := [
  ("schema_id", .text r.schema),
  ("kind", .text r.kind),
  ("channel", .ofOption (fun c => .number c.val) r.channel),
  ("channel_name", .ofOption (fun c => .text c.name) r.channel),
  ("value", .text r.value),
  ("payload_size", .ofOption (fun n => .number n) r.payloadSize),
  ("words", .ofOption (fun ws => .texts (ws.map Digits.hexWord)) r.words),
  ("timestamp", .text time)]

/-- The words between blanks. -/
def wordsText (words : List UInt32) : String := " ".intercalate (words.map Digits.hexWord)

/-- The lines of a record. -/
def render (format : OutputFormat) (time : String) (r : Record) : List String :=
  match format with
  | .json => [Json.object (r.fields time)]
  | .table =>
    Table.lines ["KIND", "CHANNEL", "VALUE", "WORDS"]
      [[r.kind, r.channelLabel, r.value, wordsText (r.words.getD [])]]
  | .pretty =>
    let words := match r.words with
      | some ws => " words=[" ++ wordsText ws ++ "]"
      | none => ""
    ["kind=" ++ r.kind ++ " channel=" ++ r.channelLabel ++ " value=" ++ r.value ++ words]

end Record

/-- Named values as they are printed. -/
structure Report where
  /-- The address of the schema of its JSON form. -/
  schema : String
  /-- The values, in order. -/
  fields : List (String × Json.Value)
deriving DecidableEq, Repr

namespace Report

/-- A value for the eye.  A dash stands for none. -/
def plain : Json.Value → String
  | .null => "-"
  | .bool b => if b then "true" else "false"
  | .number n => Digits.signed n
  | .text s => s
  | .texts [] => "-"
  | .texts ss => ", ".intercalate ss

/-- The lines of a report. -/
def render (format : OutputFormat) (r : Report) : List String :=
  match format with
  | .json => [Json.object (("schema_id", .text r.schema) :: r.fields)]
  | .table => Table.lines ["FIELD", "VALUE"] (r.fields.map fun f => [f.1, plain f.2])
  | .pretty => r.fields.map fun f => f.1 ++ ": " ++ plain f.2

end Report

/-- Something a command prints. -/
inductive Printed where
  | record (r : Record)
  /-- Named values. -/
  | report (r : Report)
  | line (s : String)
deriving DecidableEq, Repr

/-- The lines of what a command prints.  A line may hold newlines of its own. -/
def Printed.render (format : OutputFormat) (time : String) : Printed → List String
  | .record r => r.render format time
  | .report r => r.render format
  | .line s => [s]

/-- How a command ended. -/
inductive Completion where
  | done
  /-- It waits for connections that do not come. -/
  | waiting
  | failed (f : Failure)
deriving DecidableEq, Repr

/-- What a command did. -/
structure Outcome where
  printed : List Printed := []
  events : List Event := []
  completion : Completion
  /-- The bytes it sent to a socket, if it reached one. -/
  wire : Option (List UInt8) := none
deriving DecidableEq, Repr

end Tool

end WordFifo
