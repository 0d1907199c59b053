import WordFifo.Tool.Argument
import WordFifo.Tool.Grammar

/-!
# Invocations

What a command line asks for.  `Invocation.parse` reads one.

The output format, the log format and the log level may stand before the command
and behind it, and the one behind it wins.  A log level from the environment
stands in for one that the command line does not set, and has to be a level even
when nothing needs it.

Exactly one payload goes with a message.  `PayloadOptions` keeps the four choices
apart, and `PayloadOptions.message` takes the first that is there.
-/

namespace WordFifo.Tool

/-- The form of what a command prints. -/
inductive OutputFormat where
  | json
  | table
  /-- Lines for the eye. -/
  | pretty
deriving DecidableEq, Repr

/-- The form with a given name. -/
def OutputFormat.ofName? : String → Option OutputFormat
  | "json" => some .json
  | "table" => some .table
  | "pretty" => some .pretty
  | _ => none

/-- The payload of a message, in one of four options. -/
structure PayloadOptions where
  value : Option UInt32 := none
  address : Option UInt32 := none
  /-- Text, sent as bytes. -/
  data : Option String := none
  /-- The code of a special command. -/
  special : Option UInt32 := none
deriving DecidableEq, Repr

namespace PayloadOptions

/-- The bytes of a text. -/
def textBytes (s : String) : List UInt8 := s.toUTF8.data.toList

/-- The message to send on a channel. -/
def message (p : PayloadOptions) (c : Channel) : Except Failure Message :=
  match p with
  | ⟨some v, _, _, _⟩ => .ok (.value32 c v)
  | ⟨none, some a, _, _⟩ => .ok (.address c a)
  | ⟨none, none, some s, _⟩ => .ok (.data c (textBytes s))
  | ⟨none, none, none, some code⟩ =>
    match Pack.checkedSpecial code with
    | .error e => .error (Failure.ofMessage "invalid --special" e)
    | .ok _ => .ok (.special (Command.ofCode code))
  | ⟨none, none, none, none⟩ => .error ⟨.usage, "no payload given"⟩

end PayloadOptions

/-- What the tool is to do. -/
inductive Request where
  | encode (channel : Channel) (payload : PayloadOptions) (limit : Nat)
  | decode (words : List UInt32) (limit : Nat)
  | send (path : String) (channel : Channel) (payload : PayloadOptions) (timeout : String)
  | listen (path : String) (channels : Option (List Channel)) (count : Option Nat) (limit : Nat)
  | exit (processor : Processor) (code : Int) (signature : Option UInt64) (path : Option String)
  | version (extended : Bool)
deriving DecidableEq, Repr

/-- A command line that was understood. -/
structure Invocation where
  format : Option OutputFormat
  logFormat : LogFormat
  /-- The threshold of log lines. -/
  logLevel : LogLevel
  request : Request
deriving DecidableEq, Repr

/-! ## Settings -/

/-- What an argument sets. -/
inductive Setting where
  | format (f : OutputFormat)
  | logFormat (f : LogFormat)
  | logLevel (l : LogLevel)
  | channel (c : Channel)
  | value (v : UInt32)
  | address (a : UInt32)
  | data (s : String)
  | special (code : UInt32)
  | limit (n : Nat)
  | words (ws : List UInt32)
  | path (p : String)
  | timeout (s : String)
  | channels (cs : List Channel)
  | count (n : Nat)
  | role (p : Processor)
  | code (n : Int)
  | signature (s : UInt64)
  | extended
deriving DecidableEq, Repr

namespace Setting

/-- Reads a value with a reader that tells why it refuses. -/
def ofReader {α ε : Type} (f : α → Setting) (read : String → Except ε α) (s : String) :
    Except Refusal Setting :=
  match read s with
  | .ok a => .ok (f a)
  | .error _ => .error .badValue

/-- Reads one of the names that an option allows. -/
def ofName {α : Type} (f : α → Setting) (read : String → Option α) (s : String) :
    Except Refusal Setting :=
  match read s with
  | some a => .ok (f a)
  | none => .error .valueNotAllowed

/-- Reads a count.  It has no blanks and no underscores. -/
def ofCount (f : Nat → Setting) : String → Except Refusal Setting :=
  ofReader f fun s => Numeral.unsigned 10 UInt64.size s.toList

/-- Reads a path.  It is not empty. -/
def ofPath (s : String) : Except Refusal Setting :=
  if s.isEmpty then .error .valueNotAllowed else .ok (.path s)

/-- Reads an exit code. -/
def ofCode (s : String) : Except Refusal Setting :=
  match Numeral.signed? 32 s.toList with
  | some n => .ok (.code n)
  | none => .error .badValue

/-- Reads each value of a list. -/
def readAll {α ε : Type} (read : String → Except ε α) : List String → Except ε (List α)
  | [] => .ok []
  | s :: rest => do return (← read s) :: (← readAll read rest)

/-- Reads channels between commas. -/
def ofChannels (s : String) : Except Refusal Setting :=
  match readAll Argument.channel (s.splitOn ",") with
  | .ok cs => .ok (.channels cs)
  | .error _ => .error .badValue

/-- Reads the words to decode. -/
def ofWords (values : List String) : Except Refusal Setting :=
  match readAll Argument.word values with
  | .ok ws => .ok (.words ws)
  | .error _ => .error .badValue

/-- Reads a path that stands alone. -/
def ofPaths (values : List String) : Except Refusal Setting := ofPath (values.headD "")

end Setting

/-! ## The grammar of the tool -/

/-- The options that every level has. -/
def sharedOptions : List (OptionSpec Setting) := [
  { long := "format", action := .value (Setting.ofName .format OutputFormat.ofName?) false },
  { long := "log-format", action := .value (Setting.ofName .logFormat LogFormat.ofName?) false },
  { long := "log-level", action := .value (Setting.ofName .logLevel LogLevel.ofName?) false },
  { long := "help", short := some 'h', action := .stop .help }]

/-- The channel of a message. -/
def channelOption : OptionSpec Setting :=
  { long := "channel", short := some 'c'
    action := .value (Setting.ofReader .channel Argument.channel) false }

/-- The largest payload, in bytes. -/
def limitOption : OptionSpec Setting :=
  { long := "max-data-bytes", action := .value (Setting.ofCount .limit) false }

/-- The four choices of a payload. -/
def payloadOptions : List (OptionSpec Setting) := [
  { long := "value", action := .value (Setting.ofReader .value Argument.word) false },
  { long := "address", action := .value (Setting.ofReader .address Argument.word) false },
  { long := "data", action := .value (fun s => .ok (.data s)) false },
  { long := "special", action := .value (Setting.ofReader .special Argument.word) false }]

/-- The path of a socket, standing alone. -/
def pathArgument : Positional Setting := ⟨Setting.ofPaths, false⟩

/-- The names of the commands.  The last one shows the help of the others. -/
def commandNames : List String := ["encode", "decode", "send", "listen", "exit", "version", "help"]

/-- The level before the command. -/
def topGrammar : Grammar Setting :=
  { options := sharedOptions ++ [{ long := "version", short := some 'V', action := .stop .version }]
    commands := commandNames }

/-- The level behind a command. -/
def commandGrammar (name : String) : Grammar Setting :=
  let own : List (OptionSpec Setting) × Option (Positional Setting) :=
    match name with
    | "encode" => (channelOption :: payloadOptions ++ [limitOption], none)
    | "decode" => ([limitOption], some ⟨Setting.ofWords, true⟩)
    | "send" =>
      (channelOption :: payloadOptions ++
        [{ long := "timeout", action := .value (fun s => .ok (.timeout s)) false }],
        some pathArgument)
    | "listen" =>
      ([{ long := "channels", action := .value Setting.ofChannels false, repeatable := true },
        { long := "count", action := .value (Setting.ofCount .count) false },
        limitOption], some pathArgument)
    | "exit" =>
      ([{ long := "role", action := .value (Setting.ofName .role Processor.ofName?) false },
        { long := "code", action := .value Setting.ofCode true },
        { long := "signature"
          action := .value (Setting.ofReader .signature Argument.signature) false },
        { long := "path", action := .value Setting.ofPath false }], none)
    | _ => ([{ long := "extended", action := .flag .extended }], none)
  { options := own.1 ++ sharedOptions, positional := own.2 }

/-! ## From settings to a request -/

/-- The channel of a message where none is set. -/
def defaultChannel : Channel := Channel.firstUser

/-- The timeout of a write where none is set. -/
def defaultTimeout : String := "5s"

namespace Setting

/-- The last value that some settings give. -/
def last? {α : Type} (f : Setting → Option α) (settings : List Setting) : Option α :=
  settings.reverse.findSome? f

/-- The channel that is set, or the default. -/
def channelOf (settings : List Setting) : Channel :=
  (last? (fun | .channel c => some c | _ => none) settings).getD defaultChannel

/-- The limit that is set, or the default. -/
def limitOf (settings : List Setting) : Nat :=
  (last? (fun | .limit n => some n | _ => none) settings).getD Message.defaultLimit

/-- The path that is set. -/
def pathOf (settings : List Setting) : Option String :=
  last? (fun | .path p => some p | _ => none) settings

/-- The payload that is set. -/
def payloadOf (settings : List Setting) : PayloadOptions where
  value := last? (fun | .value v => some v | _ => none) settings
  address := last? (fun | .address a => some a | _ => none) settings
  data := last? (fun | .data s => some s | _ => none) settings
  special := last? (fun | .special c => some c | _ => none) settings

/-- How many payloads are set. -/
def payloadCount (settings : List Setting) : Nat :=
  settings.countP fun
    | .value _ | .address _ | .data _ | .special _ => true
    | _ => false

/-- The words to decode, joined. -/
def wordsOf (settings : List Setting) : List UInt32 :=
  settings.flatMap fun | .words ws => ws | _ => []

/-- The channels to let pass, joined. -/
def channelsOf (settings : List Setting) : Option (List Channel) :=
  let lists := settings.filterMap fun | .channels cs => some cs | _ => none
  if lists.isEmpty then none else some lists.flatten

end Setting

open Setting in
/-- The request of a command.  Payloads that exclude each other are found first, and
then what is missing. -/
def Request.ofSettings (name : String) (settings : List Setting) : Except Refusal Request :=
  match name with
  | "encode" =>
    if 1 < payloadCount settings then .error .argumentConflict
    else if payloadCount settings = 0 then .error .missingArgument
    else .ok (.encode (channelOf settings) (payloadOf settings) (limitOf settings))
  | "decode" =>
    if (wordsOf settings).isEmpty then .error .missingArgument
    else .ok (.decode (wordsOf settings) (limitOf settings))
  | "send" =>
    if 1 < payloadCount settings then .error .argumentConflict
    else
      match pathOf settings with
      | none => .error .missingArgument
      | some p =>
        if payloadCount settings = 0 then .error .missingArgument
        else
          .ok (.send p (channelOf settings) (payloadOf settings)
            ((last? (fun | .timeout s => some s | _ => none) settings).getD defaultTimeout))
  | "listen" =>
    match pathOf settings with
    | none => .error .missingArgument
    | some p =>
      .ok (.listen p (channelsOf settings)
        (last? (fun | .count n => some n | _ => none) settings) (limitOf settings))
  | "exit" =>
    .ok (.exit ((last? (fun | .role p => some p | _ => none) settings).getD .coprocessor)
      ((last? (fun | .code n => some n | _ => none) settings).getD 0)
      (last? (fun | .signature s => some s | _ => none) settings) (pathOf settings))
  | _ => .ok (.version (settings.contains .extended))

/-! ## Parsing -/

/-- The log level that a level of the command line sets. -/
def levelOf (settings : List Setting) : Option LogLevel :=
  Setting.last? (fun | .logLevel l => some l | _ => none) settings

/-- The log level of the environment, looked at by a level that sets none. -/
def environmentLevel (environment : Option String) (settings : List Setting) :
    Except Refusal (Option LogLevel) :=
  match levelOf settings, environment with
  | none, some name =>
    match LogLevel.ofName? name with
    | some l => .ok (some l)
    | none => .error .valueNotAllowed
  | _, _ => .ok none

/-- What the command `help` gives for the names behind it. -/
def helpOn : List String → Refusal
  | [] => .help
  | [name] => if commandNames.contains name then .help else .unknownCommand
  | _ => .unknownCommand

namespace Invocation

/-- Reads a command line without the name of the program.  `environment` is the
log level that the environment sets. -/
def parse (environment : Option String) (args : List String) : Except Refusal Invocation := do
  let (top, command) ← topGrammar.scan {} args
  match command with
  | none =>
    let top ← top.settle
    let level ← environmentLevel environment top.settings
    .error (if top.settings.isEmpty && level.isNone then .nothing else .missingCommand)
  | some ("help", rest) => .error (helpOn rest)
  | some (name, rest) =>
    let (own, _) ← (commandGrammar name).scan {} rest
    let own ← own.settle
    let level ← environmentLevel environment own.settings
    let request ← Request.ofSettings name own.settings
    let top ← top.settle
    let topLevel ← environmentLevel environment top.settings
    let settings := top.settings ++ own.settings
    return {
      format := Setting.last? (fun | .format f => some f | _ => none) settings
      logFormat := (Setting.last? (fun | .logFormat f => some f | _ => none) settings).getD .text
      logLevel := (((levelOf settings).or level).or topLevel).getD .info
      request := request }

end Invocation

end WordFifo.Tool
