import Std.Time.DateTime
import WordFifo.Tool.Program

/-!
# The program

Reads the command line and the environment, and prints what `Tool.Result` says.
Everything else is decided there.

The sockets are those of the process itself, and at the start there are none.
-/

namespace WordFifo.Tool

/-- The help. -/
def helpLines : List String := [
  "Inter-processor FIFO word tools",
  "",
  "Usage: " ++ toolName ++ " [OPTIONS] <COMMAND>",
  "",
  "Commands:",
  "  encode   Encode one message into FIFO words",
  "  decode   Decode FIFO words back into messages",
  "  send     Send one message to a listening FIFO socket",
  "  listen   Bind a FIFO socket and print received messages",
  "  exit     Run one processor's coordinated exit path",
  "  version  Show version information",
  "  help     Print this message",
  "",
  "Options:",
  "      --format <FORMAT>      Output format [json, table, pretty]",
  "      --log-format <FORMAT>  Log output format [text, json]",
  "      --log-level <LEVEL>    Minimum log level [error, warn, info, debug, trace]",
  "  -h, --help                 Print help",
  "  -V, --version              Print version"]

/-- The wording of a refusal. -/
def Refusal.message : Refusal → String
  | .unknownArgument => "unexpected argument"
  | .argumentConflict => "the arguments cannot be used together"
  | .badValue => "invalid value"
  | .valueNotAllowed => "missing value, or one that is not allowed"
  | .tooManyValues => "unexpected value"
  | .missingArgument => "a required argument was not provided"
  | .unknownCommand => "unrecognized command"
  | .missingCommand => "a command is required"
  | .nothing => "a command is required"
  | .help => "help"
  | .version => "version"

/-- Prints lines, newline-ended. -/
def printLines (out : IO.FS.Stream) (lines : List String) : IO Unit :=
  lines.forM fun line => out.putStrLn line

/-- Prints why there is nothing to run. -/
def printRefusal (r : Refusal) : IO Unit := do
  match r with
  | .help => printLines (← IO.getStdout) helpLines
  | .version => printLines (← IO.getStdout) [versionLine]
  | .nothing => printLines (← IO.getStderr) helpLines
  | r => printLines (← IO.getStderr) ["error: " ++ r.message]

end WordFifo.Tool

open WordFifo.Tool in
/-- Runs the tool. -/
def main (args : List String) : IO UInt32 := do
  let now ← Std.Time.Timestamp.now
  let out ← IO.getStdout
  let host : Host := {
    build := { target := "unknown", os := "unknown", arch := "unknown", revision := "unknown" }
    time := WordFifo.Digits.signed now.toSecondsSinceUnixEpoch.val
    environmentLevel := ← IO.getEnv "FIFOPRIMS_LOG_LEVEL"
    defaultFormat := if ← out.isTty then .table else .json }
  match Result.ofArgs host args with
  | .error r =>
    printRefusal r
    return UInt32.ofNat r.code
  | .ok result =>
    printLines out result.stdout
    printLines (← IO.getStderr) result.stderr
    return UInt32.ofNat result.code
