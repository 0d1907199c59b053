import WordFifo.Tool.Shutdown

/-!
# The tool

`run` carries out an invocation on a host.  The host is what the tool sees of its
surroundings: the sockets, the connections that come in, the time and how the
tool was built.

`Result.ofArgs` is the whole program.  It gives the lines for the two outputs
and the exit code.  A command line that asks for nothing has no result.
-/

namespace WordFifo.Tool

/-- The name of the tool. -/
def toolName : String := "fifoprims"

/-- The version of the tool. -/
def toolVersion : String := "0.1.0"

/-- Name and version. -/
def versionLine : String := toolName ++ " " ++ toolVersion

/-- How the tool was built. -/
structure Build where
  /-- The target, as its maker names it. -/
  target : String
  os : String
  arch : String
  revision : String
deriving DecidableEq, Repr

/-- What the tool sees of its surroundings. -/
structure Host where
  build : Build
  time : String
  directory : SocketDirectory := .empty
  /-- The bytes of the connections that come in. -/
  connections : List (List UInt8) := []
  /-- The log level of the environment. -/
  environmentLevel : Option String := none
  /-- The form of output where none is chosen. -/
  defaultFormat : OutputFormat := .json

/-- The report of a build. -/
def versionReport (b : Build) : Report where
  schema := Record.schemaAddress "version"
  fields := [
    ("name", .text toolName),
    ("version", .text toolVersion),
    ("target", .text b.target),
    ("target_os", .text b.os),
    ("target_arch", .text b.arch),
    ("git_hash", .text b.revision)]

/-- Prints the version. -/
def version (b : Build) (extended : Bool) : Outcome :=
  { printed := [if extended then .report (versionReport b) else .line versionLine]
    completion := .done }

/-- Carries out a request. -/
def run (h : Host) : Request → Outcome
  | .encode c payload limit => encode c payload limit
  | .decode words limit => decode words limit
  | .send path c payload timeout => send h.directory path c payload timeout
  | .listen path filter count limit =>
    listen h.directory h.connections path filter count limit
  | .exit p code signature none => exitLoopback p code signature
  | .exit p code signature (some path) => exitSocket h.directory p code signature path
  | .version extended => version h.build extended

/-- What a run of the program leaves behind. -/
structure Result where
  /-- The lines it printed. -/
  stdout : List String
  /-- The lines it logged, and the failure behind them. -/
  stderr : List String
  failure : Option Failure
  /-- The bytes it sent to a socket, if it reached one. -/
  wire : Option (List UInt8)
deriving DecidableEq, Repr

namespace Result

/-- The exit code. -/
def code (r : Result) : Nat := ((r.failure.map Failure.status).getD .success).code

/-- The line of a failure. -/
def failureLine (f : Failure) : String := "error: " ++ f.message

/-- The result of an invocation. -/
def ofInvocation (h : Host) (i : Invocation) : Result :=
  let o := run h i.request
  let failure := match o.completion with
    | .failed f => some f
    | _ => none
  { stdout := o.printed.flatMap (Printed.render (i.format.getD h.defaultFormat) h.time)
    stderr := Log.lines i.logFormat i.logLevel o.events ++ (failure.map failureLine).toList
    failure := failure
    wire := o.wire }

/-- The result of a command line. -/
def ofArgs (h : Host) (args : List String) : Except Refusal Result :=
  match Invocation.parse h.environmentLevel args with
  | .error r => .error r
  | .ok i => .ok (ofInvocation h i)

end Result

/-- The exit code of a refusal.  Help and version were asked for. -/
def Refusal.code : Refusal → Nat
  | .help => 0
  | .version => 0
  | _ => 2

end WordFifo.Tool
