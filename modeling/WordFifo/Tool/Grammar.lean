/-!
# The grammar of a command line

A level of a command line is a list of options, at most one positional argument
and a list of commands.  `Grammar.scan` reads a level and stops at the name of a
command.

An option is `--name value`, `--name=value`, `-n value`, `-nvalue` or
`-n=value`.  Two dashes alone end the options.

A value that stands apart from its option is looked at when the next argument
that starts something new has been recognised, or at the end.  So of two faults
an unknown argument wins over the wrong value just before it, and a fault of the
command wins over the wrong value just before the command.  An attached value is
looked at once.
-/

namespace WordFifo.Tool

/-- Why a command line asks for nothing that can be run. -/
inductive Refusal where
  | unknownArgument
  /-- Two arguments that exclude each other, or one that was repeated. -/
  | argumentConflict
  /-- A value that its option refuses. -/
  | badValue
  /-- A value that is not among those an option allows, or no value. -/
  | valueNotAllowed
  /-- A value for an option that takes none. -/
  | tooManyValues
  | missingArgument
  | unknownCommand
  /-- Options and no command. -/
  | missingCommand
  /-- Nothing at all, which shows the help. -/
  | nothing
  | help
  | version
deriving DecidableEq, Repr

/-- What an option does. -/
inductive OptionAction (α : Type) where
  /-- It takes a value.  `negative` lets a negative number stand apart. -/
  | value (read : String → Except Refusal α) (negative : Bool)
  /-- It stands for itself. -/
  | flag (setting : α)
  /-- It ends the reading. -/
  | stop (reason : Refusal)

/-- An option of a level. -/
structure OptionSpec (α : Type) where
  /-- The name behind two dashes. -/
  long : String
  /-- The letter behind one dash. -/
  short : Option Char := none
  action : OptionAction α
  /-- Whether it may be given more than once. -/
  repeatable : Bool := false

/-- The positional argument of a level. -/
structure Positional (α : Type) where
  read : List String → Except Refusal α
  /-- Whether it takes more than one value. -/
  many : Bool

/-- A level of a command line. -/
structure Grammar (α : Type) where
  options : List (OptionSpec α)
  positional : Option (Positional α) := none
  commands : List String := []

/-- An argument whose values were not looked at yet. -/
inductive Pending (α : Type) where
  /-- An option and its value. -/
  | option (spec : OptionSpec α) (value : Option String)
  | positional (spec : Positional α) (values : List String)

/-- How far a level was read. -/
structure Scan (α : Type) where
  /-- The settings, in order. -/
  settings : List α := []
  /-- The names of the options that were settled. -/
  seen : List String := []
  /-- What was read and not looked at. -/
  pending : Option (Pending α) := none
  /-- Whether two dashes ended the options. -/
  ended : Bool := false
  /-- Whether a positional argument that takes one value has it. -/
  filled : Bool := false

namespace Scan

variable {α : Type}

/-- Looks at the value of an option. -/
def take (s : Scan α) (spec : OptionSpec α) (read : Except Refusal α) : Except Refusal (Scan α) :=
  if !spec.repeatable && s.seen.contains spec.long then .error .argumentConflict
  else
    match read with
    | .error e => .error e
    | .ok a => .ok { s with settings := s.settings ++ [a], seen := spec.long :: s.seen }

/-- Looks at what is pending. -/
def settle (s : Scan α) : Except Refusal (Scan α) :=
  let rest := { s with pending := none }
  match s.pending with
  | none => .ok s
  | some (.option spec value) =>
    match spec.action, value with
    | .value read _, some v => rest.take spec (read v)
    | _, _ => .error .valueNotAllowed
  | some (.positional spec values) =>
    match spec.read values with
    | .error e => .error e
    | .ok a => .ok { rest with settings := s.settings ++ [a] }

/-- Starts an option.  `attached` is the value written with it. -/
def start (s : Scan α) (spec : OptionSpec α) (attached : Option String) :
    Except Refusal (Scan α) :=
  match spec.action, attached with
  | .value read _, some v => do (← s.settle).take spec (read v)
  | .value _ _, none => do return { ← s.settle with pending := some (.option spec none) }
  | .flag a, none => do (← s.settle).take spec (.ok a)
  | .stop reason, none => do
    let _ ← s.settle
    .error reason
  | _, some _ => .error .tooManyValues

/-- The option that waits for a value. -/
def awaiting (s : Scan α) : Option (OptionSpec α) :=
  if s.ended then none
  else
    match s.pending with
    | some (.option spec none) => some spec
    | _ => none

end Scan

/-- Whether a text is a number without a sign: digits, with at most one point and
one exponent, neither of them in front. -/
def isNumber (cs : List Char) : Bool :=
  let rec go (first point exponent : Bool) : List Char → Bool
    | [] => true
    | c :: rest =>
      if c.isDigit then go false point exponent rest
      else if c == '.' && !point && !exponent && !first then go false true exponent rest
      else if (c == 'e' || c == 'E') && !exponent && !first then
        !rest.isEmpty && go false point true rest
      else false
  go true false false cs

namespace Grammar

variable {α : Type}

/-- Reads the letters behind one dash. -/
def letters (g : Grammar α) (s : Scan α) : List Char → Except Refusal (Scan α)
  | [] => .ok s
  | c :: rest =>
    match g.options.find? fun o => o.short == some c with
    | none => .error .unknownArgument
    | some spec =>
      match spec.action with
      | .value _ _ =>
        match rest with
        | [] => s.start spec none
        | '=' :: value => s.start spec (some (String.ofList value))
        | value => s.start spec (some (String.ofList value))
      | _ =>
        match s.start spec none with
        | .error e => .error e
        | .ok s => g.letters s rest

/-- Reads an argument that is no option. -/
def word (g : Grammar α) (s : Scan α) (arg : String) : Except Refusal (Scan α) :=
  match g.positional with
  | none =>
    if g.commands.isEmpty || (s.ended && g.commands.contains arg) then .error .unknownArgument
    else .error .unknownCommand
  | some spec =>
    match s.pending with
    | some (.positional _ values) =>
      if spec.many then .ok { s with pending := some (.positional spec (values ++ [arg])) }
      else .error .unknownArgument
    | _ =>
      if s.filled then .error .unknownArgument
      else do
        return { ← s.settle with pending := some (.positional spec [arg]), filled := !spec.many }

/-- Reads one argument that is no command. -/
def argument (g : Grammar α) (s : Scan α) (arg : String) : Except Refusal (Scan α) :=
  let plain : Except Refusal (Scan α) :=
    match s.awaiting with
    | some spec => .ok { s with pending := some (.option spec (some arg)) }
    | none => g.word s arg
  if s.ended then g.word s arg
  else
    match arg.toList with
    | ['-', '-'] => .ok { s with ended := true }
    | '-' :: '-' :: rest =>
      let name := String.ofList (rest.takeWhile (· != '='))
      let value := match rest.dropWhile (· != '=') with
        | [] => none
        | _ :: value => some (String.ofList value)
      match g.options.find? fun o => o.long == name with
      | none => .error .unknownArgument
      | some spec => s.start spec value
    | '-' :: c :: rest =>
      match s.awaiting with
      | some ⟨_, _, .value _ true, _⟩ => if isNumber (c :: rest) then plain else g.letters s (c :: rest)
      | _ => g.letters s (c :: rest)
    | _ => plain

/-- Reads a level.  It stops behind the name of a command, and what follows is
left. -/
def scan (g : Grammar α) (s : Scan α) :
    List String → Except Refusal (Scan α × Option (String × List String))
  | [] => .ok (s, none)
  | arg :: rest =>
    if !s.ended && s.awaiting.isNone && g.commands.contains arg then .ok (s, some (arg, rest))
    else
      match g.argument s arg with
      | .error e => .error e
      | .ok s => g.scan s rest

end Grammar

end WordFifo.Tool
