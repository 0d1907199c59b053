import WordFifo.Error
import WordFifo.Log
import WordFifo.Text.Quoted

/-!
# Sockets in a directory

A listening socket has a path.  The directory knows what stands at each place,
and which listeners are open.  A place is the list of steps that lead to it.

`bind` replaces a socket that stands at the path and nothing else.  `close` takes
the socket file away again, but only the very file that the listener made.  The
number of the file, which no two sockets share, tells them apart.

A connection waits until the listener accepts it.  What its sender wrote before
it left is kept with it.
-/

namespace WordFifo

/-- What stands at a place. -/
inductive Entry where
  | directory
  | file
  /-- A socket with a number of its own and permission bits. -/
  | socket (inode mode : Nat)
deriving DecidableEq, Repr

/-- The steps that lead to a place. -/
abbrev Place := List String

/-- The listening end of a bound socket. -/
structure Listener where
  path : String
  inode : Nat
deriving DecidableEq, Repr

/-- A directory and the listeners on its sockets. -/
structure SocketDirectory where
  /-- What stands at a place. -/
  entry : Place → Option Entry
  /-- The numbers of the open listeners, each with the connections that wait for
  it, oldest first. -/
  listeners : List (Nat × List (List UInt32))
  /-- The number of the next socket. -/
  nextInode : Nat

namespace SocketDirectory

/-- The directory with nothing in it. -/
def empty : SocketDirectory := ⟨fun _ => none, [], 1⟩

/-- The most bytes a socket address holds, counting the end mark. -/
def pathLimit : Nat := 108

/-- The permission bits of a socket where no others are asked for. -/
def defaultMode : Nat := 0o600

/-- The most bytes a step of a path has. -/
def stepLimit : Nat := 255

/-- The bytes of a path that is too long for anything. -/
def reachLimit : Nat := 4096

/-! ## Paths -/

/-- The step that stays. -/
def here : String := "."

/-- The step that leads up. -/
def up : String := ".."

/-- The step that starts at the root. -/
def root : String := "/"

/-- A path, taken apart. -/
structure Trail where
  start : Place
  before : List String
  last : String
  /-- Whether a slash stands behind the last step, which asks for a directory. -/
  slashed : Bool
deriving DecidableEq, Repr

namespace Trail

/-- Takes a path apart.  A path of slashes alone stays at the root. -/
def ofPath (path : String) : Except IoError Trail :=
  if path.contains '\x00' then
    .error ⟨.invalidInput, "file name contained an unexpected NUL byte"⟩
  else if path.isEmpty then .error .noEntry
  else if reachLimit ≤ path.utf8ByteSize then .error .nameTooLong
  else
    let steps := (path.splitOn "/").filter (!·.isEmpty)
    .ok {
      start := if path.startsWith "/" then [root] else []
      before := steps.dropLast
      last := steps.getLast?.getD here
      slashed := path.endsWith "/" }

/-- Whether the last step names nothing, and only stays or leads up. -/
def isMove (t : Trail) : Bool := t.last == here || t.last == up

end Trail

/-! ## Places -/

/-- Whether a place is a directory.  What is above the directory is taken to be
one. -/
def isDirectory (d : SocketDirectory) (place : Place) : Bool :=
  place.all (· == up) || place == [root] || d.entry place == some .directory

/-- The place above. -/
def parent (place : Place) : Place :=
  if place == [root] then place
  else if place.all (· == up) then place ++ [up]
  else place.dropLast

/-- Takes a step.  It has to start in a directory and may lead to a place where
nothing is. -/
def step (d : SocketDirectory) (place : Place) (name : String) : Except IoError Place :=
  if d.isDirectory place then
    if name == here then .ok place
    else if name == up then .ok (parent place)
    else if stepLimit < name.utf8ByteSize then .error .nameTooLong
    else .ok (place ++ [name])
  else if (d.entry place).isSome then .error .notDirectory
  else .error .noEntry

/-- Takes steps one after the other. -/
def walk (d : SocketDirectory) : Place → List String → Except IoError Place
  | place, [] => .ok place
  | place, name :: rest =>
    match d.step place name with
    | .ok place => walk d place rest
    | .error e => .error e

/-- The directory in which the last step of a path is taken. -/
def holder (d : SocketDirectory) (t : Trail) : Except IoError Place :=
  d.walk t.start (t.before ++ [here])

/-- The place that a path leads to.  With a slash at its end it has to be a
directory. -/
def locate (d : SocketDirectory) (path : String) : Except IoError Place :=
  match Trail.ofPath path with
  | .error e => .error e
  | .ok t => d.walk t.start (t.before ++ t.last :: if t.slashed then [here] else [])

/-- What stands at a path. -/
def lookup (d : SocketDirectory) (path : String) : Except IoError Entry :=
  match d.locate path with
  | .error e => .error e
  | .ok place =>
    if d.isDirectory place then .ok .directory
    else
      match d.entry place with
      | some e => .ok e
      | none => .error .noEntry

/-- The directory with what stands at one place replaced. -/
def set (d : SocketDirectory) (place : Place) (e : Option Entry) : SocketDirectory :=
  { d with entry := fun place' => if place' = place then e else d.entry place' }

/-- Whether something stands at a place. -/
def isTaken (d : SocketDirectory) (place : Place) : Bool :=
  d.isDirectory place || (d.entry place).isSome

/-- The place that the last step of a path names, for something new or for
something to be taken away.  `moves` is the error of a last step that names
nothing.  A slash behind it does not count here. -/
def named (d : SocketDirectory) (t : Trail) (moves : IoError) : Except IoError Place :=
  match d.holder t with
  | .error e => .error e
  | .ok place => if t.isMove then .error moves else d.step place t.last

/-! ## Changes by others -/

/-- Writes a regular file.  A path that asks for a directory is refused. -/
def createFile (d : SocketDirectory) (path : String) : Except IoError SocketDirectory :=
  match Trail.ofPath path with
  | .error e => .error e
  | .ok t =>
    match d.holder t with
    | .error e => .error e
    | .ok place =>
      if t.slashed then .error .isDirectory
      else
        match d.step place t.last with
        | .error e => .error e
        | .ok place =>
          if d.isDirectory place then .error .isDirectory
          else
            match d.entry place with
            | some (.socket _ _) => .error .noDevice
            | _ => .ok (d.set place (some .file))

/-- Makes a directory. -/
def createDirectory (d : SocketDirectory) (path : String) : Except IoError SocketDirectory :=
  match Trail.ofPath path with
  | .error e => .error e
  | .ok t =>
    match d.named t .fileExists with
    | .error e => .error e
    | .ok place =>
      if d.isTaken place then .error .fileExists else .ok (d.set place (some .directory))

/-- Removes a file or a socket.  A listener stays open without it. -/
def remove (d : SocketDirectory) (path : String) : Except IoError SocketDirectory :=
  match Trail.ofPath path with
  | .error e => .error e
  | .ok t =>
    match d.named t .isDirectory with
    | .error e => .error e
    | .ok place =>
      if d.isDirectory place then .error .isDirectory
      else if !d.isTaken place then .error .noEntry
      else if t.slashed then .error .notDirectory
      else .ok (d.set place none)

/-- Leaves the socket file of a listener that is gone. -/
def createStale (d : SocketDirectory) (path : String) : Except IoError SocketDirectory :=
  match d.locate path with
  | .error e => .error e
  | .ok place =>
    .ok { d.set place (some (.socket d.nextInode defaultMode)) with nextInode := d.nextInode + 1 }

/-! ## Listeners -/

/-- A socket that stood at the path is taken away. -/
def removingStale (path : String) : Event :=
  ⟨.debug, "removing stale socket", [Event.str "path" (Quoted.text path)]⟩

/-- A socket is bound. -/
def bound (path : String) : Event :=
  ⟨.info, "fifo listening on unix domain socket", [Event.str "path" (Quoted.text path)]⟩

/-- A listener takes its socket file away. -/
def removing (path : String) : Event :=
  ⟨.debug, "removing socket file", [Event.str "path" (Quoted.text path)]⟩

/-- A listener finds that its path is not its own any more. -/
def replaced (path : String) : Event :=
  ⟨.debug, "socket path replaced; leaving it", [Event.str "path" (Quoted.text path)]⟩

/-- A connection is made. -/
def connected (path : String) : Event :=
  ⟨.debug, "connected to fifo socket", [Event.str "path" (Quoted.text path)]⟩

/-- A connection is accepted. -/
def accepted : Event := ⟨.debug, "accepted fifo peer", []⟩

/-- What an operation on the directory gives. -/
structure Change (α : Type) where
  result : Except CarrierError α
  directory : SocketDirectory
  events : List Event

/-- Puts a new socket at a free place. -/
def place (d : SocketDirectory) (path : String) (mode : Nat) : Except IoError SocketDirectory :=
  if path.contains '\x00' then
    .error ⟨.invalidInput, "paths must not contain interior null bytes"⟩
  else
    match Trail.ofPath path with
    | .error e => .error e
    | .ok t =>
      match d.named t .addressInUse with
      | .error e => .error e
      | .ok place =>
        if d.isTaken place then .error .addressInUse
        else if t.slashed then .error .noEntry
        else
          .ok { d.set place (some (.socket d.nextInode (mode % 0o10000))) with
            listeners := d.listeners ++ [(d.nextInode, [])]
            nextInode := d.nextInode + 1 }

/-- Binds a socket to a path and listens.  A socket at the path is replaced. -/
def bind (d : SocketDirectory) (path : String) (mode : Nat) : Change Listener :=
  if pathLimit ≤ path.utf8ByteSize then
    ⟨.error (.pathTooLong path path.utf8ByteSize pathLimit), d, []⟩
  else
    let finish (d : SocketDirectory) (events : List Event) : Change Listener :=
      match d.place path mode with
      | .error e => ⟨.error (.bind path e), d, events⟩
      | .ok d' => ⟨.ok ⟨path, d.nextInode⟩, d', events ++ [bound path]⟩
    match d.lookup path with
    | .error _ => finish d []
    | .ok (.socket _ _) =>
      match d.remove path with
      | .error e => ⟨.error (.bind path e), d, [removingStale path]⟩
      | .ok d => finish d [removingStale path]
    | .ok _ =>
      ⟨.error (.bind path ⟨.alreadyExists, "existing path is not a unix socket"⟩), d, []⟩

/-- Closes a listener.  Its socket file goes with it if it is still there. -/
def close (d : SocketDirectory) (l : Listener) : SocketDirectory × List Event :=
  let d' := { d with listeners := d.listeners.filter (·.1 != l.inode) }
  match d.lookup l.path with
  | .error _ => (d', [])
  | .ok (.socket inode _) =>
    if inode = l.inode then
      match d'.remove l.path with
      | .ok d'' => (d'', [removing l.path])
      | .error _ => (d', [removing l.path])
    else (d', [replaced l.path])
  | .ok _ => (d', [replaced l.path])

/-- The number of the socket that a connection to a path reaches. -/
def reach (d : SocketDirectory) (path : String) : Except IoError Nat :=
  if path.contains '\x00' then
    .error ⟨.invalidInput, "paths must not contain interior null bytes"⟩
  else if pathLimit ≤ path.utf8ByteSize then
    .error ⟨.invalidInput, "path must be shorter than SUN_LEN"⟩
  else if path.isEmpty then .error .invalidArgument
  else
    match d.lookup path with
    | .error e => .error e
    | .ok (.socket inode _) =>
      if d.listeners.any (·.1 == inode) then .ok inode else .error .refused
    | .ok _ => .error .refused

/-- Connects to a path.  The connection waits with the words it sends. -/
def connect (d : SocketDirectory) (path : String) (words : List UInt32) : Change Unit :=
  match d.reach path with
  | .error e => ⟨.error (.connect path e), d, []⟩
  | .ok inode =>
    let listeners := d.listeners.map fun l =>
      if l.1 == inode then (l.1, l.2 ++ [words]) else l
    ⟨.ok (), { d with listeners := listeners }, [connected path]⟩

/-- Accepts the oldest connection that waits, if there is one. -/
def accept (d : SocketDirectory) (l : Listener) : Option (List UInt32 × SocketDirectory) :=
  match d.listeners.find? (·.1 == l.inode) with
  | some (_, words :: rest) =>
    let listeners := d.listeners.map fun l' => if l'.1 == l.inode then (l'.1, rest) else l'
    some (words, { d with listeners := listeners })
  | _ => none

@[simp] theorem entry_set (d : SocketDirectory) (place place' : Place) (e : Option Entry) :
    (d.set place e).entry place' = if place' = place then e else d.entry place' := rfl

end SocketDirectory

end WordFifo
