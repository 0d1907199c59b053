import WordFifo.Text.Digits

/-!
# Errors

Three layers fail, and each wraps the one below.

* The operating system gives an `IoError`, a kind and a text.
* A carrier of words gives a `CarrierError`.
* Reading or writing a message gives a `MessageError`.

`message` is the wording of each.  A carrier that is closed is told apart from
one that fails, since a close between two messages is the regular end of a FIFO.
-/

namespace WordFifo

/-- The kinds of errors an operating system tells apart. -/
inductive IoErrorKind where
  | notFound | permissionDenied | connectionRefused | connectionReset | hostUnreachable
  | networkUnreachable | connectionAborted | notConnected | addrInUse | addrNotAvailable
  | networkDown | brokenPipe | alreadyExists | wouldBlock | notADirectory | isADirectory
  | directoryNotEmpty | readOnlyFilesystem | staleNetworkFileHandle | invalidInput
  | invalidData | timedOut | writeZero | storageFull | notSeekable | quotaExceeded
  | fileTooLarge | resourceBusy | executableFileBusy | deadlock | crossesDevices
  | tooManyLinks | invalidFilename | argumentListTooLong | interrupted | unsupported
  | unexpectedEof | outOfMemory | other | uncategorized
deriving DecidableEq, Repr

/-- An error of the operating system. -/
structure IoError where
  kind : IoErrorKind
  text : String
deriving DecidableEq, Repr

namespace IoError

/-- An error with a number of its own. -/
def numbered (kind : IoErrorKind) (text : String) (number : Nat) : IoError :=
  ⟨kind, text ++ " (os error " ++ Digits.decimal number ++ ")"⟩

/-- There is nothing at a path. -/
def noEntry : IoError := numbered .notFound "No such file or directory" 2

/-- A step of a path is no directory. -/
def notDirectory : IoError := numbered .notADirectory "Not a directory" 20

/-- A directory stands where a file is wanted. -/
def isDirectory : IoError := numbered .isADirectory "Is a directory" 21

/-- A path, or a step of it, has too many bytes. -/
def nameTooLong : IoError := numbered .invalidFilename "File name too long" 36

/-- Something stands at a path that must be free. -/
def fileExists : IoError := numbered .alreadyExists "File exists" 17

/-- A socket stands where a file is wanted. -/
def noDevice : IoError := numbered .uncategorized "No such device or address" 6

/-- The address has no path. -/
def invalidArgument : IoError := numbered .invalidInput "Invalid argument" 22

/-- Another socket has the address. -/
def addressInUse : IoError := numbered .addrInUse "Address already in use" 98

/-- Nobody listens at a path. -/
def refused : IoError := numbered .connectionRefused "Connection refused" 111

/-- The peer left with bytes unread. -/
def reset : IoError := numbered .connectionReset "Connection reset by peer" 104

/-- The peer is gone. -/
def pipe : IoError := numbered .brokenPipe "Broken pipe" 32

/-- Nothing came in time. -/
def unavailable : IoError := numbered .wouldBlock "Resource temporarily unavailable" 11

end IoError

/-- What goes wrong on a carrier of words. -/
inductive CarrierError where
  | bind (path : String) (cause : IoError)
  | connect (path : String) (cause : IoError)
  | accept (cause : IoError)
  /-- A transfer failed. -/
  | io (cause : IoError)
  | pathTooLong (path : String) (length limit : Nat)
  /-- The other end is gone and no words remain. -/
  | closed
deriving DecidableEq, Repr

/-- The wording of a carrier error. -/
def CarrierError.message : CarrierError → String
  | .bind path cause => "failed to bind to " ++ path ++ ": " ++ cause.text
  | .connect path cause => "failed to connect to " ++ path ++ ": " ++ cause.text
  | .accept cause => "failed to accept connection: " ++ cause.text
  | .io cause => "transport I/O error: " ++ cause.text
  | .pathTooLong path length limit =>
    "socket path too long (" ++ Digits.decimal length ++ " bytes, max " ++ Digits.decimal limit ++
      "): " ++ path
  | .closed => "fifo closed by peer"

/-- What goes wrong when a message is encoded, read or sent. -/
inductive MessageError where
  | channelOutOfRange (id : UInt32)
  | addressOutsideWindow (address : UInt32)
  /-- A value needs the form with two words. -/
  | valueTooWide (value : UInt32)
  /-- A length does not fit the value field. -/
  | lengthTooLarge (length : Nat)
  /-- A command code does not fit 24 bits. -/
  | commandTooWide (code : UInt32)
  | payloadTooLarge (size limit : Nat)
  /-- The carrier closed inside a message. -/
  | truncated (missing : Nat)
  /-- The carrier failed, or closed between two messages. -/
  | carrier (cause : CarrierError)
deriving DecidableEq, Repr

/-- The wording of a message error. -/
def MessageError.message : MessageError → String
  | .channelOutOfRange id => "channel " ++ Digits.decimal id.toNat ++ " out of range (max 15)"
  | .addressOutsideWindow address =>
    "address " ++ Digits.hexWord address ++ " outside the fifo address window"
  | .valueTooWide value =>
    "value " ++ Digits.hexWord value ++ " does not fit in a small immediate"
  | .lengthTooLarge length =>
    "data length " ++ Digits.decimal length ++ " does not fit in a data header"
  | .commandTooWide code =>
    "special command code " ++ Digits.hex code.toNat ++ " wider than 24 bits"
  | .payloadTooLarge size limit =>
    "data payload too large (" ++ Digits.decimal size ++ " bytes, max " ++ Digits.decimal limit ++
      ")"
  | .truncated missing =>
    "fifo closed mid-message (" ++ Digits.decimal missing ++ " word(s) missing)"
  | .carrier cause => "transport error: " ++ cause.message

end WordFifo
