import WordFifo.Command
import WordFifo.Log

/-!
# The boot descriptor

What the loader left behind: a signature and its entry points, one for each
processor.  A loader that can take over leaves a known signature.  Nothing here
writes to the descriptor.

Entering the loader is an `Effect`.  Effects are values, in the order in which
they happen, and the program at the edge carries them out.
-/

namespace WordFifo

/-- Something the exit of a program does to the outside. -/
inductive Effect where
  | tell (event : Event)
  | report (code : Int)
  /-- A processor jumps to its entry point of the loader. -/
  | enterLoader (processor : Processor)
  | powerOff
deriving DecidableEq, Repr

/-- What the loader left behind. -/
structure Boot where
  signature : UInt64
  /-- Whether there are entry points. -/
  hasEntries : Bool
deriving DecidableEq, Repr

namespace Boot

/-- The signature of a loader that can take over: the letters "bootstub", least
significant first. -/
def capableSignature : UInt64 := 0x62757473746F6F62

/-- The descriptor of a loader that can take over. -/
def cooperative : Boot := ⟨capableSignature, true⟩

/-- The descriptor where there is no loader. -/
def absent : Boot := ⟨0, false⟩

/-- Whether the signature is the expected one. -/
def accepts (b : Boot) (expected : UInt64) : Bool := b.signature == expected

/-- Whether the loader can take over. -/
def isResetCapable (b : Boot) : Bool := b.accepts capableSignature

/-- There is no entry point for a processor. -/
def entryMissing (p : Processor) : Event :=
  ⟨.warn, "no loader present; " ++ p.name ++ " reboot ignored", []⟩

/-- What a jump to the entry point of a processor does. -/
def enter (b : Boot) (p : Processor) : List Effect :=
  if b.hasEntries then [.enterLoader p] else [.tell (entryMissing p)]

/-- The signature as sixteen hexadecimal digits. -/
def signatureText (signature : UInt64) : String := Digits.hexPadded 16 signature.toNat

/-- A line that shows the signature. -/
def describe (b : Boot) : String :=
  "BootDescriptor \x7b signature: " ++ signatureText b.signature ++ ", .. \x7d"

end Boot

end WordFifo
