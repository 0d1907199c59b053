import WordFifo.Channel

/-!
# Header words

A header says what a message is and how many words follow it.  `Kind` is what
the kind bits tell, and `Kind.ofWord` reads it off any word.

`Pack` writes headers from a channel and a value.  It never fails, and drops the
bits that do not fit their field.  `Pack.checked…` writes the same words, and
refuses what would lose bits.

A `Header` is a channel and a kind.  `Header.ofWord` and `Header.toWord` are
inverse on the words that `Pack` writes.  Other words have bits that their kind
does not read, and `toWord` clears these.
-/

namespace WordFifo

open Layout

/-! ## Kinds -/

/-- What a header announces. -/
inductive Kind where
  /-- A block of bytes, in the words that follow. -/
  | data (length : UInt32)
  /-- A value in the header itself. -/
  | smallImmediate (value : UInt32)
  /-- A value in the word that follows. -/
  | largeImmediate
  /-- An address in the window. -/
  | address (address : UInt32)
  /-- A command on no channel. -/
  | special (code : UInt32)
deriving DecidableEq, Repr

/-- A kind without its payload. -/
inductive KindTag where
  | data
  | smallImmediate
  | largeImmediate
  | address
  | special
deriving DecidableEq, Repr

/-- The name of a tag. -/
def KindTag.name : KindTag → String
  | .data => "data"
  | .smallImmediate => "small-immediate"
  | .largeImmediate => "large-immediate"
  | .address => "address"
  | .special => "special-command"

namespace Kind

/-- The tag of a kind. -/
def tag : Kind → KindTag
  | .data _ => .data
  | .smallImmediate _ => .smallImmediate
  | .largeImmediate => .largeImmediate
  | .address _ => .address
  | .special _ => .special

/-- How many words hold `length` bytes. -/
def wordsFor (length : Nat) : Nat := (length + 3) / wordBytes

theorem wordsFor_eq (length : Nat) : wordsFor length = (length + 3) / 4 := rfl

/-- How many words follow the header. -/
def extraWords : Kind → Nat
  | .data length => wordsFor length.toNat
  | .largeImmediate => 1
  | _ => 0

end Kind

/-! ## Reading a word -/

namespace Word

/-- The two kind bits as a number below four. -/
def kindBits (w : UInt32) : UInt32 := w / immediateBit % 4

/-- Both kind bits are clear. -/
def isData (w : UInt32) : Bool := kindBits w == 0

/-- Only the immediate bit is set. -/
def isImmediate (w : UInt32) : Bool := kindBits w == 1

/-- Only the address bit is set. -/
def isAddress (w : UInt32) : Bool := kindBits w == 2

/-- Both kind bits are set. -/
def isSpecial (w : UInt32) : Bool := kindBits w == 3

/-- The extra bit is set. -/
def hasExtraBit (w : UInt32) : Bool := w / extraBit % 2 == 1

/-- The value field. -/
def value (w : UInt32) : UInt32 := w % valueSize

/-- The address of the window that the word points at. -/
def address (w : UInt32) : UInt32 := windowBase + w % windowSize

/-- The code of a special command. -/
def code (w : UInt32) : UInt32 := w % commandSize

end Word

/-- What a word announces when it is read as a header. -/
def Kind.ofWord (w : UInt32) : Kind :=
  if Word.isSpecial w then .special (Word.code w)
  else if Word.isAddress w then .address (Word.address w)
  else if Word.isImmediate w then
    if Word.hasExtraBit w then .largeImmediate else .smallImmediate (Word.value w)
  else .data (Word.value w)

/-! ## Writing a word -/

/-- Whether a value is too wide for the value field. -/
def needsExtraWord (value : UInt32) : Bool := valueSize ≤ value

/-- Whether an address lies in the window. -/
def inWindow (address : UInt32) : Bool := address / windowSize == windowBase / windowSize

namespace Pack

/-- The channel field.  Only the low four bits of the number count. -/
def channel (c : UInt32) : UInt32 := c % 16 * channelUnit

/-- A value of 25 bits. -/
def smallImmediate (c value : UInt32) : UInt32 := channel c + immediateBit + value % valueSize

/-- The header of a value in the next word. -/
def largeImmediate (c : UInt32) : UInt32 := channel c + immediateBit + extraBit

/-- The offset of an address in the window.  The base of the window is a
multiple of its size, so the offset is a remainder. -/
def address (c address : UInt32) : UInt32 := channel c + addressBit + address % windowSize

/-- The header of a block of bytes. -/
def data (c length : UInt32) : UInt32 := channel c + length % valueSize

/-- A command, on no channel. -/
def special (code : UInt32) : UInt32 := specialBits + code % commandSize

/-- A value that must fit the header. -/
def checkedSmallImmediate (c : Channel) (value : UInt32) : Except MessageError UInt32 :=
  if needsExtraWord value then .error (.valueTooWide value)
  else .ok (smallImmediate c.toWord value)

/-- An address that must lie in the window. -/
def checkedAddress (c : Channel) (a : UInt32) : Except MessageError UInt32 :=
  if inWindow a then .ok (address c.toWord a) else .error (.addressOutsideWindow a)

/-- A length that must fit the header. -/
def checkedData (c : Channel) (length : Nat) : Except MessageError UInt32 :=
  if length < valueSize.toNat then .ok (data c.toWord (UInt32.ofNat length))
  else .error (.lengthTooLarge length)

/-- A command code that must have at most 24 bits. -/
def checkedSpecial (code : UInt32) : Except MessageError UInt32 :=
  if code < commandSize then .ok (special code) else .error (.commandTooWide code)

end Pack

/-! ## Headers -/

/-- A channel and a kind.  The channel of a special command has no meaning. -/
structure Header where
  channel : Channel
  kind : Kind
deriving DecidableEq, Repr

namespace Header

/-- A word, read as a header. -/
def ofWord (w : UInt32) : Header := ⟨Channel.ofWord w, Kind.ofWord w⟩

/-- The channel a message goes to.  A special command goes to none. -/
def route (h : Header) : Option Channel :=
  match h.kind with
  | .special _ => none
  | _ => some h.channel

/-- The word of a header. -/
def toWord (h : Header) : UInt32 :=
  match h.kind with
  | .data length => Pack.data h.channel.toWord length
  | .smallImmediate value => Pack.smallImmediate h.channel.toWord value
  | .largeImmediate => Pack.largeImmediate h.channel.toWord
  | .address address => Pack.address h.channel.toWord address
  | .special code => Pack.special code

end Header

end WordFifo
