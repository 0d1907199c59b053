/-!
# The layout of a header word

Every word on the FIFO has 32 bits.  A header word is cut into fields, from the
top down.

* Four bits of channel.
* Two kind bits, the address bit and the immediate bit.  Both clear is a data
  block, both set is a special command.
* One extra bit.  Only an immediate reads it.
* Twenty-five bits of value.

Addresses are offsets into one window of the main memory, so 24 bits hold them.
A special command has a 24-bit code.

The fields are cut out by division and remainder at powers of two, and put
together by addition.  The masks are the same cuts written bit by bit.
-/

namespace WordFifo.Layout

/-! ## Sizes and positions -/

/-- Bits in a word. -/
abbrev wordBits : Nat := 32

/-- Bytes in a word on a carrier of bytes. -/
abbrev wordBytes : Nat := 4

/-- Bits of the channel field. -/
abbrev channelBits : Nat := 4

/-- How many channels there are. -/
abbrev channelCount : Nat := 16

/-- Position of the channel field. -/
abbrev channelShift : Nat := 28

/-- Position of the address bit. -/
abbrev addressShift : Nat := 27

/-- Position of the immediate bit. -/
abbrev immediateShift : Nat := 26

/-- Position of the extra bit. -/
abbrev extraShift : Nat := 25

/-- Channel one, in the channel field. -/
abbrev channelUnit : UInt32 := 0x10000000

/-- The address bit. -/
abbrev addressBit : UInt32 := 0x08000000

/-- The immediate bit. -/
abbrev immediateBit : UInt32 := 0x04000000

/-- The extra bit. -/
abbrev extraBit : UInt32 := 0x02000000

/-- Both kind bits: the mark of a special command. -/
abbrev specialBits : UInt32 := 0x0C000000

/-- One more than the greatest value of the value field. -/
abbrev valueSize : UInt32 := 0x02000000

/-- One more than the greatest special command code. -/
abbrev commandSize : UInt32 := 0x01000000

/-- First address of the window. -/
abbrev windowBase : UInt32 := 0x02000000

/-- Bytes in the window. -/
abbrev windowSize : UInt32 := 0x01000000

/-! ## Masks -/

/-- The channel field, moved to the bottom of the word. -/
abbrev channelMask : UInt32 := 0x0000000F

/-- The value field. -/
abbrev valueMask : UInt32 := 0x01FFFFFF

/-- The code of a special command. -/
abbrev commandMask : UInt32 := 0x00FFFFFF

/-- The offset of an address in the window. -/
abbrev windowMask : UInt32 := 0x00FFFFFF

/-- The bits that all addresses of the window share. -/
abbrev windowSelector : UInt32 := 0xFF000000

/-! ## Sizes and positions agree -/

theorem channelBits_add_channelShift : channelBits + channelShift = wordBits := rfl

theorem wordBytes_mul_eight : wordBytes * 8 = wordBits := rfl

theorem specialBits_eq : specialBits = addressBit + immediateBit := rfl

/-- The base of the window is a multiple of its size, so the offset of an
address is its remainder. -/
theorem windowBase_mod_windowSize : windowBase % windowSize = 0 := rfl

end WordFifo.Layout
