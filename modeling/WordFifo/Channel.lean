import WordFifo.Error
import WordFifo.Layout

/-!
# Channels

The top four bits of a word that is no special command name one of 16 channels.
The first eight belong to system services and the others to applications.

`Channel.ofWord` reads the field and `Channel.embed` writes it.  A write changes
no other bit.
-/

namespace WordFifo

open Layout

/-- One of the channels. -/
abbrev Channel := Fin channelCount

namespace Channel

/-- Power management. -/
def power : Channel := 0
/-- The sound engine. -/
def sound : Channel := 1
/-- Clock, touch and backlight. -/
def system : Channel := 2
/-- Music playback. -/
def maxmod : Channel := 3
/-- Wireless networking. -/
def wifi : Channel := 4
/-- Removable storage. -/
def storage : Channel := 5
/-- The firmware flash. -/
def firmware : Channel := 6
/-- Kept for later system use. -/
def reserved : Channel := 7
/-- The first application channel. -/
def firstUser : Channel := 8

/-- Every channel, in order. -/
def all : List Channel := List.finRange channelCount

/-- The number of a channel, as a word. -/
def toWord (c : Channel) : UInt32 := UInt32.ofNat c.val

/-- The channel with a number. -/
def ofId (id : UInt32) : Except MessageError Channel :=
  if h : id.toNat < channelCount then .ok ⟨id.toNat, h⟩ else .error (.channelOutOfRange id)

/-- The application channel with a number, counted from the first one. -/
def user (n : UInt8) : Except MessageError Channel := ofId (firstUser.toWord + n.toUInt32)

/-- The channel field of a word.  It has no meaning in a special command. -/
def ofWord (w : UInt32) : Channel :=
  ⟨w.toNat / channelUnit.toNat, by
    have := w.toNat_lt
    simp [channelUnit, channelCount]
    omega⟩

/-- The word with its channel field replaced. -/
def embed (w channel : UInt32) : UInt32 := w % channelUnit + channel % 16 * channelUnit

/-- Whether a system service owns the channel. -/
def isBuiltin (c : Channel) : Bool := c < firstUser

/-- The name of a channel. -/
def name (c : Channel) : String :=
  match c.val with
  | 0 => "POWER"
  | 1 => "SOUND"
  | 2 => "SYSTEM"
  | 3 => "MAXMOD"
  | 4 => "WIFI"
  | 5 => "STORAGE"
  | 6 => "FIRMWARE"
  | 7 => "RESERVED"
  | _ => "USER"

/-- Number and name. -/
def label (c : Channel) : String := Digits.decimal c.val ++ " (" ++ c.name ++ ")"

theorem toNat_toWord (c : Channel) : c.toWord.toNat = c.val := by
  have := c.isLt
  simp [toWord, channelCount] at *
  omega

theorem ofId_toWord (c : Channel) : ofId c.toWord = .ok c := by
  simp [ofId, toNat_toWord]

theorem ofId_eq_ok_iff {w : UInt32} {c : Channel} : ofId w = .ok c ↔ w = c.toWord := by
  constructor
  · intro h
    rw [ofId] at h
    split at h
    · rw [← Except.ok.inj h, ← UInt32.toNat_inj, toNat_toWord]
    · cases h
  · rintro rfl
    exact ofId_toWord c

theorem toWord_le (c : Channel) : c.toWord ≤ 15 := by
  rw [UInt32.le_iff_toNat_le, toNat_toWord]
  exact Nat.le_of_lt_succ c.isLt

end Channel

end WordFifo
