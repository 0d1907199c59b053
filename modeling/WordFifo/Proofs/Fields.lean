import Mathlib.Algebra.Group.Nat.Defs
import WordFifo.Header

/-!
# The fields of a header word

A field is a quotient and a remainder at powers of two, and so is a mask of low bits.
Each reader and each packer of `Header` is told that way first, so that `omega` settles
the rest.  A channel that is written into a word is read back, and the other bits stay
(`Channel.val_ofWord_embed`, `Channel.embed_mod_channelUnit`).

`Kind.ofWord_cases` gives the kind of any word by its bits 25, 26 and 27.

`Kind.ofWord` and `Channel.ofWord` read back what `Pack` writes.  A packed value
keeps its low bits, and an address comes back inside the window.  Either comes
back whole exactly when it is in range (`mod_valueSize_eq_iff` and the two behind
it).  Of a channel number the low four bits come back from every packed word but
a special command, whose field is empty.

The other way round, the fields of a word are packed into that word again when
the bits that its kind does not read are zero (`Pack.…_ofWord`).
-/

namespace WordFifo

open Layout

/-! ## Sizes, positions and masks -/

namespace Layout

theorem two_pow_channelBits : 2 ^ channelBits = channelCount := rfl

theorem two_pow_channelShift : 2 ^ channelShift = channelUnit.toNat := rfl

theorem two_pow_addressShift : 2 ^ addressShift = addressBit.toNat := rfl

theorem two_pow_immediateShift : 2 ^ immediateShift = immediateBit.toNat := rfl

theorem two_pow_extraShift : 2 ^ extraShift = extraBit.toNat := rfl

/-- A mask of low bits keeps the remainder. -/
theorem and_eq_mod {m s : UInt32} (k : Nat) (hm : m.toNat = 2 ^ k - 1) (hs : s.toNat = 2 ^ k)
    (w : UInt32) : w &&& m = w % s :=
  UInt32.toNat_inj.mp (by
    rw [UInt32.toNat_and, UInt32.toNat_mod, hm, hs, Nat.and_two_pow_sub_one_eq_mod])

theorem and_valueMask (w : UInt32) : w &&& valueMask = w % valueSize := and_eq_mod 25 rfl rfl w

theorem and_commandMask (w : UInt32) : w &&& commandMask = w % commandSize :=
  and_eq_mod 24 rfl rfl w

theorem and_windowMask (w : UInt32) : w &&& windowMask = w % windowSize := and_eq_mod 24 rfl rfl w

theorem and_channelMask (c : UInt32) : c &&& channelMask = c % 16 := and_eq_mod 4 rfl rfl c

end Layout

/-! ## Fields as numbers -/

theorem Word.toNat_kindBits (w : UInt32) : (Word.kindBits w).toNat = w.toNat / 2 ^ 26 % 4 := by
  simp [Word.kindBits, immediateBit]

theorem Word.toNat_value (w : UInt32) : (Word.value w).toNat = w.toNat % 2 ^ 25 := by
  simp [Word.value, valueSize]

theorem Word.toNat_code (w : UInt32) : (Word.code w).toNat = w.toNat % 2 ^ 24 := by
  simp [Word.code, commandSize]

theorem Word.toNat_address (w : UInt32) :
    (Word.address w).toNat = 2 ^ 25 + w.toNat % 2 ^ 24 := by
  simp [Word.address, windowBase, windowSize]
  omega

theorem Word.hasExtraBit_iff (w : UInt32) : Word.hasExtraBit w ↔ w.toNat / 2 ^ 25 % 2 = 1 := by
  simp [Word.hasExtraBit, extraBit, ← UInt32.toNat_inj]

/-- The kind bits are compared with a number. -/
theorem Word.kindBits_beq_iff (w bits : UInt32) :
    Word.kindBits w == bits ↔ w.toNat / 2 ^ 26 % 4 = bits.toNat := by
  rw [beq_iff_eq, ← UInt32.toNat_inj, Word.toNat_kindBits]

theorem Word.isSpecial_iff (w : UInt32) : Word.isSpecial w ↔ w.toNat / 2 ^ 26 % 4 = 3 :=
  Word.kindBits_beq_iff w 3

theorem Word.isAddress_iff (w : UInt32) : Word.isAddress w ↔ w.toNat / 2 ^ 26 % 4 = 2 :=
  Word.kindBits_beq_iff w 2

theorem Word.isImmediate_iff (w : UInt32) : Word.isImmediate w ↔ w.toNat / 2 ^ 26 % 4 = 1 :=
  Word.kindBits_beq_iff w 1

theorem Word.isData_iff (w : UInt32) : Word.isData w ↔ w.toNat / 2 ^ 26 % 4 = 0 :=
  Word.kindBits_beq_iff w 0

theorem needsExtraWord_iff (value : UInt32) : needsExtraWord value ↔ 2 ^ 25 ≤ value.toNat := by
  simp [needsExtraWord, valueSize, UInt32.le_iff_toNat_le]

theorem inWindow_iff (a : UInt32) : inWindow a ↔ a.toNat / 2 ^ 24 = 2 := by
  simp [inWindow, windowSize, windowBase, ← UInt32.toNat_inj]

theorem Pack.toNat_channel (c : UInt32) : (Pack.channel c).toNat = c.toNat % 16 * 2 ^ 28 := by
  have := c.toNat_lt
  simp [Pack.channel, channelUnit]
  omega

theorem Pack.toNat_smallImmediate (c value : UInt32) :
    (Pack.smallImmediate c value).toNat =
      c.toNat % 16 * 2 ^ 28 + 2 ^ 26 + value.toNat % 2 ^ 25 := by
  have := Pack.toNat_channel c
  simp [Pack.smallImmediate, immediateBit, valueSize, this]
  omega

theorem Pack.toNat_largeImmediate (c : UInt32) :
    (Pack.largeImmediate c).toNat = c.toNat % 16 * 2 ^ 28 + 2 ^ 26 + 2 ^ 25 := by
  have := Pack.toNat_channel c
  simp [Pack.largeImmediate, immediateBit, extraBit, this]
  omega

theorem Pack.toNat_address (c a : UInt32) :
    (Pack.address c a).toNat = c.toNat % 16 * 2 ^ 28 + 2 ^ 27 + a.toNat % 2 ^ 24 := by
  have := Pack.toNat_channel c
  simp [Pack.address, addressBit, windowSize, this]
  omega

theorem Pack.toNat_data (c length : UInt32) :
    (Pack.data c length).toNat = c.toNat % 16 * 2 ^ 28 + length.toNat % 2 ^ 25 := by
  have := Pack.toNat_channel c
  simp [Pack.data, valueSize, this]
  omega

theorem Pack.toNat_special (code : UInt32) :
    (Pack.special code).toNat = 2 ^ 27 + 2 ^ 26 + code.toNat % 2 ^ 24 := by
  simp [Pack.special, specialBits, commandSize]
  omega

/-! ## The channel field -/

namespace Channel

theorem val_ofWord (w : UInt32) : (ofWord w).val = w.toNat / 2 ^ channelShift := rfl

theorem toNat_embed (w channel : UInt32) :
    (embed w channel).toNat = w.toNat % 2 ^ 28 + channel.toNat % 16 * 2 ^ 28 := by
  have := channel.toNat_lt
  simp [embed, channelUnit]
  omega

/-- The field that was written is read back. -/
theorem val_ofWord_embed (w channel : UInt32) :
    (ofWord (embed w channel)).val = channel.toNat % 16 := by
  rw [val_ofWord, toNat_embed]
  simp [channelShift]
  omega

/-- The other bits stay. -/
theorem embed_mod_channelUnit (w channel : UInt32) :
    embed w channel % channelUnit = w % channelUnit := by
  apply UInt32.toNat_inj.mp
  rw [UInt32.toNat_mod, UInt32.toNat_mod, toNat_embed]
  simp [channelUnit]

end Channel

/-! ## Kinds by their bits -/

namespace Kind

theorem ofWord_of_special {w : UInt32} (h : w.toNat / 2 ^ 26 % 4 = 3) :
    ofWord w = .special (Word.code w) := by
  rw [ofWord, if_pos ((Word.isSpecial_iff w).mpr h)]

theorem ofWord_of_address {w : UInt32} (h : w.toNat / 2 ^ 26 % 4 = 2) :
    ofWord w = .address (Word.address w) := by
  have hs : ¬ Word.isSpecial w := by rw [Word.isSpecial_iff]; omega
  rw [ofWord, if_neg hs, if_pos ((Word.isAddress_iff w).mpr h)]

theorem ofWord_of_largeImmediate {w : UInt32} (h : w.toNat / 2 ^ 25 % 8 = 3) :
    ofWord w = .largeImmediate := by
  have hs : ¬ Word.isSpecial w := by rw [Word.isSpecial_iff]; omega
  have ha : ¬ Word.isAddress w := by rw [Word.isAddress_iff]; omega
  have hi : Word.isImmediate w := by rw [Word.isImmediate_iff]; omega
  have he : Word.hasExtraBit w := by rw [Word.hasExtraBit_iff]; omega
  rw [ofWord, if_neg hs, if_neg ha, if_pos hi, if_pos he]

theorem ofWord_of_smallImmediate {w : UInt32} (h : w.toNat / 2 ^ 25 % 8 = 2) :
    ofWord w = .smallImmediate (Word.value w) := by
  have hs : ¬ Word.isSpecial w := by rw [Word.isSpecial_iff]; omega
  have ha : ¬ Word.isAddress w := by rw [Word.isAddress_iff]; omega
  have hi : Word.isImmediate w := by rw [Word.isImmediate_iff]; omega
  have he : ¬ Word.hasExtraBit w := by rw [Word.hasExtraBit_iff]; omega
  rw [ofWord, if_neg hs, if_neg ha, if_pos hi, if_neg he]

theorem ofWord_of_data {w : UInt32} (h : w.toNat / 2 ^ 26 % 4 = 0) :
    ofWord w = .data (Word.value w) := by
  have hs : ¬ Word.isSpecial w := by rw [Word.isSpecial_iff]; omega
  have ha : ¬ Word.isAddress w := by rw [Word.isAddress_iff]; omega
  have hi : ¬ Word.isImmediate w := by rw [Word.isImmediate_iff]; omega
  rw [ofWord, if_neg hs, if_neg ha, if_neg hi]

/-- Every word has one of the five kinds. -/
theorem ofWord_cases (w : UInt32) :
    (w.toNat / 2 ^ 26 % 4 = 0 ∧ ofWord w = .data (Word.value w)) ∨
      (w.toNat / 2 ^ 25 % 8 = 2 ∧ ofWord w = .smallImmediate (Word.value w)) ∨
      (w.toNat / 2 ^ 25 % 8 = 3 ∧ ofWord w = .largeImmediate) ∨
      (w.toNat / 2 ^ 26 % 4 = 2 ∧ ofWord w = .address (Word.address w)) ∨
      (w.toNat / 2 ^ 26 % 4 = 3 ∧ ofWord w = .special (Word.code w)) := by
  have bits : w.toNat / 2 ^ 26 % 4 = 0 ∨ w.toNat / 2 ^ 25 % 8 = 2 ∨ w.toNat / 2 ^ 25 % 8 = 3 ∨
      w.toNat / 2 ^ 26 % 4 = 2 ∨ w.toNat / 2 ^ 26 % 4 = 3 := by omega
  rcases bits with h | h | h | h | h
  · exact Or.inl ⟨h, ofWord_of_data h⟩
  · exact Or.inr (Or.inl ⟨h, ofWord_of_smallImmediate h⟩)
  · exact Or.inr (Or.inr (Or.inl ⟨h, ofWord_of_largeImmediate h⟩))
  · exact Or.inr (Or.inr (Or.inr (Or.inl ⟨h, ofWord_of_address h⟩)))
  · exact Or.inr (Or.inr (Or.inr (Or.inr ⟨h, ofWord_of_special h⟩)))

end Kind

/-! ## Values of packed words -/

/-- A value comes back whole when it fits the value field. -/
theorem mod_valueSize_eq_iff (v : UInt32) : v % valueSize = v ↔ v.toNat < 2 ^ 25 := by
  rw [← UInt32.toNat_inj, UInt32.toNat_mod]
  simp only [valueSize, UInt32.reduceToNat]
  omega

theorem mod_commandSize_eq_iff (code : UInt32) :
    code % commandSize = code ↔ code.toNat < 2 ^ 24 := by
  rw [← UInt32.toNat_inj, UInt32.toNat_mod]
  simp only [commandSize, UInt32.reduceToNat]
  omega

/-- An address comes back whole when it lies in the window. -/
theorem windowBase_add_mod_eq_iff (a : UInt32) :
    windowBase + a % windowSize = a ↔ a.toNat / 2 ^ 24 = 2 := by
  rw [← UInt32.toNat_inj, UInt32.toNat_add, UInt32.toNat_mod]
  simp only [windowBase, windowSize, UInt32.reduceToNat]
  omega

namespace Word

theorem value_packData (c length : UInt32) :
    value (Pack.data c length) = length % valueSize := by
  apply UInt32.toNat_inj.mp
  rw [toNat_value, UInt32.toNat_mod, Pack.toNat_data]
  simp only [valueSize, UInt32.reduceToNat]
  omega

theorem value_packSmallImmediate (c v : UInt32) :
    value (Pack.smallImmediate c v) = v % valueSize := by
  apply UInt32.toNat_inj.mp
  rw [toNat_value, UInt32.toNat_mod, Pack.toNat_smallImmediate]
  simp only [valueSize, UInt32.reduceToNat]
  omega

theorem address_packAddress (c a : UInt32) :
    address (Pack.address c a) = windowBase + a % windowSize := by
  apply UInt32.toNat_inj.mp
  rw [toNat_address, UInt32.toNat_add, UInt32.toNat_mod, Pack.toNat_address]
  simp only [windowBase, windowSize, UInt32.reduceToNat]
  omega

theorem code_packSpecial (code : UInt32) :
    Word.code (Pack.special code) = code % commandSize := by
  apply UInt32.toNat_inj.mp
  rw [toNat_code, UInt32.toNat_mod, Pack.toNat_special]
  simp only [commandSize, UInt32.reduceToNat]
  omega

end Word

/-! ## Kinds of packed words -/

namespace Kind

theorem ofWord_packData (c length : UInt32) :
    ofWord (Pack.data c length) = .data (length % valueSize) := by
  have hw := Pack.toNat_data c length
  rw [ofWord_of_data (by omega), Word.value_packData]

theorem ofWord_packSmallImmediate (c value : UInt32) :
    ofWord (Pack.smallImmediate c value) = .smallImmediate (value % valueSize) := by
  have hw := Pack.toNat_smallImmediate c value
  rw [ofWord_of_smallImmediate (by omega), Word.value_packSmallImmediate]

theorem ofWord_packLargeImmediate (c : UInt32) :
    ofWord (Pack.largeImmediate c) = .largeImmediate := by
  have hw := Pack.toNat_largeImmediate c
  exact ofWord_of_largeImmediate (by omega)

theorem ofWord_packAddress (c a : UInt32) :
    ofWord (Pack.address c a) = .address (windowBase + a % windowSize) := by
  have hw := Pack.toNat_address c a
  rw [ofWord_of_address (by omega), Word.address_packAddress]

theorem ofWord_packSpecial (code : UInt32) :
    ofWord (Pack.special code) = .special (code % commandSize) := by
  have hw := Pack.toNat_special code
  rw [ofWord_of_special (by omega), Word.code_packSpecial]

end Kind

/-! ## Channels of packed words -/

namespace Channel

theorem val_ofWord_packData (c length : UInt32) :
    (ofWord (Pack.data c length)).val = c.toNat % 16 := by
  rw [val_ofWord, Pack.toNat_data, channelShift]
  omega

theorem val_ofWord_packSmallImmediate (c value : UInt32) :
    (ofWord (Pack.smallImmediate c value)).val = c.toNat % 16 := by
  rw [val_ofWord, Pack.toNat_smallImmediate, channelShift]
  omega

theorem val_ofWord_packLargeImmediate (c : UInt32) :
    (ofWord (Pack.largeImmediate c)).val = c.toNat % 16 := by
  rw [val_ofWord, Pack.toNat_largeImmediate, channelShift]
  omega

theorem val_ofWord_packAddress (c a : UInt32) :
    (ofWord (Pack.address c a)).val = c.toNat % 16 := by
  rw [val_ofWord, Pack.toNat_address, channelShift]
  omega

theorem toWord_ofWord_of_val {w c : UInt32} (h : (ofWord w).val = c.toNat % 16) :
    (ofWord w).toWord = c % 16 := by
  apply UInt32.toNat_inj.mp
  rw [toNat_toWord, h]
  rfl

/-- The number of a channel is below 16, so the field holds all of it. -/
theorem ofWord_of_val {w : UInt32} {c : Channel} (h : (ofWord w).val = c.toWord.toNat % 16) :
    ofWord w = c := by
  apply Fin.ext
  rw [h, toNat_toWord]
  exact Nat.mod_eq_of_lt c.isLt

theorem ofWord_packData (c : Channel) (length : UInt32) :
    ofWord (Pack.data c.toWord length) = c :=
  ofWord_of_val (val_ofWord_packData c.toWord length)

theorem ofWord_packSmallImmediate (c : Channel) (value : UInt32) :
    ofWord (Pack.smallImmediate c.toWord value) = c :=
  ofWord_of_val (val_ofWord_packSmallImmediate c.toWord value)

theorem ofWord_packLargeImmediate (c : Channel) : ofWord (Pack.largeImmediate c.toWord) = c :=
  ofWord_of_val (val_ofWord_packLargeImmediate c.toWord)

theorem ofWord_packAddress (c : Channel) (a : UInt32) :
    ofWord (Pack.address c.toWord a) = c :=
  ofWord_of_val (val_ofWord_packAddress c.toWord a)

/-- The channel field of a special command is left empty. -/
theorem ofWord_packSpecial (code : UInt32) : ofWord (Pack.special code) = ofWord 0 := by
  apply Fin.ext
  rw [val_ofWord, val_ofWord, Pack.toNat_special, channelShift, UInt32.toNat_zero]
  omega

end Channel

/-! ## Words packed from their own fields -/

namespace Pack

variable {w : UInt32}

theorem toNat_channel_ofWord (w : UInt32) :
    (Channel.ofWord w).toWord.toNat = w.toNat / 2 ^ 28 := by
  rw [Channel.toNat_toWord, Channel.val_ofWord]

/-- A small immediate has no bits that are not read. -/
theorem smallImmediate_ofWord (h : w.toNat / 2 ^ 25 % 8 = 2) :
    smallImmediate (Channel.ofWord w).toWord (Word.value w) = w := by
  have hw := w.toNat_lt
  apply UInt32.toNat_inj.mp
  rw [toNat_smallImmediate, toNat_channel_ofWord, Word.toNat_value]
  omega

theorem largeImmediate_ofWord (h : w.toNat / 2 ^ 25 % 8 = 3) :
    largeImmediate (Channel.ofWord w).toWord = w ↔ w.toNat % 2 ^ 25 = 0 := by
  have hw := w.toNat_lt
  rw [← UInt32.toNat_inj, toNat_largeImmediate, toNat_channel_ofWord]
  omega

theorem address_ofWord (h : w.toNat / 2 ^ 26 % 4 = 2) :
    address (Channel.ofWord w).toWord (Word.address w) = w ↔ w.toNat / 2 ^ 24 % 4 = 0 := by
  have hw := w.toNat_lt
  rw [← UInt32.toNat_inj, toNat_address, toNat_channel_ofWord, Word.toNat_address]
  omega

theorem data_ofWord (h : w.toNat / 2 ^ 26 % 4 = 0) :
    data (Channel.ofWord w).toWord (Word.value w) = w ↔ w.toNat / 2 ^ 25 % 2 = 0 := by
  have hw := w.toNat_lt
  rw [← UInt32.toNat_inj, toNat_data, toNat_channel_ofWord, Word.toNat_value]
  omega

theorem special_ofWord (h : w.toNat / 2 ^ 26 % 4 = 3) :
    special (Word.code w) = w ↔ w.toNat / 2 ^ 24 % 4 = 0 ∧ w.toNat / 2 ^ 28 = 0 := by
  have hw := w.toNat_lt
  rw [← UInt32.toNat_inj, toNat_special, Word.toNat_code]
  omega

end Pack

end WordFifo
