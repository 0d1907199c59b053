import WordFifo.Proofs.Fields

/-!
# Headers that lose bits, and headers that are checked

`Pack` never fails.  It cuts a value to its field and a channel number to four
bits, so that what is too wide stays out of the other fields (`Contained`).
Above all it never gets into the kind bits, and no value and no channel number
makes a special command of another header.

`Pack.checked…` asks first whether a value is too wide, each in its own way: by a
comparison, by a length in bytes or by a window.  All the same they agree with a
reader.  What is written is the word of `Pack`, exactly when the value can be
read back from that word, and a refusal carries the value (`Checks`).
-/

namespace WordFifo.Pack

open Layout

/-! ## Too wide a value stays in its field -/

/-- What is read off the words that are packed from the channel number `c` and
the value `v`, however large they are. -/
structure Contained (c v : UInt32) : Prop where
  kind_data : Kind.ofWord (data c v) = .data (v % 0x02000000)
  kind_smallImmediate : Kind.ofWord (smallImmediate c v) = .smallImmediate (v % 0x02000000)
  kind_largeImmediate : Kind.ofWord (largeImmediate c) = .largeImmediate
  kind_address : Kind.ofWord (address c v) = .address (0x02000000 + v % 0x01000000)
  kind_special : Kind.ofWord (special v) = .special (v % 0x01000000)
  /-- All but the command go to a channel. -/
  channel : ∀ w ∈ [data c v, smallImmediate c v, largeImmediate c, address c v],
    (Channel.ofWord w).toWord = c % 16 ∧ Word.isSpecial w = false

/-- A word on a channel, with less than both kind bits. -/
theorem channel_of_ordinary {w c : UInt32} (hchannel : (Channel.ofWord w).val = c.toNat % 16)
    (hbits : w.toNat / 2 ^ 26 % 4 ≠ 3) :
    (Channel.ofWord w).toWord = c % 16 ∧ Word.isSpecial w = false :=
  ⟨Channel.toWord_ofWord_of_val hchannel,
    Bool.eq_false_iff.mpr fun hs => hbits ((Word.isSpecial_iff w).mp hs)⟩

theorem contained (c v : UInt32) : Contained c v where
  kind_data := Kind.ofWord_packData c v
  kind_smallImmediate := Kind.ofWord_packSmallImmediate c v
  kind_largeImmediate := Kind.ofWord_packLargeImmediate c
  kind_address := Kind.ofWord_packAddress c v
  kind_special := Kind.ofWord_packSpecial v
  channel := by
    intro w hw
    simp only [List.mem_cons, List.not_mem_nil, or_false] at hw
    rcases hw with rfl | rfl | rfl | rfl
    · have hword := toNat_data c v
      exact channel_of_ordinary (Channel.val_ofWord_packData c v) (by omega)
    · have hword := toNat_smallImmediate c v
      exact channel_of_ordinary (Channel.val_ofWord_packSmallImmediate c v) (by omega)
    · have hword := toNat_largeImmediate c
      exact channel_of_ordinary (Channel.val_ofWord_packLargeImmediate c) (by omega)
    · have hword := toNat_address c v
      exact channel_of_ordinary (Channel.val_ofWord_packAddress c v) (by omega)

/-! ## Checked words -/

/-- A word that is written only if nothing is lost, and a refusal if not. -/
structure Checks (checked : Except MessageError UInt32) (word : UInt32) (lossless : Prop)
    (refusal : MessageError) : Prop where
  ok_iff : ∀ w, checked = .ok w ↔ lossless ∧ w = word
  error_iff : ∀ e, checked = .error e ↔ ¬lossless ∧ e = refusal

/-- A check for the very values that come back whole. -/
theorem Checks.of_iff {lossless fits : Prop} [Decidable fits] (h : lossless ↔ fits) (word : UInt32)
    (refusal : MessageError) :
    Checks (if fits then .ok word else .error refusal) word lossless refusal := by
  by_cases hfits : fits
  · rw [if_pos hfits]
    exact ⟨fun w => ⟨fun hw => ⟨h.mpr hfits, (Except.ok.inj hw).symm⟩, fun hw => hw.2 ▸ rfl⟩,
      fun e => ⟨nofun, fun he => absurd (h.mpr hfits) he.1⟩⟩
  · rw [if_neg hfits]
    exact ⟨fun w => ⟨nofun, fun hw => absurd (h.mp hw.1) hfits⟩,
      fun e => ⟨fun he => ⟨mt h.mp hfits, (Except.error.inj he).symm⟩, fun he => he.2 ▸ rfl⟩⟩

theorem checks_smallImmediate (c : Channel) (v : UInt32) :
    Checks (checkedSmallImmediate c v) (smallImmediate c.toWord v)
      (Word.value (smallImmediate c.toWord v) = v) (.valueTooWide v) := by
  rw [checkedSmallImmediate, ← ite_not]
  refine .of_iff ?_ _ _
  rw [Word.value_packSmallImmediate, mod_valueSize_eq_iff, needsExtraWord_iff, Nat.not_le]

theorem checks_address (c : Channel) (a : UInt32) :
    Checks (checkedAddress c a) (address c.toWord a)
      (Word.address (address c.toWord a) = a) (.addressOutsideWindow a) := by
  refine .of_iff ?_ _ _
  rw [Word.address_packAddress, windowBase_add_mod_eq_iff, inWindow_iff]

/-- A length may be wider than a word.  It is then cut twice, and a block of
`2 ^ 32` bytes would be packed as an empty one. -/
theorem checks_data (c : Channel) (n : Nat) :
    Checks (checkedData c n) (data c.toWord (UInt32.ofNat n))
      ((Word.value (data c.toWord (UInt32.ofNat n))).toNat = n) (.lengthTooLarge n) := by
  refine .of_iff ?_ _ _
  rw [Word.value_packData, UInt32.toNat_mod, UInt32.toNat_ofNat']
  simp only [valueSize, UInt32.reduceToNat]
  omega

theorem checks_special (code : UInt32) :
    Checks (checkedSpecial code) (special code) (Word.code (special code) = code)
      (.commandTooWide code) := by
  refine .of_iff ?_ _ _
  rw [Word.code_packSpecial, mod_commandSize_eq_iff, UInt32.lt_iff_toNat_lt]
  rfl

/-- Whatever is packed stays in its field, on any channel number.  A checked word is
written exactly when its value is read back from the word that is packed, and it
is that word.  Any other value is refused, and the refusal carries it. -/
theorem packs_exactly_lossless :
    (∀ c v : UInt32, Contained c v) ∧
      (∀ (c : Channel) (v : UInt32),
        Checks (checkedSmallImmediate c v) (smallImmediate c.toWord v)
          (Word.value (smallImmediate c.toWord v) = v) (.valueTooWide v)) ∧
      (∀ (c : Channel) (a : UInt32),
        Checks (checkedAddress c a) (address c.toWord a)
          (Word.address (address c.toWord a) = a) (.addressOutsideWindow a)) ∧
      (∀ (c : Channel) (n : Nat),
        Checks (checkedData c n) (data c.toWord (UInt32.ofNat n))
          ((Word.value (data c.toWord (UInt32.ofNat n))).toNat = n) (.lengthTooLarge n)) ∧
      ∀ code : UInt32,
        Checks (checkedSpecial code) (special code) (Word.code (special code) = code)
          (.commandTooWide code) :=
  ⟨contained, checks_smallImmediate, checks_address, checks_data, checks_special⟩

end WordFifo.Pack
