import WordFifo.Proofs.Fields

/-!
# Canonical header words

A header that is read off a word can be written again.  The word that comes back
has the same kind and goes to the same channel, but it need not be the word that
was read, since each kind of header has bits that its reader ignores.

Going from a word to its header and back clears exactly the ignored bits
(`Header.toWord_ofWord`).  The words that stay as they are can be told in three
ways: they have no ignored bit, they come from some header, and `Pack` writes
them.

Going from a header to its word and back cuts the payload to its field, and a
special command loses its channel (`Header.ofWord_toWord`).  The headers that
stay as they are have a payload in range (`Header.Fits`).

`Header.held` carries both.  It is what a word holds of a header, it is packed
into the same word, and a header off a word holds all of itself.
-/

namespace WordFifo

open Layout

/-! ## Cleared fields -/

namespace Layout

theorem testBit_toNat_not (m : UInt32) (i : Nat) :
    (~~~m).toNat.testBit i = (decide (i < 32) && !m.toNat.testBit i) := by
  rw [UInt32.toNat_not, ← Nat.testBit_two_pow_sub_succ m.toNat_lt]
  congr 1
  simp only [UInt32.size]
  omega

variable {m : UInt32} {lo hi : Nat}

/-- The mask of the bits from `lo` up to `hi`. -/
theorem testBit_toNat_field (hle : lo ≤ hi) (hm : m.toNat = 2 ^ hi - 2 ^ lo) (i : Nat) :
    m.toNat.testBit i = (decide (lo ≤ i) && decide (i < hi)) := by
  have hshift : m.toNat = 2 ^ lo * (2 ^ (hi - lo) - 1) := by
    rw [hm, Nat.mul_sub_one, ← Nat.pow_add, Nat.add_sub_of_le hle]
  rw [hshift, Nat.testBit_two_pow_mul, Nat.testBit_two_pow_sub_one]
  by_cases hlo : lo ≤ i
  · have hhi : i - lo < hi - lo ↔ i < hi := by omega
    simp only [hlo, hhi]
  · simp only [ge_iff_le, hlo, decide_false, Bool.false_and]

/-- The bits of a number from which a field is cut out. -/
theorem testBit_cut (hle : lo ≤ hi) (n i : Nat) :
    (n / 2 ^ hi * 2 ^ hi + n % 2 ^ lo).testBit i =
      (n.testBit i && (decide (i < lo) || decide (hi ≤ i))) := by
  have hlow : n % 2 ^ lo < 2 ^ hi :=
    Nat.lt_of_lt_of_le (Nat.mod_lt n (Nat.two_pow_pos lo)) (Nat.pow_le_pow_right (by decide) hle)
  rw [Nat.mul_comm, Nat.testBit_two_pow_mul_add _ hlow, Nat.testBit_mod_two_pow,
    Nat.testBit_div_two_pow]
  by_cases hhi : i < hi
  · rw [if_pos hhi, decide_eq_false (Nat.not_le.mpr hhi), Bool.or_false, Bool.and_comm]
  · have hge : hi ≤ i := Nat.le_of_not_lt hhi
    rw [if_neg hhi, Nat.sub_add_cancel hge, decide_eq_true hge, Bool.or_true, Bool.and_true]

/-- Clearing a field leaves what is above it and what is below it. -/
theorem toNat_and_not (hle : lo ≤ hi) (hm : m.toNat = 2 ^ hi - 2 ^ lo) (w : UInt32) :
    (w &&& ~~~m).toNat = w.toNat / 2 ^ hi * 2 ^ hi + w.toNat % 2 ^ lo := by
  apply Nat.eq_of_testBit_eq
  intro i
  rw [UInt32.toNat_and, Nat.testBit_and, testBit_toNat_not, testBit_toNat_field hle hm,
    testBit_cut hle]
  by_cases h32 : i < 32
  · grind
  · have hpow : 2 ^ 32 ≤ 2 ^ i := Nat.pow_le_pow_right (by decide) (Nat.le_of_not_lt h32)
    rw [Nat.testBit_lt_two_pow (Nat.lt_of_lt_of_le w.toNat_lt hpow), Bool.false_and,
      Bool.false_and]

/-- A word is the bits of a mask and the other bits. -/
theorem and_or_and_not (w m : UInt32) : w &&& m ||| w &&& ~~~m = w := by
  apply UInt32.eq_of_toBitVec_eq
  rw [UInt32.toBitVec_or, UInt32.toBitVec_and, UInt32.toBitVec_and, UInt32.toBitVec_not,
    ← BitVec.and_or_distrib_left, BitVec.or_not_self, BitVec.and_allOnes]

theorem and_not_eq_self_iff (w m : UInt32) : w &&& ~~~m = w ↔ w &&& m = 0 := by
  constructor
  · intro h
    rw [← h, UInt32.and_assoc, UInt32.not_and_self, UInt32.and_zero]
  · intro h
    have hw := and_or_and_not w m
    rwa [h, UInt32.zero_or] at hw

end Layout

/-! ## Bits that are ignored -/

/-- The bits of a header word that the reader of its kind ignores. -/
def KindTag.ignored : KindTag → UInt32
  -- The extra bit.
  | .data => 0x02000000
  | .smallImmediate => 0
  -- The value field.
  | .largeImmediate => 0x01FFFFFF
  -- The extra bit and bit 24.
  | .address => 0x03000000
  -- The channel, the extra bit and bit 24.
  | .special => 0xF3000000

namespace Header

/-- A word that is read as a header and written again loses the bits that its
kind ignores, and no others. -/
theorem toWord_ofWord (w : UInt32) :
    (ofWord w).toWord = w &&& ~~~(Kind.ofWord w).tag.ignored := by
  have hw := w.toNat_lt
  have hchannel := Pack.toNat_channel_ofWord w
  apply UInt32.toNat_inj.mp
  rcases Kind.ofWord_cases w with ⟨hb, hk⟩ | ⟨hb, hk⟩ | ⟨hb, hk⟩ | ⟨hb, hk⟩ | ⟨hb, hk⟩ <;>
    simp only [toWord, ofWord, hk, Kind.tag, KindTag.ignored]
  · rw [Pack.toNat_data, hchannel, Word.toNat_value, toNat_and_not (by decide : 25 ≤ 26) rfl]
    omega
  · rw [Pack.smallImmediate_ofWord hb, (and_not_eq_self_iff w 0).mpr UInt32.and_zero]
  · rw [Pack.toNat_largeImmediate, hchannel, toNat_and_not (by decide : 0 ≤ 25) rfl]
    omega
  · rw [Pack.toNat_address, hchannel, Word.toNat_address, toNat_and_not (by decide : 24 ≤ 26) rfl]
    omega
  · -- The channel is not next to the other ignored bits, so two fields are cleared.
    have hsplit : w &&& ~~~(0xF3000000 : UInt32) = w &&& ~~~0x03000000 &&& ~~~0xF0000000 := by
      rw [UInt32.and_assoc]
      rfl
    rw [Pack.toNat_special, Word.toNat_code, hsplit, toNat_and_not (by decide : 28 ≤ 32) rfl,
      toNat_and_not (by decide : 24 ≤ 26) rfl]
    omega

/-- A word is written again as it was exactly when it has no bit that its kind
ignores.  Of a special command the kind bits and the code are left. -/
theorem rebuild_eq_iff_ignored (w : UInt32) :
    (ofWord w).toWord = w &&& ~~~(Kind.ofWord w).tag.ignored ∧
      ((ofWord w).toWord = w ↔ w &&& (Kind.ofWord w).tag.ignored = 0) ∧
      ((Kind.ofWord w).tag = .special → (ofWord w).toWord = w &&& 0x0CFFFFFF) := by
  have hclear := toWord_ofWord w
  refine ⟨hclear, ?_, fun hspecial => ?_⟩
  · rw [hclear]
    exact and_not_eq_self_iff w _
  · rw [hclear, hspecial]
    rfl

/-- A reset request with every bit set that is ignored in it. -/
theorem rebuild_eq_iff_ignored_reset :
    (Kind.ofWord 0xFF04000B).tag = .special ∧ (ofWord 0xFF04000B).toWord = 0x0C04000B ∧
      (ofWord 0xFF04000B).toWord ≠ 0xFF04000B := by
  have hspecial : (Kind.ofWord 0xFF04000B).tag = .special := rfl
  obtain ⟨-, hsame, hleft⟩ := rebuild_eq_iff_ignored 0xFF04000B
  refine ⟨hspecial, hleft hspecial, fun h => ?_⟩
  exact absurd (hsame.mp h) (by decide)

/-- A block with the extra bit, an address with bit 24 and the header of a large value
with a bit of the value field.  None is a special command, and none comes back. -/
theorem rebuild_of_ignored_bits :
    ((Kind.ofWord 0x22000010).tag = .data ∧ (ofWord 0x22000010).toWord = 0x20000010) ∧
      ((Kind.ofWord 0x89000010).tag = .address ∧ (ofWord 0x89000010).toWord = 0x88000010) ∧
      ((Kind.ofWord 0x36000001).tag = .largeImmediate ∧
        (ofWord 0x36000001).toWord = 0x36000000) ∧
      ¬∀ w, (Kind.ofWord w).tag ≠ .special → (ofWord w).toWord = w := by
  refine ⟨⟨rfl, rfl⟩, ⟨rfl, rfl⟩, ⟨rfl, rfl⟩, fun h => ?_⟩
  exact absurd (h 0x22000010 (by decide)) (by decide)

end Header

/-! ## What a word holds of a header -/

/-- A kind as a header word holds it, with the payload cut to its field. -/
def Kind.held : Kind → Kind
  | .data length => .data (length % valueSize)
  | .smallImmediate value => .smallImmediate (value % valueSize)
  | .largeImmediate => .largeImmediate
  | .address a => .address (windowBase + a % windowSize)
  | .special code => .special (code % commandSize)

/-- The payload of a kind is in range. -/
def Kind.Fits : Kind → Prop
  | .data length => length.toNat < 2 ^ 25
  | .smallImmediate value => value.toNat < 2 ^ 25
  | .largeImmediate => True
  | .address a => 0x02000000 ≤ a.toNat ∧ a.toNat < 0x03000000
  | .special code => code.toNat < 2 ^ 24

instance : DecidablePred Kind.Fits
  | .data length => inferInstanceAs (Decidable (length.toNat < 2 ^ 25))
  | .smallImmediate value => inferInstanceAs (Decidable (value.toNat < 2 ^ 25))
  | .largeImmediate => inferInstanceAs (Decidable True)
  | .address a => inferInstanceAs (Decidable (0x02000000 ≤ a.toNat ∧ a.toNat < 0x03000000))
  | .special code => inferInstanceAs (Decidable (code.toNat < 2 ^ 24))

namespace Kind

theorem held_eq_iff (k : Kind) : k.held = k ↔ k.Fits := by
  cases k with
  | data length => rw [held, Fits, data.injEq, mod_valueSize_eq_iff]
  | smallImmediate value => rw [held, Fits, smallImmediate.injEq, mod_valueSize_eq_iff]
  | largeImmediate => exact iff_of_true rfl trivial
  | address a =>
      rw [held, Fits, address.injEq, windowBase_add_mod_eq_iff]
      omega
  | special code => rw [held, Fits, special.injEq, mod_commandSize_eq_iff]

/-- What is read off a word is in range. -/
theorem fits_ofWord (w : UInt32) : (ofWord w).Fits := by
  rcases ofWord_cases w with ⟨-, hk⟩ | ⟨-, hk⟩ | ⟨-, hk⟩ | ⟨-, hk⟩ | ⟨-, hk⟩
  · rw [hk, Fits, Word.toNat_value]
    omega
  · rw [hk, Fits, Word.toNat_value]
    omega
  · rw [hk]
    trivial
  · rw [hk, Fits, Word.toNat_address]
    omega
  · rw [hk, Fits, Word.toNat_code]
    omega

theorem held_ofWord (w : UInt32) : (ofWord w).held = ofWord w :=
  (held_eq_iff (ofWord w)).mpr (fits_ofWord w)

theorem tag_held (k : Kind) : k.held.tag = k.tag := by
  cases k <;> rfl

end Kind

namespace Header

/-- A header as its word holds it.  The channel field of a special command is
that of an empty word. -/
def held (h : Header) : Header := ⟨h.route.getD (Channel.ofWord 0), h.kind.held⟩

/-- The word of a header holds all of it. -/
def Fits (h : Header) : Prop := h.kind.Fits ∧ (h.kind.tag = .special → h.channel.val = 0)

theorem ofWord_toWord (h : Header) : ofWord h.toWord = h.held := by
  obtain ⟨c, k⟩ := h
  cases k with
  | data length =>
      rw [toWord, ofWord, Channel.ofWord_packData, Kind.ofWord_packData]
      rfl
  | smallImmediate value =>
      rw [toWord, ofWord, Channel.ofWord_packSmallImmediate, Kind.ofWord_packSmallImmediate]
      rfl
  | largeImmediate =>
      rw [toWord, ofWord, Channel.ofWord_packLargeImmediate, Kind.ofWord_packLargeImmediate]
      rfl
  | address a =>
      rw [toWord, ofWord, Channel.ofWord_packAddress, Kind.ofWord_packAddress]
      rfl
  | special code =>
      rw [toWord, ofWord, Channel.ofWord_packSpecial, Kind.ofWord_packSpecial]
      rfl

theorem route_held (h : Header) : h.held.route = h.route := by
  obtain ⟨c, k⟩ := h
  cases k <;> rfl

theorem channel_held {h : Header} (hs : h.kind.tag ≠ .special) : h.held.channel = h.channel := by
  obtain ⟨c, k⟩ := h
  cases k with
  | special code => exact absurd rfl hs
  | _ => rfl

theorem held_eq_iff (h : Header) : h.held = h ↔ h.Fits := by
  have hchannel : h.held.channel = h.channel ↔
      (h.kind.tag = .special → h.channel.val = 0) := by
    obtain ⟨c, k⟩ := h
    cases k with
    | special code => exact ⟨fun hc _ => hc ▸ rfl, fun hc => Fin.ext (hc rfl).symm⟩
    | _ => exact iff_of_true rfl nofun
  rw [Fits, ← Kind.held_eq_iff, ← hchannel]
  show (⟨h.held.channel, h.held.kind⟩ : Header) = ⟨h.channel, h.kind⟩ ↔ _
  rw [mk.injEq]
  exact And.comm

end Header

/-! ## Words that come from a header -/

/-- The words that `Pack` writes, from any numbers. -/
inductive Pack.Written : UInt32 → Prop where
  | data (c length : UInt32) : Written (data c length)
  | smallImmediate (c value : UInt32) : Written (smallImmediate c value)
  | largeImmediate (c : UInt32) : Written (largeImmediate c)
  | address (c a : UInt32) : Written (address c a)
  | special (code : UInt32) : Written (special code)

namespace Header

theorem written_toWord (h : Header) : Pack.Written h.toWord := by
  obtain ⟨c, k⟩ := h
  cases k with
  | data length => exact .data c.toWord length
  | smallImmediate value => exact .smallImmediate c.toWord value
  | largeImmediate => exact .largeImmediate c.toWord
  | address a => exact .address c.toWord a
  | special code => exact .special code

/-- A word that was packed has no bit that its kind ignores, so it comes back. -/
theorem toWord_ofWord_of_written {w : UInt32} (h : Pack.Written w) : (ofWord w).toWord = w := by
  cases h with
  | data c length =>
      have hw := Pack.toNat_data c length
      rw [ofWord, Kind.ofWord_of_data (by omega)]
      exact (Pack.data_ofWord (by omega)).mpr (by omega)
  | smallImmediate c value =>
      have hw := Pack.toNat_smallImmediate c value
      rw [ofWord, Kind.ofWord_of_smallImmediate (by omega)]
      exact Pack.smallImmediate_ofWord (by omega)
  | largeImmediate c =>
      have hw := Pack.toNat_largeImmediate c
      rw [ofWord, Kind.ofWord_of_largeImmediate (by omega)]
      exact (Pack.largeImmediate_ofWord (by omega)).mpr (by omega)
  | address c a =>
      have hw := Pack.toNat_address c a
      rw [ofWord, Kind.ofWord_of_address (by omega)]
      exact (Pack.address_ofWord (by omega)).mpr (by omega)
  | special code =>
      have hw := Pack.toNat_special code
      rw [ofWord, Kind.ofWord_of_special (by omega)]
      exact (Pack.special_ofWord (by omega)).mpr (by omega)

theorem toWord_ofWord_eq_iff_written (w : UInt32) : (ofWord w).toWord = w ↔ Pack.Written w :=
  ⟨fun h => h ▸ written_toWord (ofWord w), toWord_ofWord_of_written⟩

/-- The word that comes back is canonical.  It is read as the same kind on the same
route, it comes back as it is, and the words that are canonical to begin with
are those that `Pack` writes.  A header comes back exactly when it fits its
word, and what does not fit costs it neither its tag nor a channel that counts. -/
theorem rebuild_canonical :
    (∀ w : UInt32, let c := (ofWord w).toWord
      (ofWord c).kind = (ofWord w).kind ∧ (ofWord c).route = (ofWord w).route ∧
        (ofWord c).toWord = c ∧ (c = w ↔ Pack.Written w)) ∧
      ∀ h : Header, (ofWord h.toWord = h ↔ h.Fits) ∧
        (ofWord h.toWord).kind.tag = h.kind.tag ∧
        (h.kind.tag ≠ .special → (ofWord h.toWord).channel = h.channel) := by
  refine ⟨fun w => ⟨?_, ?_, ?_, ?_⟩, fun h => ⟨?_, ?_, fun hs => ?_⟩⟩
  · rw [ofWord_toWord]
    exact Kind.held_ofWord w
  · rw [ofWord_toWord, route_held]
  · exact toWord_ofWord_of_written (written_toWord (ofWord w))
  · exact toWord_ofWord_eq_iff_written w
  · rw [ofWord_toWord, held_eq_iff]
  · rw [ofWord_toWord]
    exact Kind.tag_held h.kind
  · rw [ofWord_toWord, channel_held hs]

/-- An address outside the window comes back inside it, on its channel. -/
theorem rebuild_canonical_foreign :
    let h : Header := ⟨15, .address 0xFEABCDEF⟩
    h.kind.tag ≠ .special ∧ (ofWord h.toWord).channel = 15 ∧ ofWord h.toWord ≠ h := by
  intro h
  have hs : h.kind.tag ≠ .special := by decide
  have hwide : ¬h.kind.Fits := by decide
  obtain ⟨hsame, -, hchannel⟩ := rebuild_canonical.2 h
  exact ⟨hs, hchannel hs, fun he => hwide (hsame.mp he).1⟩

end Header

end WordFifo
