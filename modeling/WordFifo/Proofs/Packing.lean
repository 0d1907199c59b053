import WordFifo.Proofs.Fields
import WordFifo.Proofs.Reading

/-!
# Packed messages

`Message.Packed limit m e` says which words a message has under a limit, with
one rule for each form.  It is what `Message.encode` does (`encode_eq_ok_iff`),
and every later fact about encoded messages goes by cases on it.

The words say everything that a read needs.  The header announces the words
behind it (`Packed.extraWords`), it tells a refused payload
(`Packed.refused?_eq`), and the words are read back as `received`
(`Packed.ofWords_eq`).  So a read of packed words gives `Message.answer`
(`Packed.readMessage_of_gives`).
-/

namespace WordFifo

open Layout

/-- Only the low 24 bits of a code count. -/
theorem Command.ofCode_mod_commandSize (code : UInt32) :
    ofCode (code % commandSize) = ofCode code := by
  have hc : code % commandSize % commandSize = code % commandSize := by
    apply UInt32.toNat_inj.mp
    rw [UInt32.toNat_mod, UInt32.toNat_mod, Nat.mod_mod]
  rw [ofCode, ofCode, hc]

theorem Layout.toNat_valueSize : valueSize.toNat = 2 ^ 25 := rfl

namespace Message

/-- The words of a message that a limit admits. -/
inductive Packed (limit : Nat) : Message → Encoded → Prop where
  | small {c : Channel} {v : UInt32} (fits : v.toNat < 2 ^ 25) :
      Packed limit (.value32 c v) ⟨Pack.smallImmediate c.toWord v, []⟩
  | large {c : Channel} {v : UInt32} (wide : 2 ^ 25 ≤ v.toNat) :
      Packed limit (.value32 c v) ⟨Pack.largeImmediate c.toWord, [v]⟩
  | address {c : Channel} {a : UInt32} (window : a.toNat / 2 ^ 24 = 2) :
      Packed limit (.address c a) ⟨Pack.address c.toWord a, []⟩
  | data {c : Channel} {bytes : List UInt8} (admitted : bytes.length ≤ limit)
      (fits : bytes.length < 2 ^ 25) :
      Packed limit (.data c bytes)
        ⟨Pack.data c.toWord (UInt32.ofNat bytes.length), Payload.pack bytes⟩
  | special {cmd : Command} : Packed limit (.special cmd) ⟨cmd.toWord, []⟩

theorem packed_of_encode {limit : Nat} {m : Message} {e : Encoded}
    (h : m.encode limit = .ok e) : Packed limit m e := by
  cases m with
  | value32 c v =>
      by_cases hv : needsExtraWord v
      · rw [encode, if_pos hv] at h
        obtain rfl := Except.ok.inj h
        exact .large ((needsExtraWord_iff v).mp hv)
      · rw [encode, if_neg hv] at h
        obtain rfl := Except.ok.inj h
        rw [needsExtraWord_iff] at hv
        exact .small (by omega)
  | address c a =>
      by_cases ha : inWindow a
      · rw [encode, Pack.checkedAddress, if_pos ha] at h
        obtain rfl := Except.ok.inj h
        exact .address ((inWindow_iff a).mp ha)
      · rw [encode, Pack.checkedAddress, if_neg ha] at h
        cases h
  | data c bytes =>
      by_cases hl : limit < bytes.length
      · rw [encode, if_pos hl] at h
        cases h
      · by_cases hf : bytes.length < valueSize.toNat
        · rw [encode, if_neg hl, Pack.checkedData, if_pos hf] at h
          obtain rfl := Except.ok.inj h
          rw [toNat_valueSize] at hf
          exact .data (Nat.le_of_not_lt hl) hf
        · rw [encode, if_neg hl, Pack.checkedData, if_neg hf] at h
          cases h
  | special cmd =>
      obtain rfl := Except.ok.inj h
      exact .special

theorem Packed.encode_eq {limit : Nat} {m : Message} {e : Encoded} (h : Packed limit m e) :
    m.encode limit = .ok e := by
  cases h with
  | @small c v fits =>
      have hv : ¬ needsExtraWord v := by rw [needsExtraWord_iff]; omega
      rw [encode, if_neg hv]
  | @large c v wide => rw [encode, if_pos ((needsExtraWord_iff v).mpr wide)]
  | @address c a window =>
      rw [encode, Pack.checkedAddress, if_pos ((inWindow_iff a).mpr window)]
  | @data c bytes admitted fits =>
      have hf : bytes.length < valueSize.toNat := by rw [toNat_valueSize]; exact fits
      rw [encode, if_neg (Nat.not_lt.mpr admitted), Pack.checkedData, if_pos hf]
  | special => rfl

theorem encode_eq_ok_iff {limit : Nat} {m : Message} {e : Encoded} :
    m.encode limit = .ok e ↔ Packed limit m e :=
  ⟨packed_of_encode, Packed.encode_eq⟩

/-! ## Words read back, by their kind -/

section ByKind

variable {w : UInt32} {ws : List UInt32}

theorem ofWords_of_smallImmediate {v : UInt32} (h : Kind.ofWord w = .smallImmediate v) :
    ofWords w ws = .value32 (Channel.ofWord w) v := by
  rw [ofWords, h]

theorem ofWords_of_largeImmediate (h : Kind.ofWord w = .largeImmediate) :
    ofWords w ws = .value32 (Channel.ofWord w) (ws.headD 0) := by
  rw [ofWords, h]

theorem ofWords_of_address {a : UInt32} (h : Kind.ofWord w = .address a) :
    ofWords w ws = .address (Channel.ofWord w) a := by
  rw [ofWords, h]

theorem ofWords_of_data {length : UInt32} (h : Kind.ofWord w = .data length) :
    ofWords w ws = .data (Channel.ofWord w) (Payload.unpack ws length.toNat) := by
  rw [ofWords, h]

theorem ofWords_of_special {code : UInt32} (h : Kind.ofWord w = .special code) :
    ofWords w ws = .special (Command.ofCode code) := by
  rw [ofWords, h]

end ByKind

/-! ## What a read gives for a message -/

/-- The length of a payload that a limit refuses. -/
def refused? (limit : Nat) : Message → Option Nat
  | .data _ bytes => if limit < bytes.length then some bytes.length else none
  | _ => none

/-- What a read gives for a message of which every word is there. -/
def answer (limit : Nat) (m : Message) : Except MessageError Message :=
  match m.refused? limit with
  | some size => .error (.payloadTooLarge size limit)
  | none => .ok m.received

/-- A message without a payload above the limit is not refused. -/
theorem answer_eq_received {m : Message} {limit : Nat}
    (h : ∀ c bytes, m = .data c bytes → bytes.length ≤ limit) : m.answer limit = .ok m.received := by
  cases m with
  | data c bytes => rw [answer, refused?, if_neg (Nat.not_lt.mpr (h c bytes rfl))]
  | value32 c v => rfl
  | address c a => rfl
  | special cmd => rfl

/-- What a read gives for a message whose last words are missing at the end. -/
def cutAnswer (limit missing : Nat) (m : Message) : MessageError :=
  match m.refused? limit with
  | some size => .payloadTooLarge size limit
  | none => .truncated missing

/-- Below 25 bits a length survives the header. -/
theorem toNat_ofNat_mod_valueSize {n : Nat} (h : n < 2 ^ 25) :
    (UInt32.ofNat n % valueSize).toNat = n := by
  rw [UInt32.toNat_mod, UInt32.toNat_ofNat']
  simp only [valueSize, UInt32.reduceToNat]
  omega

namespace Packed

variable {limit : Nat} {m : Message} {e : Encoded}

theorem extraWords (h : Packed limit m e) : e.extra.length = (Kind.ofWord e.header).extraWords := by
  cases h with
  | small fits =>
      rw [Kind.ofWord_packSmallImmediate, Kind.extraWords_smallImmediate]
      rfl
  | large wide =>
      rw [Kind.ofWord_packLargeImmediate, Kind.extraWords_largeImmediate]
      rfl
  | address window =>
      rw [Kind.ofWord_packAddress, Kind.extraWords_address]
      rfl
  | data admitted fits =>
      rw [Kind.ofWord_packData, Kind.extraWords_data, toNat_ofNat_mod_valueSize fits]
      exact Payload.length_pack _
  | special =>
      rw [Command.toWord, Kind.ofWord_packSpecial, Kind.extraWords_special]
      rfl

theorem refused?_eq (h : Packed limit m e) (r : Nat) :
    (Kind.ofWord e.header).refused? r = m.refused? r := by
  cases h with
  | small fits =>
      rw [Kind.ofWord_packSmallImmediate]
      rfl
  | large wide =>
      rw [Kind.ofWord_packLargeImmediate]
      rfl
  | address window =>
      rw [Kind.ofWord_packAddress]
      rfl
  | data admitted fits =>
      rw [Kind.ofWord_packData, Kind.refused?, toNat_ofNat_mod_valueSize fits]
      rfl
  | special =>
      rw [Command.toWord, Kind.ofWord_packSpecial]
      rfl

theorem ofWords_eq (h : Packed limit m e) : Message.ofWords e.header e.extra = m.received := by
  cases h with
  | @small c v fits =>
      rw [ofWords_of_smallImmediate (Kind.ofWord_packSmallImmediate _ _),
        Channel.ofWord_packSmallImmediate, (mod_valueSize_eq_iff v).mpr fits]
      rfl
  | large wide =>
      rw [ofWords_of_largeImmediate (Kind.ofWord_packLargeImmediate _),
        Channel.ofWord_packLargeImmediate]
      rfl
  | @address c a window =>
      rw [ofWords_of_address (Kind.ofWord_packAddress _ _), Channel.ofWord_packAddress,
        (windowBase_add_mod_eq_iff a).mpr window]
      rfl
  | @data c bytes admitted fits =>
      rw [ofWords_of_data (Kind.ofWord_packData _ _), Channel.ofWord_packData,
        toNat_ofNat_mod_valueSize fits, Payload.unpack_pack]
      rfl
  | @special cmd =>
      rw [Command.toWord, ofWords_of_special (Kind.ofWord_packSpecial _),
        Command.ofCode_mod_commandSize]
      rfl

/-- A read of packed words gives the answer to the message. -/
theorem decode_eq (h : Packed limit m e) (r : Nat) :
    Reader.decode r e.header e.extra = m.answer r := by
  unfold Reader.decode answer
  rw [h.refused?_eq]
  cases m.refused? r with
  | some size => rfl
  | none => exact congrArg Except.ok h.ofWords_eq

/-- Packed words that are all there are answered and taken whole, under any limit. -/
theorem readMessage_of_gives {σ : Type} [Source σ] {s t : σ} (h : Packed limit m e) (r : Nat)
    (hg : Source.Gives s e.words t) :
    (Reader.readMessage r s).result = m.answer r ∧ (Reader.readMessage r s).rest = t := by
  rw [← h.decode_eq r]
  exact Reader.readMessage_of_gives r hg h.extraWords

/-- The limit that admits a message does not refuse it. -/
theorem answer_eq (h : Packed limit m e) : m.answer limit = .ok m.received := by
  refine answer_eq_received fun c bytes hm => ?_
  subst hm
  cases h with
  | data admitted _ => exact admitted

/-- A read of packed words that end too soon gives the answer to the cut message. -/
theorem decodeStopped_eq (h : Packed limit m e) (r missing : Nat) :
    Reader.decodeStopped r e.header missing .closed = m.cutAnswer r missing := by
  unfold Reader.decodeStopped cutAnswer
  rw [h.refused?_eq]
  cases m.refused? r <;> rfl

end Packed

end Message

end WordFifo
