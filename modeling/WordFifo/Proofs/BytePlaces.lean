import Mathlib.Algebra.Group.Nat.Defs
import Mathlib.Data.List.GetD
import WordFifo.Proofs.Padding

/-!
# Bytes at their places

Words have four places for bytes each, and the least significant byte of a word is at the
first of its places (`byteAt`).  Behind the last word every place is zero.  As many words with
the same bytes at all places are the same words (`eq_of_byteAt`), so packed words are told
from their places.

* `Payload.pack` puts each byte at its place and leaves zeros behind them (`byteAt_pack`).
* `Payload.unpack` reads the places off from the first one on (`unpack_eq`).
* Words that are unpacked and packed again keep the bytes that were read off.  From the place
  behind these on they are cleared (`pack_unpack`).
-/

namespace WordFifo.Payload

variable {a : List UInt8} {v ws : List UInt32} {i k n : Nat}

/-! ## Places -/

/-- The byte at a place of one word, the least significant one at place zero. -/
def wordByte (w : UInt32) (k : Nat) : UInt8 := UInt8.ofNat (w.toNat / 256 ^ k)

/-- The byte at a place of some words, with four places in each. -/
def byteAt (ws : List UInt32) (i : Nat) : UInt8 := wordByte (ws.getD (i / 4) 0) (i % 4)

theorem toNat_wordByte (w : UInt32) (k : Nat) :
    (wordByte w k).toNat = w.toNat / 256 ^ k % 256 := UInt8.toNat_ofNat'

theorem wordByte_zero (k : Nat) : wordByte 0 k = 0 := by
  apply UInt8.toNat_inj.mp
  rw [toNat_wordByte]
  simp

theorem getD_bytes (w : UInt32) (hk : k < 4) : (bytes w).getD k 0 = wordByte w k := by
  apply UInt8.toNat_inj.mp
  rw [toNat_wordByte]
  match k, hk with
  | 0, _ | 1, _ | 2, _ | 3, _ => simp [bytes]

/-- The bytes of words in a row are those at their places. -/
theorem getD_flatMap_bytes (ws : List UInt32) (i : Nat) :
    (ws.flatMap bytes).getD i 0 = byteAt ws i := by
  induction ws generalizing i with
  | nil => rw [byteAt, List.getD_nil, wordByte_zero, List.flatMap_nil, List.getD_nil]
  | cons w ws ih =>
      have hlength : (bytes w).length = 4 := rfl
      rw [List.flatMap_cons, byteAt]
      by_cases hi : i < 4
      · rw [List.getD_append _ _ _ _ hi, getD_bytes w hi, Nat.div_eq_of_lt hi,
          Nat.mod_eq_of_lt hi, List.getD_cons_zero]
      · obtain ⟨j, rfl⟩ := Nat.exists_eq_add_of_le' (Nat.le_of_not_lt hi)
        rw [List.getD_append_right _ _ _ _ (by omega), hlength, Nat.add_sub_cancel, ih, byteAt,
          Nat.add_div_right j (by decide), Nat.add_mod_right, List.getD_cons_succ]

theorem byteAt_of_le (h : 4 * ws.length ≤ i) : byteAt ws i = 0 := by
  rw [← getD_flatMap_bytes, List.getD_eq_default _ _ (by rwa [length_flatMap_bytes])]

/-- As many words with the same bytes are the same words. -/
theorem eq_of_byteAt (hlength : v.length = ws.length) (h : ∀ i, byteAt v i = byteAt ws i) :
    v = ws := by
  apply flatMap_bytes_inj
  apply List.ext_getElem
  · rw [length_flatMap_bytes, length_flatMap_bytes, hlength]
  · intro i hv hws
    rw [← List.getD_eq_getElem _ 0 hv, ← List.getD_eq_getElem _ 0 hws, getD_flatMap_bytes,
      getD_flatMap_bytes, h]

theorem getD_take {α : Type} (l : List α) (x : α) (n i : Nat) :
    (l.take n).getD i x = if i < n then l.getD i x else x := by
  simp only [List.getD_eq_getElem?_getD, List.getElem?_take]
  split <;> rfl

theorem byteAt_take (ws : List UInt32) (m i : Nat) :
    byteAt (ws.take m) i = if i < 4 * m then byteAt ws i else 0 := by
  have hplace : i / 4 < m ↔ i < 4 * m := by omega
  simp only [byteAt, getD_take, hplace]
  split
  · rfl
  · exact wordByte_zero _

/-! ## Packed bytes at their places -/

theorem byteAt_pack (bs : List UInt8) (i : Nat) : byteAt (pack bs) i = bs.getD i 0 := by
  rw [← getD_flatMap_bytes, flatMap_bytes_pack]
  by_cases hi : i < bs.length
  · rw [List.getD_append _ _ _ _ hi]
  · have hle := Nat.le_of_not_lt hi
    rw [List.getD_append_right _ _ _ _ hle, List.getD_eq_getElem?_getD,
      List.getElem?_getD_replicate_default_eq, List.getD_eq_default _ _ hle]

/-- Whole words in front are packed on their own. -/
theorem pack_append (h : 4 ∣ a.length) (b : List UInt8) : pack (a ++ b) = pack a ++ pack b := by
  fun_induction pack a with
  | case1 => rfl
  | case2 | case3 | case4 => simp only [List.length_cons, List.length_nil] at h; omega
  | case5 a₀ a₁ a₂ a₃ rest ih =>
      have hrest : 4 ∣ rest.length := by
        simp only [List.length_cons] at h
        omega
      rw [List.cons_append, List.cons_append, List.cons_append, List.cons_append, pack, ih hrest,
        List.cons_append]

/-- The bytes that are taken out are those at the first places. -/
theorem unpack_eq (ws : List UInt32) (n : Nat) :
    unpack ws n = (List.range (min n (4 * ws.length))).map (byteAt ws) := by
  rw [unpack]
  apply List.ext_getElem
  · rw [List.length_take, length_flatMap_bytes, List.length_map, List.length_range]
  · intro i hi _
    have hbytes : i < (ws.flatMap bytes).length :=
      Nat.lt_of_lt_of_le hi (List.length_take_le' n _)
    rw [List.getElem_take, ← List.getD_eq_getElem _ 0 hbytes, getD_flatMap_bytes,
      List.getElem_map, List.getElem_range]

theorem getD_unpack (ws : List UInt32) (n i : Nat) :
    (unpack ws n).getD i 0 = if i < n then byteAt ws i else 0 := by
  rw [unpack, getD_take, getD_flatMap_bytes]

/-! ## Cleared bytes -/

/-- The first `k` bytes of a word.  The others are zero. -/
def lowBytes (k : Nat) (w : UInt32) : UInt32 := UInt32.ofNat (w.toNat % 256 ^ k)

/-- Some words with every byte from place `n` on cleared. -/
def clearFrom (n : Nat) (ws : List UInt32) : List UInt32 :=
  ws.mapIdx fun j w => lowBytes (n - 4 * j) w

theorem length_clearFrom (n : Nat) (ws : List UInt32) : (clearFrom n ws).length = ws.length :=
  List.length_mapIdx

theorem wordByte_lowBytes (w : UInt32) (m k : Nat) :
    wordByte (lowBytes m w) k = if k < m then wordByte w k else 0 := by
  have htoNat : (lowBytes m w).toNat = w.toNat % 256 ^ m :=
    UInt32.toNat_ofNat_of_lt' (Nat.lt_of_le_of_lt (Nat.mod_le _ _) w.toNat_lt)
  apply UInt8.toNat_inj.mp
  rw [toNat_wordByte, htoNat]
  split
  · next hkm =>
      obtain ⟨j, rfl⟩ := Nat.exists_eq_add_of_lt hkm
      rw [toNat_wordByte, Nat.add_assoc, Nat.pow_add, Nat.mod_mul_right_div_self,
        Nat.mod_mod_of_dvd _ ⟨256 ^ j, Nat.pow_succ'⟩]
  · next hkm =>
      have hlt : w.toNat % 256 ^ m < 256 ^ k :=
        Nat.lt_of_lt_of_le (Nat.mod_lt _ (Nat.pow_pos (by decide)))
          (Nat.pow_le_pow_right (by decide) (Nat.le_of_not_lt hkm))
      rw [Nat.div_eq_of_lt hlt]
      rfl

theorem byteAt_clearFrom (n : Nat) (ws : List UInt32) (i : Nat) :
    byteAt (clearFrom n ws) i = if i < n then byteAt ws i else 0 := by
  by_cases hi : i / 4 < ws.length
  · have hplace : i % 4 < n - 4 * (i / 4) ↔ i < n := by omega
    rw [byteAt, List.getD_eq_getElem _ 0 (by rwa [length_clearFrom])]
    simp only [clearFrom, List.getElem_mapIdx, wordByte_lowBytes, hplace, byteAt,
      List.getD_eq_getElem _ 0 hi]
  · have hle : 4 * ws.length ≤ i := by omega
    rw [byteAt_of_le hle, byteAt_of_le (by rwa [length_clearFrom]), ite_self]

/-! ## Unpacked and packed again -/

theorem pack_unpack (h : n ≤ 4 * ws.length) :
    pack (unpack ws n) = clearFrom n (ws.take ((n + 3) / 4)) := by
  apply eq_of_byteAt
  · rw [length_pack, length_unpack h, Kind.wordsFor_eq, length_clearFrom, List.length_take]
    omega
  · intro i
    rw [byteAt_pack, getD_unpack, byteAt_clearFrom, byteAt_take]
    split
    · rw [if_pos (by omega)]
    · rfl

theorem pack_unpack_of_le (h : 4 * ws.length ≤ n) : pack (unpack ws n) = ws := by
  rw [unpack, List.take_of_length_le (by rwa [length_flatMap_bytes]), pack_flatMap_bytes]

/-- Bytes are packed into as few words as hold them, whole words on their own, and all of them
come back.  From any words the bytes at the first places are taken, and packed again they are
these words with the other bytes cleared. -/
theorem inverse_up_to_padding :
    (∀ bs : List UInt8,
      (pack bs).length = (bs.length + 3) / 4 ∧ unpack (pack bs) bs.length = bs) ∧
      (∀ a b : List UInt8, 4 ∣ a.length → pack (a ++ b) = pack a ++ pack b) ∧
      ∀ (ws : List UInt32) (n : Nat),
        unpack ws n = (List.range (min n (4 * ws.length))).map (byteAt ws) ∧
        (n ≤ 4 * ws.length → pack (unpack ws n) = clearFrom n (ws.take ((n + 3) / 4))) ∧
        (4 * ws.length ≤ n → pack (unpack ws n) = ws) := by
  refine ⟨fun bs => ⟨?_, unpack_pack bs⟩, fun a b h => pack_append h b, fun ws n =>
    ⟨unpack_eq ws n, pack_unpack, pack_unpack_of_le⟩⟩
  rw [length_pack, Kind.wordsFor_eq]

/-- Five bytes, the first four of which are the word of a reset request, and two words of which
five, all eight or more bytes are taken. -/
theorem inverse_up_to_padding_lookalike :
    let request : List UInt8 := [0x0B, 0x00, 0x04, 0x0C]
    let dirty : List UInt32 := [0x0C04000B, 0xDEADBEFF]
    4 ∣ request.length ∧ 5 ≤ 4 * dirty.length ∧ 4 * dirty.length ≤ 9 ∧
      pack (request ++ [0xFF]) = [0x0C04000B, 0x000000FF] ∧
      pack (unpack dirty 5) = [0x0C04000B, 0x000000FF] ∧
      pack (unpack dirty 8) = dirty ∧ pack (unpack dirty 9) = dirty := by
  intro request dirty
  have hwhole : 4 ∣ request.length := by decide
  obtain ⟨-, happend, htaken⟩ := inverse_up_to_padding
  refine ⟨hwhole, by decide, by decide, ?_, ?_, (htaken dirty 8).2.2 (by decide),
    (htaken dirty 9).2.2 (by decide)⟩
  · exact happend request [0xFF] hwhole
  · exact (htaken dirty 5).2.1 (by decide)

end WordFifo.Payload
