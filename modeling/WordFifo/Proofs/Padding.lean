import WordFifo.Payload

/-!
# Padding of payload words

`Payload.pack` fills the last word up with zeros (`flatMap_bytes_pack`).  So a
block of words is a packed payload exactly when the bytes behind the payload are
zero (`pack_unpack_eq_iff`).
-/

namespace WordFifo.Payload

theorem length_flatMap_bytes (ws : List UInt32) : (ws.flatMap bytes).length = 4 * ws.length := by
  induction ws with
  | nil => rfl
  | cons w ws ih =>
      rw [List.flatMap_cons, List.length_append, ih, List.length_cons]
      simp only [bytes, List.length_cons, List.length_nil]
      omega

/-- A word is what its own bytes pack to. -/
theorem pack_flatMap_bytes (ws : List UInt32) : pack (ws.flatMap bytes) = ws := by
  induction ws with
  | nil => rfl
  | cons w ws ih =>
      simp only [List.flatMap_cons, bytes, List.cons_append, List.nil_append, pack] at ih ⊢
      rw [word_bytes, ih]

theorem flatMap_bytes_inj {v ws : List UInt32} (h : v.flatMap bytes = ws.flatMap bytes) :
    v = ws := by
  rw [← pack_flatMap_bytes v, h, pack_flatMap_bytes]

/-- The bytes of packed words are the payload and then zeros. -/
theorem flatMap_bytes_pack (bs : List UInt8) :
    (pack bs).flatMap bytes =
      bs ++ List.replicate (4 * Kind.wordsFor bs.length - bs.length) 0 := by
  fun_induction pack bs with
  | case1 => rfl
  | case2 a => simp [bytes_word, Kind.wordsFor_eq]
  | case3 a b => simp [bytes_word, Kind.wordsFor_eq]
  | case4 a b c => simp [bytes_word, Kind.wordsFor_eq]
  | case5 a b c d rest ih =>
      have padding : 4 * Kind.wordsFor (a :: b :: c :: d :: rest).length -
          (a :: b :: c :: d :: rest).length = 4 * Kind.wordsFor rest.length - rest.length := by
        simp only [Kind.wordsFor_eq, List.length_cons]
        omega
      rw [List.flatMap_cons, bytes_word, ih, padding]
      rfl

theorem length_unpack {ws : List UInt32} {n : Nat} (h : n ≤ 4 * ws.length) :
    (unpack ws n).length = n := by
  rw [unpack, List.length_take, length_flatMap_bytes]
  omega

/-- Words are a packed payload exactly when all bytes behind it are zero. -/
theorem pack_unpack_eq_iff {ws : List UInt32} {n : Nat} (h : ws.length = Kind.wordsFor n) :
    pack (unpack ws n) = ws ↔ ∀ b ∈ (ws.flatMap bytes).drop n, b = 0 := by
  have hn : n ≤ 4 * ws.length := by rw [h, Kind.wordsFor_eq]; omega
  have hbytes : (pack (unpack ws n)).flatMap bytes =
      (ws.flatMap bytes).take n ++ List.replicate (4 * ws.length - n) 0 := by
    rw [flatMap_bytes_pack, length_unpack hn, ← h, unpack]
  have hsplit := List.take_append_drop n (ws.flatMap bytes)
  have hlen : ((ws.flatMap bytes).drop n).length = 4 * ws.length - n := by
    rw [List.length_drop, length_flatMap_bytes]
  constructor
  · intro hpack
    rw [hpack] at hbytes
    have htail := List.append_cancel_left (hsplit.trans hbytes)
    intro b hb
    rw [htail] at hb
    exact List.eq_of_mem_replicate hb
  · intro hzero
    apply flatMap_bytes_inj
    rw [hbytes, ← hlen, ← List.eq_replicate_of_mem hzero, hsplit]

end WordFifo.Payload
