import WordFifo.Header

/-!
# Payload bytes in words

A block of bytes travels in words, four bytes each, least significant first.
The last word is filled up with zeros.

`pack` makes the words and `unpack` takes bytes back out.  `unpack_pack` says
that nothing is lost.
-/

namespace WordFifo.Payload

/-- The word of four bytes, least significant first. -/
def word (a b c d : UInt8) : UInt32 :=
  a.toUInt32 + b.toUInt32 * 0x100 + c.toUInt32 * 0x10000 + d.toUInt32 * 0x1000000

/-- The four bytes of a word, least significant first. -/
def bytes (w : UInt32) : List UInt8 :=
  [w.toUInt8, (w / 0x100).toUInt8, (w / 0x10000).toUInt8, (w / 0x1000000).toUInt8]

/-- The words of a block of bytes. -/
def pack : List UInt8 → List UInt32
  | [] => []
  | [a] => [word a 0 0 0]
  | [a, b] => [word a b 0 0]
  | [a, b, c] => [word a b c 0]
  | a :: b :: c :: d :: rest => word a b c d :: pack rest

/-- The first `length` bytes of some words. -/
def unpack (words : List UInt32) (length : Nat) : List UInt8 :=
  (words.flatMap bytes).take length

theorem bytes_word (a b c d : UInt8) : bytes (word a b c d) = [a, b, c, d] := by
  have ha := a.toNat_lt
  have hb := b.toNat_lt
  have hc := c.toNat_lt
  have hd := d.toNat_lt
  simp only [bytes, word, List.cons.injEq, and_true, ← UInt8.toNat_inj]
  simp
  omega

theorem word_bytes (w : UInt32) :
    word w.toUInt8 (w / 0x100).toUInt8 (w / 0x10000).toUInt8 (w / 0x1000000).toUInt8 = w := by
  have := w.toNat_lt
  apply UInt32.toNat_inj.mp
  simp [word]
  omega

theorem length_pack (bs : List UInt8) : (pack bs).length = Kind.wordsFor bs.length := by
  fun_induction pack bs with
  | case1 => rfl
  | case2 => simp [Kind.wordsFor_eq]
  | case3 => simp [Kind.wordsFor_eq]
  | case4 => simp [Kind.wordsFor_eq]
  | case5 a b c d rest ih =>
    simp only [List.length_cons, Kind.wordsFor_eq] at ih ⊢
    omega

/-- What was packed comes out again. -/
theorem unpack_pack (bs : List UInt8) : unpack (pack bs) bs.length = bs := by
  fun_induction pack bs with
  | case1 => rfl
  | case2 => simp [unpack, bytes_word]
  | case3 => simp [unpack, bytes_word]
  | case4 => simp [unpack, bytes_word]
  | case5 a b c d rest ih =>
    simp only [unpack] at ih
    simp [unpack, bytes_word, ih]

end WordFifo.Payload
