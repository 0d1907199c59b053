import WordFifo.Proofs.LiteralGrammar
import WordFifo.Tool.Invocation

/-!
# Literals that were printed

A word is printed as a literal in two forms, with its mark and eight digits or as a decimal
number.  Both are literals of the grammar, so both are read back as the word
(`Argument.word_hexWord`, `Argument.word_decimal`).

Digits are printed from the right, by division.  `Written.padded` and `Written.ofNat` put the
last digit behind a shorter number, and that is the induction of both.

`Argument.literals_agree` is all that can be said of the readers at once.
-/

namespace WordFifo

theorem Digits.digit_char {base d : Nat} (hd : d < base) (hle : base ≤ 16) :
    Digit base (char d) d :=
  value?_eq_some_iff.mp (value?_char hd hle)

theorem Digits.toList_hexWord (w : UInt32) :
    (hexWord w).toList = '0' :: 'x' :: padded 16 8 w.toNat := by
  have hlt : w.toNat < 16 ^ 8 := UInt32.toNat_lt w
  rw [hexWord, hexPadded, Nat.pow_eq, if_pos hlt, String.toList_append, String.toList_ofList,
    String.toList_ofList]
  rfl

namespace Numeral

variable {base bits n : Nat}

/-! ## Digits that were printed -/

/-- A fixed count of digits is written for what is left of a number by it. -/
theorem Written.padded (hb : 0 < base) (hle : base ≤ 16) (width n : Nat) :
    Written base (Digits.padded base (width + 1) n) (n % base ^ (width + 1)) := by
  have hlast : ∀ n, Digits.Digit base (Digits.char (n % base)) (n % base) := fun n =>
    Digits.digit_char (Nat.mod_lt n hb) hle
  induction width generalizing n with
  | zero =>
      rw [Nat.zero_add, Nat.pow_one]
      exact .single (hlast n)
  | succ width ih =>
      rw [Nat.pow_succ', Nat.mod_mul, Nat.add_comm (n % base)]
      exact (ih (n / base)).concat (hlast n)

theorem Written.ofNat (hb : 2 ≤ base) (hle : base ≤ 16) (n : Nat) :
    Written base (Digits.ofNat base n) n := by
  induction n using Nat.strong_induction_on with
  | _ n ih =>
      rw [Digits.ofNat]
      split
      · next h => exact .single (Digits.digit_char (h.resolve_right (Nat.not_lt.mpr hb)) hle)
      · next h =>
          have hpos : 0 < base := Nat.lt_of_lt_of_le Nat.zero_lt_two hb
          have hdiv : n / base < n := Nat.div_lt_self (by omega) hb
          have hconcat := (ih _ hdiv).concat (Digits.digit_char (Nat.mod_lt n hpos) hle)
          rwa [Nat.div_add_mod] at hconcat

/-- Eight digits hold a word. -/
theorem Written.word (w : UInt32) : Written 16 (Digits.padded 16 8 w.toNat) w.toNat := by
  have hlt : w.toNat < 16 ^ 8 := UInt32.toNat_lt w
  have hwritten := Written.padded (by decide) (Nat.le_refl 16) 7 w.toNat
  rwa [Nat.mod_eq_of_lt hlt] at hwritten

/-! ## Literals that were printed -/

theorem literal_hexWord (w : UInt32) : literal 32 (Digits.hexWord w) = .ok w.toNat := by
  have hwritten := Written.word w
  rw [literal_eq_ok_iff, Digits.toList_hexWord]
  refine ⟨UInt32.toNat_lt w, _, stripped_self ?_, .hexadecimal (.inl rfl) (.bare hwritten)⟩
  exact List.forall_mem_cons.mpr ⟨by decide, List.forall_mem_cons.mpr ⟨by decide, hwritten.plain⟩⟩

theorem literal_decimal (h : n < 2 ^ bits) : literal bits (Digits.decimal n) = .ok n := by
  have hwritten : Written 10 (Digits.ofNat 10 n) n := Written.ofNat (by decide) (by decide) n
  rw [literal_eq_ok_iff, Digits.decimal, String.toList_ofList]
  exact ⟨h, _, stripped_self hwritten.plain, .decimal hwritten.not_marked (.bare hwritten)⟩

end Numeral

namespace Tool

namespace Argument

theorem word_of_literal {s : String} {w : UInt32} (h : Numeral.literal 32 s = .ok w.toNat) :
    word s = .ok w := by
  rw [word, literal, h]
  exact congrArg Except.ok UInt32.ofNat_toNat

theorem word_hexWord (w : UInt32) : word (Digits.hexWord w) = .ok w :=
  word_of_literal (Numeral.literal_hexWord w)

theorem word_decimal (w : UInt32) : word (Digits.decimal w.toNat) = .ok w :=
  word_of_literal (Numeral.literal_decimal (UInt32.toNat_lt w))

/-- Words, signatures and channels are read from the same literals, between any white space, and
a word is read back from either form that it is printed in. -/
theorem literals_agree :
    (∀ c, Blank.isBlank c ↔ c.toNat ∈ Blank.codePoints) ∧
      ReadsLiterals word UInt32.toNat (2 ^ 32) ∧
      ReadsLiterals signature UInt64.toNat (2 ^ 64) ∧
      (∀ s n, (word s).map UInt32.toNat = .ok n ↔
        (signature s).map UInt64.toNat = .ok n ∧ n < 2 ^ 32) ∧
      (∀ s c, (channel s = .ok c ↔ word s = .ok c.toWord) ∧ c.toWord ≤ 15) ∧
      ∀ w : UInt32, word (Digits.hexWord w) = .ok w ∧ word (Digits.decimal w.toNat) = .ok w := by
  refine ⟨Blank.isBlank_iff, readsLiterals_word, readsLiterals_signature, fun s n => ?_,
    fun s c => ⟨channel_eq_ok_iff, c.toWord_le⟩, fun w => ⟨word_hexWord w, word_decimal w⟩⟩
  rw [readsLiterals_word s n, readsLiterals_signature s n]
  constructor
  · rintro ⟨hn, ht⟩
    exact ⟨⟨Nat.lt_trans hn (by decide), ht⟩, hn⟩
  · rintro ⟨⟨-, ht⟩, hn⟩
    exact ⟨hn, ht⟩

/-- White space of three kinds around a mark that an underscore divides, the first number that
only a signature holds, and a character of no width that is no blank. -/
theorem literals_agree_marks :
    (word "\u3000\t0_X_+0c_04000B\u2028").map UInt32.toNat = .ok 0x0C04000B ∧
      (signature "4294967296").map UInt64.toNat = .ok (2 ^ 32) ∧
      (∀ n, (word "4294967296").map UInt32.toNat ≠ .ok n) ∧
      Blank.isBlank '\u200B' = false := by
  obtain ⟨hblank, hword, hsignature, hagree, -⟩ := literals_agree
  have hlong : (signature "4294967296").map UInt64.toNat = .ok (2 ^ 32) := by
    have hread : Numeral.literal 64 "4294967296" = .ok (2 ^ 32) := by decide +kernel
    exact (hsignature _ _).mpr (Numeral.literal_eq_ok_iff.mp hread)
  refine ⟨?_, hlong, fun n hn => ?_, ?_⟩
  · have hread : Numeral.unsigned 16 (2 ^ 32) "+0c04000B".toList = .ok 0x0C04000B := by
      decide +kernel
    have hgrammar := ((Numeral.unsigned_eq_ok_iff (by decide) (by decide)).mp hread).2
    refine (hword _ _).mpr ⟨by decide, _, Numeral.stripped_iff.mpr ?_,
      .hexadecimal (.inr rfl) hgrammar⟩
    decide +kernel
  · obtain ⟨hwide, hlt⟩ := (hagree _ n).mp hn
    rw [hlong] at hwide
    obtain rfl := Except.ok.inj hwide
    exact absurd hlt (Nat.lt_irrefl _)
  · rw [Bool.eq_false_iff, Ne, hblank]
    decide

end Argument

/-- A reader that reads every text of a list reads the list. -/
theorem Setting.readAll_map {α ε : Type} {read : String → Except ε α} {text : α → String}
    (h : ∀ a, read (text a) = .ok a) : ∀ as : List α, readAll read (as.map text) = .ok as
  | [] => rfl
  | a :: as => by
      rw [List.map_cons, readAll, h, readAll_map h as]
      rfl

end Tool

end WordFifo
