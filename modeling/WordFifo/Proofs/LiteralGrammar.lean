import WordFifo.Proofs.NumeralGrammar
import WordFifo.Tool.Argument

/-!
# The grammar of literals

A literal is what is left of a text when the blanks around it and all underscores are gone
(`Stripped`).  It has a mark and a hexadecimal numeral behind it, or it begins with no mark
and is a decimal numeral (`Literal`).  The mark is looked for in what is left, so underscores
may stand inside it.

Words, signatures and channels are read from the same literals.  They differ in the bound
alone (`ReadsLiterals`), and that makes them agree: what two of them accept has the same number
in both.
-/

namespace WordFifo

namespace Numeral

variable {bits n : Nat} {cs t : List Char}

/-! ## The two forms -/

/-- What is left of a text without the blanks around it and without underscores. -/
def Stripped (cs t : List Char) : Prop :=
  ∃ text, Blank.Trimmed cs text ∧ t = text.filter (· != '_')

/-- The text begins with the mark of a hexadecimal number. -/
def Marked (t : List Char) : Prop := ∃ rest, t = '0' :: 'x' :: rest ∨ t = '0' :: 'X' :: rest

/-- A literal for a number. -/
inductive Literal : List Char → Nat → Prop where
  | hexadecimal {cs : List Char} {mark : Char} {n : Nat} (hmark : mark = 'x' ∨ mark = 'X')
      (h : Grammar 16 cs n) : Literal ('0' :: mark :: cs) n
  | decimal {cs : List Char} {n : Nat} (hmark : ¬Marked cs) (h : Grammar 10 cs n) : Literal cs n

theorem marked_of_mark {mark : Char} (hmark : mark = 'x' ∨ mark = 'X') :
    Marked ('0' :: mark :: cs) := by
  rcases hmark with rfl | rfl
  · exact ⟨cs, .inl rfl⟩
  · exact ⟨cs, .inr rfl⟩

theorem literal_marked_iff {mark : Char} (hmark : mark = 'x' ∨ mark = 'X') :
    Literal ('0' :: mark :: cs) n ↔ Grammar 16 cs n := by
  refine ⟨fun h => ?_, .hexadecimal hmark⟩
  cases h with
  | hexadecimal _ h => exact h
  | decimal h _ => exact absurd (marked_of_mark hmark) h

theorem literal_unmarked_iff (h : ¬Marked t) : Literal t n ↔ Grammar 10 t n := by
  refine ⟨fun ht => ?_, .decimal h⟩
  cases ht with
  | hexadecimal hmark _ => exact absurd (marked_of_mark hmark) h
  | decimal _ ht => exact ht

/-- Digits of a decimal number begin with no mark. -/
theorem Written.not_marked (h : Written 10 cs n) : ¬Marked cs := by
  have hx : 'x' ∉ cs := (Grammar.bare h).not_mem (by decide) (by decide)
  have hX : 'X' ∉ cs := (Grammar.bare h).not_mem (by decide) (by decide)
  rintro ⟨rest, rfl | rfl⟩
  · exact hx (.tail _ (.head _))
  · exact hX (.tail _ (.head _))

/-! ## The reader of literals -/

theorem stripped_iff : Stripped cs t ↔ t = (Blank.trim cs).filter (· != '_') := by
  simp only [Stripped, Blank.trimmed_iff, exists_eq_left]

/-- A text with neither blanks nor underscores is left alone. -/
theorem stripped_self (h : ∀ c ∈ cs, c ≠ '_' ∧ Blank.isBlank c = false) : Stripped cs cs := by
  refine ⟨cs, ⟨[], [], (List.append_nil cs).symm, fun c hc => ?_, fun c hc => ?_, fun c hc => ?_⟩,
    (List.filter_eq_self.mpr fun c hc => bne_iff_ne.mpr (h c hc).1).symm⟩
  · cases hc
  · exact (h c (List.mem_of_mem_head? hc)).2
  · exact (h c (List.mem_of_mem_getLast? hc)).2

/-- The reader accepts the literals with a number of so many bits. -/
theorem literal_eq_ok_iff {s : String} :
    literal bits s = .ok n ↔ n < 2 ^ bits ∧ ∃ t, Stripped s.toList t ∧ Literal t n := by
  have hbound := Nat.two_pow_pos bits
  simp only [stripped_iff, exists_eq_left]
  rw [literal, Nat.pow_eq]
  generalize (Blank.trim s.toList).filter (· != '_') = t
  split
  · rw [literal_marked_iff (.inl rfl), unsigned_eq_ok_iff (by decide) hbound]
  · rw [literal_marked_iff (.inr rfl), unsigned_eq_ok_iff (by decide) hbound]
  · next hx hX =>
      have hmark : ¬Marked t := by
        rintro ⟨rest, h | h⟩
        · exact hx rest h
        · exact hX rest h
      rw [literal_unmarked_iff hmark, unsigned_eq_ok_iff (by decide) hbound]

example : literal 32 " _0_X_+00_f\u3000" = .ok 15 := by decide +kernel

end Numeral

/-! ## Words, signatures and channels -/

namespace Tool.Argument

open Numeral (Stripped Literal)

variable {α : Type}

/-- A reader accepts the literals with a number below a bound, each as its number. -/
def ReadsLiterals (read : String → Except ArgumentError α) (value : α → Nat) (bound : Nat) : Prop :=
  ∀ s n, (read s).map value = .ok n ↔ n < bound ∧ ∃ t, Stripped s.toList t ∧ Literal t n

theorem readsLiterals_of_value {bits : Nat} {ofNat : Nat → α} {value : α → Nat}
    (h : ∀ n < 2 ^ bits, value (ofNat n) = n) :
    ReadsLiterals (fun s => (literal bits s).map ofNat) value (2 ^ bits) := by
  intro s n
  rw [← Numeral.literal_eq_ok_iff]
  simp only [literal]
  split
  · next m hm =>
      rw [hm, Except.ok.injEq]
      simp only [Except.map, h m (Numeral.literal_eq_ok_iff.mp hm).1, Except.ok.injEq]
  · next he => simp only [Except.map, he, reduceCtorEq]

theorem readsLiterals_word : ReadsLiterals word UInt32.toNat (2 ^ 32) :=
  readsLiterals_of_value fun _ hn => UInt32.toNat_ofNat_of_lt' hn

theorem readsLiterals_signature : ReadsLiterals signature UInt64.toNat (2 ^ 64) :=
  readsLiterals_of_value fun _ hn => UInt64.toNat_ofNat_of_lt' hn

theorem channel_eq_ok_iff {s : String} {c : Channel} :
    channel s = .ok c ↔ word s = .ok c.toWord := by
  rw [channel]
  cases word s with
  | error e => exact iff_of_false nofun nofun
  | ok w =>
      rw [Except.ok.injEq, ← Channel.ofId_eq_ok_iff]
      cases h : Channel.ofId w with
      | error e => simp only [h, reduceCtorEq]
      | ok c => simp only [h, Except.ok.injEq]

end Tool.Argument

end WordFifo
