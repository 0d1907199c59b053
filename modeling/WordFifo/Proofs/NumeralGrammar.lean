import Mathlib.Data.List.Forall2
import Mathlib.Data.List.TakeWhile
import Mathlib.Data.Nat.Digits.Defs
import WordFifo.Text.Numeral

/-!
# The grammar of numerals

What is written for a number, said without reading it.  A digit is a character of ASCII with
a value below the base.  Digits in a row are written for the number that they are the digits
of, the most significant one first (`Written`).  A numeral is that, and a plus sign may stand
in front of it (`Grammar`).

A reader goes through the digits from the left, and it looks at the bound behind each of them.
Still it accepts exactly the numerals with a number below the bound, with any number of leading
zeros (`unsigned_eq_ok_iff`).  What was read so far is the first of the digits that are left,
in this view (`digits_eq_ok_iff`), and the number never falls behind it.

`Blank.Trimmed` is the same for blanks: the text in the middle, where everything around it is
blank and its ends are not.
-/

namespace WordFifo

/-! ## Digits -/

/-- A character is a digit with a value. -/
inductive Digits.Digit (base : Nat) : Char → Nat → Prop where
  /-- From `0` to `9`. -/
  | decimal {c : Char} {d : Nat} (hc : c.toNat = '0'.toNat + d) (hd : d < 10) (hb : d < base) :
      Digit base c d
  /-- From `a` to `f`. -/
  | small {c : Char} {d : Nat} (hc : c.toNat = 'a'.toNat + d) (hd : d < 6) (hb : d + 10 < base) :
      Digit base c (d + 10)
  /-- From `A` to `F`. -/
  | capital {c : Char} {d : Nat} (hc : c.toNat = 'A'.toNat + d) (hd : d < 6)
      (hb : d + 10 < base) : Digit base c (d + 10)

namespace Digits

variable {base d : Nat} {c : Char}

theorem char_le_iff (a b : Char) : a ≤ b ↔ a.toNat ≤ b.toNat := Iff.rfl

theorem value?_eq_some_iff : value? base c = some d ↔ Digit base c d := by
  have h0 : '0'.toNat = 48 := rfl
  have h9 : '9'.toNat = 57 := rfl
  have ha : 'a'.toNat = 97 := rfl
  have hf : 'f'.toNat = 102 := rfl
  have hA : 'A'.toNat = 65 := rfl
  have hF : 'F'.toNat = 70 := rfl
  simp only [value?, char_le_iff, Option.filter_eq_some_iff, decide_eq_true_eq]
  constructor
  · rintro ⟨hc, hb⟩
    split at hc
    · obtain rfl := Option.some.inj hc
      exact .decimal (by omega) (by omega) hb
    · split at hc
      · obtain rfl := Option.some.inj hc
        exact .small (by omega) (by omega) hb
      · split at hc
        · obtain rfl := Option.some.inj hc
          exact .capital (by omega) (by omega) hb
        · cases hc
  · intro h
    cases h with
    | decimal hc hd hb =>
        rw [if_pos (by omega), hc]
        exact ⟨congrArg some (by omega), hb⟩
    | small hc hd hb =>
        rw [if_neg (by omega), if_pos (by omega), hc]
        exact ⟨congrArg some (by omega), hb⟩
    | capital hc hd hb =>
        rw [if_neg (by omega), if_neg (by omega), if_pos (by omega), hc]
        exact ⟨congrArg some (by omega), hb⟩

/-- A digit is no sign, no underscore and no blank. -/
theorem Digit.plain (h : Digit base c d) : c ≠ '+' ∧ c ≠ '_' ∧ Blank.isBlank c = false := by
  have hrange : 48 ≤ c.toNat ∧ c.toNat ≤ 57 ∨ 65 ≤ c.toNat ∧ c.toNat ≤ 70 ∨
      97 ≤ c.toNat ∧ c.toNat ≤ 102 := by
    have h0 : '0'.toNat = 48 := rfl
    have ha : 'a'.toNat = 97 := rfl
    have hA : 'A'.toNat = 65 := rfl
    cases h <;> omega
  refine ⟨?_, ?_, ?_⟩
  · rintro rfl
    exact absurd hrange (by decide)
  · rintro rfl
    exact absurd hrange (by decide)
  · simp only [Blank.isBlank, Bool.or_eq_false_iff, Bool.and_eq_false_iff, decide_eq_false_iff_not,
      beq_eq_false_iff_ne]
    omega

end Digits

/-! ## Numerals -/

namespace Numeral

open Digits (Digit)

variable {base bound n d : Nat} {cs : List Char} {c : Char}

/-- One digit or more for a number, the most significant one first. -/
def Written (base : Nat) (cs : List Char) (n : Nat) : Prop :=
  cs ≠ [] ∧ ∃ ds, List.Forall₂ (Digit base) cs ds ∧ Nat.ofDigits base ds.reverse = n

/-- A numeral for a number. -/
inductive Grammar (base : Nat) : List Char → Nat → Prop where
  | bare {cs : List Char} {n : Nat} (h : Written base cs n) : Grammar base cs n
  | plus {cs : List Char} {n : Nat} (h : Written base cs n) : Grammar base ('+' :: cs) n

/-- The first two digits as one. -/
theorem ofDigits_reverse_cons_cons (base acc d : Nat) (ds : List Nat) :
    Nat.ofDigits base (acc :: d :: ds).reverse =
      Nat.ofDigits base ((acc * base + d) :: ds).reverse := by
  simp only [List.reverse_cons, List.append_assoc, Nat.ofDigits_append, List.singleton_append,
    Nat.ofDigits_cons, Nat.ofDigits_nil, Nat.mul_zero, Nat.add_zero, Nat.mul_comm base acc,
    Nat.add_comm d]

/-- A number is not less than its first digit. -/
theorem le_ofDigits_reverse_cons (hb : 0 < base) (acc : Nat) (ds : List Nat) :
    acc ≤ Nat.ofDigits base (acc :: ds).reverse := by
  induction ds generalizing acc with
  | nil => simp
  | cons d ds ih =>
      rw [ofDigits_reverse_cons_cons]
      exact Nat.le_trans (Nat.le_trans (Nat.le_mul_of_pos_right acc hb) (Nat.le_add_right _ d))
        (ih _)

theorem digits_eq_ok_iff (hb : 0 < base) {acc : Nat} (hacc : acc < bound) :
    digits base bound acc cs = .ok n ↔
      n < bound ∧ ∃ ds, List.Forall₂ (Digit base) cs ds ∧
        Nat.ofDigits base (acc :: ds).reverse = n := by
  induction cs generalizing acc with
  | nil =>
      rw [digits, Except.ok.injEq]
      constructor
      · rintro rfl
        exact ⟨hacc, [], .nil, Nat.ofDigits_singleton⟩
      · rintro ⟨-, ds, hds, rfl⟩
        cases hds
        exact (Nat.ofDigits_singleton).symm
  | cons c cs ih =>
      rw [digits]
      constructor
      · intro h
        split at h
        · cases h
        · next d hd =>
            split at h
            · next hlt =>
                obtain ⟨hn, ds, hds, hvalue⟩ := (ih hlt).mp h
                refine ⟨hn, d :: ds, .cons (Digits.value?_eq_some_iff.mp hd) hds, ?_⟩
                rw [ofDigits_reverse_cons_cons, hvalue]
            · cases h
      · rintro ⟨hn, _, hds, hvalue⟩
        cases hds with
        | @cons _ d _ ds hd hds =>
            rw [ofDigits_reverse_cons_cons] at hvalue
            -- The number is no less than what was read, so that is below the bound too.
            have hlt : acc * base + d < bound :=
              Nat.lt_of_le_of_lt (hvalue ▸ le_ofDigits_reverse_cons hb _ ds) hn
            rw [Digits.value?_eq_some_iff.mpr hd]
            exact (if_pos hlt).trans ((ih hlt).mpr ⟨hn, ds, hds, hvalue⟩)

theorem digits_zero_eq_ok_iff (hb : 0 < base) (hbound : 0 < bound) (hcs : cs ≠ []) :
    digits base bound 0 cs = .ok n ↔ n < bound ∧ Written base cs n := by
  have hzero : ∀ ds, Nat.ofDigits base (0 :: ds).reverse = Nat.ofDigits base ds.reverse := by
    intro ds
    rw [List.reverse_cons, Nat.ofDigits_append, Nat.ofDigits_singleton, Nat.mul_zero, Nat.add_zero]
  simp only [digits_eq_ok_iff hb hbound, hzero, Written, hcs, ne_eq, not_false_eq_true, true_and]

theorem Written.single (hc : Digit base c d) : Written base [c] d :=
  ⟨List.cons_ne_nil c [], [d], .cons hc .nil, Nat.ofDigits_singleton⟩

/-- One more digit behind the others. -/
theorem Written.concat (h : Written base cs n) (hc : Digit base c d) :
    Written base (cs ++ [c]) (base * n + d) := by
  obtain ⟨-, ds, hds, rfl⟩ := h
  refine ⟨List.append_ne_nil_of_right_ne_nil cs (List.cons_ne_nil c []), ds ++ [d],
    List.rel_append hds (.cons hc .nil), ?_⟩
  rw [List.reverse_append, List.reverse_singleton, List.singleton_append, Nat.ofDigits_cons]
  exact Nat.add_comm _ _

/-- Nothing is in a number but digits. -/
theorem Written.exists_digit (h : Written base cs n) (hc : c ∈ cs) : ∃ d, Digit base c d := by
  obtain ⟨-, ds, hds, -⟩ := h
  induction hds with
  | nil => cases hc
  | cons hd _ ih =>
      rcases List.mem_cons.mp hc with rfl | hc
      · exact ⟨_, hd⟩
      · exact ih hc

theorem Written.plain (h : Written base cs n) : ∀ c ∈ cs, c ≠ '_' ∧ Blank.isBlank c = false := by
  intro c hc
  obtain ⟨d, hd⟩ := h.exists_digit hc
  exact hd.plain.2

/-- No digit is a plus sign. -/
theorem not_written_plus : ¬Written base ('+' :: cs) n := by
  rintro ⟨-, _, hds, -⟩
  cases hds with
  | cons hd _ => exact hd.plain.1 rfl

theorem not_grammar_nil : ¬Grammar base [] n := by
  intro h
  cases h with
  | bare h => exact h.1 rfl

theorem grammar_plus_iff : Grammar base ('+' :: cs) n ↔ Written base cs n := by
  constructor
  · intro h
    cases h with
    | bare h => exact absurd h not_written_plus
    | plus h => exact h
  · exact .plus

theorem grammar_iff_written (h : ∀ rest, cs ≠ '+' :: rest) :
    Grammar base cs n ↔ Written base cs n := by
  constructor
  · intro hcs
    cases hcs with
    | bare hcs => exact hcs
    | plus _ => exact absurd rfl (h _)
  · exact .bare

/-- The reader accepts the numerals with a number below the bound. -/
theorem unsigned_eq_ok_iff (hb : 0 < base) (hbound : 0 < bound) :
    unsigned base bound cs = .ok n ↔ n < bound ∧ Grammar base cs n := by
  rw [unsigned.eq_def]
  split
  · exact iff_of_false nofun fun h => not_grammar_nil h.2
  · rw [grammar_plus_iff]
    exact iff_of_false nofun fun h => h.2.1 rfl
  · next cs hcs => rw [grammar_plus_iff, digits_zero_eq_ok_iff hb hbound hcs]
  · next hnil _ hplus =>
      rw [grammar_iff_written hplus, digits_zero_eq_ok_iff hb hbound hnil]

/-! ## What is in a numeral -/

theorem Grammar.mem_cases (h : Grammar base cs n) (hc : c ∈ cs) :
    c = '+' ∨ ∃ d, Digit base c d := by
  cases h with
  | bare h => exact .inr (h.exists_digit hc)
  | plus h => exact (List.mem_cons.mp hc).imp id h.exists_digit

theorem Grammar.not_mem (h : Grammar base cs n) (hplus : c ≠ '+')
    (hc : Digits.value? base c = none) : c ∉ cs := by
  intro hmem
  rcases h.mem_cases hmem with rfl | ⟨d, hd⟩
  · exact hplus rfl
  · rw [Digits.value?_eq_some_iff.mpr hd] at hc
    cases hc

theorem Grammar.not_blank (h : Grammar base cs n) (hc : c ∈ cs) : Blank.isBlank c = false := by
  rcases h.mem_cases hc with rfl | ⟨d, hd⟩
  · decide
  · exact hd.plain.2.2

/-- A numeral has one number. -/
theorem Grammar.unique {m : Nat} (hb : 0 < base) (hm : Grammar base cs m)
    (hn : Grammar base cs n) : m = n := by
  -- Below a bound above both the reader decides.
  have hread : ∀ k < m + n + 1, Grammar base cs k → unsigned base (m + n + 1) cs = .ok k :=
    fun k hk h => (unsigned_eq_ok_iff hb (Nat.succ_pos _)).mpr ⟨hk, h⟩
  exact Except.ok.inj ((hread m (by omega) hm).symm.trans (hread n (by omega) hn))

end Numeral

/-! ## Blanks around a text -/

namespace Blank

/-- The code points of white space. -/
def codePoints : List Nat := [0x9, 0xA, 0xB, 0xC, 0xD, 0x20, 0x85, 0xA0, 0x1680, 0x2000, 0x2001,
  0x2002, 0x2003, 0x2004, 0x2005, 0x2006, 0x2007, 0x2008, 0x2009, 0x200A, 0x2028, 0x2029, 0x202F,
  0x205F, 0x3000]

theorem isBlank_iff (c : Char) : isBlank c ↔ c.toNat ∈ codePoints := by
  simp only [isBlank, codePoints, Bool.or_eq_true, Bool.and_eq_true, decide_eq_true_eq, beq_iff_eq,
    List.mem_cons, List.not_mem_nil, or_false]
  omega

/-- The text between blanks, whose ends are not blank. -/
def Trimmed (cs text : List Char) : Prop :=
  ∃ before behind, cs = before ++ text ++ behind ∧
    (∀ c ∈ before ++ behind, isBlank c) ∧
    (∀ c ∈ text.head?, isBlank c = false) ∧ ∀ c ∈ text.getLast?, isBlank c = false

theorem dropWhile_of_head {cs : List Char} (h : ∀ c ∈ cs.head?, isBlank c = false) :
    cs.dropWhile isBlank = cs := by
  cases cs with
  | nil => rfl
  | cons c cs => exact List.dropWhile_cons_of_neg (by rw [h c rfl]; exact Bool.false_ne_true)

theorem dropWhile_append_of_blank {before text : List Char} (hbefore : ∀ c ∈ before, isBlank c)
    (h : ∀ c ∈ text.head?, isBlank c = false) :
    (before ++ text).dropWhile isBlank = text := by
  rw [List.dropWhile_append_of_pos hbefore, dropWhile_of_head h]

theorem head_dropWhile (cs : List Char) :
    ∀ c ∈ (cs.dropWhile isBlank).head?, isBlank c = false := by
  intro c hc
  have h := List.head?_dropWhile_not isBlank cs
  rw [Option.mem_def.mp hc] at h
  exact h

theorem trimRight_append (cs : List Char) :
    cs = trimRight cs ++ (cs.reverse.takeWhile isBlank).reverse := by
  rw [trimRight, ← List.reverse_append, List.takeWhile_append_dropWhile, List.reverse_reverse]

theorem trimmed_trim (cs : List Char) : Trimmed cs (trim cs) := by
  refine ⟨cs.takeWhile isBlank, ((cs.dropWhile isBlank).reverse.takeWhile isBlank).reverse,
    ?_, ?_, ?_, ?_⟩
  · rw [List.append_assoc, trim, ← trimRight_append, List.takeWhile_append_dropWhile]
  · intro c hc
    rcases List.mem_append.mp hc with hc | hc
    · exact List.mem_takeWhile_imp hc
    · exact List.mem_takeWhile_imp (List.mem_reverse.mp hc)
  · intro c hc
    refine head_dropWhile cs c ?_
    rw [trimRight_append (cs.dropWhile isBlank), List.head?_append, ← trim, Option.mem_def.mp hc]
    rfl
  · intro c hc
    rw [trim, trimRight, List.getLast?_reverse] at hc
    exact head_dropWhile _ c hc

/-- There is one such text. -/
theorem trimmed_iff (cs text : List Char) : Trimmed cs text ↔ text = trim cs := by
  refine ⟨?_, fun h => h ▸ trimmed_trim cs⟩
  rintro ⟨before, behind, rfl, hblank, hhead, hlast⟩
  have hbefore := fun c hc => hblank c (List.mem_append_left behind hc)
  have hbehind := fun c hc => hblank c (List.mem_append_right before hc)
  have hright : trimRight (text ++ behind) = text := by
    rw [trimRight, List.reverse_append,
      dropWhile_append_of_blank (fun c hc => hbehind c (List.mem_reverse.mp hc))
        (by rwa [List.head?_reverse]), List.reverse_reverse]
  cases text with
  | nil =>
      rw [trim, List.append_nil, ← List.append_nil (before ++ behind),
        dropWhile_append_of_blank hblank fun _ h => by cases h]
      rfl
  | cons c text =>
      have hdrop : (before ++ (c :: text ++ behind)).dropWhile isBlank = c :: text ++ behind :=
        dropWhile_append_of_blank hbefore hhead
      rw [trim, List.append_assoc, hdrop, hright]

end Blank

end WordFifo
