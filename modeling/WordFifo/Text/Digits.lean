/-!
# Digits

Numbers as lists of digit characters.  `Digits.ofNat` writes a number with no
leading zeros.  `Digits.padded` writes a fixed count of digits, dropping what
does not fit.  Digits above nine are small letters.

`value?` reads one digit back.  It accepts letters of both cases, as every
reader of this library does.
-/

namespace WordFifo.Digits

/-- The character of a digit below 16. -/
def char (d : Nat) : Char :=
  if d < 10 then Char.ofNat ('0'.toNat + d) else Char.ofNat ('a'.toNat + (d - 10))

/-- The value of a digit character in a base of at most 16. -/
def value? (base : Nat) (c : Char) : Option Nat :=
  let d? : Option Nat :=
    if '0' ≤ c ∧ c ≤ '9' then some (c.toNat - '0'.toNat)
    else if 'a' ≤ c ∧ c ≤ 'f' then some (c.toNat - 'a'.toNat + 10)
    else if 'A' ≤ c ∧ c ≤ 'F' then some (c.toNat - 'A'.toNat + 10)
    else none
  d?.filter (· < base)

/-- The digits of `n`, most significant first, with no leading zeros.  Zero has
one digit. -/
def ofNat (base n : Nat) : List Char :=
  if n < base ∨ base < 2 then [char n] else ofNat base (n / base) ++ [char (n % base)]
termination_by n
decreasing_by
  rename_i h
  exact Nat.div_lt_self (by omega) (by omega)

/-- The last `width` digits of `n`, with leading zeros. -/
def padded (base : Nat) : (width : Nat) → Nat → List Char
  | 0, _ => []
  | width + 1, n => padded base width (n / base) ++ [char (n % base)]

/-- A number in decimal. -/
def decimal (n : Nat) : String := String.ofList (ofNat 10 n)

/-- An integer in decimal, with a minus sign below zero. -/
def signed : Int → String
  | .ofNat n => decimal n
  | .negSucc n => "-" ++ decimal (n + 1)

/-- A number in hexadecimal, with its mark. -/
def hex (n : Nat) : String := "0x" ++ String.ofList (ofNat 16 n)

/-- A number in hexadecimal, with its mark and at least `width` digits. -/
def hexPadded (width n : Nat) : String :=
  if n < Nat.pow 16 width then "0x" ++ String.ofList (padded 16 width n) else hex n

/-- A word as eight hexadecimal digits. -/
def hexWord (w : UInt32) : String := hexPadded 8 w.toNat

/-- A number in octal, without a mark. -/
def octal (n : Nat) : String := String.ofList (ofNat 8 n)

theorem length_padded (base width n : Nat) : (padded base width n).length = width := by
  induction width generalizing n with
  | zero => rfl
  | succ width ih => simp [padded, ih]

/-- A digit reads back as itself. -/
theorem value?_char {base d : Nat} (hd : d < base) (hb : base ≤ 16) :
    value? base (char d) = some d := by
  have key : ∀ d < 16, value? 16 (char d) = some d := by decide
  have mono : ∀ c d, value? 16 c = some d → d < base → value? base c = some d := by
    intro c d h hd
    simp only [value?, Option.filter_eq_some_iff] at h ⊢
    exact ⟨h.1, by simpa using hd⟩
  exact mono _ _ (key d (by omega)) hd

example : hexWord 0x0C04000B = "0x0c04000b" := by decide +kernel
example : hex 255 = "0xff" ∧ decimal 0 = "0" ∧ signed (-7) = "-7" := by decide +kernel

end WordFifo.Digits
