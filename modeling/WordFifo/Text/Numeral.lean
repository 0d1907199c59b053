import WordFifo.Text.Blank
import WordFifo.Text.Digits

/-!
# Numerals

The numbers a command line accepts.  A numeral is an optional plus sign and one
or more digits, and its value is below a bound.  A *literal* may stand between
blanks, may hold underscores anywhere, and is hexadecimal after `0x` or `0X`.

Digits are read from the left, and the first fault decides.  A character that is
no digit wins over the bound at the same place.
-/

namespace WordFifo

/-- Why a numeral is refused. -/
inductive NumeralError where
  | empty
  | badDigit
  | tooLarge
deriving DecidableEq, Repr

/-- The wording of a refusal. -/
def NumeralError.message : NumeralError → String
  | .empty => "cannot parse integer from empty string"
  | .badDigit => "invalid digit found in string"
  | .tooLarge => "number too large to fit in target type"

namespace Numeral

/-- Reads digits behind those of `acc`, below `bound`. -/
def digits (base bound : Nat) (acc : Nat) : List Char → Except NumeralError Nat
  | [] => .ok acc
  | c :: cs =>
    match Digits.value? base c with
    | none => .error .badDigit
    | some d =>
      if acc * base + d < bound then digits base bound (acc * base + d) cs
      else .error .tooLarge

/-- A numeral with no minus sign. -/
def unsigned (base bound : Nat) : List Char → Except NumeralError Nat
  | [] => .error .empty
  | ['+'] => .error .badDigit
  | '+' :: cs => digits base bound 0 cs
  | cs => digits base bound 0 cs

/-- A literal with a value of at most `bits` bits. -/
def literal (bits : Nat) (s : String) : Except NumeralError Nat :=
  match (Blank.trim s.toList).filter (· != '_') with
  | '0' :: 'x' :: cs => unsigned 16 (Nat.pow 2 bits) cs
  | '0' :: 'X' :: cs => unsigned 16 (Nat.pow 2 bits) cs
  | cs => unsigned 10 (Nat.pow 2 bits) cs

/-- An integer of `bits` bits in decimal.  The sign may be plus or minus. -/
def signed? (bits : Nat) : List Char → Option Int
  | '-' :: [] => none
  | '-' :: cs =>
    match digits 10 (Nat.pow 2 (bits - 1) + 1) 0 cs with
    | .ok n => some (-(n : Int))
    | .error _ => none
  | cs =>
    match unsigned 10 (Nat.pow 2 (bits - 1)) cs with
    | .ok n => some n
    | .error _ => none

end Numeral

end WordFifo
