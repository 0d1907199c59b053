import WordFifo.Text.Digits
import WordFifo.Text.Unshown

/-!
# Quoted text

Text between double quotes, one line long and made of characters that show.  A
backslash marks an escape.  NUL, tab, newline and carriage return have a letter
each, and other characters that do not show are written by their code point.

A double quote is escaped, since it would end the text, and a single quote is
not.
-/

namespace WordFifo.Quoted

/-- One character of quoted text. -/
def escape (c : Char) : String :=
  if c = '\x00' then "\\0"
  else if c = '\t' then "\\t"
  else if c = '\n' then "\\n"
  else if c = '\r' then "\\r"
  else if c = '\\' ∨ c = '"' then String.ofList ['\\', c]
  else if Unshown.isUnshown c then
    "\\u\x7b" ++ String.ofList (Digits.ofNat 16 c.toNat) ++ "\x7d"
  else String.singleton c

/-- Text between quotes. -/
def text (s : String) : String := "\"" ++ String.join (s.toList.map escape) ++ "\""

example : text "a\t\"b\" \u0301" = "\"a\\t\\\"b\\\" \\u\x7b301\x7d\"" := by decide +kernel
example : text "it's" = "\"it's\"" := by decide +kernel
example : text "\u3164\uff9e" = "\"\\u\x7b3164\x7d\uff9e\"" := by decide +kernel

end WordFifo.Quoted
