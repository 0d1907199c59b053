import WordFifo.Text.Digits

/-!
# JSON lines

Objects on one line, with no blanks and with the keys in the order given.  Text
is escaped where the format demands it and nowhere else.
-/

namespace WordFifo.Json

/-- One character of a JSON string. -/
def escape (c : Char) : String :=
  if c = '"' then "\\\""
  else if c = '\\' then "\\\\"
  else if c = '\x08' then "\\b"
  else if c = '\t' then "\\t"
  else if c = '\n' then "\\n"
  else if c = '\x0c' then "\\f"
  else if c = '\r' then "\\r"
  else if c.toNat < 0x20 then "\\u" ++ String.ofList (Digits.padded 16 4 c.toNat)
  else String.singleton c

/-- A JSON string. -/
def string (s : String) : String := "\"" ++ String.join (s.toList.map escape) ++ "\""

/-- The values a field may have. -/
inductive Value where
  | null
  | bool (b : Bool)
  | number (n : Int)
  | text (s : String)
  | texts (ss : List String)
deriving DecidableEq, Repr

/-- A value that may be absent. -/
def Value.ofOption {α : Type} (f : α → Value) : Option α → Value
  | none => .null
  | some a => f a

/-- The text of a value. -/
def Value.render : Value → String
  | .null => "null"
  | .bool true => "true"
  | .bool false => "false"
  | .number n => Digits.signed n
  | .text s => string s
  | .texts ss => "[" ++ ",".intercalate (ss.map string) ++ "]"

/-- An object with its members in order.  The values are JSON text. -/
def members (fields : List (String × String)) : String :=
  "\x7b" ++ ",".intercalate (fields.map fun f => string f.1 ++ ":" ++ f.2) ++ "\x7d"

/-- An object with its fields in order. -/
def object (fields : List (String × Value)) : String :=
  members (fields.map fun f => (f.1, f.2.render))

end WordFifo.Json
