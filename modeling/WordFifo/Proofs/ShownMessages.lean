import WordFifo.Proofs.Literals
import WordFifo.Tool.Printed

/-!
# What a printed record shows

A record is printed for a reader who does not have the message.  `Message.Shown` says what
such a reader is told, with one rule for each form of a message and without the code that
prints.  Numbers are told by the digits that are written for them (`Numeral.Written`), and a
payload by the text that it is the UTF-8 of, if there is one.

`Tool.Printed.Shows` is the whole line: a record with the schema, the channel, what is shown of
the message, and the words where they are known.  `Tool.Printed.wordTexts` looks up what a line
lists as its words.
-/

namespace WordFifo

/-! ## Numbers in a text -/

namespace Numeral

/-- A text is a number in decimal. -/
def Decimal (s : String) (n : Nat) : Prop := Written 10 s.toList n

/-- A text is a number in hexadecimal, behind its mark. -/
def Hexadecimal (s : String) (n : Nat) : Prop :=
  ∃ cs, s.toList = '0' :: 'x' :: cs ∧ Written 16 cs n

theorem decimal_decimal (n : Nat) : Decimal (Digits.decimal n) n := by
  rw [Decimal, Digits.decimal, String.toList_ofList]
  exact .ofNat (by decide) (by decide) n

theorem hexadecimal_hex (n : Nat) : Hexadecimal (Digits.hex n) n := by
  refine ⟨Digits.ofNat 16 n, ?_, .ofNat (by decide) (Nat.le_refl 16) n⟩
  rw [Digits.hex, String.toList_append, String.toList_ofList, String.toList_ofList]
  rfl

theorem hexadecimal_hexWord (w : UInt32) : Hexadecimal (Digits.hexWord w) w.toNat :=
  ⟨_, Digits.toList_hexWord w, .word w⟩

/-- The mark and eight digits. -/
theorem length_hexWord (w : UInt32) : (Digits.hexWord w).toList.length = 10 := by
  rw [Digits.toList_hexWord, List.length_cons, List.length_cons, Digits.length_padded]

end Numeral

/-! ## Messages -/

namespace Message

open Numeral (Decimal Hexadecimal)

/-- What is shown of a message: its kind, its value, and the size of its payload. -/
inductive Shown : Message → String → String → Option Nat → Prop where
  | value32 {c : Channel} {v : UInt32} {decimal hexadecimal : String}
      (hd : Decimal decimal v.toNat) (hh : Hexadecimal hexadecimal v.toNat) :
      Shown (.value32 c v) "value32" (decimal ++ " (" ++ hexadecimal ++ ")") none
  | address {c : Channel} {a : UInt32} {text : String} (ha : Hexadecimal text a.toNat)
      (hlength : text.toList.length = 10) : Shown (.address c a) "address" text none
  /-- The payload is a text. -/
  | text {c : Channel} {bytes : List UInt8} {text : String} (htext : text.toUTF8.data.toList = bytes) :
      Shown (.data c bytes) "data" text (some bytes.length)
  | binary {c : Channel} {bytes : List UInt8} {count : String}
      (htext : ∀ text : String, text.toUTF8.data.toList ≠ bytes)
      (hcount : Decimal count bytes.length) :
      Shown (.data c bytes) "data" ("<binary " ++ count ++ " bytes>") (some bytes.length)
  | resetPrimary :
      Shown (.special .resetPrimary) "special-command"
        "coprocessor-requests-primary-reset (0x4000b)" none
  | resetCoprocessor :
      Shown (.special .resetCoprocessor) "special-command"
        "primary-requests-coprocessor-reset (0x4000c)" none
  | other {code : UInt32} {hexadecimal : String} (hcode : Hexadecimal hexadecimal code.toNat) :
      Shown (.special (.other code)) "special-command" ("command " ++ hexadecimal) none

theorem shown_data (c : Channel) (bytes : List UInt8) :
    Shown (.data c bytes) "data" (preview bytes) (some bytes.length) := by
  rw [preview, String.fromUTF8?]
  split
  · next text h =>
      split at h
      · next hvalid =>
          exact .text (Option.some.inj h ▸ List.toList_toArray)
      · cases h
  · next h =>
      split at h
      · cases h
      · next hinvalid =>
          refine .binary (fun text htext => hinvalid ?_) (Numeral.decimal_decimal bytes.length)
          have hbytes : ByteArray.mk bytes.toArray = text.toUTF8 := by
            rw [← htext, Array.toArray_toList]
          rw [hbytes]
          exact text.isValidUTF8

/-- The record of a message shows it. -/
theorem shown (m : Message) : m.Shown m.kindName m.valueText (Tool.Record.payloadSizeOf m) := by
  cases m with
  | value32 c v => exact .value32 (Numeral.decimal_decimal _) (Numeral.hexadecimal_hex _)
  | address c a => exact .address (Numeral.hexadecimal_hexWord a) (Numeral.length_hexWord a)
  | data c bytes => exact shown_data c bytes
  | special cmd =>
      cases cmd with
      | resetPrimary =>
          have htext : Command.resetPrimary.describe =
              "coprocessor-requests-primary-reset (0x4000b)" := by decide +kernel
          rw [valueText, htext]
          exact .resetPrimary
      | resetCoprocessor =>
          have htext : Command.resetCoprocessor.describe =
              "primary-requests-coprocessor-reset (0x4000c)" := by decide +kernel
          rw [valueText, htext]
          exact .resetCoprocessor
      | other code => exact .other (Numeral.hexadecimal_hex _)

end Message

/-! ## Printed lines -/

namespace Tool

/-- A printed line is the record of a message, with these words.  Its JSON form is one object. -/
def Printed.Shows (line : Printed) (schema : String) (m : Message)
    (words : Option (List UInt32)) : Prop :=
  ∃ kind value size, m.Shown kind value size ∧
    line = .record ⟨schema, kind, m.channel, value, size, words⟩ ∧
    ∀ time, line.render .json time = [Json.object [
      ("schema_id", .text schema),
      ("kind", .text kind),
      ("channel", .ofOption (fun c => .number c.val) m.channel),
      ("channel_name", .ofOption (fun c => .text c.name) m.channel),
      ("value", .text value),
      ("payload_size", .ofOption (fun n => .number n) size),
      ("words", .ofOption (fun ws => .texts (ws.map Digits.hexWord)) words),
      ("timestamp", .text time)]]

theorem Record.shows_ofMessage (schema : String) (m : Message) (words : Option (List UInt32)) :
    (Printed.record (ofMessage schema m words)).Shows schema m words :=
  ⟨m.kindName, m.valueText, payloadSizeOf m, m.shown, rfl, fun _ => rfl⟩

/-- What a printed line lists as its words. -/
def Printed.wordTexts : Printed → List String
  | .record r =>
    match (r.fields "").lookup "words" with
    | some (.texts texts) => texts
    | _ => []
  | _ => []

theorem Printed.Shows.wordTexts_eq {line : Printed} {schema : String} {m : Message}
    {words : List UInt32} (h : line.Shows schema m (some words)) :
    line.wordTexts = words.map Digits.hexWord := by
  obtain ⟨kind, value, size, -, rfl, -⟩ := h
  rfl

end Tool

end WordFifo
