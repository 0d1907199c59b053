import WordFifo.Error

/-!
# Sources of words

A source is a place to receive words from.  One step takes the next item, a word
or an error, and says what is left.  A source that is at its end answers
`closed`, now and ever after.

A *finite* source holds finitely many words, and every step that gives one
leaves fewer.  So reading until the first error ends.

A `Script` is a source that is written down: a list of words and errors.  A list
of words alone is a source too.
-/

namespace WordFifo

/-- A place to receive words from. -/
class Source (σ : Type) where
  /-- The next item, and the source after it. -/
  receive : σ → Except CarrierError UInt32 × σ

/-- A source that holds finitely many words. -/
class FiniteSource (σ : Type) extends Source σ where
  /-- A bound on the words that are left. -/
  size : σ → Nat
  /-- A step that gives a word leaves fewer. -/
  size_lt : ∀ {s s' : σ} {w : UInt32}, receive s = (.ok w, s') → size s' < size s
  /-- No step adds words. -/
  size_le : ∀ s : σ, size (receive s).2 ≤ size s

/-- A list of words and errors, received in order. -/
abbrev Script := List (Except CarrierError UInt32)

instance : FiniteSource Script where
  receive
    | [] => (.error .closed, [])
    | item :: rest => (item, rest)
  size := List.length
  size_lt {s s' w} h := by
    cases s with
    | nil => simp at h
    | cons item rest => simp at h; simp [h.2]
  size_le s := by cases s <;> simp

instance : FiniteSource (List UInt32) where
  receive
    | [] => (.error .closed, [])
    | w :: rest => (.ok w, rest)
  size := List.length
  size_lt {s s' w} h := by
    cases s with
    | nil => simp at h
    | cons item rest => simp at h; simp [h.2]
  size_le s := by cases s <;> simp

@[simp] theorem receive_script_nil :
    Source.receive ([] : Script) = (.error .closed, []) := rfl

@[simp] theorem receive_script_cons (item : Except CarrierError UInt32) (rest : Script) :
    Source.receive (item :: rest) = (item, rest) := rfl

@[simp] theorem receive_words_nil :
    Source.receive ([] : List UInt32) = (.error .closed, []) := rfl

@[simp] theorem receive_words_cons (w : UInt32) (rest : List UInt32) :
    Source.receive (w :: rest) = (.ok w, rest) := rfl

end WordFifo
