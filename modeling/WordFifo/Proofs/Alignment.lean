import WordFifo.Proofs.Reading

/-!
# Readers under different limits

Two readers start at one source, and each sets its limit before every read, as
it likes.  They stay side by side.  A limit only decides whether a payload is
kept or skipped, and both take the same items off the source
(`rest_readMessage_eq`), wherever it fails or closes.

Results differ only where the smaller limit refuses a payload
(`result_readMessage_cases`).  So a greater limit gives every message that a
smaller one does.  `calls_aligned` says this of any two rows of reads.
-/

namespace WordFifo

variable {σ : Type} [Source σ] {s t : σ} {w : UInt32} {ws : List UInt32} {a b : Nat}

namespace Kind

/-- A refused kind is that of a block which is longer than the limit. -/
theorem eq_data_of_refused? {k : Kind} {limit size : Nat} (h : k.refused? limit = some size) :
    ∃ length, k = .data length ∧ length.toNat = size ∧ limit < size := by
  cases k with
  | data length =>
      rw [refused?] at h
      split at h
      · next hlt =>
          obtain rfl := Option.some.inj h
          exact ⟨length, rfl, rfl, hlt⟩
      · cases h
  | _ => cases h

/-- A greater limit refuses no more. -/
theorem refused?_eq_none_of_le {k : Kind} (hle : a ≤ b) (h : k.refused? a = none) :
    k.refused? b = none := by
  cases k with
  | data length => exact if_neg (Nat.not_lt.mpr (Nat.le_trans (le_of_refused?_data h) hle))
  | _ => rfl

end Kind

namespace Reader

/-- The length of the payload that the next header announces. -/
def announced (s : σ) : Option Nat :=
  match (Source.receive s).1 with
  | .ok w =>
    match Kind.ofWord w with
    | .data length => some length.toNat
    | _ => none
  | .error _ => none

theorem announced_of_refused? {limit size : Nat} (hg : Source.Gives s (w :: ws) t)
    (h : (Kind.ofWord w).refused? limit = some size) : announced s = some size := by
  obtain ⟨length, hk, rfl, -⟩ := Kind.eq_data_of_refused? h
  cases hg with
  | cons hr _ => simp only [announced, hr, hk]

/-! ## One read -/

/-- The limit does not show in what a read leaves behind. -/
theorem rest_readMessage_eq (a b : Nat) (s : σ) :
    (readMessage a s).rest = (readMessage b s).rest := by
  cases meets s with
  | failed he => rw [(readMessage_of_end a he).2, (readMessage_of_end b he).2]
  | whole hg hn => rw [(readMessage_of_gives a hg hn).2, (readMessage_of_gives b hg hn).2]
  | cut hg he hn => rw [(readMessage_of_stop a hg he hn).2, (readMessage_of_stop b hg he hn).2]

/-- Two results are the same, or the smaller limit refused a payload. -/
theorem result_readMessage_cases (hle : a ≤ b) (s : σ) :
    (readMessage a s).result = (readMessage b s).result ∨
      ∃ length, announced s = some length ∧ a < length ∧
        (readMessage a s).result = .error (.payloadTooLarge length a) := by
  cases meets s with
  | failed he =>
      rw [(readMessage_of_end a he).1, (readMessage_of_end b he).1]
      exact Or.inl rfl
  | @whole w ws _ hg hn =>
      rw [(readMessage_of_gives a hg hn).1, (readMessage_of_gives b hg hn).1]
      cases hr : (Kind.ofWord w).refused? a with
      | none =>
          left
          rw [decode, decode, hr, Kind.refused?_eq_none_of_le hle hr]
      | some size =>
          obtain ⟨-, -, -, hlt⟩ := Kind.eq_data_of_refused? hr
          right
          rw [decode, hr]
          exact ⟨size, announced_of_refused? hg hr, hlt, rfl⟩
  | @cut w ws _ _ e hg he hn =>
      rw [(readMessage_of_stop a hg he hn).1, (readMessage_of_stop b hg he hn).1]
      cases hr : (Kind.ofWord w).refused? a with
      | none =>
          left
          simp only [decodeStopped, hr, Kind.refused?_eq_none_of_le hle hr]
      | some size =>
          obtain ⟨-, -, -, hlt⟩ := Kind.eq_data_of_refused? hr
          -- Only a close ends in a refusal.  Other errors look the same under both limits.
          by_cases hclosed : e = .closed
          · subst hclosed
            right
            simp only [decodeStopped, hr]
            exact ⟨size, announced_of_refused? hg hr, hlt, rfl⟩
          · left
            rw [decodeStopped_of_ne_closed hclosed, decodeStopped_of_ne_closed hclosed]

/-- A greater limit gives every message that a smaller one does. -/
theorem result_readMessage_mono (hle : a ≤ b) {m : Message}
    (h : (readMessage a s).result = .ok m) : (readMessage b s).result = .ok m := by
  rcases result_readMessage_cases hle s with heq | ⟨_, _, _, hrefused⟩
  · rw [← heq]
    exact h
  · rw [hrefused] at h
    cases h

/-! ## Rows of reads -/

theorem rest_calls_eq (limits : List (Nat × Nat)) (s : σ) :
    (calls (limits.map Prod.fst) s).2 = (calls (limits.map Prod.snd) s).2 := by
  induction limits generalizing s with
  | nil => rfl
  | cons limit limits ih =>
      simp only [List.map_cons, calls]
      rw [rest_readMessage_eq limit.1 limit.2 s]
      exact ih _

/-- Two readers stand at one place, where the next reads have the limits `a` and `b`. -/
structure Aligned (a b : Nat) (x y : σ) : Prop where
  /-- They have the same items left, and still do after the next reads. -/
  eq : x = y
  rest_eq : (readMessage a x).rest = (readMessage b y).rest
  /-- The results are the same, unless a payload is announced that one of the limits
  refuses. -/
  result_cases : (readMessage a x).result = (readMessage b y).result ∨
    ∃ length, announced x = some length ∧
      (a < length ∧ (readMessage a x).result = .error (.payloadTooLarge length a) ∨
        b < length ∧ (readMessage b y).result = .error (.payloadTooLarge length b))
  /-- The greater limit gives every message that the smaller one does. -/
  mono : a ≤ b → ∀ m, (readMessage a x).result = .ok m → (readMessage b y).result = .ok m
  mono_symm : b ≤ a → ∀ m, (readMessage b y).result = .ok m → (readMessage a x).result = .ok m

theorem aligned_self (a b : Nat) (s : σ) : Aligned a b s s where
  eq := rfl
  rest_eq := rest_readMessage_eq a b s
  result_cases := by
    rcases Nat.le_total a b with hle | hle
    · rcases result_readMessage_cases hle s with heq | ⟨length, hann, hrefused⟩
      · exact Or.inl heq
      · exact Or.inr ⟨length, hann, Or.inl hrefused⟩
    · rcases result_readMessage_cases hle s with heq | ⟨length, hann, hrefused⟩
      · exact Or.inl heq.symm
      · exact Or.inr ⟨length, hann, Or.inr hrefused⟩
  mono := fun hle _ => result_readMessage_mono hle
  mono_symm := fun hle _ => result_readMessage_mono hle

/-- However two readers of one source set their limits, before this read and before
all that went ahead of it, they stay aligned. -/
theorem calls_aligned (past : List (Nat × Nat)) (a b : Nat) (s : σ) :
    Aligned a b (calls (past.map Prod.fst) s).2 (calls (past.map Prod.snd) s).2 := by
  rw [rest_calls_eq past s]
  exact aligned_self a b _

/-- A payload is cut by a close, behind which the source goes on.  One limit
refuses it and the other misses a word.  Then both read the block behind it. -/
theorem calls_aligned_cut :
    let s : Script :=
      [.ok 0x10000008, .ok 0x0C04000B, .error .closed, .ok 0x10000003, .ok 0x0C04000B]
    (calls [7] s).1 = [.error (.payloadTooLarge 8 7)] ∧
      (calls [8] s).1 = [.error (.truncated 1)] ∧ (calls [7] s).2 = (calls [8] s).2 ∧ 3 ≤ 4 ∧
      (readMessage 4 (calls [8] s).2).result = .ok (.data 1 [0x0B, 0x00, 0x04]) := by
  intro s
  have h := calls_aligned [(7, 8)] 3 4 s
  exact ⟨rfl, rfl, h.eq, by decide, h.mono (by decide) _ rfl⟩

end Reader

end WordFifo
