import WordFifo.Proofs.BytePlaces
import WordFifo.Proofs.Reencoding

/-!
# What a read takes off a script

A header says how many words follow it (`Kind.extraWords`).  A read never asks
for that number.  A value takes one word, a block counts its words in one loop
or in another, and each loop has its own way with a close.  All the same a read
takes the header and the announced words, or it stops at the first error among
them (`Intake`).  The message that it gives is told by the bits of the header and
by the bytes behind it (`Message.Told`).

So a header that is read alone, with as many words received behind it as it
announces, leaves the script where a read leaves it (`rest_readMessage`).  Every
read of a script with items left takes one at least, and as many reads as there
are items exhaust it (`rest_calls_of_length_le`).
-/

namespace WordFifo

open Reader

/-- A header announces a block of `size` bytes, and the limit is smaller. -/
def Header.Exceeds (h : Header) (limit size : Nat) : Prop :=
  ∃ length, h.kind = .data length ∧ size = length.toNat ∧ limit < size

/-- Takes words one by one, at most so many, and stops behind the first error. -/
def Source.draw {σ : Type} [Source σ] : Nat → σ → σ
  | 0, s => s
  | n + 1, s =>
    match receive s with
    | (.ok _, t) => draw n t
    | (.error _, t) => t

variable {σ : Type} [Source σ] {s t u : σ} {w : UInt32} {ws : List UInt32} {e : CarrierError}
variable {limit size : Nat}

/-! ## Blocks above the limit -/

theorem Kind.refused?_eq_some_iff :
    (Kind.ofWord w).refused? limit = some size ↔ (Header.ofWord w).Exceeds limit size := by
  simp only [Header.Exceeds, Header.ofWord]
  cases Kind.ofWord w with
  | data length =>
      rw [refused?]
      constructor
      · intro h
        split at h
        · next hlt =>
            obtain rfl := Option.some.inj h
            exact ⟨length, rfl, rfl, hlt⟩
        · cases h
      · rintro ⟨length, hk, rfl, hlt⟩
        cases hk
        exact if_pos hlt
  | _ => simp [refused?]

theorem Kind.refused?_eq_none (h : ∀ size, ¬(Header.ofWord w).Exceeds limit size) :
    (Kind.ofWord w).refused? limit = none :=
  Option.eq_none_iff_forall_ne_some.mpr fun size hr => h size (refused?_eq_some_iff.mp hr)

/-! ## What the words of a message tell -/

/-- The message of a header word and the words behind it, by their bits and bytes. -/
inductive Message.Told (w : UInt32) (ws : List UInt32) : Message → Prop where
  | smallImmediate {c : Channel} {v : UInt32} (hbits : w.toNat / 2 ^ 25 % 8 = 2)
      (hc : c.val = w.toNat / 2 ^ 28) (hv : v.toNat = w.toNat % 2 ^ 25) : Told w ws (.value32 c v)
  | largeImmediate {c : Channel} {v : UInt32} (hbits : w.toNat / 2 ^ 25 % 8 = 3)
      (hc : c.val = w.toNat / 2 ^ 28) (hv : ws = [v]) : Told w ws (.value32 c v)
  | address {c : Channel} {a : UInt32} (hbits : w.toNat / 2 ^ 26 % 4 = 2)
      (hc : c.val = w.toNat / 2 ^ 28) (ha : a.toNat = 2 ^ 25 + w.toNat % 2 ^ 24) :
      Told w ws (.address c a)
  /-- As many bytes as the header says, from the first place on. -/
  | data {c : Channel} (hbits : w.toNat / 2 ^ 26 % 4 = 0) (hc : c.val = w.toNat / 2 ^ 28) :
      Told w ws (.data c ((List.range (w.toNat % 2 ^ 25)).map (Payload.byteAt ws)))
  | special {code : UInt32} (hbits : w.toNat / 2 ^ 26 % 4 = 3)
      (hcode : code.toNat = w.toNat % 2 ^ 24) : Told w ws (.special (Command.ofCode code))

theorem Message.told_ofWords (h : ws.length = (Kind.ofWord w).extraWords) :
    Told w ws (ofWords w ws) := by
  have hc : (Channel.ofWord w).val = w.toNat / 2 ^ 28 := Channel.val_ofWord w
  obtain ⟨hb, hk⟩ | ⟨hb, hk⟩ | ⟨hb, hk⟩ | ⟨hb, hk⟩ | ⟨hb, hk⟩ := Kind.ofWord_cases w
  · rw [hk, Kind.extraWords_data, Kind.wordsFor_eq] at h
    have hmin : min (Word.value w).toNat (4 * ws.length) = (Word.value w).toNat :=
      Nat.min_eq_left (by omega)
    rw [ofWords_of_data hk, Payload.unpack_eq, hmin, Word.toNat_value]
    exact .data hb hc
  · rw [ofWords_of_smallImmediate hk]
    exact .smallImmediate hb hc (Word.toNat_value w)
  · rw [hk, Kind.extraWords_largeImmediate] at h
    obtain ⟨v, rfl⟩ := List.length_eq_one_iff.mp h
    rw [ofWords_of_largeImmediate hk]
    exact .largeImmediate hb hc rfl
  · rw [ofWords_of_address hk]
    exact .address hb hc (Word.toNat_address w)
  · rw [ofWords_of_special hk]
    exact .special hb (Word.toNat_code w)

/-- A message goes where its header says. -/
theorem Message.channel_ofWords (w : UInt32) (ws : List UInt32) :
    (ofWords w ws).channel = (Header.ofWord w).route := by
  simp only [ofWords, Header.ofWord, Header.route]
  cases Kind.ofWord w <;> rfl

/-! ## The header alone, and receives behind it -/

namespace Source

theorem draw_of_gives (h : Gives s ws t) : draw ws.length s = t := by
  induction h with
  | nil => rfl
  | cons hr _ ih => simp only [List.length_cons, draw, hr, ih]

theorem draw_of_stop (h : Gives s ws t) (he : receive t = (.error e, u)) :
    ∀ {n : Nat}, ws.length < n → draw n s = u := by
  induction h with
  | nil =>
      intro n hn
      obtain ⟨n, rfl⟩ := Nat.exists_eq_add_one.mpr hn
      simp only [draw, he]
  | cons hr _ ih =>
      intro n hn
      obtain ⟨n, rfl⟩ := Nat.exists_eq_add_one.mpr (Nat.zero_lt_of_lt hn)
      simp only [draw, hr, ih he (Nat.lt_of_succ_lt_succ hn)]

end Source

theorem readHeader_of_gives (h : Source.Gives s (w :: ws) t) :
    (readHeader s).result = .ok (Header.ofWord w) ∧ Source.Gives (readHeader s).rest ws t := by
  cases h with
  | cons hr h =>
      rw [readHeader, hr]
      exact ⟨rfl, h⟩

/-- A read leaves what the receives leave that its header asks for. -/
theorem rest_readMessage (limit : Nat) (s : σ) :
    (readMessage limit s).rest =
      match (readHeader s).result with
      | .ok h => Source.draw h.kind.extraWords (readHeader s).rest
      | .error _ => (readHeader s).rest := by
  cases meets s with
  | failed he =>
      rw [(readMessage_of_end limit he).2]
      simp only [readHeader, he]
  | @whole w ws t hg hn =>
      obtain ⟨hheader, hlater⟩ := readHeader_of_gives hg
      have hdraw := Source.draw_of_gives hlater
      rw [hn] at hdraw
      rw [(readMessage_of_gives limit hg hn).2, hheader]
      exact hdraw.symm
  | cut hg he hn =>
      obtain ⟨hheader, hlater⟩ := readHeader_of_gives hg
      rw [(readMessage_of_stop limit hg he hn).2, hheader]
      exact (Source.draw_of_stop hlater he hn).symm

/-! ## Reads of a script -/

/-- What a read of a script takes and reports. -/
structure Intake (limit : Nat) (s : Script) : Prop where
  /-- An error comes first, or nothing does.  Nothing else is taken. -/
  failed : ∀ e t, Source.receive s = (.error e, t) →
    (readMessage limit s).rest = t ∧ (readMessage limit s).result = .error (.carrier e)
  /-- The announced words are there and are taken.  The message is what they tell, and
  the block is refused exactly when it exceeds the limit. -/
  whole : ∀ (w : UInt32) (ws : List UInt32) (t : Script), s = .ok w :: (ws.map .ok ++ t) →
    ws.length = (Header.ofWord w).kind.extraWords →
    (readMessage limit s).rest = t ∧
    ((∀ size, ¬(Header.ofWord w).Exceeds limit size) →
      (readMessage limit s).result = .ok (Message.ofWords w ws)) ∧
    Message.Told w ws (Message.ofWords w ws) ∧
    ∀ size, (Header.ofWord w).Exceeds limit size ↔
      (readMessage limit s).result = .error (.payloadTooLarge size limit)
  /-- An error comes before the last announced word, or the script ends there.  Nothing
  behind that is taken. -/
  stopped : ∀ (w : UInt32) (ws : List UInt32) (t : Script) (e : CarrierError) (u : Script),
    s = .ok w :: (ws.map .ok ++ t) → Source.receive t = (.error e, u) →
    ws.length < (Header.ofWord w).kind.extraWords →
    (readMessage limit s).rest = u ∧
    (e ≠ .closed → (readMessage limit s).result = .error (.carrier e)) ∧
    (e = .closed → (∀ size, ¬(Header.ofWord w).Exceeds limit size) →
      (readMessage limit s).result =
        .error (.truncated ((Header.ofWord w).kind.extraWords - ws.length))) ∧
    (e = .closed → ∀ size, (Header.ofWord w).Exceeds limit size →
      (readMessage limit s).result = .error (.payloadTooLarge size limit))
  /-- A message goes where its header says. -/
  channel : ∀ m, (readMessage limit s).result = .ok m →
    ∃ w t, s = .ok w :: t ∧ m.channel = (Header.ofWord w).route
  /-- The header alone, and then the receives that it asks for, end at the same item. -/
  header : ∀ h, (readHeader s).result = .ok h →
    Source.draw h.kind.extraWords (readHeader s).rest = (readMessage limit s).rest
  /-- Something is taken where something is left. -/
  progress : s ≠ [] → (readMessage limit s).rest.length < s.length

theorem gives_of_eq {s t : Script} (h : s = .ok w :: (ws.map .ok ++ t)) :
    Source.Gives s (w :: ws) t := by
  subst h
  exact Source.gives_script t (w :: ws)

/-- A read of a script takes its first item, and none is put back. -/
theorem length_rest_lt (limit : Nat) {s : Script} (h : s ≠ []) :
    (readMessage limit s).rest.length < s.length := by
  cases s with
  | nil => exact absurd rfl h
  | cons item t =>
      cases item with
      | error e =>
          rw [(readMessage_of_end limit (receive_script_cons (.error e) t)).2]
          exact Nat.lt_succ_self _
      | ok w =>
          have hle := size_readBody_le limit (Header.ofWord w) t
          exact Nat.lt_succ_of_le hle

theorem intake (limit : Nat) (s : Script) : Intake limit s where
  failed e t he := (readMessage_of_end limit he).symm
  whole w ws t hs hn := by
    obtain ⟨hresult, hrest⟩ := readMessage_of_gives limit (gives_of_eq hs) hn
    rw [hresult, hrest]
    refine ⟨rfl, fun hfits => ?_, Message.told_ofWords hn, fun size => ?_⟩
    · rw [decode, Kind.refused?_eq_none hfits]
    · rw [← Kind.refused?_eq_some_iff, decode]
      cases (Kind.ofWord w).refused? limit <;> simp
  stopped w ws t e u hs he hn := by
    obtain ⟨hresult, hrest⟩ := readMessage_of_stop limit (gives_of_eq hs) he hn
    rw [hresult, hrest]
    refine ⟨rfl, fun hother => ?_, fun hclosed hfits => ?_, fun hclosed size hexceeds => ?_⟩
    · rw [decodeStopped_of_ne_closed hother, stopped_of_ne_closed hother]
    · subst hclosed
      simp only [decodeStopped, Kind.refused?_eq_none hfits]
      rfl
    · subst hclosed
      simp only [decodeStopped, Kind.refused?_eq_some_iff.mpr hexceeds]
  channel m h := by
    obtain ⟨w, ws, hgives, -, hdecode⟩ := gives_of_readMessage h
    obtain ⟨-, rfl⟩ := decode_eq_ok hdecode
    exact ⟨w, _, Source.eq_append_of_gives_script hgives, Message.channel_ofWords w ws⟩
  header h hheader := by
    rw [rest_readMessage, hheader]
  progress := length_rest_lt limit

/-- As many reads as there are items leave nothing, whatever their limits are. -/
theorem rest_calls_of_length_le {limits : List Nat} {s : Script}
    (h : s.length ≤ limits.length) : (calls limits s).2 = [] := by
  induction limits generalizing s with
  | nil => exact List.eq_nil_of_length_eq_zero (Nat.le_zero.mp h)
  | cons limit limits ih =>
      rw [calls]
      apply ih
      by_cases hs : s = []
      · subst hs
        exact Nat.zero_le _
      · have hlt := length_rest_lt limit hs
        rw [List.length_cons] at h
        omega

/-- A read takes what its header announces and reports what became of it, and a row of
reads comes to the end of every script. -/
theorem intake_of_script (limit : Nat) (s : Script) :
    Intake limit s ∧ ∀ limits : List Nat, s.length ≤ limits.length → (calls limits s).2 = [] :=
  ⟨intake limit s, fun _ => rest_calls_of_length_le⟩

end WordFifo
