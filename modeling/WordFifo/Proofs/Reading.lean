import WordFifo.Proofs.Delivery
import WordFifo.Reader

/-!
# What one read does

A header word fixes what its read does, on every source.  Three things can
happen, and each has one lemma that gives the result and the source after it.

* The source fails at the header (`readMessage_of_end`).
* It gives the header and all announced words (`readMessage_of_gives`).  The
  result is `decode`, a function of these words and the limit alone.
* It gives the header and fails before the last announced word
  (`readMessage_of_stop`).

`gives_of_readMessage` goes back from a message to the words that it came from.

`calls` is a row of reads, each with a limit of its own.
-/

namespace WordFifo

variable {σ : Type} [Source σ] {s t u : σ} {w : UInt32} {ws : List UInt32} {e : CarrierError}

/-! ## Words and results -/

namespace Kind

theorem extraWords_smallImmediate (v : UInt32) : (smallImmediate v).extraWords = 0 := rfl

theorem extraWords_largeImmediate : largeImmediate.extraWords = 1 := rfl

theorem extraWords_address (a : UInt32) : (address a).extraWords = 0 := rfl

theorem extraWords_data (length : UInt32) :
    (data length).extraWords = wordsFor length.toNat := rfl

theorem extraWords_special (code : UInt32) : (special code).extraWords = 0 := rfl

/-- The length of a payload that a limit refuses. -/
def refused? (limit : Nat) : Kind → Option Nat
  | .data length => if limit < length.toNat then some length.toNat else none
  | _ => none

theorem le_of_refused?_data {limit : Nat} {length : UInt32}
    (h : (data length).refused? limit = none) : length.toNat ≤ limit := by
  rw [refused?] at h
  split at h
  · cases h
  · next hle => exact Nat.le_of_not_lt hle

end Kind

/-- The message of a header word and the words behind it. -/
def Message.ofWords (w : UInt32) (ws : List UInt32) : Message :=
  match Kind.ofWord w with
  | .smallImmediate v => .value32 (Channel.ofWord w) v
  | .largeImmediate => .value32 (Channel.ofWord w) (ws.headD 0)
  | .address a => .address (Channel.ofWord w) a
  | .data length => .data (Channel.ofWord w) (Payload.unpack ws length.toNat)
  | .special code => .special (Command.ofCode code)

namespace Reader

/-- What a read gives for a header word and all the words it announces. -/
def decode (limit : Nat) (w : UInt32) (ws : List UInt32) : Except MessageError Message :=
  match (Kind.ofWord w).refused? limit with
  | some size => .error (.payloadTooLarge size limit)
  | none => .ok (Message.ofWords w ws)

/-- The error of a message that stops with some words missing. -/
def stopped (missing : Nat) : CarrierError → MessageError
  | .closed => .truncated missing
  | e => .carrier e

/-- What a read gives for a header word whose words stop.  A payload that is
refused is refused also when it is cut short. -/
def decodeStopped (limit : Nat) (w : UInt32) (missing : Nat) (e : CarrierError) : MessageError :=
  match (Kind.ofWord w).refused? limit, e with
  | some size, .closed => .payloadTooLarge size limit
  | _, e => stopped missing e

/-- Only a close is turned into a refusal. -/
theorem decodeStopped_of_ne_closed (he : e ≠ .closed) (limit : Nat) (w : UInt32) (missing : Nat) :
    decodeStopped limit w missing e = stopped missing e := by
  unfold decodeStopped
  split
  · exact absurd rfl he
  · rfl

theorem stopped_of_ne_closed (he : e ≠ .closed) (missing : Nat) :
    stopped missing e = .carrier e := by
  cases e with
  | closed => exact absurd rfl he
  | _ => rfl

/-- How skipping words ends when some are missing. -/
def Skip.stopped (missing : Nat) : CarrierError → Skip
  | .closed => .cut missing
  | e => .failed e

/-! ## The two loops -/

theorem collect_of_gives (h : Source.Gives s ws t) : collect ws.length s = (.ok ws, t) := by
  induction h with
  | nil => rfl
  | cons hr _ ih => simp only [List.length_cons, collect, hr, ih]

theorem collect_of_stop (h : Source.Gives s ws t) (he : Source.receive t = (.error e, u)) :
    ∀ {n : Nat}, ws.length < n → collect n s = (.error (stopped (n - ws.length) e), u) := by
  induction h with
  | nil =>
      intro n hn
      obtain ⟨n, rfl⟩ := Nat.exists_eq_add_one.mpr hn
      cases e <;> simp only [collect, he, stopped, List.length_nil, Nat.sub_zero]
  | @cons _ _ _ w ws hr _ ih =>
      intro n hn
      obtain ⟨n, rfl⟩ := Nat.exists_eq_add_one.mpr (Nat.zero_lt_of_lt hn)
      have hlt : ws.length < n := Nat.lt_of_succ_lt_succ hn
      simp only [collect, hr, ih he hlt, List.length_cons, Nat.add_sub_add_right]

theorem skip_of_gives (h : Source.Gives s ws t) : skip ws.length s = (.whole, t) := by
  induction h with
  | nil => rfl
  | cons hr _ ih => simp only [List.length_cons, skip, hr, ih]

theorem skip_of_stop (h : Source.Gives s ws t) (he : Source.receive t = (.error e, u)) :
    ∀ {n : Nat}, ws.length < n → skip n s = (Skip.stopped (n - ws.length) e, u) := by
  induction h with
  | nil =>
      intro n hn
      obtain ⟨n, rfl⟩ := Nat.exists_eq_add_one.mpr hn
      cases e <;> simp only [skip, he, Skip.stopped, List.length_nil, Nat.sub_zero]
  | @cons _ _ _ w ws hr _ ih =>
      intro n hn
      obtain ⟨n, rfl⟩ := Nat.exists_eq_add_one.mpr (Nat.zero_lt_of_lt hn)
      have hlt : ws.length < n := Nat.lt_of_succ_lt_succ hn
      simp only [skip, hr, ih he hlt, List.length_cons, Nat.add_sub_add_right]

/-! ## What follows the header -/

theorem refuseData_of_gives (limit : Nat) {length : Nat} (h : Source.Gives s ws t)
    (hn : ws.length = Kind.wordsFor length) :
    (refuseData limit length s).result = .error (.payloadTooLarge length limit) ∧
      (refuseData limit length s).rest = t := by
  have hs := skip_of_gives h
  rw [hn] at hs
  simp only [refuseData, hs, and_self]

theorem refuseData_of_stop (limit : Nat) {length : Nat} (h : Source.Gives s ws t)
    (he : Source.receive t = (.error e, u)) (hn : ws.length < Kind.wordsFor length) :
    (refuseData limit length s).result = .error (match e with
        | .closed => .payloadTooLarge length limit
        | e => .carrier e) ∧
      (refuseData limit length s).rest = u := by
  have hs := skip_of_stop h he hn
  cases e <;> simp only [refuseData, hs, Skip.stopped, and_self]

theorem readBody_of_gives (limit : Nat) (h : Source.Gives s ws t)
    (hn : ws.length = (Kind.ofWord w).extraWords) :
    (readBody limit (Header.ofWord w) s).result = decode limit w ws ∧
      (readBody limit (Header.ofWord w) s).rest = t := by
  have hc := collect_of_gives h
  rw [hn] at hc
  unfold readBody decode Message.ofWords Header.ofWord
  cases hk : Kind.ofWord w with
  | smallImmediate v =>
      rw [hk, Kind.extraWords_smallImmediate] at hn
      obtain rfl := List.eq_nil_of_length_eq_zero hn
      cases h
      exact ⟨rfl, rfl⟩
  | largeImmediate =>
      rw [hk, Kind.extraWords_largeImmediate] at hc
      simp only [hc, Kind.refused?, and_self]
  | address a =>
      rw [hk, Kind.extraWords_address] at hn
      obtain rfl := List.eq_nil_of_length_eq_zero hn
      cases h
      exact ⟨rfl, rfl⟩
  | data length =>
      rw [hk, Kind.extraWords_data] at hn hc
      by_cases hl : limit < length.toNat
      · have hr := refuseData_of_gives limit h hn
        simp only [Kind.refused?, if_pos hl, hr, and_self]
      · simp only [Kind.refused?, if_neg hl, hc, and_self]
  | special code =>
      rw [hk, Kind.extraWords_special] at hn
      obtain rfl := List.eq_nil_of_length_eq_zero hn
      cases h
      exact ⟨rfl, rfl⟩

theorem readBody_of_stop (limit : Nat) (h : Source.Gives s ws t)
    (he : Source.receive t = (.error e, u)) (hn : ws.length < (Kind.ofWord w).extraWords) :
    (readBody limit (Header.ofWord w) s).result =
        .error (decodeStopped limit w ((Kind.ofWord w).extraWords - ws.length) e) ∧
      (readBody limit (Header.ofWord w) s).rest = u := by
  have hc := collect_of_stop h he hn
  unfold readBody decodeStopped Header.ofWord
  cases hk : Kind.ofWord w with
  | smallImmediate v =>
      rw [hk, Kind.extraWords_smallImmediate] at hn
      exact absurd hn (Nat.not_lt_zero _)
  | largeImmediate =>
      rw [hk, Kind.extraWords_largeImmediate] at hc
      simp only [hc, Kind.refused?, Kind.extraWords_largeImmediate, and_self]
  | address a =>
      rw [hk, Kind.extraWords_address] at hn
      exact absurd hn (Nat.not_lt_zero _)
  | data length =>
      rw [hk, Kind.extraWords_data] at hn hc
      by_cases hl : limit < length.toNat
      · have hr := refuseData_of_stop limit h he hn
        cases e <;> simp only [Kind.refused?, if_pos hl, hr, stopped, and_self]
      · simp only [Kind.refused?, if_neg hl, hc, Kind.extraWords_data, and_self]
  | special code =>
      rw [hk, Kind.extraWords_special] at hn
      exact absurd hn (Nat.not_lt_zero _)

/-! ## One read -/

theorem readMessage_of_end (limit : Nat) (he : Source.receive s = (.error e, t)) :
    (readMessage limit s).result = .error (.carrier e) ∧ (readMessage limit s).rest = t := by
  simp only [readMessage, readHeader, he, and_self]

theorem readMessage_of_gives (limit : Nat) (h : Source.Gives s (w :: ws) t)
    (hn : ws.length = (Kind.ofWord w).extraWords) :
    (readMessage limit s).result = decode limit w ws ∧ (readMessage limit s).rest = t := by
  cases h with
  | cons hr h =>
      have hb := readBody_of_gives limit h hn
      simp only [readMessage, readHeader, hr, hb, and_self]

theorem readMessage_of_stop (limit : Nat) (h : Source.Gives s (w :: ws) t)
    (he : Source.receive t = (.error e, u)) (hn : ws.length < (Kind.ofWord w).extraWords) :
    (readMessage limit s).result =
        .error (decodeStopped limit w ((Kind.ofWord w).extraWords - ws.length) e) ∧
      (readMessage limit s).rest = u := by
  cases h with
  | cons hr h =>
      have hb := readBody_of_stop limit h he hn
      simp only [readMessage, readHeader, hr, hb, and_self]

/-- What a read meets, whatever its limit is. -/
inductive Meets (s : σ) : Prop where
  /-- The source fails at the header. -/
  | failed {e : CarrierError} {t : σ} (he : Source.receive s = (.error e, t))
  /-- A header and all the words it announces. -/
  | whole {w : UInt32} {ws : List UInt32} {t : σ} (hg : Source.Gives s (w :: ws) t)
      (hn : ws.length = (Kind.ofWord w).extraWords)
  /-- A header, and too few words behind it. -/
  | cut {w : UInt32} {ws : List UInt32} {t u : σ} {e : CarrierError}
      (hg : Source.Gives s (w :: ws) t) (he : Source.receive t = (.error e, u))
      (hn : ws.length < (Kind.ofWord w).extraWords)

theorem meets (s : σ) : Meets s := by
  cases hr : Source.receive s with
  | mk item s' =>
      cases item with
      | error e => exact .failed hr
      | ok w =>
          rcases Source.gives_or_stops (Kind.ofWord w).extraWords s' with
            ⟨ws, t, hn, hg⟩ | ⟨ws, t, e, u, hn, hg, he⟩
          · exact .whole (.cons hr hg) hn
          · exact .cut (.cons hr hg) he hn

/-- A message comes from a header word and the words it announces, and from no
others. -/
theorem gives_of_readMessage {limit : Nat} {m : Message}
    (h : (readMessage limit s).result = .ok m) :
    ∃ w ws, Source.Gives s (w :: ws) (readMessage limit s).rest ∧
      ws.length = (Kind.ofWord w).extraWords ∧ decode limit w ws = .ok m := by
  cases meets s with
  | failed he =>
      rw [(readMessage_of_end limit he).1] at h
      cases h
  | @whole w ws t hg hn =>
      obtain ⟨hres, hrest⟩ := readMessage_of_gives limit hg hn
      rw [hrest]
      exact ⟨w, ws, hg, hn, hres ▸ h⟩
  | cut hg he hn =>
      rw [(readMessage_of_stop limit hg he hn).1] at h
      cases h

/-! ## Rows of reads -/

/-- Reads in a row, one for each limit: what they give, and the source after
them. -/
def calls : List Nat → σ → List (Except MessageError Message) × σ
  | [], s => ([], s)
  | limit :: limits, s =>
    let first := readMessage limit s
    let later := calls limits first.rest
    (first.result :: later.1, later.2)

/-- The first `n` of some answers, where `closed` follows the last of them for
ever. -/
def thenClosed : Nat → List (Except MessageError Message) → List (Except MessageError Message)
  | 0, _ => []
  | n + 1, [] => .error (.carrier .closed) :: thenClosed n []
  | n + 1, answer :: answers => answer :: thenClosed n answers

theorem thenClosed_succ (n : Nat) (answers : List (Except MessageError Message)) :
    thenClosed (n + 1) answers =
      thenClosed n answers ++ [answers.getD n (.error (.carrier .closed))] := by
  induction n generalizing answers with
  | zero => cases answers <;> rfl
  | succ n ih =>
      cases answers with
      | nil => exact congrArg _ (ih [])
      | cons answer answers => exact congrArg _ (ih answers)

/-- What is a message among the answers that are given is one of the answers. -/
theorem getElem?_of_thenClosed {n i : Nat} {answers : List (Except MessageError Message)}
    {m : Message} (h : (thenClosed n answers)[i]? = some (.ok m)) :
    answers[i]? = some (.ok m) := by
  induction n generalizing i answers with
  | zero => cases h
  | succ n ih =>
      cases answers with
      | nil =>
          cases i with
          | zero => cases h
          | succ i => exact absurd (ih h) (by simp)
      | cons answer answers =>
          cases i with
          | zero => exact h
          | succ i =>
              show answers[i]? = some (.ok m)
              exact ih h

/-- A source at its end answers every read with `closed`. -/
theorem calls_of_ended : ∀ (limits : List Nat) {s : σ}, Source.Ended s →
    (calls limits s).1 = thenClosed limits.length []
  | [], _, _ => rfl
  | limit :: limits, _, h => by
      obtain ⟨t, hr, ht⟩ := h.receive
      obtain ⟨hres, hrest⟩ := readMessage_of_end limit hr
      simp only [calls, hres, hrest, calls_of_ended limits ht, List.length_cons, thenClosed]

/-- Whether a read over a loopback queue has to wait for a word. -/
def waits : Except MessageError Message → Bool
  | .error (.carrier e) => e == LoopbackQueue.wouldBlock
  | _ => false

/-! ## Sources that hold the same words -/

/-- A read sees nothing of a source but the words that it holds. -/
theorem readMessage_of_holds (limit : Nat) (h : Source.Holds s ws) :
    (readMessage limit s).result = (readMessage limit ws).result ∧
      Source.Holds (readMessage limit s).rest (readMessage limit ws).rest := by
  obtain ⟨t, hg, ht⟩ := h
  cases ws with
  | nil =>
      cases hg
      obtain ⟨u, hr, hu⟩ := ht.receive
      obtain ⟨hresult, hrest⟩ := readMessage_of_end limit hr
      obtain ⟨hresult', hrest'⟩ := readMessage_of_end limit receive_words_nil
      rw [hresult, hresult', hrest, hrest']
      exact ⟨rfl, u, .nil, hu⟩
  | cons w ws =>
      by_cases hn : (Kind.ofWord w).extraWords ≤ ws.length
      · -- Both give the whole message.
        have htake : (ws.take (Kind.ofWord w).extraWords).length = (Kind.ofWord w).extraWords :=
          List.length_take_of_le hn
        have hsplit : w :: ws =
            (w :: ws.take (Kind.ofWord w).extraWords) ++ ws.drop (Kind.ofWord w).extraWords := by
          rw [List.cons_append, List.take_append_drop]
        rw [hsplit] at hg ⊢
        obtain ⟨r, hmessage, hlater⟩ := hg.split
        obtain ⟨hresult, hrest⟩ := readMessage_of_gives limit hmessage htake
        obtain ⟨hresult', hrest'⟩ := readMessage_of_gives limit (Source.gives_words _ _) htake
        rw [hresult, hresult', hrest, hrest']
        exact ⟨rfl, t, hlater, ht⟩
      · -- Both stop at the same word.
        have hlt := Nat.lt_of_not_le hn
        obtain ⟨u, hr, hu⟩ := ht.receive
        obtain ⟨hresult, hrest⟩ := readMessage_of_stop limit hg hr hlt
        obtain ⟨hresult', hrest'⟩ :=
          readMessage_of_stop limit (Source.gives_self (w :: ws)) receive_words_nil hlt
        rw [hresult, hresult', hrest, hrest']
        exact ⟨rfl, u, .nil, hu⟩

/-- Nor does a row of reads. -/
theorem calls_of_holds (limits : List Nat) (h : Source.Holds s ws) :
    (calls limits s).1 = (calls limits ws).1 := by
  induction limits generalizing s ws with
  | nil => rfl
  | cons limit limits ih =>
      obtain ⟨hresult, hrest⟩ := readMessage_of_holds limit h
      rw [calls, calls, hresult, ih hrest]

end Reader

end WordFifo
