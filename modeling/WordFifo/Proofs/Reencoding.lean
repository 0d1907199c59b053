import WordFifo.Proofs.Packing
import WordFifo.Proofs.Padding

/-!
# Messages encoded again

A reader accepts every word as a header, so the words of a message need not be
those that an encoder writes.  Each kind of header has bits that are not read, a
small value may come in a word of its own, and the padding of a payload may hold
anything.

All the same, what was read can be encoded again, under the limit it was read
with, in no more words (`repacks_ofWords`), and it is then read as itself.  The
words come back unchanged exactly when they are `Canonical`.
-/

namespace WordFifo

/-- A header word and the words behind it, with nothing in them that a read
ignores.  A value in a word of its own needs it, and the bytes behind a payload
are zero. -/
def Canonical (w : UInt32) (ws : List UInt32) : Prop :=
  match Kind.ofWord w with
  | .smallImmediate _ => True
  | .largeImmediate => w.toNat % 2 ^ 25 = 0 ∧ ∀ v ∈ ws, 2 ^ 25 ≤ v.toNat
  | .address _ => w.toNat / 2 ^ 24 % 4 = 0
  | .data length =>
    w.toNat / 2 ^ 25 % 2 = 0 ∧ ∀ b ∈ (ws.flatMap Payload.bytes).drop length.toNat, b = 0
  | .special _ => w.toNat / 2 ^ 24 % 4 = 0 ∧ w.toNat / 2 ^ 28 = 0

variable {σ : Type} [Source σ] {s : σ} {limit : Nat} {w : UInt32} {ws : List UInt32} {m : Message}

/-! ## What a read gives is within all bounds -/

/-- What comes off the wire names every command by its code. -/
theorem Message.received_ofWords (w : UInt32) (ws : List UInt32) :
    (ofWords w ws).received = ofWords w ws := by
  unfold ofWords
  cases Kind.ofWord w with
  | special code =>
      simp only [received]
      rw [Command.code_ofCode, Command.ofCode_mod_commandSize]
  | _ => rfl

theorem Reader.decode_eq_ok (h : decode limit w ws = .ok m) :
    (Kind.ofWord w).refused? limit = none ∧ m = Message.ofWords w ws := by
  unfold decode at h
  cases hr : (Kind.ofWord w).refused? limit with
  | some size => rw [hr] at h; cases h
  | none =>
      rw [hr] at h
      exact ⟨rfl, (Except.ok.inj h).symm⟩

/-! ## Words that were read, packed again -/

/-- The message has a packed form that is no longer than the words, and is the
words exactly when they are canonical. -/
def Repacks (limit : Nat) (m : Message) (w : UInt32) (ws : List UInt32) : Prop :=
  ∃ e, m.Packed limit e ∧ e.wordCount ≤ (w :: ws).length ∧ (e.words = w :: ws ↔ Canonical w ws)

/-- The limit has let the length of a block pass, and the header can hold it. -/
theorem repacks_data (hb : w.toNat / 2 ^ 26 % 4 = 0)
    (hk : Kind.ofWord w = .data (Word.value w)) (hle : (Word.value w).toNat ≤ limit)
    (hn : ws.length = Kind.wordsFor (Word.value w).toNat) :
    Repacks limit (Message.ofWords w ws) w ws := by
  have hlt : (Word.value w).toNat < 2 ^ 25 := by rw [Word.toNat_value]; omega
  have hlen : (Payload.unpack ws (Word.value w).toNat).length = (Word.value w).toNat :=
    Payload.length_unpack (by rw [hn, Kind.wordsFor_eq]; omega)
  rw [Message.ofWords_of_data hk, Repacks, Canonical, hk]
  refine ⟨_, .data (by rw [hlen]; exact hle) (by rw [hlen]; exact hlt), ?_, ?_⟩
  · rw [Encoded.wordCount, Payload.length_pack, hlen, ← hn, List.length_cons]
    omega
  · rw [Encoded.words, List.cons.injEq, hlen, UInt32.ofNat_toNat, Pack.data_ofWord hb,
      Payload.pack_unpack_eq_iff hn]

theorem repacks_smallImmediate (hb : w.toNat / 2 ^ 25 % 8 = 2)
    (hk : Kind.ofWord w = .smallImmediate (Word.value w)) :
    Repacks limit (Message.ofWords w []) w [] := by
  have hlt : (Word.value w).toNat < 2 ^ 25 := by rw [Word.toNat_value]; omega
  rw [Message.ofWords_of_smallImmediate hk, Repacks, Canonical, hk]
  refine ⟨_, .small hlt, Nat.le_refl _, ?_⟩
  rw [Encoded.words, Pack.smallImmediate_ofWord hb]
  exact iff_of_true rfl trivial

/-- A value in a word of its own may fit a header, and is then packed shorter. -/
theorem repacks_largeImmediate (hb : w.toNat / 2 ^ 25 % 8 = 3)
    (hk : Kind.ofWord w = .largeImmediate) (v : UInt32) :
    Repacks limit (Message.ofWords w [v]) w [v] := by
  rw [Message.ofWords_of_largeImmediate hk, List.headD_cons, Repacks, Canonical, hk]
  by_cases hv : v.toNat < 2 ^ 25
  · refine ⟨_, .small hv, Nat.le_succ 1, ?_⟩
    constructor
    · intro hwords
      have hlen := congrArg List.length hwords
      rw [Encoded.length_words] at hlen
      cases hlen
    · rintro ⟨-, hneeds⟩
      have hge := hneeds v (List.mem_singleton.mpr rfl)
      omega
  · refine ⟨_, .large (Nat.le_of_not_lt hv), Nat.le_refl _, ?_⟩
    rw [Encoded.words, List.cons.injEq, Pack.largeImmediate_ofWord hb]
    constructor
    · rintro ⟨hz, -⟩
      refine ⟨hz, fun x hx => ?_⟩
      rw [List.mem_singleton.mp hx]
      exact Nat.le_of_not_lt hv
    · rintro ⟨hz, -⟩
      exact ⟨hz, rfl⟩

/-- Every address that is read is inside the window. -/
theorem repacks_address (hb : w.toNat / 2 ^ 26 % 4 = 2)
    (hk : Kind.ofWord w = .address (Word.address w)) :
    Repacks limit (Message.ofWords w []) w [] := by
  have hwindow : (Word.address w).toNat / 2 ^ 24 = 2 := by rw [Word.toNat_address]; omega
  rw [Message.ofWords_of_address hk, Repacks, Canonical, hk]
  refine ⟨_, .address hwindow, Nat.le_refl _, ?_⟩
  rw [Encoded.words, List.cons.injEq, Pack.address_ofWord hb]
  exact and_iff_left rfl

theorem repacks_special (hb : w.toNat / 2 ^ 26 % 4 = 3)
    (hk : Kind.ofWord w = .special (Word.code w)) :
    Repacks limit (Message.ofWords w []) w [] := by
  have hcode : (Command.ofCode (Word.code w)).code = Word.code w := by
    rw [Command.code_ofCode, mod_commandSize_eq_iff, Word.toNat_code]
    omega
  rw [Message.ofWords_of_special hk, Repacks, Canonical, hk]
  refine ⟨_, .special, Nat.le_refl _, ?_⟩
  rw [Encoded.words, List.cons.injEq, Command.toWord, hcode, Pack.special_ofWord hb]
  exact and_iff_left rfl

/-- Whatever a limit lets pass can be packed again under it. -/
theorem repacks_ofWords (hr : (Kind.ofWord w).refused? limit = none)
    (hn : ws.length = (Kind.ofWord w).extraWords) :
    Repacks limit (Message.ofWords w ws) w ws := by
  rcases Kind.ofWord_cases w with ⟨hb, hk⟩ | ⟨hb, hk⟩ | ⟨hb, hk⟩ | ⟨hb, hk⟩ | ⟨hb, hk⟩
  · rw [hk] at hr
    rw [hk, Kind.extraWords_data] at hn
    exact repacks_data hb hk (Kind.le_of_refused?_data hr) hn
  · rw [hk, Kind.extraWords_smallImmediate] at hn
    obtain rfl := List.eq_nil_of_length_eq_zero hn
    exact repacks_smallImmediate hb hk
  · rw [hk, Kind.extraWords_largeImmediate] at hn
    obtain ⟨v, rfl⟩ := List.length_eq_one_iff.mp hn
    exact repacks_largeImmediate hb hk v
  · rw [hk, Kind.extraWords_address] at hn
    obtain rfl := List.eq_nil_of_length_eq_zero hn
    exact repacks_address hb hk
  · rw [hk, Kind.extraWords_special] at hn
    obtain rfl := List.eq_nil_of_length_eq_zero hn
    exact repacks_special hb hk

/-- Packed words are read as their message, whatever follows them. -/
theorem Message.Packed.readMessage_words {e : Encoded} (h : m.Packed limit e)
    (rest : List UInt32) :
    (Reader.readMessage limit (e.words ++ rest)).result = .ok m.received ∧
      (Reader.readMessage limit (e.words ++ rest)).rest = rest := by
  rw [← h.answer_eq]
  exact h.readMessage_of_gives limit (Source.gives_words rest e.words)

open Reader

/-- A message that was read off any source can be encoded again under the same
limit.  It then takes no more words than were read, it is read as itself, and
its words are those that were read exactly when these were canonical. -/
theorem reencode_of_readMessage (h : (readMessage limit s).result = .ok m) :
    ∃ w ws e, Source.Gives s (w :: ws) (readMessage limit s).rest ∧
      ws.length = (Kind.ofWord w).extraWords ∧
      m.encode limit = .ok e ∧
      e.wordCount ≤ (w :: ws).length ∧
      (∀ rest : List UInt32, (readMessage limit (e.words ++ rest)).result = .ok m ∧
        (readMessage limit (e.words ++ rest)).rest = rest) ∧
      (e.words = w :: ws ↔ Canonical w ws) := by
  obtain ⟨w, ws, hg, hn, hd⟩ := gives_of_readMessage h
  obtain ⟨hr, rfl⟩ := decode_eq_ok hd
  obtain ⟨e, hp, hle, hiff⟩ := repacks_ofWords hr hn
  refine ⟨w, ws, e, hg, hn, hp.encode_eq, hle, fun rest => ?_, hiff⟩
  have hread := hp.readMessage_words rest
  rw [Message.received_ofWords] at hread
  exact hread

/-- A block with an ignored bit in its header and dirt in its padding.  Its first
payload word and the word behind it are the word of a reset request. -/
theorem reencode_of_readMessage_dirty :
    let source : List UInt32 := [0x12000005, 0x0C04000B, 0xDEADBEFF, 0x0C04000B]
    let block : Message := .data 1 [0x0B, 0x00, 0x04, 0x0C, 0xFF]
    (readMessage 5 source).result = .ok block ∧
      ∃ e, block.encode 5 = .ok e ∧ e.wordCount ≤ 3 ∧
        (readMessage 5 e.words).result = .ok block ∧
        e.words ≠ [0x12000005, 0x0C04000B, 0xDEADBEFF] := by
  intro source block
  have hread : (readMessage 5 source).result = .ok block := rfl
  refine ⟨hread, ?_⟩
  obtain ⟨w, ws, e, hgives, hlength, hencode, hcount, hagain, hiff⟩ :=
    reencode_of_readMessage hread
  -- The words that were read are the first three.
  have hsource : source = (w :: ws) ++ _ := Source.eq_append_of_gives hgives
  obtain rfl : 0x12000005 = w := (List.cons.inj hsource).1
  have htwo : ws.length = 2 := hlength
  have hws : [0x0C04000B, 0xDEADBEFF] = ws := by
    have htail : [0x0C04000B, 0xDEADBEFF, 0x0C04000B] = ws ++ (readMessage 5 source).rest :=
      (List.cons.inj hsource).2
    have htake := congrArg (List.take 2) htail
    rw [List.take_left' htwo] at htake
    exact htake
  subst hws
  refine ⟨e, hencode, hcount, ?_, fun hwords => ?_⟩
  · have hrest := hagain []
    rw [List.append_nil] at hrest
    exact hrest.1
  · exact absurd (hiff.mp hwords).1 (by decide)

end WordFifo
