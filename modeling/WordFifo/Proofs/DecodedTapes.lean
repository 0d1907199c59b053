import WordFifo.Proofs.Alignment
import WordFifo.Proofs.Reencoding
import WordFifo.Proofs.ShownMessages
import WordFifo.Tool.Conversion

/-!
# What a decode accounts for

`decode` prints the messages of a tape, each with the words that the tape has
recorded for it.  A read may collect its words or skip them, and the tape records
them either way (`Tape.of_gives`).

So the records cut the words into pieces, each a header and the words that it
announces.  A record lists the words of its piece and shows their message.  No word
is in two pieces, and none is passed over, up to the message that could not be read,
if there is one.  That one is a block above the limit, or it announces more words
than there are (`decode_accounts_for_words`).

The length that a header announces and the words that a read takes for it are two
computations.  They meet in `gives_of_readMessage`.
-/

namespace WordFifo.Tool

open Reader

/-! ## Pieces -/

/-- A header word and the words it announces. -/
structure Piece where
  header : UInt32
  extra : List UInt32
  length_extra : extra.length = (Kind.ofWord header).extraWords

namespace Piece

def words (p : Piece) : List UInt32 := p.header :: p.extra

def message (p : Piece) : Message := Message.ofWords p.header p.extra

/-- What is printed for a piece: its message and its own words. -/
def printed (p : Piece) : Printed := decodedRecord p.message p.words

theorem shows_printed (p : Piece) :
    p.printed.Shows Record.decodedSchema p.message (some p.words) :=
  Record.shows_ofMessage _ _ _

/-- What is listed as words for some pieces is their words. -/
theorem wordTexts_printed (pieces : List Piece) :
    (pieces.map printed).flatMap Printed.wordTexts =
      (pieces.flatMap words).map Digits.hexWord := by
  rw [List.flatMap_map, List.map_flatMap]
  exact List.flatMap_congr fun p _ => p.shows_printed.wordTexts_eq

end Piece

/-! ## Words without a message -/

/-- Why no message can be read off some words. -/
inductive Unreadable (limit : Nat) : List UInt32 → MessageError → Prop where
  | ended : Unreadable limit [] (.carrier .closed)
  /-- A block above the limit, whole or not. -/
  | tooLarge {header length : UInt32} {behind : List UInt32}
      (hk : Kind.ofWord header = .data length) (hlt : limit < length.toNat) :
      Unreadable limit (header :: behind) (.payloadTooLarge length.toNat limit)
  /-- More words are announced than there are. -/
  | cut {header : UInt32} {behind : List UInt32}
      (hlt : behind.length < (Kind.ofWord header).extraWords) :
      Unreadable limit (header :: behind)
        (.truncated ((Kind.ofWord header).extraWords - behind.length))

namespace Unreadable

variable {limit : Nat} {w : UInt32} {ws : List UInt32}

theorem of_decode {e : MessageError} {behind : List UInt32}
    (h : Reader.decode limit w ws = .error e) : Unreadable limit (w :: behind) e := by
  unfold Reader.decode at h
  cases hr : (Kind.ofWord w).refused? limit with
  | none => rw [hr] at h; cases h
  | some size =>
      rw [hr] at h
      obtain rfl := Except.error.inj h
      obtain ⟨length, hk, rfl, hlt⟩ := Kind.eq_data_of_refused? hr
      exact .tooLarge hk hlt

theorem of_decodeStopped (hn : ws.length < (Kind.ofWord w).extraWords) :
    Unreadable limit (w :: ws)
      (decodeStopped limit w ((Kind.ofWord w).extraWords - ws.length) .closed) := by
  unfold decodeStopped
  cases hr : (Kind.ofWord w).refused? limit with
  | none => exact .cut hn
  | some size =>
      obtain ⟨length, hk, rfl, hlt⟩ := Kind.eq_data_of_refused? hr
      exact .tooLarge hk hlt

end Unreadable

/-! ## What a tape records -/

namespace Tape

variable {limit : Nat} {t u : Tape} {ws : List UInt32}

/-- What a tape gives are its first words, and they are on its record then. -/
theorem of_gives (h : Source.Gives t ws u) :
    t.pending = ws ++ u.pending ∧ u.taken = t.taken ++ ws := by
  induction h with
  | @nil t => exact ⟨rfl, (List.append_nil t.taken).symm⟩
  | @cons t _ _ w ws hr _ ih =>
      obtain ⟨pending, taken⟩ := t
      cases pending with
      | nil => cases hr
      | cons w rest =>
          cases hr
          obtain ⟨hpending, htaken⟩ := ih
          exact ⟨congrArg (w :: ·) hpending, htaken.trans (List.append_assoc taken [w] ws)⟩

/-- A tape fails only at its end. -/
theorem of_receive_error {e : CarrierError} (h : Source.receive t = (.error e, u)) :
    t.pending = [] ∧ e = .closed := by
  obtain ⟨pending, taken⟩ := t
  cases pending with
  | nil =>
      cases h
      exact ⟨rfl, rfl⟩
  | cons w rest => cases h

/-- A read that fails shows what is wrong with the words of the tape. -/
theorem unreadable_of_readMessage {e : MessageError}
    (h : (readMessage limit t).result = .error e) : Unreadable limit t.pending e := by
  cases meets t with
  | failed he =>
      obtain ⟨hend, rfl⟩ := of_receive_error he
      rw [(readMessage_of_end limit he).1] at h
      cases h
      rw [hend]
      exact .ended
  | whole hg hn =>
      rw [(readMessage_of_gives limit hg hn).1] at h
      rw [(of_gives hg).1]
      exact .of_decode h
  | cut hg he hn =>
      obtain ⟨hend, rfl⟩ := of_receive_error he
      rw [(readMessage_of_stop limit hg he hn).1] at h
      cases h
      rw [(of_gives hg).1, hend, List.append_nil]
      exact .of_decodeStopped hn

/-- A message is read off a piece at the front of the tape, and the record has grown
by that piece. -/
theorem piece_of_readMessage {m : Message} (h : (readMessage limit t).result = .ok m) :
    ∃ p : Piece, m = p.message ∧
      t.pending = p.words ++ (readMessage limit t).rest.pending ∧
      (readMessage limit t).rest.taken = t.taken ++ p.words := by
  obtain ⟨w, ws, hgives, hn, hdecode⟩ := gives_of_readMessage h
  obtain ⟨hpending, htaken⟩ := of_gives hgives
  exact ⟨⟨w, ws, hn⟩, (decode_eq_ok hdecode).2, hpending, htaken⟩

end Tape

/-! ## Decoding -/

/-- What a decode makes of some words: pieces, and what is left when it ends. -/
structure Accounted (limit : Nat) (words : List UInt32) (o : Outcome) (pieces : List Piece)
    (left : List UInt32) (e : MessageError) : Prop where
  printed_eq : o.printed = pieces.map Piece.printed
  words_eq : words = pieces.flatMap Piece.words ++ left
  unreadable : Unreadable limit left e
  completion_eq : o.completion =
    if e = .carrier .closed then .done else .failed (Failure.ofMessage "decode failed" e)

/-- A piece in front of the words is one record more. -/
theorem Accounted.cons {limit : Nat} {words left : List UInt32} {o : Outcome}
    {pieces : List Piece} {e : MessageError} (h : Accounted limit words o pieces left e)
    (p : Piece) (events : List Event) :
    Accounted limit (p.words ++ words)
      { o with printed := p.printed :: o.printed, events := events } (p :: pieces) left e where
  printed_eq := congrArg (p.printed :: ·) h.printed_eq
  words_eq := by rw [List.flatMap_cons, List.append_assoc, ← h.words_eq]
  unreadable := h.unreadable
  completion_eq := h.completion_eq

/-- Decoding starts every message with an empty record. -/
theorem exists_accounted (limit : Nat) (t : Tape) (ht : t.taken = []) :
    ∃ pieces left e, Accounted limit t.pending (decodeTape limit t) pieces left e := by
  fun_induction decodeTape limit t with
  | case1 t r m h later ih =>
      obtain ⟨pieces, left, e, hlater⟩ := ih rfl
      obtain ⟨p, rfl, hpending, htaken⟩ := Tape.piece_of_readMessage h
      rw [ht, List.nil_append] at htaken
      rw [hpending, htaken]
      exact ⟨p :: pieces, left, e, hlater.cons p _⟩
  | case2 t r h =>
      exact ⟨[], t.pending, _, rfl, rfl, Tape.unreadable_of_readMessage h, rfl⟩
  | case3 t r e hne h =>
      exact ⟨[], t.pending, e, rfl, rfl, Tape.unreadable_of_readMessage h, (if_neg hne).symm⟩

/-- A decode prints one record for each piece, with the words and the message of that
piece, and the pieces are the words from the first on.  So the words that the records
list are read back as these.  When the decode succeeds, they are all the words.  When it
fails, the status is 60 and what is left starts with the header that is at fault: that of
a block above the limit, or of a message that announces more words than are left. -/
theorem decode_accounts_for_words (words : List UInt32) (limit : Nat) :
    ∃ (pieces : List Piece) (left : List UInt32),
      List.Forall₂ (fun line (p : Piece) =>
          line.Shows Record.decodedSchema p.message (some p.words))
        (decode words limit).printed pieces ∧
      Setting.readAll Argument.word ((decode words limit).printed.flatMap Printed.wordTexts) =
        .ok (pieces.flatMap Piece.words) ∧
      (decode words limit).printed = pieces.map Piece.printed ∧
      words = pieces.flatMap Piece.words ++ left ∧
      ((decode words limit).completion = .done ∧ left = [] ∨
        ∃ f header behind, (decode words limit).completion = .failed f ∧ f.status.code = 60 ∧
          left = header :: behind ∧
          ((∃ length, Kind.ofWord header = .data length ∧ limit < length.toNat) ∨
            behind.length < (Kind.ofWord header).extraWords)) := by
  obtain ⟨pieces, left, e, h⟩ := exists_accounted limit ⟨words, []⟩ rfl
  have hprinted : (decode words limit).printed = pieces.map Piece.printed := h.printed_eq
  refine ⟨pieces, left, ?_, ?_, hprinted, h.words_eq, ?_⟩
  · rw [hprinted, List.forall₂_map_left_iff, List.forall₂_same]
    exact fun p _ => p.shows_printed
  · rw [hprinted, Piece.wordTexts_printed]
    exact Setting.readAll_map Argument.word_hexWord _
  · have hcompletion := h.completion_eq
    cases h.unreadable with
    | ended => exact Or.inl ⟨hcompletion, rfl⟩
    | tooLarge hk hlt => exact Or.inr ⟨_, _, _, hcompletion, rfl, rfl, Or.inl ⟨_, hk, hlt⟩⟩
    | cut hlt => exact Or.inr ⟨_, _, _, hcompletion, rfl, rfl, Or.inr hlt⟩

end WordFifo.Tool
