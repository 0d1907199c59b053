import WordFifo.Proofs.Packing

/-!
# Messages moved to another channel

The channel field of a word can be written, whatever the word is.  What was
written is read back, to write what is there changes nothing, and the last of
two writes counts (`embed_ofWord`, `embed_embed`).  No kind looks at the field,
so a word keeps its kind and its value (`Kind.ofWord_embed`).

Each kind of header but one has its channel from that field alone.  So a packed
message is moved to another channel by one write into its header, and the words
behind the header stay as they are (`Packed.onChannel`).  A special command has
no channel.  A write into its word makes a word that no one packs, and it is
read as the same command.
-/

namespace WordFifo

open Layout

/-! ## The channel field of any word -/

namespace Channel

theorem embed_ofWord (w : UInt32) : embed w (ofWord w).toWord = w := by
  have hw := w.toNat_lt
  apply UInt32.toNat_inj.mp
  rw [toNat_embed, toNat_toWord, val_ofWord, channelShift]
  omega

theorem embed_embed (w a b : UInt32) : embed (embed w a) b = embed w b := by
  rw [embed, embed_mod_channelUnit, ← embed]

end Channel

namespace Word

open Channel (embed toNat_embed)

variable (w a : UInt32)

theorem value_embed : value (embed w a) = value w := by
  apply UInt32.toNat_inj.mp
  rw [toNat_value, toNat_value, toNat_embed]
  omega

theorem address_embed : address (embed w a) = address w := by
  apply UInt32.toNat_inj.mp
  rw [toNat_address, toNat_address, toNat_embed]
  omega

theorem code_embed : Word.code (embed w a) = Word.code w := by
  apply UInt32.toNat_inj.mp
  rw [toNat_code, toNat_code, toNat_embed]
  omega

end Word

/-- The kind bits and all fields below them are out of reach of a channel. -/
theorem Kind.ofWord_embed (w a : UInt32) : ofWord (Channel.embed w a) = ofWord w := by
  have hbits := Channel.toNat_embed w a
  rcases ofWord_cases w with ⟨hb, hk⟩ | ⟨hb, hk⟩ | ⟨hb, hk⟩ | ⟨hb, hk⟩ | ⟨hb, hk⟩
  · rw [hk, ofWord_of_data (by omega), Word.value_embed]
  · rw [hk, ofWord_of_smallImmediate (by omega), Word.value_embed]
  · rw [hk, ofWord_of_largeImmediate (by omega)]
  · rw [hk, ofWord_of_address (by omega), Word.address_embed]
  · rw [hk, ofWord_of_special (by omega), Word.code_embed]

/-! ## Packed headers on another channel -/

namespace Channel

variable (c d : UInt32)

theorem embed_packData (length : UInt32) : embed (Pack.data c length) d = Pack.data d length := by
  apply UInt32.toNat_inj.mp
  rw [toNat_embed, Pack.toNat_data, Pack.toNat_data]
  omega

theorem embed_packSmallImmediate (value : UInt32) :
    embed (Pack.smallImmediate c value) d = Pack.smallImmediate d value := by
  apply UInt32.toNat_inj.mp
  rw [toNat_embed, Pack.toNat_smallImmediate, Pack.toNat_smallImmediate]
  omega

theorem embed_packLargeImmediate : embed (Pack.largeImmediate c) d = Pack.largeImmediate d := by
  apply UInt32.toNat_inj.mp
  rw [toNat_embed, Pack.toNat_largeImmediate, Pack.toNat_largeImmediate]
  omega

theorem embed_packAddress (a : UInt32) : embed (Pack.address c a) d = Pack.address d a := by
  apply UInt32.toNat_inj.mp
  rw [toNat_embed, Pack.toNat_address, Pack.toNat_address]
  omega

end Channel

/-! ## Messages on another channel -/

/-- A read of these words gives the message and takes no other word, on any
source. -/
def Reader.Reads (limit : Nat) (words : List UInt32) (m : Message) : Prop :=
  ∀ (σ : Type) [Source σ] (s t : σ), Source.Gives s words t →
    (readMessage limit s).result = .ok m ∧ (readMessage limit s).rest = t

open Reader

namespace Message

/-- The message on another channel.  A special command has none. -/
def onChannel (c : Channel) : Message → Message
  | .value32 _ v => .value32 c v
  | .address _ a => .address c a
  | .data _ bytes => .data c bytes
  | .special command => .special command

variable {limit r : Nat} {m : Message} {e : Encoded}

theorem received_onChannel (hm : m.channel ≠ none) (c : Channel) :
    (m.onChannel c).received = m.onChannel c := by
  cases m with
  | special command => exact absurd rfl hm
  | _ => rfl

theorem admitted_onChannel (hadmits : ∀ d bytes, m = .data d bytes → bytes.length ≤ r)
    (c : Channel) : ∀ d bytes, m.onChannel c = .data d bytes → bytes.length ≤ r := by
  intro d bytes hdata
  cases m with
  | data d' payload =>
      obtain ⟨-, rfl⟩ := Message.data.inj hdata
      exact hadmits d' payload rfl
  | _ => cases hdata

namespace Packed

/-- A packed message is moved by a write into the channel field of its header. -/
theorem onChannel (h : Packed limit m e) (hm : m.channel ≠ none) (c : Channel) :
    Packed limit (m.onChannel c) ⟨Channel.embed e.header c.toWord, e.extra⟩ := by
  cases h with
  | small fits =>
      rw [Channel.embed_packSmallImmediate]
      exact .small fits
  | large wide =>
      rw [Channel.embed_packLargeImmediate]
      exact .large wide
  | address window =>
      rw [Channel.embed_packAddress]
      exact .address window
  | data admitted fits =>
      rw [Channel.embed_packData]
      exact .data admitted fits
  | special => exact absurd rfl hm

theorem reads (h : Packed limit m e)
    (hadmits : ∀ c bytes, m = .data c bytes → bytes.length ≤ r) : Reads r e.words m.received := by
  intro σ _ s t hg
  rw [← answer_eq_received hadmits]
  exact h.readMessage_of_gives r hg

end Packed

end Message

/-- A special command takes one word, whatever the ignored bits of that word are. -/
theorem Reader.reads_special {w code : UInt32} (hk : Kind.ofWord w = .special code) (r : Nat) :
    Reads r [w] (.special (Command.ofCode code)) := by
  intro σ _ s t hg
  have hread := readMessage_of_gives r hg (by rw [hk]; rfl)
  rw [decode, hk, Message.ofWords_of_special hk] at hread
  exact hread

theorem Command.ofWord_embed (w a : UInt32) : ofWord (Channel.embed w a) = ofWord w := by
  rw [ofWord, Word.code_embed, ← ofWord]

/-- To write another channel into a word is a lens on its channel field and leaves its
kind alone.  Written into the header of a packed message, it gives the words of
the same message on the other channel, and every reader that admits the message
reads it there.  Written into the word of a special command, it is not seen. -/
theorem embed_moves_message :
    (∀ w a b : UInt32, Kind.ofWord (Channel.embed w a) = Kind.ofWord w ∧
        (Channel.ofWord (Channel.embed w a)).toWord = a % 16 ∧
        Channel.embed (Channel.embed w a) b = Channel.embed w b ∧
        Channel.embed w (Channel.ofWord w).toWord = w) ∧
      (∀ (limit : Nat) (m : Message) (e : Encoded) (c : Channel), m.channel ≠ none →
        m.encode limit = .ok e →
          (m.onChannel c).encode limit = .ok ⟨Channel.embed e.header c.toWord, e.extra⟩ ∧
            ∀ r, (∀ d bytes, m = .data d bytes → bytes.length ≤ r) →
              Reads r (Channel.embed e.header c.toWord :: e.extra) (m.onChannel c)) ∧
      ∀ (command : Command) (a : UInt32),
        Command.ofWord (Channel.embed command.toWord a) = Command.ofWord command.toWord ∧
          ∀ r, Reads r [command.toWord] (.special (Command.ofWord command.toWord)) ∧
            Reads r [Channel.embed command.toWord a]
              (.special (Command.ofWord command.toWord)) := by
  refine ⟨fun w a b => ?_, fun limit m e c hm henc => ?_, fun command a => ?_⟩
  · exact ⟨Kind.ofWord_embed w a, Channel.toWord_ofWord_of_val (Channel.val_ofWord_embed w a),
      Channel.embed_embed w a b, Channel.embed_ofWord w⟩
  · have hmoved := (Message.packed_of_encode henc).onChannel hm c
    refine ⟨hmoved.encode_eq, fun r hadmits => ?_⟩
    have hreads := hmoved.reads (Message.admitted_onChannel hadmits c)
    rwa [Message.received_onChannel hm c] at hreads
  · have hk : Kind.ofWord command.toWord = .special (Word.code command.toWord) := by
      rw [Command.toWord, Kind.ofWord_packSpecial, Word.code_packSpecial]
    refine ⟨Command.ofWord_embed _ a, fun r => ⟨reads_special hk r, reads_special ?_ r⟩⟩
    rw [Kind.ofWord_embed, hk]

/-- A block moved from channel 1 to channel 15, with a reset request behind it that has
every bit of a channel set.  Its first payload word is a reset request too. -/
theorem embed_moves_message_lookalike :
    let block : Message := .data 1 [0x0B, 0x00, 0x04, 0x0C, 0xFF]
    let moved : Message := .data 15 [0x0B, 0x00, 0x04, 0x0C, 0xFF]
    let source : List UInt32 := [0xF0000005, 0x0C04000B, 0x000000FF, 0xFC04000B]
    block.encode 5 = .ok ⟨0x10000005, [0x0C04000B, 0x000000FF]⟩ ∧
      moved.encode 5 = .ok ⟨0xF0000005, [0x0C04000B, 0x000000FF]⟩ ∧
      (readMessage 128 source).result = .ok moved ∧
      (readMessage 128 (readMessage 128 source).rest).result = .ok (.special .resetPrimary) := by
  intro block moved source
  have hencode : block.encode 5 = .ok ⟨0x10000005, [0x0C04000B, 0x000000FF]⟩ := rfl
  obtain ⟨-, hmessage, hcommand⟩ := embed_moves_message
  obtain ⟨hmoved, hreads⟩ := hmessage 5 block _ 15 (by decide) hencode
  have hadmits : ∀ d bytes, block = .data d bytes → bytes.length ≤ 128 := by
    intro d bytes hdata
    obtain ⟨-, rfl⟩ := Message.data.inj hdata
    decide
  obtain ⟨hresult, hrest⟩ := hreads 128 hadmits (List UInt32) source [0xFC04000B]
    (Source.gives_words [0xFC04000B] [0xF0000005, 0x0C04000B, 0x000000FF])
  refine ⟨hencode, hmoved, hresult, ?_⟩
  rw [hrest]
  exact (((hcommand .resetPrimary 15).2 128).2 (List UInt32) _ []
    (Source.gives_self [0xFC04000B])).1

end WordFifo
