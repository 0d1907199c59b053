import WordFifo.Proofs.MessageRuns
import WordFifo.Proofs.Reencoding

/-!
# Errors between the words of a stream

A source may fail between two words and go on, as one does that gives up waiting
for a while.  Here the words of a stream of frames come with any errors between
them, and a reader reads on after each.

An error in front of a header costs nothing, since the next read starts at the
same header.  An error behind it costs the message.  The words that the read has
taken are gone, and the next read takes what is left of the payload for headers.

So the reads give the messages of the stream exactly when no error falls inside
a frame (`messages_eq_iff_errorsBetween`).  The counterexample has one that
does, and a payload word is read as a reset request.

The step from the messages back to the errors is by counting.  A message takes
no more words than it was read from (`wordCount_add_words_rest_le`), so where words
are lost there are too few left for all the messages of the stream.
-/

namespace WordFifo

open WordFifo.Frame Reader
open Exchange (messages)

/-! ## How many words a message takes -/

namespace Message

/-- The words of a message, counted without packing it. -/
def wordCount : Message → Nat
  | .value32 _ v => if needsExtraWord v then 2 else 1
  | .address _ _ => 1
  | .data _ bytes => 1 + Kind.wordsFor bytes.length
  | .special _ => 1

theorem wordCount_received (m : Message) : m.received.wordCount = m.wordCount := by
  cases m <;> rfl

theorem Packed.wordCount_eq {limit : Nat} {m : Message} {e : Encoded} (h : m.Packed limit e) :
    m.wordCount = e.wordCount := by
  cases h with
  | @small c v fits =>
      have hv : ¬ needsExtraWord v := by rw [needsExtraWord_iff]; omega
      rw [wordCount, if_neg hv, Encoded.wordCount, List.length_nil]
  | large wide =>
      rw [wordCount, if_pos ((needsExtraWord_iff _).mpr wide), Encoded.wordCount,
        List.length_singleton]
  | address window => rfl
  | data admitted fits => rw [wordCount, Encoded.wordCount, Payload.length_pack]
  | special => rfl

/-- What is read has no more words than it was read from. -/
theorem wordCount_ofWords_le {limit : Nat} {w : UInt32} {ws : List UInt32}
    (hr : (Kind.ofWord w).refused? limit = none) (hn : ws.length = (Kind.ofWord w).extraWords) :
    (ofWords w ws).wordCount ≤ (w :: ws).length := by
  obtain ⟨e, hpacked, hle, -⟩ := repacks_ofWords hr hn
  rw [hpacked.wordCount_eq]
  exact hle

end Message

/-! ## Scripts -/

/-- The words of a script, without the errors. -/
def Script.words (script : Script) : List UInt32 := script.filterMap Except.toOption

theorem Script.words_append (ws : List UInt32) (rest : Script) :
    Script.words (ws.map .ok ++ rest) = ws ++ rest.words := by
  induction ws with
  | nil => rfl
  | cons w ws ih => exact congrArg (w :: ·) ih

/-- What fails to give a word leaves all words there. -/
theorem Script.words_of_receive {script rest : Script} {e : CarrierError}
    (h : Source.receive script = (.error e, rest)) : rest.words = script.words := by
  cases script with
  | nil =>
      cases h
      rfl
  | cons item rest =>
      cases h
      rfl

/-! ## Counting the words of messages -/

/-- The words of all messages together. -/
def totalWords : List Message → Nat
  | [] => 0
  | m :: ms => m.wordCount + totalWords ms

theorem totalWords_received (fs : List Frame) :
    totalWords (fs.map fun f => f.message.received) = (stream fs).length := by
  induction fs with
  | nil => rfl
  | cons f fs ih =>
      rw [List.map_cons, totalWords, ih, Message.wordCount_received, f.packed.wordCount_eq,
        stream_cons, List.length_append, f.length_words]

/-- No read adds words. -/
theorem words_rest_le (limit : Nat) (script : Script) :
    (Script.words (readMessage limit script).rest).length ≤ script.words.length := by
  cases meets script with
  | failed he =>
      have hrest := congrArg Script.words (readMessage_of_end limit he).2
      rw [Script.words_of_receive he] at hrest
      exact Nat.le_of_eq (congrArg List.length hrest)
  | whole hg hn =>
      rw [(readMessage_of_gives limit hg hn).2, Source.eq_append_of_gives_script hg,
        Script.words_append, List.length_append]
      exact Nat.le_add_left _ _
  | cut hg he hn =>
      rw [(readMessage_of_stop limit hg he hn).2, Source.eq_append_of_gives_script hg,
        Script.words_append, List.length_append, Script.words_of_receive he]
      exact Nat.le_add_left _ _

/-- A read that gives a message takes at least as many words as the message has. -/
theorem wordCount_add_words_rest_le {limit : Nat} {script : Script} {m : Message}
    (h : (readMessage limit script).result = .ok m) :
    m.wordCount + (Script.words (readMessage limit script).rest).length ≤ script.words.length := by
  obtain ⟨w, ws, hgives, hn, hdecode⟩ := gives_of_readMessage h
  obtain ⟨hr, rfl⟩ := decode_eq_ok hdecode
  have hwords := congrArg Script.words (Source.eq_append_of_gives_script hgives)
  rw [Script.words_append] at hwords
  have hle := Message.wordCount_ofWords_le hr hn
  have hlen := congrArg List.length hwords
  rw [List.length_append] at hlen
  omega

/-- All messages of a row of reads have no more words than there were. -/
theorem totalWords_calls_le (limits : List Nat) (script : Script) :
    totalWords (messages (calls limits script).1) ≤ script.words.length := by
  induction limits generalizing script with
  | nil => exact Nat.zero_le _
  | cons limit limits ih =>
      have hlater := ih (readMessage limit script).rest
      rw [calls, messages, List.filterMap_cons]
      rw [messages] at hlater
      cases hr : (readMessage limit script).result with
      | ok m =>
          have hfirst := wordCount_add_words_rest_le hr
          simp only [Except.toOption, totalWords] at hlater ⊢
          omega
      | error e => exact Nat.le_trans hlater (words_rest_le limit script)

/-! ## Where the errors are -/

/-- The words of some frames, with errors in front of a frame and behind the last,
and nowhere else. -/
inductive ErrorsBetween : List Frame → Script → Prop
  | nil : ErrorsBetween [] []
  | error {fs : List Frame} {rest : Script} (e : CarrierError) (h : ErrorsBetween fs rest) :
      ErrorsBetween fs (.error e :: rest)
  | frame {fs : List Frame} {rest : Script} (f : Frame) (h : ErrorsBetween fs rest) :
      ErrorsBetween (f :: fs) (f.words.map .ok ++ rest)

section

variable {limit n : Nat} {fs : List Frame} {script : Script}

/-- Errors between the frames cost no message. -/
theorem messages_of_errorsBetween (h : ErrorsBetween fs script)
    (hadmits : ∀ f ∈ fs, f.message.answer limit = .ok f.message.received)
    (hn : script.length ≤ n) :
    messages (calls (List.replicate n limit) script).1 = fs.map fun f => f.message.received := by
  induction h generalizing n with
  | nil =>
      rw [calls_of_ended _ Source.ended_script, List.length_replicate]
      induction n with
      | zero => rfl
      | succ n ih => exact ih (Nat.zero_le n)
  | error e _ ih =>
      obtain ⟨n, rfl⟩ := Nat.exists_eq_add_one.mpr (Nat.zero_lt_of_lt hn)
      obtain ⟨hresult, hrest⟩ := readMessage_of_end limit (receive_script_cons (.error e) _)
      rw [List.replicate_succ, calls, hresult, hrest]
      exact ih hadmits (Nat.le_of_succ_le_succ hn)
  | @frame fs rest f _ ih =>
      have hpos : 0 < f.words.length := Nat.succ_pos _
      rw [List.length_append, List.length_map] at hn
      obtain ⟨n, rfl⟩ := Nat.exists_eq_add_one.mpr (show 0 < n by omega)
      obtain ⟨hresult, hrest⟩ := f.readMessage_of_gives limit (Source.gives_script rest f.words)
      rw [List.replicate_succ, calls, hresult, hrest, hadmits f List.mem_cons_self, messages,
        List.filterMap_cons, List.map_cons]
      exact congrArg _ (ih (fun g hg => hadmits g (List.mem_cons_of_mem f hg)) (by omega))

/-- Where the header of a frame comes next, the rest of the frame comes behind it, or
the read fails inside the frame and its header is lost. -/
theorem frame_or_cut (limit : Nat) {f : Frame} {w : UInt32} {rest : Script}
    (hwords : Script.words (.ok w :: rest) = stream (f :: fs)) :
    (∃ later : Script, .ok w :: rest = f.words.map .ok ++ later ∧ later.words = stream fs) ∨
      ∃ e, (readMessage limit (.ok w :: rest : Script)).result = .error e ∧
        (Script.words (readMessage limit (.ok w :: rest : Script)).rest).length <
          (stream (f :: fs)).length := by
  obtain ⟨hw, hrest⟩ : w = f.encoded.header ∧ rest.words = f.encoded.extra ++ stream fs :=
    List.cons.inj hwords
  subst hw
  rcases Source.gives_or_stops f.encoded.extra.length rest with
    ⟨ws, later, hlen, hg⟩ | ⟨ws, stop, e, later, hlt, hg, he⟩
  · left
    have hsplit := Source.eq_append_of_gives_script hg
    rw [hsplit, Script.words_append] at hrest
    obtain ⟨rfl, hlater⟩ := List.append_inj hrest hlen
    exact ⟨later, by rw [hsplit]; rfl, hlater⟩
  · right
    have hcut : ws.length < (Kind.ofWord f.encoded.header).extraWords := by
      rw [← f.packed.extraWords]
      exact hlt
    obtain ⟨hresult, hleft⟩ := readMessage_of_stop limit
      (.cons (receive_script_cons (.ok f.encoded.header) rest) hg) he hcut
    refine ⟨_, hresult, ?_⟩
    have hlen := congrArg (List.length ∘ Script.words) (Source.eq_append_of_gives_script hg)
    simp only [Function.comp_apply, Script.words_append, List.length_append] at hlen
    rw [hleft, Script.words_of_receive he, ← hwords]
    show _ < rest.words.length + 1
    omega

/-- Where every message is read, no error falls inside a frame. -/
theorem errorsBetween_of_messages (hwords : script.words = stream fs) (hn : script.length ≤ n)
    (hadmits : ∀ f ∈ fs, f.message.answer limit = .ok f.message.received)
    (h : messages (calls (List.replicate n limit) script).1 =
      fs.map fun f => f.message.received) : ErrorsBetween fs script := by
  -- Each call of the row takes at least one item off the script.
  induction n generalizing fs script with
  | zero =>
      obtain rfl := List.eq_nil_of_length_eq_zero (Nat.le_zero.mp hn)
      obtain rfl : fs = [] := List.map_eq_nil_iff.mp h.symm
      exact .nil
  | succ n ih =>
      match script with
      | [] =>
          cases fs with
          | nil => exact .nil
          | cons f fs => cases hwords
      | .error e :: rest =>
          obtain ⟨hresult, hrest⟩ := readMessage_of_end limit (receive_script_cons (.error e) rest)
          rw [List.replicate_succ, calls, hresult, hrest] at h
          exact .error e (ih hwords (Nat.le_of_succ_le_succ hn) hadmits h)
      | .ok w :: rest =>
          cases fs with
          | nil => cases hwords
          | cons f fs =>
              rcases frame_or_cut limit hwords with ⟨later, hsplit, hlater⟩ | ⟨e, hresult, hlost⟩
              · rw [hsplit] at hn h ⊢
                have hpos : 0 < f.words.length := Nat.succ_pos _
                rw [List.length_append, List.length_map] at hn
                obtain ⟨hresult, hrest⟩ :=
                  f.readMessage_of_gives limit (Source.gives_script later f.words)
                rw [List.replicate_succ, calls, hresult, hrest, hadmits f List.mem_cons_self,
                  messages, List.filterMap_cons, List.map_cons] at h
                exact .frame f (ih hlater (by omega)
                  (fun g hg => hadmits g (List.mem_cons_of_mem f hg)) (List.cons.inj h).2)
              · -- Too few words are left for all the messages.
                rw [List.replicate_succ, calls, hresult] at h
                have hle := totalWords_calls_le (List.replicate n limit)
                  (readMessage limit (.ok w :: rest : Script)).rest
                have hlater : messages (calls (List.replicate n limit)
                    (readMessage limit (.ok w :: rest : Script)).rest).1 = _ := h
                rw [hlater, totalWords_received] at hle
                exact absurd hle (Nat.not_le_of_lt hlost)

end

/-- A reader that refuses no payload reads on after every error.  It gives the messages
of a stream, each once and in order, exactly when every error falls between two
frames. -/
theorem messages_eq_iff_errorsBetween (fs : List Frame) (script : Script) (limit n : Nat)
    (hwords : script.words = stream fs)
    (hadmits : ∀ c bytes, .data c bytes ∈ fs.map Frame.message → bytes.length ≤ limit)
    (hn : script.length ≤ n) :
    messages (calls (List.replicate n limit) script).1 = fs.map (fun f => f.message.received) ↔
      ErrorsBetween fs script := by
  have hanswers : ∀ f ∈ fs, f.message.answer limit = .ok f.message.received := by
    intro f hf
    refine Message.answer_eq_received fun c bytes hdata => hadmits c bytes ?_
    rw [← hdata]
    exact List.mem_map_of_mem hf
  exact ⟨errorsBetween_of_messages hwords hn hanswers,
    fun h => messages_of_errorsBetween h hanswers hn⟩

/-- Errors in front of a block, behind it and behind a command.  Every word behind a
header looks like a reset request. -/
theorem messages_eq_iff_errorsBetween_lookalikes :
    let late : CarrierError := .io .unavailable
    let block : Frame := ⟨.data 1 [0x0B, 0x00, 0x04, 0x0C, 0xFF], 5,
      ⟨0x10000005, [0x0C04000B, 0x000000FF]⟩, rfl⟩
    let command : Frame := ⟨.special (.other 0x0104000B), 0, ⟨0x0C04000B, []⟩, rfl⟩
    let script : Script := [.error late, .ok 0x10000005, .ok 0x0C04000B, .ok 0x000000FF,
      .error late, .error late, .ok 0x0C04000B, .error late]
    script.words = stream [block, command] ∧
      messages (calls (List.replicate 9 5) script).1 = [block.message, .special .resetPrimary] := by
  intro late block command script
  have hbetween : ErrorsBetween [block, command] script :=
    .error late (.frame block (.error late (.error late (.frame command (.error late .nil)))))
  refine ⟨rfl, (messages_eq_iff_errorsBetween [block, command] script 5 9 rfl ?_ (by decide)).mpr
    hbetween⟩
  intro c bytes hmem
  rcases List.mem_cons.mp hmem with hblock | hcommand
  · obtain ⟨-, rfl⟩ := Message.data.inj hblock
    exact Nat.le_refl 5
  · cases List.mem_singleton.mp hcommand

/-- An error behind the header of a block loses the block.  Its payload is then read as
a reset request that nobody sent. -/
theorem messages_of_error_inside :
    let late : CarrierError := .io .unavailable
    let block : Frame := ⟨.data 1 [0x0B, 0x00, 0x04, 0x0C], 128, ⟨0x10000004, [0x0C04000B]⟩, rfl⟩
    let script : Script := [.ok 0x10000004, .error late, .ok 0x0C04000B]
    script.words = stream [block] ∧ late ≠ .closed ∧
      (calls (List.replicate 3 128) script).1 = [.error (.carrier late),
        .ok (.special .resetPrimary), .error (.carrier .closed)] ∧
      messages (calls (List.replicate 3 128) script).1 ≠ [block.message.received] := by
  intro late block script
  have hcalls : (calls (List.replicate 3 128) script).1 = [.error (.carrier late),
      .ok (.special .resetPrimary), .error (.carrier .closed)] := rfl
  refine ⟨rfl, nofun, hcalls, ?_⟩
  rw [hcalls]
  decide

end WordFifo
