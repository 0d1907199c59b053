import Mathlib
import WordFifo.Proofs.ByteStreams
import WordFifo.Proofs.ShownMessages
import WordFifo.Tool.Connection

/-!
# What a listener prints

`Reader.drain` reads the words of a connection to the first error.  A listener
does so with one connection after the other, and `heard` is what comes of that.
A connection that closes between two messages is followed by the next.  Any other
error is the end.

A listener prints the messages that its filter lets pass, and it may be told how
many.  It counts over all connections and leaves behind the last message that it
prints.  So what it prints is cut out of what is heard, whatever connection a
message came on, and each line shows its message (`Printing`).

The induction over the messages of a connection (`session_eq`) and the one over
the connections (`serve_eq`) carry how many messages are still wanted.  Where one
list of messages is followed by another, either the first is enough or all of it
is printed (`wanted_append`).
-/

namespace WordFifo

variable {σ : Type} {ws : List UInt32} {limit : Nat}

/-! ## What is heard -/

namespace Reader

/-- The messages up to the first error, and this error. -/
def drain (limit : Nat) (ws : List UInt32) : List Message × MessageError :=
  match _h : (readMessage limit ws).result with
  | .ok m =>
    (m :: (drain limit (readMessage limit ws).rest).1, (drain limit (readMessage limit ws).rest).2)
  | .error e => ([], e)
termination_by ws.length
decreasing_by all_goals exact size_rest_lt _h

theorem readings_of_ok [FiniteSource σ] {s : σ} {m : Message}
    (h : (readMessage limit s).result = .ok m) :
    readings limit s = readMessage limit s :: readings limit (readMessage limit s).rest := by
  rw [readings]
  split
  · rfl
  · next e he =>
      rw [h] at he
      cases he

theorem readings_of_error [FiniteSource σ] {s : σ} {e : MessageError}
    (h : (readMessage limit s).result = .error e) :
    readings limit s = [readMessage limit s] := by
  rw [readings]
  split
  · next m hm =>
      rw [h] at hm
      cases hm
  · rfl

/-- Words that end are read without any error of the carrier but the close. -/
theorem error_of_words {e : MessageError} (h : (readMessage limit ws).result = .error e) :
    e = .carrier .closed ∨ (∃ missing, e = .truncated missing) ∨
      ∃ size, e = .payloadTooLarge size limit := by
  cases meets ws with
  | failed he =>
      left
      rw [(readMessage_of_end limit he).1] at h
      cases ws with
      | nil =>
          cases he
          exact (Except.error.inj h).symm
      | cons w ws => cases he
  | whole hg hn =>
      rw [(readMessage_of_gives limit hg hn).1, decode] at h
      split at h
      · exact Or.inr (Or.inr ⟨_, (Except.error.inj h).symm⟩)
      · cases h
  | @cut w ws' t u e' hg he hn =>
      obtain rfl : e' = .closed := by
        cases t with
        | nil =>
            cases he
            rfl
        | cons w t => cases he
      rw [(readMessage_of_stop limit hg he hn).1] at h
      right
      cases hr : (Kind.ofWord w).refused? limit with
      | some size =>
          simp only [decodeStopped, hr] at h
          exact Or.inr ⟨size, (Except.error.inj h).symm⟩
      | none =>
          simp only [decodeStopped, hr] at h
          exact Or.inl ⟨_, (Except.error.inj h).symm⟩

theorem error_drain (limit : Nat) (ws : List UInt32) :
    (drain limit ws).2 = .carrier .closed ∨ (∃ missing, (drain limit ws).2 = .truncated missing) ∨
      ∃ size, (drain limit ws).2 = .payloadTooLarge size limit := by
  fun_induction drain limit ws with
  | case1 ws m h ih => exact ih
  | case2 ws e h => exact error_of_words h

end Reader

namespace Tool

open Reader

/-- What comes in on some connections. -/
structure Heard where
  /-- The messages, in order. -/
  messages : List Message
  /-- The error that ended it, where there is one. -/
  fault : Option MessageError

/-- Reads the words of connections, one connection after the other.  A close between two
messages is no fault. -/
def heard (limit : Nat) : List (List UInt32) → Heard
  | [] => ⟨[], none⟩
  | ws :: rest =>
    match drain limit ws with
    | (ms, .carrier .closed) =>
      let later := heard limit rest
      ⟨ms ++ later.messages, later.fault⟩
    | (ms, e) => ⟨ms, some e⟩

theorem fault_heard (limit : Nat) (connections : List (List UInt32)) {e : MessageError}
    (h : (heard limit connections).fault = some e) :
    (∃ missing, e = .truncated missing) ∨ ∃ size, e = .payloadTooLarge size limit := by
  induction connections with
  | nil => cases h
  | cons ws rest ih =>
      have herror := error_drain limit ws
      rw [heard] at h
      split at h
      · exact ih h
      · next ms e' hne hdrain =>
          obtain rfl := Option.some.inj h
          rw [hdrain] at herror
          exact herror.resolve_left hne

/-! ## What is wanted of it -/

section Wanted

variable {α : Type} {left : Option Nat} {xs : List α}

/-- As many as are wanted.  Without a count all are. -/
def wanted : Option Nat → List α → List α
  | none, xs => xs
  | some n, xs => xs.take n

/-- There are as many as are wanted. -/
def reached (left : Option Nat) (xs : List α) : Bool := left.any (· ≤ xs.length)

/-- What is still wanted behind the first `n`. -/
def fewer (left : Option Nat) (n : Nat) : Option Nat := left.map (· - n)

theorem reached_iff : reached left xs ↔ ∃ n, left = some n ∧ n ≤ xs.length := by
  cases left <;> simp [reached]

theorem not_reached_iff : reached left xs = false ↔ ∀ n, left = some n → xs.length < n := by
  cases left <;> simp [reached]

theorem wanted_of_not_reached (h : reached left xs = false) : wanted left xs = xs := by
  cases left with
  | none => rfl
  | some n =>
      simp [reached] at h
      exact List.take_of_length_le (Nat.le_of_lt h)

theorem wanted_append_of_reached (h : reached left xs) (ys : List α) :
    wanted left (xs ++ ys) = wanted left xs := by
  cases left with
  | none => simp [reached] at h
  | some n =>
      simp [reached] at h
      exact List.take_append_of_le_length h

/-- What is not enough is printed whole, and the rest is looked for behind it. -/
theorem wanted_append (h : reached left xs = false) (ys : List α) :
    wanted left (xs ++ ys) = xs ++ wanted (fewer left xs.length) ys := by
  cases left with
  | none => rfl
  | some n =>
      simp [reached] at h
      simp [wanted, fewer, List.take_append, List.take_of_length_le (Nat.le_of_lt h)]

theorem reached_append_of_reached (h : reached left xs) (ys : List α) :
    reached left (xs ++ ys) := by
  cases left with
  | none => simp [reached] at h
  | some n =>
      simp [reached] at h ⊢
      omega

theorem reached_append (h : reached left xs = false) (ys : List α) :
    reached left (xs ++ ys) = reached (fewer left xs.length) ys := by
  cases left with
  | none => rfl
  | some n =>
      simp [reached] at h
      simp [reached, fewer]
      omega

theorem wanted_singleton (h : left ≠ some 0) (x : α) : wanted left [x] = [x] := by
  cases left with
  | none => rfl
  | some n =>
      cases n with
      | zero => exact absurd rfl h
      | succ n => simp [wanted]

theorem fewer_fewer (left : Option Nat) (m n : Nat) :
    fewer (fewer left m) n = fewer left (m + n) := by
  simp [fewer, Function.comp_def, Nat.sub_sub]

end Wanted

/-! ## One connection -/

/-- How the listener leaves behind an error. -/
def leaving : MessageError → Option Completion
  | .carrier .closed => none
  | e => some (.failed (Failure.ofMessage "receive failed" e))

theorem leaving_of_fault {e : MessageError} (h : e ≠ .carrier .closed) :
    leaving e = some (.failed (Failure.ofMessage "receive failed" e)) := by
  unfold leaving
  split
  · exact absurd rfl h
  · rfl

/-- The messages that are wanted are printed.  The listener is done with the last of them,
and where there are too few it leaves another way. -/
structure Cut (left : Option Nat) (passing : List Message) (otherwise : Option Completion)
    (printed : List Printed) (completion : Option Completion) : Prop where
  printed_eq : printed = (wanted left passing).map receivedRecord
  completion_eq : completion = if reached left passing then some .done else otherwise

section

variable {left : Option Nat} {passing later : List Message} {printed : List Printed}
variable {otherwise completion : Option Completion}

theorem Cut.of_reached (h : reached left passing) (later : List Message)
    (otherwise : Option Completion) :
    Cut left (passing ++ later) otherwise ((wanted left passing).map receivedRecord)
      (some .done) where
  printed_eq := by rw [wanted_append_of_reached h]
  completion_eq := by rw [if_pos (reached_append_of_reached h later)]

theorem Cut.append (h : reached left passing = false)
    (hlater : Cut (fewer left passing.length) later otherwise printed completion) :
    Cut left (passing ++ later) otherwise (passing.map receivedRecord ++ printed) completion where
  printed_eq := by rw [wanted_append h, List.map_append, hlater.printed_eq]
  completion_eq := by rw [reached_append h, hlater.completion_eq]

theorem Cut.nil (h : left ≠ some 0) (otherwise : Option Completion) :
    Cut left [] otherwise [] otherwise := by
  cases left with
  | none => exact ⟨rfl, rfl⟩
  | some n =>
      have hn : n ≠ 0 := fun hzero => h (congrArg some hzero)
      exact ⟨by simp [wanted], by simp [reached, hn]⟩

end

theorem fewer_ne_zero {count : Option Nat} {already : Nat}
    (h : ∀ n, count = some n → already < n) : fewer count already ≠ some 0 := by
  cases count with
  | none => exact nofun
  | some n =>
      have hn := h n rfl
      simp [fewer]
      omega

theorem reached_singleton (count : Option Nat) (already : Nat) (m : Message) :
    reached (fewer count already) [m] = count.any (· ≤ already + 1) := by
  cases count with
  | none => rfl
  | some n =>
      simp [reached, fewer]
      omega

/-- More than the first few are wanted, where these are not enough. -/
theorem lt_of_not_reached {count : Option Nat} {already : Nat} {ms : List Message}
    (h : reached (fewer count already) ms = false) :
    ∀ n, count = some n → already + ms.length < n := by
  intro n hn
  subst hn
  simp [reached, fewer] at h
  omega

/-- A connection is printed as far as messages are wanted.  Where that is not enough, its
last error says what happens next. -/
theorem session_eq [FiniteSource σ] (filter : Option (List Channel)) (count : Option Nat)
    (limit : Nat) {s : σ} (h : Source.Holds s ws) (already : Nat)
    (hleft : ∀ n, count = some n → already < n) :
    Cut (fewer count already) ((drain limit ws).1.filter (passes filter))
      (leaving (drain limit ws).2)
      (session filter count already (readings limit s)).printed
      (session filter count already (readings limit s)).completion := by
  fun_induction drain limit ws generalizing s already with
  | case1 ws m hm ih =>
      obtain ⟨hresult, hrest⟩ := readMessage_of_holds limit h
      rw [hm] at hresult
      rw [readings_of_ok hresult, session, hresult]
      by_cases hpass : passes filter m
      · have hone := reached_singleton count already m
        rw [List.filter_cons_of_pos hpass]
        cases henough : count.any (· ≤ already + 1) with
        | true =>
            rw [henough] at hone
            have hcut := Cut.of_reached hone
              ((drain limit (readMessage limit ws).rest).1.filter (passes filter))
              (leaving (drain limit (readMessage limit ws).rest).2)
            rw [wanted_singleton (fewer_ne_zero hleft)] at hcut
            simp only [if_pos hpass]
            exact hcut
        | false =>
            rw [henough] at hone
            have hmore := ih hrest (already + 1) (lt_of_not_reached hone)
            rw [← fewer_fewer] at hmore
            simp only [if_pos hpass]
            exact Cut.append hone hmore
      · rw [List.filter_cons_of_neg hpass]
        simp only [if_neg hpass]
        exact ih hrest already hleft
  | case2 ws e he =>
      obtain ⟨hresult, -⟩ := readMessage_of_holds limit h
      rw [he] at hresult
      have hnil := Cut.nil (fewer_ne_zero hleft) (leaving e)
      rw [readings_of_error hresult, session, hresult]
      split
      · next hclosed =>
          cases hclosed
          exact hnil
      · next e' hother herror =>
          cases herror
          rw [leaving_of_fault hother] at hnil ⊢
          exact hnil
      · next m hok => cases hok

/-! ## Connection after connection -/

theorem heard_of_closed {rest : List (List UInt32)} (h : (drain limit ws).2 = .carrier .closed) :
    heard limit (ws :: rest) =
      ⟨(drain limit ws).1 ++ (heard limit rest).messages, (heard limit rest).fault⟩ := by
  rw [heard]
  split
  · next ms hdrain => rw [hdrain]
  · next ms e hne hdrain => exact absurd (by rw [hdrain] at h; exact h) hne

theorem heard_of_fault {rest : List (List UInt32)} (h : (drain limit ws).2 ≠ .carrier .closed) :
    heard limit (ws :: rest) = ⟨(drain limit ws).1, some (drain limit ws).2⟩ := by
  rw [heard]
  split
  · next ms hdrain => exact absurd (by rw [hdrain]) h
  · next ms e hne hdrain => rw [hdrain]

/-- The messages of a connection come first. -/
theorem exists_messages_heard (limit : Nat) (ws : List UInt32) (rest : List (List UInt32)) :
    ∃ later, (heard limit (ws :: rest)).messages = (drain limit ws).1 ++ later := by
  by_cases h : (drain limit ws).2 = .carrier .closed
  · exact ⟨_, by rw [heard_of_closed h]⟩
  · exact ⟨[], by rw [heard_of_fault h, List.append_nil]⟩

/-- How the listener leaves where it is not done: it waits for another connection, or for
none behind a fault. -/
def Heard.otherwise (h : Heard) : Completion :=
  match h.fault with
  | none => .waiting
  | some e => .failed (Failure.ofMessage "receive failed" e)

/-- The messages of all connections are printed as far as they are wanted. -/
theorem serve_eq (filter : Option (List Channel)) (count : Option Nat) (limit already : Nat)
    (connections : List (List UInt8)) (hleft : ∀ n, count = some n → already < n) :
    Cut (fewer count already)
      ((heard limit (connections.map Payload.wholeWords)).messages.filter (passes filter))
      (some (heard limit (connections.map Payload.wholeWords)).otherwise)
      (serve filter count limit already connections).printed
      (some (serve filter count limit already connections).completion) := by
  induction connections generalizing already with
  | nil => exact Cut.nil (fewer_ne_zero hleft) _
  | cons bytes rest ih =>
      have hsession := session_eq filter count limit (ByteQueue.holds_ended bytes)
        already hleft
      rw [List.map_cons, serve]
      generalize Payload.wholeWords bytes = ws at *
      generalize session filter count already (readings limit (ByteQueue.ended bytes)) = s at *
      obtain ⟨hprinted, hcompletion⟩ := hsession
      cases hreached :
        reached (fewer count already) ((drain limit ws).1.filter (passes filter)) with
      | true =>
          obtain ⟨later, hlater⟩ := exists_messages_heard limit ws (rest.map Payload.wholeWords)
          rw [if_pos hreached] at hcompletion
          rw [hlater, List.filter_append, hcompletion, hprinted]
          exact Cut.of_reached hreached _ _
      | false =>
          rw [if_neg (by rw [hreached]; exact Bool.false_ne_true)] at hcompletion
          rw [wanted_of_not_reached hreached] at hprinted
          by_cases hclosed : (drain limit ws).2 = .carrier .closed
          · -- The next connection, with fewer messages wanted.
            rw [hclosed, leaving] at hcompletion
            rw [heard_of_closed hclosed, List.filter_append, hcompletion, hprinted,
              List.length_map]
            have hlater := ih _ (lt_of_not_reached hreached)
            rw [← fewer_fewer] at hlater
            exact Cut.append hreached hlater
          · rw [leaving_of_fault hclosed] at hcompletion
            rw [heard_of_fault hclosed, hcompletion]
            exact ⟨by rw [wanted_of_not_reached hreached, hprinted], by rw [hreached]; rfl⟩

/-! ## The command -/

theorem passes_iff (filter : Option (List Channel)) (m : Message) :
    passes filter m ↔ ∀ cs, filter = some cs →
      (∃ cmd, m = .special cmd) ∨ ∃ c ∈ cs, m.channel = some c := by
  cases filter with
  | none =>
      unfold passes
      cases m <;> simp [Message.channel]
  | some cs => cases m <;> simp [passes, Message.channel]

theorem fewer_zero (count : Option Nat) : fewer count 0 = count := by
  cases count <;> rfl

/-- What can be seen of a listener behind some connections, each of which closed. -/
structure Printing (filter : Option (List Channel)) (count : Option Nat) (limit : Nat)
    (connections : List (List UInt32)) (o : Outcome) : Prop where
  /-- Special commands pass, and messages on a channel of the filter. -/
  passing : ∀ m, passes filter m ↔ ∀ cs, filter = some cs →
    (∃ cmd, m = .special cmd) ∨ ∃ c ∈ cs, m.channel = some c
  /-- What passes of that which is heard is printed in order, up to the last that is asked for. -/
  printed : o.printed =
    (wanted count ((heard limit connections).messages.filter (passes filter))).map receivedRecord
  /-- Each line shows its message. -/
  shown : List.Forall₂ (fun line m => line.Shows Record.receivedSchema m none) o.printed
    (wanted count ((heard limit connections).messages.filter (passes filter)))
  /-- The listener ends well with the last message that is asked for, and reads no further. -/
  done : ∀ n, count = some n →
    n ≤ ((heard limit connections).messages.filter (passes filter)).length → o.completion = .done
  /-- Otherwise it fails where a message cannot be read. -/
  failed : (∀ n, count = some n →
      ((heard limit connections).messages.filter (passes filter)).length < n) →
    ∀ e, (heard limit connections).fault = some e →
      o.completion = .failed ⟨.dataInvalid, "receive failed: " ++ e.message⟩ ∧
        ExitStatus.dataInvalid.code = 60
  /-- Otherwise it waits for another connection. -/
  waiting : (∀ n, count = some n →
      ((heard limit connections).messages.filter (passes filter)).length < n) →
    (heard limit connections).fault = none → o.completion = .waiting
  /-- A message cannot be read that is cut short or too long. -/
  fault : ∀ e, (heard limit connections).fault = some e →
    (∃ missing, e = .truncated missing) ∨ ∃ size, e = .payloadTooLarge size limit

/-- Once the socket is bound, nothing is printed but by serving connections. -/
theorem listen_of_bind {d : SocketDirectory} {path : String} {l : Listener}
    (h : (d.bind path SocketDirectory.defaultMode).result = .ok l)
    (connections : List (List UInt8)) (filter : Option (List Channel)) (count : Option Nat)
    (limit : Nat) :
    (listen d connections path filter count limit).printed =
        (serve filter count limit 0 connections).printed ∧
      (listen d connections path filter count limit).completion =
        (serve filter count limit 0 connections).completion := by
  simp only [listen, h, and_self]

/-- A listener prints the messages that pass, over all connections, until it has as many as
it was asked for or cannot read one. -/
theorem printing_listen (d : SocketDirectory) (connections : List (List UInt32)) (path : String)
    (filter : Option (List Channel)) (count : Option Nat) (limit : Nat) {l : Listener}
    (hbind : (d.bind path SocketDirectory.defaultMode).result = .ok l)
    (hcount : ∀ n, count = some n → 1 ≤ n) :
    Printing filter count limit connections
      (listen d (connections.map fun ws => ws.flatMap Payload.bytes) path filter count limit) := by
  have hserve := serve_eq filter count limit 0
    (connections.map fun ws => ws.flatMap Payload.bytes) hcount
  rw [fewer_zero, List.map_map, Function.comp_def] at hserve
  simp only [Payload.wholeWords_flatMap_bytes, List.map_id'] at hserve
  obtain ⟨hprinted, hcompletion⟩ := hserve
  rw [← (listen_of_bind hbind _ filter count limit).1] at hprinted
  rw [← (listen_of_bind hbind _ filter count limit).2] at hcompletion
  exact {
    passing := passes_iff filter
    printed := hprinted
    shown := by
      rw [hprinted, List.forall₂_map_left_iff, List.forall₂_same]
      exact fun m _ => Record.shows_ofMessage _ m none
    done := by
      intro n hn hle
      rw [if_pos (reached_iff.mpr ⟨n, hn, hle⟩)] at hcompletion
      exact Option.some.inj hcompletion
    failed := by
      intro hless e he
      rw [not_reached_iff.mpr hless, Heard.otherwise, he] at hcompletion
      have hkind := fault_heard limit connections he
      refine ⟨(Option.some.inj hcompletion).trans ?_, rfl⟩
      rcases hkind with ⟨missing, rfl⟩ | ⟨size, rfl⟩ <;> rfl
    waiting := by
      intro hless he
      rw [not_reached_iff.mpr hless, Heard.otherwise, he] at hcompletion
      exact Option.some.inj hcompletion
    fault := fun e => fault_heard limit connections }

/-- Two messages are asked for.  One on a channel outside the filter does not count, an empty
connection is passed over, and the block that is cut short behind the second is not looked at. -/
theorem printing_listen_second :
    let connections : List (List UInt32) :=
      [[0x14000007, 0x24000001], [], [0x0C04000B, 0x10000008, 0x0C04000B]]
    let o := listen .empty (connections.map fun ws => ws.flatMap Payload.bytes) "s" (some [1])
      (some 2) 128
    (SocketDirectory.empty.bind "s" SocketDirectory.defaultMode).result = .ok ⟨"s", 1⟩ ∧ 1 ≤ 2 ∧
      o.printed = [
        .record ⟨"https://schemas.3leaps.dev/fifoprims/cli/v1/message-received.schema.json",
          "value32", some 1, "7 (0x7)", none, none⟩,
        .record ⟨"https://schemas.3leaps.dev/fifoprims/cli/v1/message-received.schema.json",
          "special-command", none, "coprocessor-requests-primary-reset (0x4000b)", none, none⟩] ∧
      o.completion = .done := by
  intro connections o
  have hbind : (SocketDirectory.empty.bind "s" SocketDirectory.defaultMode).result =
      .ok ⟨"s", 1⟩ := by cbv
  have hcount : ∀ n, some 2 = some n → 1 ≤ n := by
    intro n hn
    cases hn
    decide
  have hmessages : (heard 128 connections).messages.filter (passes (some [1])) =
      [.value32 1 7, .special .resetPrimary] := by cbv
  have h := printing_listen .empty connections "s" (some [1]) (some 2) 128 hbind hcount
  refine ⟨hbind, by decide, ?_, ?_⟩
  · have hprinted := h.printed
    rw [hmessages] at hprinted
    rw [show o.printed = _ from hprinted]
    decide +kernel
  · exact h.done 2 rfl (by rw [hmessages]; decide)

end Tool

end WordFifo
