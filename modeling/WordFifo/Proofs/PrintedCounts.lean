import WordFifo.Proofs.Listening

/-!
# How many messages a listener has printed

A listener goes on step by step.  In one step it takes the next connection, or it reads one
message of the connection it has, and `Serving.step` is that step.  What `serve` gives is
where the steps come to rest (`exists_serve`), so a point of the run is a number of steps.

The count is looked at behind a message that was printed.  So a listener that goes on has
room for one more message (`Within`), and it has printed at most as many as it was asked
for, or one.  That one is the difference between a listener that was asked for none and
the count it was given: it is served as if one had been asked for (`step_zero`), and it
prints a message wherever one passes (`printed_le_iff`).
-/

namespace WordFifo.Tool

open Reader

/-! ## A listener at work -/

/-- A listener at a point of its run. -/
structure Serving (σ : Type) where
  /-- What it has printed, in order. -/
  printed : List Printed
  /-- The connection that it reads. -/
  current : Option σ
  /-- The connections behind that one. -/
  pending : List σ
  /-- How it stands.  It goes on as long as it waits. -/
  completion : Completion

namespace Serving

variable {σ : Type}

/-- A listener before its first connection. -/
def start (connections : List σ) : Serving σ := ⟨[], none, connections, .waiting⟩

section Steps

variable (filter : Option (List Channel)) (count : Option Nat) (limit : Nat)

/-- What a reading of the connection does. -/
def hear (s : Serving σ) (r : Reading σ Message) : Serving σ :=
  match r.result with
  | .error (.carrier .closed) => { s with current := none }
  | .error e => { s with completion := .failed (Failure.ofMessage "receive failed" e) }
  | .ok m =>
    if passes filter m then
      { s with
        printed := s.printed ++ [receivedRecord m]
        current := some r.rest
        completion := if count.any (· ≤ s.printed.length + 1) then .done else .waiting }
    else { s with current := some r.rest }

/-- The listener reads a message, or takes a connection.  Without either it stays as it is. -/
def step [Source σ] (s : Serving σ) : Serving σ :=
  match s.completion, s.current, s.pending with
  | .waiting, some c, _ => s.hear filter count (readMessage limit c)
  | .waiting, none, c :: rest => { s with current := some c, pending := rest }
  | _, _, _ => s

end Steps

/-! ## What one step keeps -/

section Room

variable {filter : Option (List Channel)} {count : Option Nat} {limit n : Nat}

/-- One more message is printed while the listener goes on, or none. -/
theorem step_cases [Source σ] (filter : Option (List Channel)) (count : Option Nat) (limit : Nat)
    (s : Serving σ) :
    (∃ m, s.completion = .waiting ∧
        (s.step filter count limit).printed = s.printed ++ [receivedRecord m] ∧
        (s.step filter count limit).completion =
          if count.any (· ≤ s.printed.length + 1) then .done else .waiting) ∨
      (s.step filter count limit).printed = s.printed ∧
        ((s.step filter count limit).completion = .waiting → s.completion = .waiting) := by
  rw [step]
  split
  · next c _ hw _ =>
      rw [hear]
      split
      · exact Or.inr ⟨rfl, fun _ => hw⟩
      · exact Or.inr ⟨rfl, fun _ => hw⟩
      · next m _ =>
          split
          · exact Or.inl ⟨m, hw, rfl, rfl⟩
          · exact Or.inr ⟨rfl, fun _ => hw⟩
  · next hw _ _ => exact Or.inr ⟨rfl, fun _ => hw⟩
  · exact Or.inr ⟨rfl, id⟩

/-- A listener that was asked for `n` messages has room for another one as long as it goes on. -/
structure Within (n : Nat) (s : Serving σ) : Prop where
  bounded : s.printed.length ≤ max n 1
  room : s.completion = .waiting → s.printed.length < max n 1

theorem within_start (n : Nat) (connections : List σ) : Within n (start connections) where
  bounded := Nat.zero_le _
  room _ := Nat.lt_of_lt_of_le Nat.zero_lt_one (Nat.le_max_right n 1)

theorem Within.step [Source σ] {s : Serving σ} (h : Within n s) :
    Within n (s.step filter (some n) limit) := by
  rcases step_cases filter (some n) limit s with ⟨m, hw, hprinted, hcompletion⟩ | ⟨hprinted, hgoes⟩
  · have hroom := h.room hw
    have hlen : (s.step filter (some n) limit).printed.length = s.printed.length + 1 := by
      rw [hprinted, List.length_append, List.length_singleton]
    refine ⟨hlen ▸ hroom, fun hlater => ?_⟩
    -- It goes on only where the count is not reached.
    have hless : ¬ n ≤ s.printed.length + 1 := by
      intro hle
      rw [hlater, Option.any_some, if_pos (decide_eq_true hle)] at hcompletion
      cases hcompletion
    omega
  · exact ⟨hprinted ▸ h.bounded, fun hlater => hprinted ▸ h.room (hgoes hlater)⟩

theorem within_iterate [Source σ] (connections : List σ) (k : Nat) :
    Within n ((step filter (some n) limit)^[k] (start connections)) := by
  induction k with
  | zero => exact within_start n connections
  | succ k ih =>
      rw [Function.iterate_succ_apply']
      exact ih.step

theorem length_printed_mono [Source σ] (filter : Option (List Channel)) (count : Option Nat)
    (limit : Nat) (s : Serving σ) :
    Monotone fun k => ((step filter count limit)^[k] s).printed.length := by
  refine monotone_nat_of_le_succ fun k => ?_
  rw [Function.iterate_succ_apply']
  rcases step_cases filter count limit ((step filter count limit)^[k] s) with
    ⟨m, -, hprinted, -⟩ | ⟨hprinted, -⟩
  · rw [hprinted, List.length_append]
    exact Nat.le_add_right _ _
  · rw [hprinted]

end Room

/-! ## Where the steps come to rest -/

section Rest

variable (filter : Option (List Channel)) (count : Option Nat) (limit : Nat)

theorem step_of_passes [Source σ] {c : σ} {m : Message} (hm : (readMessage limit c).result = .ok m)
    (hpass : passes filter m) (printed : List Printed) (rest : List σ) :
    step filter count limit ⟨printed, some c, rest, .waiting⟩ =
      ⟨printed ++ [receivedRecord m], some (readMessage limit c).rest, rest,
        if count.any (· ≤ printed.length + 1) then .done else .waiting⟩ := by
  simp only [step, hear, hm, if_pos hpass]

theorem step_of_not_passes [Source σ] {c : σ} {m : Message}
    (hm : (readMessage limit c).result = .ok m) (hpass : ¬passes filter m)
    (printed : List Printed) (rest : List σ) :
    step filter count limit ⟨printed, some c, rest, .waiting⟩ =
      ⟨printed, some (readMessage limit c).rest, rest, .waiting⟩ := by
  simp only [step, hear, hm, if_neg hpass]

/-- The messages of one connection, step by step. -/
theorem exists_session [FiniteSource σ] (printed : List Printed) (c : σ) (rest : List σ) :
    ∃ k current, (step filter count limit)^[k] ⟨printed, some c, rest, .waiting⟩ =
        ⟨printed ++ (session filter count printed.length (readings limit c)).printed, current, rest,
          (session filter count printed.length (readings limit c)).completion.getD .waiting⟩ ∧
      ((session filter count printed.length (readings limit c)).completion = none →
        current = none) ∧
      (session filter count printed.length (readings limit c)).completion ≠ some .waiting := by
  fun_induction readings limit c generalizing printed with
  | case1 c m hm ih =>
      rw [session, hm]
      by_cases hpass : passes filter m
      · have hone := step_of_passes filter count limit hm hpass printed rest
        simp only [if_pos hpass]
        cases henough : count.any (· ≤ printed.length + 1) with
        | true =>
            rw [henough, if_pos rfl] at hone
            refine ⟨1, some (readMessage limit c).rest, ?_, by simp, by simp⟩
            rw [Function.iterate_one, hone]
            rfl
        | false =>
            rw [henough, if_neg Bool.false_ne_true] at hone
            obtain ⟨k, current, hk, hnone, hwaiting⟩ := ih (printed ++ [receivedRecord m])
            rw [List.length_append, List.length_singleton] at hk hnone hwaiting
            refine ⟨k + 1, current, ?_, hnone, hwaiting⟩
            rw [Function.iterate_succ_apply, hone, hk, List.append_assoc]
            rfl
      · simp only [if_neg hpass]
        obtain ⟨k, current, hk, hnone, hwaiting⟩ := ih printed
        refine ⟨k + 1, current, ?_, hnone, hwaiting⟩
        rw [Function.iterate_succ_apply, step_of_not_passes filter count limit hm hpass, hk]
  | case2 c e he =>
      by_cases hclosed : e = .carrier .closed
      · subst hclosed
        simp only [session, he]
        refine ⟨1, none, ?_, fun _ => rfl, by simp⟩
        simp only [Function.iterate_one, step, hear, he, List.append_nil]
        rfl
      · simp only [session, he]
        refine ⟨1, some c, ?_, by simp, by simp⟩
        simp only [Function.iterate_one, step, hear, he, List.append_nil]
        rfl

theorem step_of_ended [Source σ] {s : Serving σ} (h : s.completion ≠ .waiting) :
    s.step filter count limit = s := by
  rw [step]
  split
  · next hw _ => exact absurd hw h
  · next hw _ _ => exact absurd hw h
  · rfl

/-- The messages of all connections, step by step, to a point where nothing changes any more. -/
theorem exists_serve (printed : List Printed) (connections : List (List UInt8)) :
    ∃ k s, (step filter count limit)^[k]
          ⟨printed, none, connections.map ByteQueue.ended, .waiting⟩ = s ∧
      s.step filter count limit = s ∧
      s.printed = printed ++ (serve filter count limit printed.length connections).printed ∧
      s.completion = (serve filter count limit printed.length connections).completion := by
  induction connections generalizing printed with
  | nil => exact ⟨0, _, rfl, rfl, (List.append_nil _).symm, rfl⟩
  | cons bytes rest ih =>
      obtain ⟨k, current, hk, hnone, hwaiting⟩ := exists_session filter count limit printed
        (ByteQueue.ended bytes) (rest.map ByteQueue.ended)
      have haccept : step filter count limit
          ⟨printed, none, (bytes :: rest).map ByteQueue.ended, .waiting⟩ =
          ⟨printed, some (ByteQueue.ended bytes), rest.map ByteQueue.ended, .waiting⟩ := rfl
      rw [serve]
      generalize session filter count printed.length
        (readings limit (ByteQueue.ended bytes)) = o at *
      cases hc : o.completion with
      | some completion =>
          rw [hc, Option.getD_some] at hk
          refine ⟨k + 1, ⟨printed ++ o.printed, current, rest.map ByteQueue.ended, completion⟩, ?_,
            step_of_ended filter count limit ?_, rfl, rfl⟩
          · rw [Function.iterate_succ_apply, haccept, hk]
          · exact fun h => hwaiting (hc.trans (congrArg some h))
      | none =>
          -- The next connection.
          obtain ⟨k', s, hs, hrest, hprinted, hcompletion⟩ := ih (printed ++ o.printed)
          rw [hc, hnone hc, Option.getD_none] at hk
          rw [List.length_append, List.append_assoc] at *
          refine ⟨k' + (k + 1), s, ?_, hrest, hprinted, hcompletion⟩
          rw [Function.iterate_add_apply, Function.iterate_succ_apply, haccept, hk, hs]

/-- A listener comes to rest with what it gives. -/
theorem exists_rest (connections : List (List UInt8)) :
    ∃ k, ∀ j, k ≤ j →
      ((step filter count limit)^[j] (start (connections.map ByteQueue.ended))).printed =
        (serve filter count limit 0 connections).printed ∧
      ((step filter count limit)^[j] (start (connections.map ByteQueue.ended))).completion =
        (serve filter count limit 0 connections).completion := by
  obtain ⟨k, s, hs, hrest, hprinted, hcompletion⟩ :=
    exists_serve filter count limit [] connections
  refine ⟨k, fun j hj => ?_⟩
  obtain ⟨i, rfl⟩ := Nat.exists_eq_add_of_le' hj
  rw [Function.iterate_add_apply, start, hs, Function.iterate_fixed hrest]
  exact ⟨hprinted, hcompletion⟩

end Rest

/-! ## The count and what is printed -/

section Counts

variable (filter : Option (List Channel)) (limit : Nat)

/-- The messages that a listener may print. -/
def passing (connections : List (List UInt8)) : List Message :=
  (heard limit (connections.map Payload.wholeWords)).messages.filter (passes filter)

/-- A listener that was asked for none goes on like one that was asked for one message. -/
theorem step_zero [Source σ] :
    (step filter (some 0) limit : Serving σ → Serving σ) = step filter (some 1) limit := by
  funext s
  simp [step, hear]

theorem printed_serve (n : Nat) (connections : List (List UInt8)) :
    (serve filter (some n) limit 0 connections).printed =
      ((passing filter limit connections).take (max n 1)).map receivedRecord := by
  have hserve : ∀ n, 1 ≤ n → (serve filter (some n) limit 0 connections).printed =
      ((passing filter limit connections).take n).map receivedRecord := fun n hn =>
    fewer_zero (some n) ▸ (serve_eq filter (some n) limit 0 connections
      (fun _ h => Option.some.inj h ▸ hn)).printed_eq
  rcases Nat.eq_zero_or_pos n with rfl | hn
  · -- The same steps come to the same rest.
    obtain ⟨k, hk⟩ := exists_rest filter (some 0) limit connections
    obtain ⟨k', hk'⟩ := exists_rest filter (some 1) limit connections
    rw [← (hk _ (Nat.le_max_left k k')).1, step_zero, (hk' _ (Nat.le_max_right k k')).1]
    exact hserve 1 (Nat.le_refl 1)
  · rw [Nat.max_eq_left hn]
    exact hserve n hn

end Counts

/-- At every point of its run a listener has printed at most as many messages as it was asked
for, or one.  So it keeps to a count exactly when this is not zero, or when no message passes
that it hears.  A listener at a path comes to rest with what it prints. -/
theorem printed_le_iff (filter : Option (List Channel)) (n limit : Nat) :
    (∀ (σ : Type) [Source σ] (connections : List σ) (k : Nat),
        ((step filter (some n) limit)^[k] (start connections)).printed.length ≤ max n 1) ∧
      ∀ connections : List (List UInt8),
        ((∀ k, ((step filter (some n) limit)^[k]
              (start (connections.map ByteQueue.ended))).printed.length ≤ n) ↔
            1 ≤ n ∨ passing filter limit connections = []) ∧
          ∀ (d : SocketDirectory) (path : String) (l : Listener),
            (d.bind path SocketDirectory.defaultMode).result = .ok l →
            ∃ k, ∀ j, k ≤ j →
              ((step filter (some n) limit)^[j]
                  (start (connections.map ByteQueue.ended))).printed =
                (listen d connections path filter (some n) limit).printed ∧
              ((step filter (some n) limit)^[j]
                  (start (connections.map ByteQueue.ended))).completion =
                (listen d connections path filter (some n) limit).completion := by
  refine ⟨fun σ _ connections k => (within_iterate connections k).bounded,
    fun connections => ?_⟩
  obtain ⟨k, hk⟩ := exists_rest filter (some n) limit connections
  refine ⟨⟨fun h => ?_, fun h j => ?_⟩, fun d path l hbind => ⟨k, ?_⟩⟩
  · rcases Nat.eq_zero_or_pos n with rfl | hn
    · have hnone := h k
      rw [(hk k (Nat.le_refl k)).1, printed_serve, List.length_map, Nat.le_zero,
        List.length_eq_zero_iff, List.take_eq_nil_iff] at hnone
      exact Or.inr (hnone.resolve_left (by decide))
    · exact Or.inl hn
  · rcases h with hn | hpassing
    · exact (within_iterate _ j).bounded.trans_eq (Nat.max_eq_left hn)
    · -- Nothing is taken back, so nothing was printed if nothing is in the end.
      have hmono := length_printed_mono filter (some n) limit
        (start (connections.map ByteQueue.ended)) (Nat.le_max_left j k)
      have hend := (hk _ (Nat.le_max_right j k)).1
      rw [printed_serve, hpassing, List.take_nil, List.map_nil] at hend
      exact hmono.trans ((congrArg List.length hend).trans_le (Nat.zero_le n))
  · obtain ⟨hprinted, hcompletion⟩ := listen_of_bind hbind connections filter (some n) limit
    rw [hprinted, hcompletion]
    exact hk

/-- Two messages are asked for, three pass on two connections, and the second is the last that
is printed. -/
theorem printed_le_iff_second :
    let connections : List (List UInt8) := [[0x07, 0x00, 0x00, 0x14, 0x09, 0x00, 0x00, 0x24],
      [0x0B, 0x00, 0x04, 0x0C, 0x08, 0x00, 0x00, 0x14]]
    (SocketDirectory.empty.bind "s" SocketDirectory.defaultMode).result = .ok ⟨"s", 1⟩ ∧
      (∀ k, ((step (some [1]) (some 2) 128)^[k]
        (start (connections.map ByteQueue.ended))).printed.length ≤ 2) ∧
      ∃ k, ((step (some [1]) (some 2) 128)^[k]
        (start (connections.map ByteQueue.ended))).printed =
          [receivedRecord (.value32 1 7), receivedRecord (.special .resetPrimary)] := by
  intro connections
  have hbind : (SocketDirectory.empty.bind "s" SocketDirectory.defaultMode).result =
      .ok ⟨"s", 1⟩ := by cbv
  have hpassing : passing (some [1]) 128 connections =
      [.value32 1 7, .special .resetPrimary, .value32 1 8] := by cbv
  obtain ⟨-, hcount⟩ := printed_le_iff (some [1]) 2 128
  obtain ⟨hwithin, hrest⟩ := hcount connections
  obtain ⟨k, hk⟩ := hrest .empty "s" ⟨"s", 1⟩ hbind
  refine ⟨hbind, hwithin.mpr (Or.inl (by decide)), k, ?_⟩
  rw [(hk k (Nat.le_refl k)).1, (listen_of_bind hbind connections (some [1]) (some 2) 128).1,
    printed_serve, hpassing]
  rfl

/-- A listener that was asked for none prints the first message that passes. -/
theorem printed_of_none_asked :
    let o := listen .empty [[0x07, 0x00, 0x00, 0x14]] "s" none (some 0) 128
    o.printed = [receivedRecord (.value32 1 7)] ∧
      ¬∀ (d : SocketDirectory) (connections : List (List UInt8)) (path : String)
        (filter : Option (List Channel)) (n limit : Nat),
          (listen d connections path filter (some n) limit).printed.length ≤ n := by
  intro o
  have hbind : (SocketDirectory.empty.bind "s" SocketDirectory.defaultMode).result =
      .ok ⟨"s", 1⟩ := by cbv
  have hpassing : passing none 128 [[0x07, 0x00, 0x00, 0x14]] = [.value32 1 7] := by cbv
  have hprinted : o.printed = [receivedRecord (.value32 1 7)] := by
    rw [(listen_of_bind hbind _ none (some 0) 128).1, printed_serve, hpassing]
    rfl
  refine ⟨hprinted, fun h => ?_⟩
  have hnone := h .empty [[0x07, 0x00, 0x00, 0x14]] "s" none 0 128
  rw [hprinted] at hnone
  exact absurd hnone (by decide)

end Serving

end WordFifo.Tool
