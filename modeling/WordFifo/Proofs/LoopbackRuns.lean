import WordFifo.Loopback

/-!
# Runs of a loopback pair

A run is any interleaving of sends, receives and drops at the two ends.  Its log
keeps what was done and what came of it.

A direction is named after the end that sends.  `Moves` says what an entry of
the log does to the queue of a direction, with one rule for each effect, and
every action is one of these moves in both directions (`moves_act`).  So each
fact about a direction is kept by cases on a move (`Carried.step`), and holds
after every run (`carried_run`).
-/

namespace WordFifo

/-! ## Receives -/

/-- How long a receive waits for a word. -/
inductive Patience where
  /-- Until there is one, or the sender is gone. -/
  | endless
  /-- Not at all. -/
  | none
  /-- For a time, that may be over. -/
  | limited (isOver : Bool)
deriving DecidableEq, Repr

/-- Whether a receive that finds nothing goes on waiting. -/
def Patience.waits : Patience → Bool
  | .endless => true
  | .none => false
  | .limited isOver => !isOver

namespace LoopbackPair

/-- What comes of an action. -/
inductive Answer where
  | sent
  /-- A receive is over. -/
  | received (result : Except CarrierError (Option UInt32))
  /-- A receive goes on waiting. -/
  | waits
  | dropped
  /-- The end was dropped before. -/
  | absent

/-- What is done at an end. -/
inductive Action where
  | send (header : UInt32) (extra : List UInt32)
  | sendWord (word : UInt32)
  | receive (patience : Patience)
  | drop
deriving DecidableEq, Repr

namespace Action

/-- The words that an action sends. -/
def words : Action → List UInt32
  | .send header extra => header :: extra
  | .sendWord word => [word]
  | _ => []

/-- An action sends, receives or drops. -/
theorem kinds (a : Action) : (∃ header extra, a.words = header :: extra) ∨
    (∃ patience, a = .receive patience) ∨ a = .drop := by
  cases a with
  | send header extra => exact Or.inl ⟨header, extra, rfl⟩
  | sendWord word => exact Or.inl ⟨word, [], rfl⟩
  | receive patience => exact Or.inr (Or.inl ⟨patience, rfl⟩)
  | drop => exact Or.inr (Or.inr rfl)

end Action

end LoopbackPair

namespace LoopbackQueue

open LoopbackPair (Answer)

/-- A receive, by how long it waits. -/
def receiveWith (q : LoopbackQueue) : Patience → Answer × LoopbackQueue
  | .endless =>
    match q.await with
    | some (.ok w, q) => (.received (.ok (some w)), q)
    | some (.error e, q) => (.received (.error e), q)
    | .none => (.waits, q)
  | .none => (.received q.poll.1, q.poll.2)
  | .limited isOver =>
    match q.awaitUntil isOver with
    | some (result, q) => (.received result, q)
    | .none => (.waits, q)

variable {q : LoopbackQueue}

/-- However long it would wait, a receive takes the first word that is there. -/
theorem receiveWith_cons {w : UInt32} {rest : List UInt32} (h : q.words = w :: rest)
    (patience : Patience) :
    q.receiveWith patience = (.received (.ok (some w)), { q with words := rest }) := by
  obtain ⟨words, senderAlive, sent⟩ := q
  subst h
  cases patience <;> rfl

/-- Without a word all receives tell by the sender whether there is more to come. -/
theorem receiveWith_nil (h : q.words = []) (patience : Patience) :
    q.receiveWith patience =
      (if q.senderAlive then if patience.waits then .waits else .received (.ok none)
        else .received (.error .closed), q) := by
  obtain ⟨words, senderAlive, sent⟩ := q
  subst h
  cases patience with
  | endless => cases senderAlive <;> rfl
  | none => cases senderAlive <;> rfl
  | limited isOver => cases senderAlive <;> cases isOver <;> rfl

end LoopbackQueue

/-! ## Runs -/

namespace LoopbackPair

/-- An action at an end.  Where the end is gone nothing happens. -/
def act (p : LoopbackPair) (side : Side) (action : Action) : Answer × LoopbackPair :=
  if p.isAlive side then
    match action with
    | .send header extra => (.sent, p.send side header extra)
    | .sendWord word => (.sent, p.setOutbound side (Sink.sendWord (p.outbound side) word).2)
    | .receive patience =>
      let done := (p.inbound side).receiveWith patience
      (done.1, p.setInbound side done.2)
    | .drop => (.dropped, p.drop side)
  else (.absent, p)

section

variable {p : LoopbackPair} {side : Side}

theorem act_of_gone (h : p.isAlive side = false) (action : Action) :
    p.act side action = (.absent, p) := by
  rw [act.eq_def, h]
  rfl

theorem act_send {action : Action} {header : UInt32} {extra : List UInt32} (h : p.isAlive side)
    (hwords : action.words = header :: extra) :
    p.act side action = (.sent, p.setOutbound side ((p.outbound side).push header extra)) := by
  cases action with
  | send header extra =>
      cases hwords
      exact if_pos h
  | sendWord word =>
      cases hwords
      exact if_pos h
  | _ => cases hwords

theorem act_receive (h : p.isAlive side) (patience : Patience) :
    p.act side (.receive patience) = (((p.inbound side).receiveWith patience).1,
      p.setInbound side ((p.inbound side).receiveWith patience).2) :=
  if_pos h

theorem act_drop (h : p.isAlive side) :
    p.act side .drop = (.dropped, p.setOutbound side (p.outbound side).dropSender) :=
  if_pos h

end

/-- An action, and what came of it. -/
structure Entry where
  side : Side
  action : Action
  answer : Answer

/-- A pair, and all that was done to it. -/
structure Run where
  pair : LoopbackPair := {}
  /-- The oldest entry is the first. -/
  log : List Entry := []

/-- One more action. -/
def Run.step (r : Run) (act : Side × Action) : Run :=
  let done := r.pair.act act.1 act.2
  ⟨done.2, r.log ++ [⟨act.1, act.2, done.1⟩]⟩

/-- Actions one after the other, from a new pair. -/
def run (acts : List (Side × Action)) : Run := acts.foldl Run.step {}

/-! ## Reading off the log

A direction is named after its sender. -/

namespace Entry

variable (d : Side) (e : Entry)

/-- The words that an entry put into a direction. -/
def sent : List UInt32 :=
  match e.answer with
  | .sent => if e.side = d then e.action.words else []
  | _ => []

/-- The words that an entry took out of a direction. -/
def got : List UInt32 :=
  match e.answer with
  | .received (.ok (some w)) => if e.side = d.peer then [w] else []
  | _ => []

/-- The sender of a direction was dropped. -/
def Leaves : Prop := e.side = d ∧ e.answer = .dropped

theorem not_leaves {d : Side} {e : Entry} (h : e.answer ≠ .dropped) : ¬ e.Leaves d :=
  fun hleaves => h hleaves.2

/-- The receiver of a direction was told that it is closed. -/
def Closes : Prop := e.side = d.peer ∧ e.answer = .received (.error .closed)

theorem not_closes {d : Side} {e : Entry} (h : e.answer ≠ .received (.error .closed)) :
    ¬ e.Closes d :=
  fun hcloses => h hcloses.2

/-- The receiver of a direction made a receive. -/
def Receives : Prop := e.side = d.peer ∧ e.answer ≠ .absent ∧ ∃ patience, e.action = .receive patience

end Entry

/-- All words that were put into a direction, in order. -/
def sentIn (d : Side) (log : List Entry) : List UInt32 := log.flatMap (Entry.sent d)

/-- All words that were taken out of a direction, in order. -/
def gotIn (d : Side) (log : List Entry) : List UInt32 := log.flatMap (Entry.got d)

/-! ## Moves -/

/-- What an entry does to the queue of a direction. -/
inductive Moves (d : Side) (q : LoopbackQueue) : Entry → LoopbackQueue → Prop where
  | send {action : Action} {header : UInt32} {extra : List UInt32} (alive : q.senderAlive)
      (words : action.words = header :: extra) : Moves d q ⟨d, action, .sent⟩ (q.push header extra)
  | leave : Moves d q ⟨d, .drop, .dropped⟩ q.dropSender
  | take {patience : Patience} {w : UInt32} {rest : List UInt32} (words : q.words = w :: rest) :
      Moves d q ⟨d.peer, .receive patience, .received (.ok (some w))⟩ { q with words := rest }
  | close {patience : Patience} (words : q.words = []) (gone : q.senderAlive = false) :
      Moves d q ⟨d.peer, .receive patience, .received (.error .closed)⟩ q
  /-- The other direction is used, or nothing can be done. -/
  | idle {e : Entry} (sent : e.sent d = []) (got : e.got d = []) (stays : ¬ e.Leaves d)
      (unclosed : ¬ e.Closes d) (ready : e.Receives d → q.senderAlive) : Moves d q e q

/-- A receive is over or waits. -/
theorem receiveWith_answer (q : LoopbackQueue) (patience : Patience) :
    (q.receiveWith patience).1 = .waits ∨
      ∃ result, (q.receiveWith patience).1 = .received result := by
  cases hw : q.words with
  | nil =>
      rw [LoopbackQueue.receiveWith_nil hw]
      cases q.senderAlive <;> cases patience.waits
      · exact Or.inr ⟨_, rfl⟩
      · exact Or.inr ⟨_, rfl⟩
      · exact Or.inr ⟨_, rfl⟩
      · exact Or.inl rfl
  | cons w rest =>
      rw [LoopbackQueue.receiveWith_cons hw]
      exact Or.inr ⟨_, rfl⟩

variable {p : LoopbackPair} {d s : Side}

/-- What the sender of a direction does to it. -/
theorem moves_act_sender (h : p.isAlive d) (a : Action) :
    Moves d (p.outbound d) ⟨d, a, (p.act d a).1⟩ ((p.act d a).2.outbound d) := by
  have hpeer : d ≠ d.peer := (Side.peer_ne d).symm
  rcases a.kinds with ⟨header, extra, hwords⟩ | ⟨patience, rfl⟩ | rfl
  · rw [act_send h hwords, outbound_setOutbound]
    exact .send h hwords
  · rw [act_receive h, setInbound, outbound_setOutbound_peer]
    rcases receiveWith_answer (p.inbound d) patience with hanswer | ⟨result, hanswer⟩
    · rw [hanswer]
      exact .idle rfl rfl (Entry.not_leaves Answer.noConfusion)
        (fun hcloses => hpeer hcloses.1) (fun hreceives => absurd hreceives.1 hpeer)
    · rw [hanswer]
      refine .idle rfl ?_ (Entry.not_leaves Answer.noConfusion)
        (fun hcloses => hpeer hcloses.1) (fun hreceives => absurd hreceives.1 hpeer)
      match result with
      | .ok (some w) => exact if_neg hpeer
      | .ok none => rfl
      | .error e => rfl
  · rw [act_drop h, outbound_setOutbound]
    exact .leave

/-- What the receiver of a direction does to it. -/
theorem moves_act_receiver (h : p.isAlive d.peer) (a : Action) :
    Moves d (p.outbound d) ⟨d.peer, a, (p.act d.peer a).1⟩ ((p.act d.peer a).2.outbound d) := by
  have hpeer : d.peer ≠ d := Side.peer_ne d
  rcases a.kinds with ⟨header, extra, hwords⟩ | ⟨patience, rfl⟩ | rfl
  · rw [act_send h hwords, outbound_setOutbound_peer]
    refine .idle (if_neg hpeer) rfl (fun hleaves => hpeer hleaves.1)
      (Entry.not_closes Answer.noConfusion) ?_
    rintro ⟨-, -, patience, rfl⟩
    cases hwords
  · rw [act_receive h, setInbound_peer, outbound_setOutbound, inbound_peer]
    cases hw : (p.outbound d).words with
    | cons w rest =>
        rw [LoopbackQueue.receiveWith_cons hw]
        exact .take hw
    | nil =>
        rw [LoopbackQueue.receiveWith_nil hw]
        cases halive : (p.outbound d).senderAlive with
        | false => exact .close hw halive
        | true =>
            cases patience.waits with
            | false =>
                exact .idle rfl rfl (fun hleaves => hpeer hleaves.1)
                  (Entry.not_closes fun h => nomatch h) (fun _ => halive)
            | true =>
                exact .idle rfl rfl (fun hleaves => hpeer hleaves.1)
                  (Entry.not_closes Answer.noConfusion) (fun _ => halive)
  · rw [act_drop h, outbound_setOutbound_peer]
    refine .idle rfl rfl (fun hleaves => hpeer hleaves.1)
      (Entry.not_closes Answer.noConfusion) ?_
    rintro ⟨-, -, patience, hdrop⟩
    cases hdrop

/-- Every action is a move in every direction. -/
theorem moves_act (p : LoopbackPair) (d s : Side) (a : Action) :
    Moves d (p.outbound d) ⟨s, a, (p.act s a).1⟩ ((p.act s a).2.outbound d) := by
  cases h : p.isAlive s with
  | false =>
      rw [act_of_gone h]
      exact .idle rfl rfl (Entry.not_leaves Answer.noConfusion)
        (Entry.not_closes Answer.noConfusion) (fun hreceives => absurd rfl hreceives.2.1)
  | true =>
      rcases Side.eq_or_eq_peer s d with rfl | rfl
      · exact moves_act_sender h a
      · exact moves_act_receiver h a

/-! ## What a move keeps -/

namespace Moves

variable {q q' : LoopbackQueue} {e : Entry}

/-- Words come in at the back and go out at the front. -/
theorem words_eq (h : Moves d q e q') : q.words ++ e.sent d = e.got d ++ q'.words := by
  cases h with
  | @send action header extra alive words =>
      show q.words ++ (if d = d then action.words else []) = q.words ++ header :: extra
      rw [if_pos rfl, words]
  | leave => exact List.append_nil _
  | @take patience w rest words =>
      show q.words ++ [] = (if d.peer = d.peer then [w] else []) ++ rest
      rw [if_pos rfl, words, List.append_nil]
      rfl
  | close words gone => exact List.append_nil _
  | idle sent got _ _ _ => rw [sent, got, List.append_nil, List.nil_append]

theorem sent_eq (h : Moves d q e q') : q'.sent = q.sent + (e.sent d).length := by
  cases h with
  | @send action header extra alive words =>
      show q.sent + (1 + extra.length) = q.sent + (if d = d then action.words else []).length
      rw [if_pos rfl, words, List.length_cons, Nat.add_comm 1]
  | idle sent _ _ _ _ => rw [sent, List.length_nil, Nat.add_zero]
  | _ => rfl

theorem alive_iff (h : Moves d q e q') : q'.senderAlive ↔ q.senderAlive ∧ ¬ e.Leaves d := by
  cases h with
  | leave => exact iff_of_false Bool.noConfusion fun hstays => hstays.2 ⟨rfl, rfl⟩
  | idle _ _ stays _ _ => exact (and_iff_left stays).symm
  | _ => exact (and_iff_left (Entry.not_leaves Answer.noConfusion)).symm

/-- Only a direction that has ended is told to be closed. -/
theorem ended_of_closes (h : Moves d q e q') (hcloses : e.Closes d) :
    q.words = [] ∧ q.senderAlive = false := by
  cases h with
  | close words gone => exact ⟨words, gone⟩
  | idle _ _ _ unclosed _ => exact absurd hcloses unclosed
  | _ =>
      obtain ⟨-, hanswer⟩ := hcloses
      cases hanswer

/-- A direction that has ended stays so, and is told to be closed at every receive. -/
theorem ended (h : Moves d q e q') (hwords : q.words = []) (hgone : q.senderAlive = false) :
    (q'.words = [] ∧ q'.senderAlive = false) ∧ (e.Receives d → e.Closes d) := by
  cases h with
  | send alive words =>
      rw [hgone] at alive
      cases alive
  | leave =>
      refine ⟨⟨hwords, rfl⟩, ?_⟩
      rintro ⟨-, -, patience, hdrop⟩
      cases hdrop
  | take words =>
      rw [hwords] at words
      cases words
  | close words gone => exact ⟨⟨words, gone⟩, fun _ => ⟨rfl, rfl⟩⟩
  | idle _ _ _ _ ready =>
      refine ⟨⟨hwords, hgone⟩, fun hreceives => ?_⟩
      have halive := ready hreceives
      rw [hgone] at halive
      cases halive

end Moves

/-! ## What a run keeps -/

theorem sentIn_append (d : Side) (log : List Entry) (e : Entry) :
    sentIn d (log ++ [e]) = sentIn d log ++ e.sent d := by
  rw [sentIn, sentIn, List.flatMap_append, List.flatMap_singleton]

theorem gotIn_append (d : Side) (log : List Entry) (e : Entry) :
    gotIn d (log ++ [e]) = gotIn d log ++ e.got d := by
  rw [gotIn, gotIn, List.flatMap_append, List.flatMap_singleton]

/-- How the queue of a direction and the log hang together. -/
structure Carried (d : Side) (log : List Entry) (q : LoopbackQueue) : Prop where
  /-- What was sent is what was received and what is still there. -/
  words_eq : sentIn d log = gotIn d log ++ q.words
  sent_eq : q.sent = (sentIn d log).length
  alive_iff : q.senderAlive ↔ ∀ e ∈ log, ¬ e.Leaves d
  ended : ∀ e ∈ log, e.Closes d → q.words = [] ∧ q.senderAlive = false
  /-- No receive behind one that was told `closed` is told anything else. -/
  closed_stays : log.Pairwise fun e e' => e.Closes d → e'.Receives d → e'.Closes d

theorem carried_nil (d : Side) : Carried d [] {} where
  words_eq := rfl
  sent_eq := rfl
  alive_iff := iff_of_true rfl fun _ hmem => absurd hmem List.not_mem_nil
  ended := fun _ hmem => absurd hmem List.not_mem_nil
  closed_stays := .nil

theorem Carried.step {log : List Entry} {q q' : LoopbackQueue} {e : Entry}
    (h : Carried d log q) (hm : Moves d q e q') : Carried d (log ++ [e]) q' where
  words_eq := by
    rw [sentIn_append, gotIn_append, h.words_eq, List.append_assoc, hm.words_eq, List.append_assoc]
  sent_eq := by rw [sentIn_append, List.length_append, hm.sent_eq, h.sent_eq]
  alive_iff := by
    rw [hm.alive_iff, h.alive_iff, List.forall_mem_append, List.forall_mem_singleton]
  ended := by
    intro e' hmem hcloses
    rcases List.mem_append.mp hmem with hold | hnew
    · obtain ⟨hwords, hgone⟩ := h.ended e' hold hcloses
      exact (hm.ended hwords hgone).1
    · obtain rfl := List.mem_singleton.mp hnew
      obtain ⟨hwords, hgone⟩ := hm.ended_of_closes hcloses
      exact (hm.ended hwords hgone).1
  closed_stays := by
    refine List.pairwise_append.mpr ⟨h.closed_stays, List.pairwise_singleton _ _, ?_⟩
    intro e' hold last hlast hcloses
    obtain rfl := List.mem_singleton.mp hlast
    obtain ⟨hwords, hgone⟩ := h.ended e' hold hcloses
    exact (hm.ended hwords hgone).2

theorem carried_run (acts : List (Side × Action)) (d : Side) :
    Carried d (run acts).log ((run acts).pair.outbound d) := by
  have hrun : ∀ r : Run, Carried d r.log (r.pair.outbound d) →
      Carried d (acts.foldl Run.step r).log ((acts.foldl Run.step r).pair.outbound d) := by
    induction acts with
    | nil => exact fun _ h => h
    | cons act acts ih => exact fun r h => ih _ (h.step (moves_act r.pair d act.1 act.2))
  refine hrun {} ?_
  cases d <;> exact carried_nil _

end LoopbackPair

end WordFifo
