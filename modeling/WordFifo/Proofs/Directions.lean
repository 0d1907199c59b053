import Mathlib.Algebra.Group.Nat.Defs
import WordFifo.Proofs.LoopbackRuns

/-!
# The two directions of a pair

Each direction of a loopback pair is a FIFO of its own.  It gives its words in
the order they were sent, keeps those that nobody has received, and is closed
only behind the last (`Lossless`).

What is done in one direction does not show in the other.  `concerns` picks
the actions of a direction out of a run, and these actions alone give the same
answers and the same queue (`apart_run`).  A drop is an action of both
directions, since it closes the one and ends the receives of the other.
-/

namespace WordFifo.LoopbackPair

variable {p p' : LoopbackPair} {d s : Side} {a : Action}

/-! ## One direction alone -/

/-- Whether an action at an end concerns a direction. -/
def concerns (d : Side) : Side × Action → Bool
  | (side, .send _ _) => side == d
  | (side, .sendWord _) => side == d
  | (side, .receive _) => side == d.peer
  | (_, .drop) => true

theorem concerns_of_words {header : UInt32} {extra : List UInt32}
    (h : a.words = header :: extra) : concerns d (s, a) = (s == d) := by
  cases a with
  | send header extra => rfl
  | sendWord word => rfl
  | _ => cases h

/-- What the actions of a direction depend on: its queue, and whether there is
anyone to receive. -/
def view (p : LoopbackPair) (d : Side) : LoopbackQueue × Bool := (p.outbound d, p.isAlive d.peer)

theorem view_setOutbound (p : LoopbackPair) (d : Side) (q : LoopbackQueue) :
    (p.setOutbound d q).view d = (q, p.isAlive d.peer) := by
  rw [view, isAlive, outbound_setOutbound, outbound_peer_setOutbound]
  rfl

theorem view_setOutbound_peer (p : LoopbackPair) (d : Side) (q : LoopbackQueue) :
    (p.setOutbound d.peer q).view d = (p.outbound d, q.senderAlive) := by
  rw [view, isAlive, outbound_setOutbound, outbound_setOutbound_peer]

/-- A receive does not touch the sender. -/
theorem senderAlive_receiveWith (q : LoopbackQueue) (patience : Patience) :
    (q.receiveWith patience).2.senderAlive = q.senderAlive := by
  cases hw : q.words with
  | nil => rw [LoopbackQueue.receiveWith_nil hw]
  | cons w rest => rw [LoopbackQueue.receiveWith_cons hw]

theorem view_act_of_not_concerns (h : concerns d (s, a) = false) :
    (p.act s a).2.view d = p.view d := by
  cases halive : p.isAlive s with
  | false => rw [act_of_gone halive]
  | true =>
      rcases Side.eq_or_eq_peer s d with rfl | rfl
      · rcases a.kinds with ⟨header, extra, hwords⟩ | ⟨patience, rfl⟩ | rfl
        · rw [concerns_of_words hwords, beq_self_eq_true] at h
          cases h
        · rw [act_receive halive, setInbound, view_setOutbound_peer, senderAlive_receiveWith]
          rfl
        · cases h
      · rcases a.kinds with ⟨header, extra, hwords⟩ | ⟨patience, rfl⟩ | rfl
        · rw [act_send halive hwords, view_setOutbound_peer]
          rfl
        · rw [concerns, beq_self_eq_true] at h
          cases h
        · cases h

theorem act_congr (h : concerns d (s, a)) (hview : p.view d = p'.view d) :
    (p.act s a).1 = (p'.act s a).1 ∧ (p.act s a).2.view d = (p'.act s a).2.view d := by
  obtain ⟨hqueue, hreceiver⟩ := Prod.mk.inj hview
  have hsender : p.isAlive d = p'.isAlive d := congrArg LoopbackQueue.senderAlive hqueue
  rcases Side.eq_or_eq_peer s d with rfl | rfl
  · cases halive : p.isAlive s with
    | false =>
        rw [act_of_gone halive, act_of_gone (hsender ▸ halive)]
        exact ⟨rfl, hview⟩
    | true =>
        have halive' : p'.isAlive s := hsender ▸ halive
        rcases a.kinds with ⟨header, extra, hwords⟩ | ⟨patience, rfl⟩ | rfl
        · rw [act_send halive hwords, act_send halive' hwords, view_setOutbound, view_setOutbound,
            hqueue, hreceiver]
          exact ⟨rfl, rfl⟩
        · exact absurd (eq_of_beq h) (Side.peer_ne s).symm
        · rw [act_drop halive, act_drop halive', view_setOutbound, view_setOutbound, hqueue,
            hreceiver]
          exact ⟨rfl, rfl⟩
  · cases halive : p.isAlive d.peer with
    | false =>
        rw [act_of_gone halive, act_of_gone (hreceiver ▸ halive)]
        exact ⟨rfl, hview⟩
    | true =>
        have halive' : p'.isAlive d.peer := hreceiver ▸ halive
        rcases a.kinds with ⟨header, extra, hwords⟩ | ⟨patience, rfl⟩ | rfl
        · rw [concerns_of_words hwords] at h
          exact absurd (eq_of_beq h) (Side.peer_ne d)
        · rw [act_receive halive, act_receive halive', setInbound_peer, setInbound_peer,
            inbound_peer, inbound_peer, view_setOutbound, view_setOutbound, hqueue, hreceiver]
          exact ⟨rfl, rfl⟩
        · rw [act_drop halive, act_drop halive', view_setOutbound_peer, view_setOutbound_peer,
            hqueue]
          exact ⟨rfl, rfl⟩

/-- How a run and the actions of one direction hang together. -/
structure Apart (d : Side) (r r' : Run) : Prop where
  view_eq : r.pair.view d = r'.pair.view d
  log_eq : r'.log = r.log.filter fun e => concerns d (e.side, e.action)

theorem Apart.step {r r' : Run} (h : Apart d r r') (hc : concerns d (s, a)) :
    Apart d (r.step (s, a)) (r'.step (s, a)) := by
  obtain ⟨hanswer, hview⟩ := act_congr hc h.view_eq
  refine ⟨hview, ?_⟩
  simp only [Run.step, List.filter_append, List.filter_cons, List.filter_nil, hc, if_true, h.log_eq,
    hanswer]

theorem Apart.step_left {r r' : Run} (h : Apart d r r') (hc : concerns d (s, a) = false) :
    Apart d (r.step (s, a)) r' := by
  refine ⟨(view_act_of_not_concerns hc).trans h.view_eq, ?_⟩
  simp only [Run.step, List.filter_append, List.filter_cons, List.filter_nil, hc,
    Bool.false_eq_true, if_false, List.append_nil, h.log_eq]

theorem apart_run (acts : List (Side × Action)) (d : Side) :
    Apart d (run acts) (run (acts.filter (concerns d))) := by
  have hrun : ∀ r r' : Run, Apart d r r' → Apart d (acts.foldl Run.step r)
      ((acts.filter (concerns d)).foldl Run.step r') := by
    -- The second run waits while the first does what does not concern the direction.
    induction acts with
    | nil => exact fun _ _ h => h
    | cons act acts ih =>
        intro r r' h
        cases hc : concerns d act with
        | true =>
            rw [List.filter_cons_of_pos hc]
            exact ih _ _ (h.step hc)
        | false =>
            rw [List.filter_cons_of_neg (Bool.not_eq_true _ ▸ hc)]
            exact ih _ _ (h.step_left hc)
  exact hrun {} {} ⟨rfl, rfl⟩

/-! ## What a run shows -/

/-- What a run shows of a direction. -/
structure Lossless (r : Run) (d : Side) : Prop where
  /-- What was sent is what was received and what is still there, in this order. -/
  words_eq : sentIn d r.log = gotIn d r.log ++ (r.pair.outbound d).words
  /-- The sender's counter is right until it wraps. -/
  counter : (sentIn d r.log).length < 2 ^ 64 →
    (r.pair.counter d).toNat = (sentIn d r.log).length
  pending : r.pair.pending d.peer = (sentIn d r.log).length - (gotIn d r.log).length
  alive_iff : r.pair.isAlive d ↔ ∀ e ∈ r.log, ¬ e.Leaves d
  /-- A live end may always send.  The header and its words go behind the others and
  are counted, and nothing else is changed. -/
  send : r.pair.isAlive d → ∀ header extra,
    let q := r.pair.outbound d
    r.pair.act d (.send header extra) = (.sent, r.pair.setOutbound d
      { q with words := q.words ++ header :: extra, sent := q.sent + 1 + extra.length })
  send_word : r.pair.isAlive d → ∀ word,
    let q := r.pair.outbound d
    r.pair.act d (.sendWord word) =
      (.sent, r.pair.setOutbound d { q with words := q.words ++ [word], sent := q.sent + 1 })
  /-- An end that leaves takes no word with it. -/
  drop : r.pair.isAlive d → r.pair.act d .drop =
    (.dropped, r.pair.setOutbound d { r.pair.outbound d with senderAlive := false })
  /-- An end that is gone does nothing. -/
  gone : r.pair.isAlive d = false → ∀ action, r.pair.act d action = (.absent, r.pair)
  /-- Every receive takes the first word that is there. -/
  receive_cons : ∀ w rest, r.pair.isAlive d.peer → (r.pair.outbound d).words = w :: rest →
    ∀ patience, r.pair.act d.peer (.receive patience) =
      (.received (.ok (some w)),
        r.pair.setInbound d.peer { r.pair.outbound d with words := rest })
  /-- Without a word it depends on the sender alone what a receive tells, and
  nothing is changed. -/
  receive_nil : r.pair.isAlive d.peer → (r.pair.outbound d).words = [] →
    ∀ patience, r.pair.act d.peer (.receive patience) =
      (if r.pair.isAlive d then if patience.waits then .waits else .received (.ok none)
        else .received (.error .closed), r.pair)
  /-- Where `closed` was told, all words that were ever sent had been received. -/
  closed : ∀ e ∈ r.log, e.Closes d → gotIn d r.log = sentIn d r.log
  /-- Behind a receive that was told `closed` all others are. -/
  closed_stays : r.log.Pairwise fun e e' => e.Closes d → e'.Receives d → e'.Closes d

/-- After any interleaving of actions at the two ends, both directions are
lossless, in order, and closed at the right time.  Each is as if the other had
not been used. -/
theorem lossless_run (acts : List (Side × Action)) (d : Side) :
    let r := run acts
    let alone := run (acts.filter (concerns d))
    Lossless r d ∧ alone.log = (r.log.filter fun e => concerns d (e.side, e.action)) ∧
      alone.pair.outbound d = r.pair.outbound d := by
  intro r alone
  have h : Carried d r.log (r.pair.outbound d) := carried_run acts d
  have hapart : Apart d r alone := apart_run acts d
  refine ⟨?_, hapart.log_eq, (congrArg Prod.fst hapart.view_eq).symm⟩
  exact {
    words_eq := h.words_eq
    counter := by
      intro hlt
      rw [counter, sent, h.sent_eq, UInt64.toNat_ofNat']
      exact Nat.mod_eq_of_lt hlt
    pending := by
      rw [pending, inbound_peer, h.words_eq, List.length_append, Nat.add_sub_cancel_left]
    alive_iff := h.alive_iff
    send := by
      intro halive header extra q
      rw [act_send halive rfl, LoopbackQueue.push, Nat.add_assoc]
    send_word := fun halive _ => act_send halive rfl
    drop := act_drop
    gone := act_of_gone
    receive_cons := by
      intro w rest halive hwords patience
      rw [act_receive halive, inbound_peer, LoopbackQueue.receiveWith_cons hwords]
    receive_nil := by
      intro halive hwords patience
      rw [act_receive halive, setInbound_peer, inbound_peer, LoopbackQueue.receiveWith_nil hwords,
        setOutbound_outbound]
      rfl
    closed := by
      intro e hmem hcloses
      rw [h.words_eq, (h.ended e hmem hcloses).1, List.append_nil]
    closed_stays := h.closed_stays }

/-- The sender leaves with its words unreceived, and the other direction stays in
use. -/
theorem lossless_run_left_behind :
    let acts : List (Side × Action) := [(.a, .send 5 [6]), (.a, .drop), (.b, .receive .none),
      (.b, .sendWord 7), (.b, .receive .endless), (.b, .receive (.limited false))]
    (sentIn .a (run acts).log).length < 2 ^ 64 ∧ ((run acts).pair.counter .a).toNat = 2 ∧
      sentIn .a (run acts).log = [5, 6] ∧ gotIn .a (run acts).log = sentIn .a (run acts).log := by
  intro acts
  obtain ⟨h, -⟩ := lossless_run acts .a
  have hlast : (⟨.b, .receive (.limited false), .received (.error .closed)⟩ : Entry) ∈
      (run acts).log := List.mem_of_getElem? (i := 5) rfl
  exact ⟨by decide, h.counter (by decide), rfl, h.closed _ hlast ⟨rfl, rfl⟩⟩

end WordFifo.LoopbackPair
