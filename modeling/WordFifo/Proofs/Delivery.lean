import WordFifo.Loopback

/-!
# What a source delivers

`Gives s ws t` says that the next receives at `s` give the words `ws`, in order,
and leave `t`.  `Ended s` says that every receive from `s` on answers `closed`.
A source that gives `ws` and has then ended *holds* exactly these words.

A source is not bound to hold anything.  It may fail and go on, or give words
for ever.  Of `n` receives it is only known that they give `n` words, or that
one of them is the first to fail (`gives_or_stops`).
-/

namespace WordFifo.Source

variable {σ : Type} [Source σ] {s t u : σ} {w : UInt32} {v ws : List UInt32}

/-- The next receives give the words, in order, and leave the second source. -/
inductive Gives : σ → List UInt32 → σ → Prop where
  | nil {s : σ} : Gives s [] s
  | cons {s t u : σ} {w : UInt32} {ws : List UInt32} :
      receive s = (.ok w, t) → Gives t ws u → Gives s (w :: ws) u

/-- The source after some receives, whatever they gave. -/
def after : Nat → σ → σ
  | 0, s => s
  | n + 1, s => after n (receive s).2

/-- Every receive from here on answers `closed`. -/
def Ended (s : σ) : Prop := ∀ n, (receive (after n s)).1 = .error .closed

/-- The source gives these words and then has ended. -/
def Holds (s : σ) (ws : List UInt32) : Prop := ∃ t, Gives s ws t ∧ Ended t

/-! ## Runs of words -/

theorem Gives.split : ∀ {v : List UInt32} {s : σ}, Gives s (v ++ ws) u →
    ∃ t, Gives s v t ∧ Gives t ws u
  | [], s, h => ⟨s, .nil, h⟩
  | _ :: _, _, .cons hr h => by
      obtain ⟨t, hv, hws⟩ := Gives.split h
      exact ⟨t, .cons hr hv, hws⟩

/-- Of `n` receives, all give words or one is the first to fail. -/
theorem gives_or_stops (n : Nat) (s : σ) :
    (∃ ws t, ws.length = n ∧ Gives s ws t) ∨
      ∃ ws t e u, ws.length < n ∧ Gives s ws t ∧ receive t = (.error e, u) := by
  induction n generalizing s with
  | zero => exact Or.inl ⟨[], s, rfl, .nil⟩
  | succ n ih =>
      cases hr : receive s with
      | mk item s' =>
          cases item with
          | error e => exact Or.inr ⟨[], s, e, s', Nat.succ_pos n, .nil, hr⟩
          | ok w =>
              rcases ih s' with ⟨ws, t, hlen, h⟩ | ⟨ws, t, e, u, hlen, h, he⟩
              · exact Or.inl ⟨w :: ws, t, by simp [hlen], .cons hr h⟩
              · exact Or.inr ⟨w :: ws, t, e, u, by simp [hlen], .cons hr h, he⟩

/-! ## The end of a source -/

theorem Ended.receive (h : Ended s) : ∃ t, Source.receive s = (.error .closed, t) ∧ Ended t :=
  ⟨(Source.receive s).2, Prod.ext (h 0) rfl, fun n => h (n + 1)⟩

/-- A source that answers `closed` and stays as it is has ended. -/
theorem ended_of_receive_self (h : Source.receive s = (.error .closed, s)) : Ended s := by
  intro n
  induction n with
  | zero => rw [after, h]
  | succ n ih => rw [after, h, ih]

/-- The receives of a source that holds some words, one after the other. -/
theorem receive_after_of_holds (h : Holds s ws) (i : Nat) :
    (Source.receive (after i s)).1 = (ws[i]?).elim (.error .closed) .ok := by
  obtain ⟨t, hg, ht⟩ := h
  induction hg generalizing i with
  | nil => exact ht i
  | cons hr _ ih =>
      cases i with
      | zero => exact congrArg Prod.fst hr
      | succ i =>
          rw [after, hr]
          exact ih i ht

/-! ## Sources that are written down -/

theorem gives_words (rest : List UInt32) : ∀ ws : List UInt32, Gives (ws ++ rest) ws rest
  | [] => .nil
  | _ :: ws => .cons rfl (gives_words rest ws)

theorem gives_self (ws : List UInt32) : Gives ws ws [] := by
  simpa using gives_words [] ws

/-- A list gives nothing but its first words. -/
theorem eq_append_of_gives {v ws t : List UInt32} (h : Gives v ws t) : v = ws ++ t := by
  induction h with
  | nil => rfl
  | @cons s _ _ _ _ hr _ ih =>
      cases s with
      | nil => cases hr
      | cons w rest =>
          cases hr
          exact congrArg _ ih

theorem ended_words : Ended ([] : List UInt32) := ended_of_receive_self rfl

/-- A list of words holds these words. -/
theorem holds_words (ws : List UInt32) : Holds ws ws := ⟨[], gives_self ws, ended_words⟩

/-- A script gives the words in front of it, and nothing else. -/
theorem gives_script (rest : Script) : ∀ ws : List UInt32, Gives (ws.map .ok ++ rest) ws rest
  | [] => .nil
  | _ :: ws => .cons rfl (gives_script rest ws)

theorem eq_append_of_gives_script {script rest : Script} {ws : List UInt32}
    (h : Gives script ws rest) : script = ws.map .ok ++ rest := by
  induction h with
  | nil => rfl
  | @cons s _ _ _ _ hr _ ih =>
      cases s with
      | nil => cases hr
      | cons item rest =>
          cases hr
          exact congrArg _ ih

theorem ended_script : Ended ([] : Script) := ended_of_receive_self rfl

/-- A queue gives its words, the oldest first. -/
theorem gives_queue (rest : List UInt32) : ∀ (ws : List UInt32) {q : LoopbackQueue},
    q.words = ws ++ rest → Gives q ws { q with words := rest }
  | [], q, h => by
      cases q
      cases h
      exact .nil
  | w :: ws, _, h => .cons (LoopbackQueue.receive_cons h) (gives_queue rest ws rfl)

end WordFifo.Source
