import Mathlib
import WordFifo.Proofs.SocketPaths

/-!
# Who may take a socket away

Listeners are bound and dropped in any order, also several under one path, and
others put things at places and take them away as they like.  A `World` is such a
directory with the open listeners in it.  It also keeps who made what stands at a
place, which no listener can look up: a listener has a path and a number.

The system numbers a new socket as it likes, as long as no open listener has the
number and no socket at another place (`Unused`).  A number may come back once
its socket and its listener are gone.

Numbers tell who made a socket, as far as open listeners are concerned (`Tied`).
Every move keeps that, and what a bind and a drop may do follows from it
(`Guarded`).
-/

namespace WordFifo

/-- A directory, and the listeners that were bound in it. -/
structure World where
  directory : SocketDirectory
  /-- The listeners that are not dropped, each with the turn of its bind. -/
  live : List (Nat × Listener)
  /-- The turn in which the socket was bound that was put at a place last.  None is what others
  put there. -/
  maker : Place → Option Nat
  /-- The turn of the next bind. -/
  turn : Nat

namespace World

/-- A directory with anything in it. -/
def start (d : SocketDirectory) : World := ⟨d, [], fun _ => none, 0⟩

/-! ## Moves -/

/-- The system chooses the number of the next socket. -/
def number (w : World) (n : Nat) : World := { w with directory.nextInode := n }

/-- Binds a socket to a path. -/
def bind (w : World) (path : String) (mode : Nat) : World :=
  let b := w.directory.bind path mode
  match b.result, w.directory.locate path with
  | .ok l, .ok p =>
    { directory := b.directory
      live := w.live ++ [(w.turn, l)]
      maker := fun q => if q = p then some w.turn else w.maker q
      turn := w.turn + 1 }
  | _, _ => { w with directory := b.directory }

/-- Drops a listener. -/
def drop (w : World) (k : Nat) (l : Listener) : World :=
  { w with
    directory := (w.directory.close l).1
    live := w.live.filter (·.1 != k) }

/-- Others put something at a place, or take away what is there. -/
def change (w : World) (p : Place) (e : Option Entry) : World :=
  { w with
    directory := w.directory.set p e
    maker := fun q => if q = p then none else w.maker q }

/-- No open listener has the number, and no socket at another place. -/
def Unused (w : World) (p : Place) (n : Nat) : Prop :=
  (∀ k l, (k, l) ∈ w.live → l.inode ≠ n) ∧
    ∀ q m, q ≠ p → w.directory.entry q ≠ some (.socket n m)

/-- What comes of moves in any order.  A socket is given an unused number. -/
inductive Reachable : World → Prop
  | start (d : SocketDirectory) : Reachable (start d)
  | number {w : World} (h : Reachable w) (n : Nat) : Reachable (w.number n)
  | bind {w : World} (h : Reachable w) {path : String} (mode : Nat)
      (unused : ∀ p, w.directory.locate path = .ok p → w.Unused p w.directory.nextInode) :
      Reachable (w.bind path mode)
  | drop {w : World} (h : Reachable w) {k : Nat} {l : Listener} (live : (k, l) ∈ w.live) :
      Reachable (w.drop k l)
  | change {w : World} (h : Reachable w) (p : Place) (e : Option Entry)
      (unused : ∀ n m, e = some (.socket n m) → w.Unused p n) : Reachable (w.change p e)

/-- The socket of a bind stands at a place. -/
def Made (w : World) (k : Nat) (p : Place) : Prop :=
  w.maker p = some k ∧ ∃ i m, w.directory.entry p = some (.socket i m)

/-! ## Numbers tell who made a socket -/

/-- The numbers of the open listeners are tied to what they made. -/
structure Tied (w : World) : Prop where
  /-- A socket with the number of an open listener is the one that it made. -/
  maker_of_inode : ∀ k l p m, (k, l) ∈ w.live →
    w.directory.entry p = some (.socket l.inode m) → w.maker p = some k
  /-- The socket that an open listener made has its number. -/
  inode_of_maker : ∀ k l p i m, (k, l) ∈ w.live → w.maker p = some k →
    w.directory.entry p = some (.socket i m) → i = l.inode
  turn_lt_of_live : ∀ k l, (k, l) ∈ w.live → k < w.turn
  turn_lt_of_maker : ∀ k p, w.maker p = some k → k < w.turn
  /-- Sockets are not bound where there is always a directory. -/
  place_of_maker : ∀ k p, w.maker p = some k → ∀ d : SocketDirectory,
    d.entry p ≠ some .directory → d.isDirectory p = false

variable {w : World} {path : String} {mode : Nat} {p : Place}

theorem bind_of_bindable (hlen : path.utf8ByteSize < SocketDirectory.pathLimit)
    (h : w.directory.Bindable path p) (mode : Nat) :
    (w.bind path mode).live = w.live ++ [(w.turn, ⟨path, w.directory.nextInode⟩)] ∧
      (w.bind path mode).maker = (fun q => if q = p then some w.turn else w.maker q) ∧
      (w.bind path mode).turn = w.turn + 1 ∧
      ∀ q, (w.bind path mode).directory.entry q =
        if q = p then some (.socket w.directory.nextInode (mode % 0o10000))
        else w.directory.entry q := by
  obtain ⟨hresult, hentry⟩ := SocketDirectory.bind_of_bindable hlen h mode
  simp only [bind, hresult, h.1.locate, true_and]
  exact hentry

theorem bind_of_error {e : CarrierError} (h : (w.directory.bind path mode).result = .error e)
    (hd : (w.directory.bind path mode).directory = w.directory) : w.bind path mode = w := by
  simp only [bind, h, hd]

theorem tied_start (d : SocketDirectory) : (start d).Tied where
  maker_of_inode _ _ _ _ hl := absurd hl List.not_mem_nil
  inode_of_maker _ _ _ _ _ hl := absurd hl List.not_mem_nil
  turn_lt_of_live _ _ hl := absurd hl List.not_mem_nil
  turn_lt_of_maker _ _ := nofun
  place_of_maker _ _ := nofun

theorem Tied.number (h : w.Tied) (n : Nat) : (w.number n).Tied :=
  ⟨h.maker_of_inode, h.inode_of_maker, h.turn_lt_of_live, h.turn_lt_of_maker, h.place_of_maker⟩

theorem Tied.bind (h : w.Tied) (path : String) (mode : Nat)
    (hunused : ∀ p, w.directory.locate path = .ok p → w.Unused p w.directory.nextInode) :
    (w.bind path mode).Tied := by
  rcases w.directory.bind_cases path mode with ⟨e, herror, hd, -⟩ | ⟨hlen, p, hp⟩
  · rw [bind_of_error herror hd]
    exact h
  · obtain ⟨hlive, hmaker, hturn, hentry⟩ := bind_of_bindable hlen hp mode
    obtain ⟨hother, helsewhere⟩ := hunused p hp.1.locate
    have hlive : ∀ k l, (k, l) ∈ (w.bind path mode).live →
        (k, l) ∈ w.live ∨ k = w.turn ∧ l.inode = w.directory.nextInode := by
      intro k l hl
      rw [hlive, List.mem_append, List.mem_singleton] at hl
      rcases hl with hl | hl
      · exact Or.inl hl
      · cases hl
        exact Or.inr ⟨rfl, rfl⟩
    constructor
    case maker_of_inode =>
      intro k l q m hl he
      rw [hentry] at he
      rw [hmaker]
      by_cases hq : q = p
      · -- The new socket has a number that no other listener has.
        simp only [if_pos hq] at he ⊢
        have hinode := (Entry.socket.inj (Option.some.inj he)).1
        rcases hlive k l hl with hold | ⟨rfl, -⟩
        · exact absurd hinode.symm (hother k l hold)
        · rfl
      · simp only [if_neg hq] at he ⊢
        rcases hlive k l hl with hold | ⟨rfl, hinode⟩
        · exact h.maker_of_inode k l q m hold he
        · rw [hinode] at he
          exact absurd he (helsewhere q m hq)
    case inode_of_maker =>
      intro k l q i m hl hm he
      rw [hentry] at he
      rw [hmaker] at hm
      by_cases hq : q = p
      · simp only [if_pos hq] at he hm
        cases he
        cases hm
        rcases hlive w.turn l hl with hold | ⟨-, hinode⟩
        · exact absurd (h.turn_lt_of_live _ _ hold) (Nat.lt_irrefl _)
        · exact hinode.symm
      · simp only [if_neg hq] at he hm
        rcases hlive k l hl with hold | ⟨rfl, -⟩
        · exact h.inode_of_maker k l q i m hold hm he
        · exact absurd (h.turn_lt_of_maker _ _ hm) (Nat.lt_irrefl _)
    case turn_lt_of_live =>
      intro k l hl
      rw [hturn]
      rcases hlive k l hl with hold | ⟨rfl, -⟩
      · exact Nat.lt_succ_of_lt (h.turn_lt_of_live k l hold)
      · exact Nat.lt_succ_self _
    case turn_lt_of_maker =>
      intro k q hm
      rw [hturn]
      rw [hmaker] at hm
      by_cases hq : q = p
      · simp only [if_pos hq] at hm
        cases hm
        exact Nat.lt_succ_self _
      · simp only [if_neg hq] at hm
        exact Nat.lt_succ_of_lt (h.turn_lt_of_maker k q hm)
    case place_of_maker =>
      intro k q hm d hd
      rw [hmaker] at hm
      by_cases hq : q = p
      · subst hq
        exact SocketDirectory.isDirectory_eq_false hp.2.1 hd
      · simp only [if_neg hq] at hm
        exact h.place_of_maker k q hm d hd

/-- A drop takes away what the listener made, where its path still leads there. -/
theorem Tied.drop_cases (h : w.Tied) {k : Nat} {l : Listener} (hl : (k, l) ∈ w.live) :
    (∃ p, w.directory.locate l.path = .ok p ∧ w.Made k p ∧
        ∀ q, (w.drop k l).directory.entry q = if q = p then none else w.directory.entry q) ∨
      (∀ p, w.directory.locate l.path = .ok p → ¬w.Made k p) ∧
        (w.drop k l).directory.entry = w.directory.entry := by
  by_cases hown : ∃ m, w.directory.lookup l.path = .ok (.socket l.inode m)
  · obtain ⟨m, hlookup⟩ := hown
    obtain ⟨p, hnames, hd, he⟩ := SocketDirectory.names_of_lookup_socket hlookup
    exact Or.inl ⟨p, hnames.locate, ⟨h.maker_of_inode k l p m hl he, l.inode, m, he⟩,
      SocketDirectory.close_of_own hnames hd he⟩
  · refine Or.inr ⟨?_, SocketDirectory.close_of_other fun m hm => hown ⟨m, hm⟩⟩
    rintro p hp ⟨hmaker, i, m, he⟩
    have hd := h.place_of_maker k p hmaker w.directory (by rw [he]; nofun)
    obtain rfl := h.inode_of_maker k l p i m hl hmaker he
    exact hown ⟨m, SocketDirectory.lookup_of_names (SocketDirectory.names_of_locate hp hd) hd he⟩

/-- Whatever stands after a drop stood there before. -/
theorem Tied.entry_of_drop (h : w.Tied) {k : Nat} {l : Listener} (hl : (k, l) ∈ w.live)
    {q : Place} {e : Entry} (he : (w.drop k l).directory.entry q = some e) :
    w.directory.entry q = some e := by
  rcases h.drop_cases hl with ⟨p, -, -, hentry⟩ | ⟨-, hentry⟩
  · rw [hentry] at he
    split at he
    · cases he
    · exact he
  · rw [← hentry]
    exact he

theorem Tied.drop (h : w.Tied) {k : Nat} {l : Listener} (hl : (k, l) ∈ w.live) :
    (w.drop k l).Tied where
  maker_of_inode k' l' p m hl' he :=
    h.maker_of_inode k' l' p m (List.mem_filter.mp hl').1 (h.entry_of_drop hl he)
  inode_of_maker k' l' p i m hl' hm he :=
    h.inode_of_maker k' l' p i m (List.mem_filter.mp hl').1 hm (h.entry_of_drop hl he)
  turn_lt_of_live k' l' hl' := h.turn_lt_of_live k' l' (List.mem_filter.mp hl').1
  turn_lt_of_maker := h.turn_lt_of_maker
  place_of_maker := h.place_of_maker

theorem Tied.change (h : w.Tied) (p : Place) (e : Option Entry)
    (hunused : ∀ n m, e = some (.socket n m) → w.Unused p n) : (w.change p e).Tied := by
  have hmaker : ∀ k q, (w.change p e).maker q = some k → q ≠ p ∧ w.maker q = some k := by
    intro k q hm
    simp only [World.change] at hm
    split at hm
    · cases hm
    · next hq => exact ⟨hq, hm⟩
  have hentry : ∀ q, q ≠ p → (w.change p e).directory.entry q = w.directory.entry q :=
    fun q hq => if_neg hq
  constructor
  case maker_of_inode =>
    intro k l q m hl he
    by_cases hq : q = p
    · subst hq
      rw [World.change, SocketDirectory.entry_set, if_pos rfl] at he
      exact absurd rfl ((hunused _ m he).1 k l hl)
    · rw [hentry q hq] at he
      simp only [World.change, if_neg hq]
      exact h.maker_of_inode k l q m hl he
  case inode_of_maker =>
    intro k l q i m hl hm he
    obtain ⟨hq, hm⟩ := hmaker k q hm
    rw [hentry q hq] at he
    exact h.inode_of_maker k l q i m hl hm he
  case turn_lt_of_live => exact h.turn_lt_of_live
  case turn_lt_of_maker =>
    intro k q hm
    exact h.turn_lt_of_maker k q (hmaker k q hm).2
  case place_of_maker =>
    intro k q hm
    exact h.place_of_maker k q (hmaker k q hm).2

theorem tied_of_reachable (h : Reachable w) : w.Tied := by
  induction h with
  | start d => exact tied_start d
  | number _ n ih => exact ih.number n
  | bind _ mode unused ih => exact ih.bind _ mode unused
  | drop _ live ih => exact ih.drop live
  | change _ p e unused ih => exact ih.change p e unused

/-! ## What binds and drops may do -/

/-- What a bind does that succeeds: where the path leads, a socket takes the place of nothing or of
a socket. -/
structure Bound (w : World) (path : String) (mode : Nat) (l : Listener) (p : Place) : Prop where
  locate : w.directory.locate path = .ok p
  listener : l = ⟨path, w.directory.nextInode⟩
  unused : w.Unused p l.inode
  /-- The socket has the permission bits that were asked for. -/
  entry : (w.bind path mode).directory.entry p = some (.socket l.inode (mode % 0o10000))
  replaced : ∀ e, w.directory.entry p = some e → ∃ i m, e = .socket i m
  other : ∀ q, q ≠ p → (w.bind path mode).directory.entry q = w.directory.entry q
  live : (w.bind path mode).live = w.live ++ [(w.turn, l)]
  made : (w.bind path mode).Made w.turn p

/-- Sockets are taken away by those who made them, or make room for another socket. -/
structure Guarded (w : World) : Prop where
  bind_long : ∀ path mode, 108 ≤ path.utf8ByteSize →
    (w.directory.bind path mode).result = .error (.pathTooLong path path.utf8ByteSize 108)
  bind_taken : ∀ path mode e, path.utf8ByteSize < 108 → w.directory.lookup path = .ok e →
    (∀ i m, e ≠ .socket i m) → ∃ cause,
      (w.directory.bind path mode).result = .error (.bind path cause)
  bind_free : ∀ path mode p, path.utf8ByteSize < 108 → w.directory.locate path = .ok p →
    w.directory.isDirectory p = false →
    (∀ e, w.directory.entry p = some e → ∃ i m, e = .socket i m) →
    ∃ l, (w.directory.bind path mode).result = .ok l
  /-- A bind that fails changes nothing, and only the length has an error of its own. -/
  bind_error : ∀ path mode e, (w.directory.bind path mode).result = .error e →
    w.bind path mode = w ∧ (path.utf8ByteSize < 108 → ∃ cause, e = .bind path cause)
  bind_ok : ∀ path mode l, (w.directory.bind path mode).result = .ok l →
    (∀ p, w.directory.locate path = .ok p → w.Unused p w.directory.nextInode) →
    ∃ p, w.Bound path mode l p
  /-- A drop takes away what the listener made. -/
  drop_own : ∀ k l p, (k, l) ∈ w.live → w.directory.locate l.path = .ok p → w.Made k p →
    ∀ q, (w.drop k l).directory.entry q = if q = p then none else w.directory.entry q
  /-- It changes nothing where something else stands. -/
  drop_other : ∀ k l, (k, l) ∈ w.live →
    (∀ p, w.directory.locate l.path = .ok p → ¬w.Made k p) →
    (w.drop k l).directory.entry = w.directory.entry
  /-- What is no socket stays. -/
  keeps_others : ∀ p e, w.directory.entry p = some e → (∀ i m, e ≠ .socket i m) →
    (∀ path mode, (w.bind path mode).directory.entry p = some e) ∧
      ∀ k l, (k, l) ∈ w.live → (w.drop k l).directory.entry p = some e
  /-- So does the socket of another bind, also where the two share a path. -/
  keeps_successor : ∀ k l p, (k, l) ∈ w.live → w.maker p ≠ some k →
    (w.drop k l).directory.entry p = w.directory.entry p

theorem bound_of_bindable (hlen : path.utf8ByteSize < SocketDirectory.pathLimit)
    (h : w.directory.Bindable path p) (mode : Nat) (hunused : w.Unused p w.directory.nextInode) :
    w.Bound path mode ⟨path, w.directory.nextInode⟩ p := by
  obtain ⟨hlive, hmaker, -, hentry⟩ := bind_of_bindable hlen h mode
  have hp := hentry p
  rw [if_pos rfl] at hp
  exact {
    locate := h.1.locate
    listener := rfl
    unused := hunused
    entry := hp
    replaced := h.2.2
    other := fun q hq => by rw [hentry, if_neg hq]
    live := hlive
    made := ⟨by simp only [hmaker, if_true], _, mode % 0o10000, hp⟩ }

/-- A bind leaves what is no socket. -/
theorem entry_of_bind {e : Entry} (he : w.directory.entry p = some e)
    (hother : ∀ i m, e ≠ .socket i m) (path : String) (mode : Nat) :
    (w.bind path mode).directory.entry p = some e := by
  rcases w.directory.bind_cases path mode with ⟨_, herror, hd, -⟩ | ⟨hlen, q, hq⟩
  · rw [bind_of_error herror hd]
    exact he
  · obtain ⟨-, -, -, hentry⟩ := bind_of_bindable hlen hq mode
    have hne : p ≠ q := by
      rintro rfl
      obtain ⟨i, m, hsocket⟩ := hq.2.2 e he
      exact hother i m hsocket
    rw [hentry, if_neg hne]
    exact he

/-- A drop leaves what the listener did not make. -/
theorem Tied.entry_of_not_made (h : w.Tied) {k : Nat} {l : Listener} (hl : (k, l) ∈ w.live)
    (hp : ¬w.Made k p) : (w.drop k l).directory.entry p = w.directory.entry p := by
  rcases h.drop_cases hl with ⟨q, -, hmade, hentry⟩ | ⟨-, hentry⟩
  · have hne : p ≠ q := by
      rintro rfl
      exact hp hmade
    rw [hentry, if_neg hne]
  · rw [hentry]

theorem Tied.guarded (h : w.Tied) : w.Guarded := by
  constructor
  case bind_long =>
    intro path mode hlen
    rw [SocketDirectory.bind_of_long hlen]
    rfl
  case bind_taken =>
    intro path mode e hlen he hother
    rw [SocketDirectory.bind_of_other hlen he hother]
    exact ⟨_, rfl⟩
  case bind_free =>
    intro path mode p hlen hp hd hsocket
    have hbindable : w.directory.Bindable path p :=
      ⟨SocketDirectory.names_of_locate hp hd, hd, hsocket⟩
    exact ⟨_, (SocketDirectory.bind_of_bindable hlen hbindable mode).1⟩
  case bind_error =>
    intro path mode e he
    rcases w.directory.bind_cases path mode with ⟨e', herror, hd, hcause⟩ | ⟨hlen, p, hp⟩
    · rw [herror] at he
      cases he
      exact ⟨bind_of_error herror hd, hcause⟩
    · rw [(SocketDirectory.bind_of_bindable hlen hp mode).1] at he
      cases he
  case bind_ok =>
    intro path mode l hl hunused
    rcases w.directory.bind_cases path mode with ⟨e, herror, -⟩ | ⟨hlen, p, hp⟩
    · rw [herror] at hl
      cases hl
    · rw [(SocketDirectory.bind_of_bindable hlen hp mode).1] at hl
      cases hl
      exact ⟨p, bound_of_bindable hlen hp mode (hunused p hp.1.locate)⟩
  case drop_own =>
    intro k l p hl hp hmade
    rcases h.drop_cases hl with ⟨q, hq, -, hentry⟩ | ⟨hother, -⟩
    · rw [hp] at hq
      cases hq
      exact hentry
    · exact absurd hmade (hother p hp)
  case drop_other =>
    intro k l hl hother
    rcases h.drop_cases hl with ⟨p, hp, hmade, -⟩ | ⟨-, hentry⟩
    · exact absurd hmade (hother p hp)
    · exact hentry
  case keeps_others =>
    intro p e he hother
    refine ⟨entry_of_bind he hother, fun k l hl => ?_⟩
    have hnot : ¬w.Made k p := by
      rintro ⟨-, i, m, hsocket⟩
      rw [he] at hsocket
      exact hother i m (Option.some.inj hsocket)
    rw [h.entry_of_not_made hl hnot]
    exact he
  case keeps_successor =>
    intro k l p hl hp
    exact h.entry_of_not_made hl fun hmade => hp hmade.1

/-- However binds, drops and the changes of others follow each other, no bind and no drop takes
away what is not its own. -/
theorem guarded_of_reachable (h : Reachable w) : w.Guarded :=
  (tied_of_reachable h).guarded

/-- Two listeners bind one path.  When the first is dropped, the socket of the second stays. -/
theorem guarded_of_rebound :
    let w := ((start .empty).bind "s" 0o600).bind "s" 0o644
    Reachable w ∧ w.Guarded ∧ w.live = [(0, ⟨"s", 1⟩), (1, ⟨"s", 2⟩)] ∧
      (w.drop 0 ⟨"s", 1⟩).directory.entry ["s"] = some (.socket 2 0o644) := by
  have hfirst : ((start .empty).bind "s" 0o600).live = [(0, ⟨"s", 1⟩)] := by cbv
  have hnext : ((start .empty).bind "s" 0o600).directory.nextInode = 2 := by cbv
  have hentry : ∀ q, ((start .empty).bind "s" 0o600).directory.entry q =
      if q = ["s"] then some (.socket 1 0o600) else none := by
    intro q
    cbv
  have hlive : (((start .empty).bind "s" 0o600).bind "s" 0o644).live =
      [(0, ⟨"s", 1⟩), (1, ⟨"s", 2⟩)] := by cbv
  have hmaker : (((start .empty).bind "s" 0o600).bind "s" 0o644).maker ["s"] = some 1 := by cbv
  have hsocket : (((start .empty).bind "s" 0o600).bind "s" 0o644).directory.entry ["s"] =
      some (.socket 2 0o644) := by cbv
  have hreach : Reachable (((start .empty).bind "s" 0o600).bind "s" 0o644) := by
    have hempty : Reachable ((start .empty).bind "s" 0o600) := by
      refine (Reachable.start .empty).bind 0o600 fun p _ => ?_
      simp [Unused, start, SocketDirectory.empty]
    refine hempty.bind 0o644 fun p _ => ⟨fun k l hl => ?_, fun q m _ => ?_⟩
    · rw [hfirst, List.mem_singleton] at hl
      rw [hnext, (Prod.mk.inj hl).2]
      decide
    · rw [hnext, hentry]
      split <;> simp
  have hguarded := guarded_of_reachable hreach
  refine ⟨hreach, hguarded, hlive, ?_⟩
  rw [hguarded.keeps_successor 0 ⟨"s", 1⟩ ["s"] (by simp [hlive]) (by simp [hmaker])]
  exact hsocket

end World

end WordFifo
