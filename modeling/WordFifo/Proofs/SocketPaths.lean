import WordFifo.SocketDirectory

/-!
# What stands where a path leads

A path names a place (`Names`) when its last step is taken in a directory, is no
move, and has no slash behind it.  A path may lead to a place without naming it,
but then the place is a directory (`names_of_locate`).  So whatever is no
directory is found, removed and put there under one place.

With that a bind has two outcomes.  It fails and leaves everything as it was, or
it puts a socket at a place where nothing or a socket stood (`bind_cases`).  A
listener that is closed removes the socket with its own number, and nothing else
(`close_of_own`, `close_of_other`).
-/

namespace WordFifo.SocketDirectory

variable {d d' : SocketDirectory} {path name : String} {p q : Place} {steps : List String}
variable {t : Trail} {e : IoError} {mode : Nat}

/-- The place that a path names. -/
def Names (d : SocketDirectory) (path : String) (p : Place) : Prop :=
  ∃ t, Trail.ofPath path = .ok t ∧ t.slashed = false ∧ ∀ moves, d.named t moves = .ok p

/-! ## Steps -/

theorem isDirectory_of_step (h : d.step p name = .ok q) : d.isDirectory p := by
  rw [step] at h
  split at h
  · assumption
  · split at h <;> cases h

theorem step_here (h : d.isDirectory p) : d.step p here = .ok p := by
  simp [step, h]

theorem eq_of_step_here (h : d.step p here = .ok q) : q = p := by
  rw [step_here (isDirectory_of_step h)] at h
  exact (Except.ok.inj h).symm

theorem walk_append (d : SocketDirectory) (p : Place) (steps more : List String) :
    d.walk p (steps ++ more) =
      match d.walk p steps with
      | .ok q => d.walk q more
      | .error e => .error e := by
  induction steps generalizing p with
  | nil => rfl
  | cons name steps ih =>
      rw [List.cons_append, walk, walk]
      cases d.step p name with
      | ok q => exact ih q
      | error e => rfl

theorem walk_singleton (d : SocketDirectory) (p : Place) (name : String) :
    d.walk p [name] = d.step p name := by
  rw [walk]
  cases d.step p name <;> rfl

theorem holder_eq_ok : d.holder t = .ok q ↔ d.walk t.start t.before = .ok q ∧ d.isDirectory q := by
  rw [holder, walk_append]
  cases d.walk t.start t.before with
  | error e => simp
  | ok r =>
      simp only [walk_singleton, Except.ok.injEq]
      constructor
      · intro h
        obtain rfl := eq_of_step_here h
        exact ⟨rfl, isDirectory_of_step h⟩
      · rintro ⟨rfl, hdir⟩
        exact step_here hdir

theorem named_eq_ok : d.named t e = .ok p ↔
    t.isMove = false ∧ ∃ q, d.walk t.start t.before = .ok q ∧ d.step q t.last = .ok p := by
  rw [named]
  constructor
  · intro h
    split at h
    · cases h
    · next q hq =>
        split at h
        · cases h
        · next hmove => exact ⟨Bool.eq_false_iff.mpr hmove, q, (holder_eq_ok.mp hq).1, h⟩
  · rintro ⟨hmove, q, hwalk, hstep⟩
    rw [holder_eq_ok.mpr ⟨hwalk, isDirectory_of_step hstep⟩]
    simp [hmove, hstep]

theorem names_of_named (ht : Trail.ofPath path = .ok t) (hs : t.slashed = false)
    (h : d.named t e = .ok p) : d.Names path p :=
  ⟨t, ht, hs, fun _ => named_eq_ok.mpr (named_eq_ok.mp h)⟩

theorem Names.locate (h : d.Names path p) : d.locate path = .ok p := by
  obtain ⟨t, ht, hs, hnamed⟩ := h
  obtain ⟨-, q, hwalk, hstep⟩ := named_eq_ok.mp (hnamed .noEntry)
  simp only [SocketDirectory.locate, ht, hs, walk_append, hwalk]
  exact (walk_singleton d q t.last).trans hstep

/-! ## Directories above a place -/

/-- The place so many steps above. -/
def climb : Nat → Place → Place
  | 0, p => p
  | k + 1, p => climb k (parent p)

/-- Every place above is a directory. -/
def Grounded (d : SocketDirectory) (p : Place) : Prop := ∀ k, d.isDirectory (climb (k + 1) p)

theorem climb_root (k : Nat) : climb k [root] = [root] := by
  induction k with
  | zero => rfl
  | succ k ih => exact ih

theorem isDirectory_root (d : SocketDirectory) : d.isDirectory [root] := by
  simp [isDirectory]

theorem isDirectory_climb_of_up (d : SocketDirectory) (k : Nat) {p : Place}
    (h : p.all (· == up)) : d.isDirectory (climb k p) := by
  induction k generalizing p with
  | zero => simp only [climb, isDirectory, h, Bool.true_or]
  | succ k ih =>
      rw [climb, parent]
      split
      · exact ih h
      · exact ih (by simpa using h)

theorem parent_append (q : Place) (h : name ≠ up) :
    parent (q ++ [name]) = [root] ∨ parent (q ++ [name]) = q := by
  rw [parent]
  split
  · next hroot => exact Or.inl (by simpa using hroot)
  · right
    simp [h]

theorem Grounded.step (h : d.Grounded q) (hs : d.step q name = .ok p) : d.Grounded p := by
  have hdir := isDirectory_of_step hs
  simp only [SocketDirectory.step, hdir, if_true] at hs
  intro k
  split at hs
  · cases hs
    exact h k
  · split at hs
    · cases hs
      exact h (k + 1)
    · next hup =>
        split at hs
        · cases hs
        · cases hs
          rcases parent_append q (by simpa using hup : name ≠ up) with hp | hp
          · rw [climb, hp, climb_root]
            exact d.isDirectory_root
          · rw [climb, hp]
            cases k with
            | zero => exact hdir
            | succ k => exact h k

theorem Grounded.walk (h : d.Grounded p) (hw : d.walk p steps = .ok q) : d.Grounded q := by
  induction steps generalizing p with
  | nil =>
      cases hw
      exact h
  | cons name steps ih =>
      rw [SocketDirectory.walk] at hw
      split at hw
      · next r hr => exact ih (h.step hr) hw
      · cases hw

theorem grounded_start (ht : Trail.ofPath path = .ok t) : d.Grounded t.start := by
  simp only [Trail.ofPath] at ht
  split at ht
  · cases ht
  · split at ht
    · cases ht
    · split at ht
      · cases ht
      · cases ht
        intro k
        dsimp only
        split
        · rw [climb_root]
          exact d.isDirectory_root
        · exact d.isDirectory_climb_of_up _ rfl

/-- A last step that names nothing ends in a directory. -/
theorem isDirectory_of_move (ht : Trail.ofPath path = .ok t) (hm : t.isMove)
    (hw : d.walk t.start t.before = .ok q) (hs : d.step q t.last = .ok p) : d.isDirectory p := by
  have hdir := isDirectory_of_step hs
  simp only [Trail.isMove, Bool.or_eq_true, beq_iff_eq] at hm
  simp only [step, hdir, if_true] at hs
  rcases hm with hlast | hlast
  · simp only [hlast, beq_self_eq_true, if_true] at hs
    cases hs
    exact hdir
  · rw [hlast] at hs
    cases hs
    exact (grounded_start ht).walk hw 0

/-- What is no directory is named by every path that leads there. -/
theorem names_of_locate (h : d.locate path = .ok p) (hd : d.isDirectory p = false) :
    d.Names path p := by
  rw [locate] at h
  split at h
  · cases h
  · next t ht =>
      rw [walk_append] at h
      split at h
      · next q hq =>
          rw [walk] at h
          split at h
          · next r hr =>
              cases hs : t.slashed with
              | true =>
                  -- The slash asks for a directory.
                  rw [if_pos hs, walk_singleton] at h
                  obtain rfl := eq_of_step_here h
                  rw [isDirectory_of_step h] at hd
                  cases hd
              | false =>
                  rw [hs] at h
                  cases h
                  have hmove : t.isMove = false := by
                    cases hm : t.isMove with
                    | true =>
                        rw [isDirectory_of_move ht hm hq hr] at hd
                        cases hd
                    | false => rfl
                  exact ⟨t, ht, hs, fun _ => named_eq_ok.mpr ⟨hmove, q, hq, hr⟩⟩
          · cases h
      · cases h

/-! ## The same directories -/

/-- Steps see of a place whether it is a directory. -/
theorem Names.congr (h : d.Names path p) (hdir : ∀ q, d'.isDirectory q = d.isDirectory q) :
    d'.Names path p := by
  have hstep : ∀ {q r : Place} {name : String}, d.step q name = .ok r → d'.step q name = .ok r := by
    intro q r name hs
    have hq := isDirectory_of_step hs
    simp only [step, hq, if_true] at hs
    simp only [step, hdir q, hq, if_true]
    exact hs
  have hwalk : ∀ {steps : List String} {q r : Place}, d.walk q steps = .ok r →
      d'.walk q steps = .ok r := by
    intro steps
    induction steps with
    | nil => exact fun hw => hw
    | cons name steps ih =>
        intro q r hw
        rw [walk] at hw ⊢
        split at hw
        · next q' hq' =>
            rw [hstep hq']
            exact ih hw
        · cases hw
  obtain ⟨t, ht, hs, hnamed⟩ := h
  refine ⟨t, ht, hs, fun moves => ?_⟩
  obtain ⟨hmove, q, hw, hlast⟩ := named_eq_ok.mp (hnamed moves)
  exact named_eq_ok.mpr ⟨hmove, q, hwalk hw, hstep hlast⟩

/-- Whether a place is a directory is told by what stands there, but for the places that always
are. -/
theorem isDirectory_eq_false (hd : d.isDirectory p = false) (he : d'.entry p ≠ some .directory) :
    d'.isDirectory p = false := by
  simp only [isDirectory, Bool.or_eq_false_iff] at hd ⊢
  exact ⟨hd.1, by simpa using he⟩

theorem isDirectory_set {e : Option Entry} (hd : d.isDirectory p = false)
    (he : e ≠ some .directory) (q : Place) : (d.set p e).isDirectory q = d.isDirectory q := by
  by_cases hq : q = p
  · subst hq
    rw [hd]
    exact isDirectory_eq_false hd (by simpa using he)
  · simp [isDirectory, hq]

/-! ## Finding, removing and putting -/

theorem lookup_of_names {e : Entry} (h : d.Names path p) (hd : d.isDirectory p = false)
    (he : d.entry p = some e) : d.lookup path = .ok e := by
  simp [lookup, h.locate, hd, he]

theorem names_of_lookup_socket {inode mode : Nat} (h : d.lookup path = .ok (.socket inode mode)) :
    ∃ p, d.Names path p ∧ d.isDirectory p = false ∧ d.entry p = some (.socket inode mode) := by
  rw [lookup] at h
  split at h
  · cases h
  · next p hp =>
      split at h
      · cases h
      · next hd =>
          have hdir : d.isDirectory p = false := Bool.eq_false_iff.mpr hd
          refine ⟨p, names_of_locate hp hdir, hdir, ?_⟩
          split at h
          · next e he =>
              cases h
              exact he
          · cases h

theorem remove_of_names (h : d.Names path p) (hd : d.isDirectory p = false)
    (he : (d.entry p).isSome) : d.remove path = .ok (d.set p none) := by
  obtain ⟨t, ht, hs, hnamed⟩ := h
  simp [remove, ht, hnamed, hd, isTaken, he, hs]

theorem contains_nul_of_ofPath (h : Trail.ofPath path = .ok t) : path.contains '\x00' = false := by
  rw [Trail.ofPath] at h
  split at h
  · cases h
  · next hnul => exact Bool.eq_false_iff.mpr hnul

theorem place_of_names (h : d.Names path p) (hfree : d.isTaken p = false) (mode : Nat) :
    d.place path mode = .ok { d.set p (some (.socket d.nextInode (mode % 0o10000))) with
      listeners := d.listeners ++ [(d.nextInode, [])]
      nextInode := d.nextInode + 1 } := by
  obtain ⟨t, ht, hs, hnamed⟩ := h
  simp [place, contains_nul_of_ofPath ht, ht, hnamed, hfree, hs]

theorem names_of_place (h : d.place path mode = .ok d') :
    ∃ p, d.Names path p ∧ d.isTaken p = false := by
  rw [place] at h
  split at h
  · cases h
  · split at h
    · cases h
    · next t ht =>
        split at h
        · cases h
        · next p hp =>
            split at h
            · cases h
            · next hfree =>
                split at h
                · cases h
                · next hs =>
                    exact ⟨p, names_of_named ht (Bool.eq_false_iff.mpr hs) hp,
                      Bool.eq_false_iff.mpr hfree⟩

/-! ## Binds -/

/-- A path that names a place where nothing or a socket stands. -/
def Bindable (d : SocketDirectory) (path : String) (p : Place) : Prop :=
  d.Names path p ∧ d.isDirectory p = false ∧ ∀ e, d.entry p = some e → ∃ i m, e = .socket i m

theorem bind_of_long (h : pathLimit ≤ path.utf8ByteSize) (mode : Nat) :
    d.bind path mode = ⟨.error (.pathTooLong path path.utf8ByteSize pathLimit), d, []⟩ := by
  rw [bind, if_pos h]

theorem bind_of_other {e : Entry} (h : path.utf8ByteSize < pathLimit) (he : d.lookup path = .ok e)
    (hother : ∀ i m, e ≠ .socket i m) (mode : Nat) :
    d.bind path mode =
      ⟨.error (.bind path ⟨.alreadyExists, "existing path is not a unix socket"⟩), d, []⟩ := by
  rw [bind, if_neg (Nat.not_le.mpr h), he]
  cases e with
  | socket i m => exact absurd rfl (hother i m)
  | file => rfl
  | directory => rfl

theorem bind_of_bindable (hlen : path.utf8ByteSize < pathLimit) (h : d.Bindable path p)
    (mode : Nat) :
    (d.bind path mode).result = .ok ⟨path, d.nextInode⟩ ∧
      ∀ q, (d.bind path mode).directory.entry q =
        if q = p then some (.socket d.nextInode (mode % 0o10000)) else d.entry q := by
  obtain ⟨hnames, hd, hsocket⟩ := h
  rw [bind, if_neg (Nat.not_le.mpr hlen)]
  cases he : d.entry p with
  | none =>
      have hfree : d.isTaken p = false := by simp [isTaken, hd, he]
      have hlookup : d.lookup path = .error .noEntry := by simp [lookup, hnames.locate, hd, he]
      rw [hlookup]
      simp only [place_of_names hnames hfree mode, true_and]
      exact fun q => d.entry_set p q _
  | some e =>
      obtain ⟨i, m, rfl⟩ := hsocket e he
      have hremoved := d.isDirectory_set hd (e := none) nofun
      have hfree : (d.set p none).isTaken p = false := by simp [isTaken, hremoved, hd]
      have hplace := place_of_names (hnames.congr hremoved) hfree mode
      rw [lookup_of_names hnames hd he, remove_of_names hnames hd (by rw [he]; rfl)]
      simp only [hplace]
      refine ⟨rfl, fun q => ?_⟩
      simp only [entry_set]
      split <;> rfl

/-- A bind fails and leaves everything as it was, or it puts a socket at a place where nothing or
a socket stood. -/
theorem bind_cases (d : SocketDirectory) (path : String) (mode : Nat) :
    (∃ e, (d.bind path mode).result = .error e ∧ (d.bind path mode).directory = d ∧
        (path.utf8ByteSize < pathLimit → ∃ cause, e = .bind path cause)) ∨
      path.utf8ByteSize < pathLimit ∧ ∃ p, d.Bindable path p := by
  by_cases hlen : pathLimit ≤ path.utf8ByteSize
  · rw [bind_of_long hlen]
    exact Or.inl ⟨_, rfl, rfl, fun hlt => absurd hlen (Nat.not_le.mpr hlt)⟩
  · have hlt := Nat.lt_of_not_le hlen
    cases hl : d.lookup path with
    | error e =>
        cases hplace : d.place path mode with
        | error e' =>
            have hbind : d.bind path mode = ⟨.error (.bind path e'), d, []⟩ := by
              rw [bind, if_neg hlen, hl]
              simp only [hplace]
            rw [hbind]
            exact Or.inl ⟨_, rfl, rfl, fun _ => ⟨e', rfl⟩⟩
        | ok d' =>
            obtain ⟨p, hnames, hfree⟩ := names_of_place hplace
            simp only [isTaken, Bool.or_eq_false_iff, Option.isSome_eq_false_iff,
              Option.isNone_iff_eq_none] at hfree
            refine Or.inr ⟨hlt, p, hnames, hfree.1, fun e he => ?_⟩
            rw [hfree.2] at he
            cases he
    | ok e =>
        by_cases hsocket : ∃ i m, e = .socket i m
        · obtain ⟨i, m, rfl⟩ := hsocket
          obtain ⟨p, hnames, hd, he⟩ := names_of_lookup_socket hl
          refine Or.inr ⟨hlt, p, hnames, hd, fun e' he' => ?_⟩
          rw [he] at he'
          exact ⟨i, m, (Option.some.inj he').symm⟩
        · left
          rw [bind_of_other hlt hl fun i m hsock => hsocket ⟨i, m, hsock⟩]
          exact ⟨_, rfl, rfl, fun _ => ⟨_, rfl⟩⟩

/-! ## Closes -/

/-- A listener takes away the socket with its own number. -/
theorem close_of_own {l : Listener} {m : Nat} (h : d.Names l.path p) (hd : d.isDirectory p = false)
    (he : d.entry p = some (.socket l.inode m)) (q : Place) :
    (d.close l).1.entry q = if q = p then none else d.entry q := by
  have hremove := remove_of_names (d := { d with listeners := d.listeners.filter (·.1 != l.inode) })
    (h.congr fun _ => rfl) hd (by rw [he]; rfl)
  simp only [close, lookup_of_names h hd he, if_true, hremove, entry_set]

/-- It leaves everything else. -/
theorem close_of_other {l : Listener} (h : ∀ m, d.lookup l.path ≠ .ok (.socket l.inode m)) :
    (d.close l).1.entry = d.entry := by
  rw [close]
  split
  · rfl
  · next i m hl =>
      rw [if_neg fun hi => h m (by rw [hl, hi])]
  · rfl

end WordFifo.SocketDirectory
