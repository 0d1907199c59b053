import WordFifo.Proofs.NumeralGrammar
import WordFifo.Tool.Argument

/-!
# The grammar of durations

A duration is written as a decimal numeral and the mark of a unit behind it, and without a
mark it is in seconds (`Measured`).  The number of units has at most 64 bits and is not zero
(`Timed`).

One mark is the end of the other, so the marks alone do not say where the numeral stops.  But
no letter is in a numeral (`Grammar.letterless`).  Hence the longest mark at the end of a text
is its unit, and a text has one number and one unit (`splitUnit_of_measured`).

`Answered` says for each answer of the reader what the text is then.  It holds of every answer
(`answered_duration`), and a text with a duration has no other answer than this duration
(`Timed.answer_eq`).  So the reader accepts exactly the durations.
-/

namespace WordFifo

/-- No letter of a mark is in a decimal numeral. -/
theorem Numeral.Grammar.letterless {cs : List Char} {n : Nat} (h : Numeral.Grammar 10 cs n) :
    'm' ∉ cs ∧ 's' ∉ cs :=
  ⟨h.not_mem (by decide) (by decide), h.not_mem (by decide) (by decide)⟩

namespace Tool.Argument

variable {s : String} {t cs : List Char} {v w : Nat} {d : Duration}

/-! ## Units -/

/-- A unit, by what is written for it. -/
inductive TimeUnit where
  | milliseconds
  | seconds
  /-- Seconds without a mark. -/
  | unmarked
deriving DecidableEq, Repr

namespace TimeUnit

/-- The mark of a unit. -/
def mark : TimeUnit → List Char
  | .milliseconds => ['m', 's']
  | .seconds => ['s']
  | .unmarked => []

/-- The length of a unit. -/
def nanoseconds : TimeUnit → Nat
  | .milliseconds => 10 ^ 6
  | .seconds => 10 ^ 9
  | .unmarked => 10 ^ 9

/-- The length of a unit in milliseconds. -/
def factor : TimeUnit → Nat
  | .milliseconds => 1
  | .seconds => 1000
  | .unmarked => 1000

end TimeUnit

variable {unit unit' : TimeUnit}

/-- A duration of so many nanoseconds.  Its seconds have at most 64 bits, and what is left of
them is less than a second. -/
def Duration.Lasts (d : Duration) (nanoseconds : Nat) : Prop :=
  d.seconds < 2 ^ 64 ∧ d.nanoseconds < 10 ^ 9 ∧ d.seconds * 10 ^ 9 + d.nanoseconds = nanoseconds

/-- A number of 64 bits overflows in no unit. -/
theorem lasts_iff (hv : v < 2 ^ 64) : d.Lasts (v * unit.nanoseconds) ↔ d = ⟨v * unit.factor⟩ := by
  obtain ⟨n⟩ := d
  simp only [Duration.Lasts, Duration.seconds, Duration.nanoseconds, Duration.mk.injEq]
  cases unit <;> simp only [TimeUnit.nanoseconds, TimeUnit.factor] <;> omega

/-! ## Texts of durations -/

/-- A text is a number with a unit. -/
def Measured (t : List Char) (v : Nat) (unit : TimeUnit) : Prop :=
  ∃ cs, t = cs ++ unit.mark ∧ Numeral.Grammar 10 cs v

/-- A text is a number with a unit for a duration. -/
def Timed (t : List Char) (v : Nat) (unit : TimeUnit) : Prop :=
  Measured t v unit ∧ 1 ≤ v ∧ v < 2 ^ 64

/-- The text of no duration. -/
inductive Untimed : List Char → Prop where
  | empty : Untimed []
  | zero {t : List Char} {unit : TimeUnit} (h : Measured t 0 unit) : Untimed t
  | spaced {t : List Char} {c : Char} (hc : c ∈ t) (h : Blank.isBlank c) : Untimed t
  | doubled {cs : List Char} {first second : TimeUnit} (hfirst : first.mark ≠ [])
      (hsecond : second.mark ≠ []) : Untimed (cs ++ first.mark ++ second.mark)

/-! ## The unit at the end -/

theorem exists_unit (t : List Char) :
    ∃ unit : TimeUnit, t = (splitUnit t).1 ++ unit.mark ∧ (splitUnit t).2 = unit.factor := by
  rw [splitUnit]
  split
  · next rest h =>
      refine ⟨.milliseconds, ?_, rfl⟩
      rw [List.reverse_eq_iff.mp h, List.reverse_cons, List.reverse_cons, List.append_assoc]
      rfl
  · next rest _ h => exact ⟨.seconds, (List.reverse_eq_iff.mp h).trans List.reverse_cons, rfl⟩
  · exact ⟨.unmarked, (List.append_nil t).symm, rfl⟩

/-- What is in front of a mark stays, if it holds no letter. -/
theorem splitUnit_append (hm : 'm' ∉ cs) (hs : 's' ∉ cs) (unit : TimeUnit) :
    splitUnit (cs ++ unit.mark) = (cs, unit.factor) := by
  rw [← List.mem_reverse] at hm hs
  rw [splitUnit, List.reverse_append]
  cases unit with
  | milliseconds => exact congrArg (·, 1) (List.reverse_reverse cs)
  | seconds =>
      simp only [TimeUnit.mark, List.reverse_singleton, List.singleton_append]
      split
      · next h => exact absurd (List.mem_of_mem_head? (by rw [(List.cons.inj h).2]; rfl)) hm
      · next h =>
          rw [← (List.cons.inj h).2, List.reverse_reverse]
          rfl
      · next h => exact absurd rfl (h _)
  | unmarked =>
      simp only [TimeUnit.mark, List.append_nil, List.reverse_nil, List.nil_append]
      split
      · next h => exact absurd (List.mem_of_mem_head? (by rw [h]; rfl)) hs
      · next h => exact absurd (List.mem_of_mem_head? (by rw [h]; rfl)) hs
      · rfl

theorem splitUnit_of_measured (h : Measured t v unit) :
    (splitUnit t).2 = unit.factor ∧ Numeral.Grammar 10 (splitUnit t).1 v := by
  obtain ⟨cs, rfl, hcs⟩ := h
  rw [splitUnit_append hcs.letterless.1 hcs.letterless.2]
  exact ⟨rfl, hcs⟩

/-- A text has one number and one unit. -/
theorem Measured.unique (h : Measured t v unit) (h' : Measured t w unit') :
    v = w ∧ unit.factor = unit'.factor := by
  obtain ⟨hunit, hnumber⟩ := splitUnit_of_measured h
  obtain ⟨hunit', hnumber'⟩ := splitUnit_of_measured h'
  exact ⟨hnumber.unique (by decide) hnumber', hunit.symm.trans hunit'⟩

theorem Measured.ne_nil (h : Measured t v unit) : t ≠ [] := by
  obtain ⟨cs, rfl, hcs⟩ := h
  intro hnil
  obtain ⟨rfl, -⟩ := List.append_eq_nil_iff.mp hnil
  exact Numeral.not_grammar_nil hcs

/-! ## What the reader answers -/

/-- What the text is that has an answer. -/
def Answered (t : List Char) : Except DurationError Duration → Prop
  | .ok d => ∃ v unit, Timed t v unit ∧ d.Lasts (v * unit.nanoseconds)
  | .error .empty => t = []
  | .error (.invalid text) =>
    text = String.ofList t ∧ t ≠ [] ∧ ∀ v unit, Measured t v unit → 2 ^ 64 ≤ v
  | .error .zero => ∃ unit, Measured t 0 unit

theorem answered_duration (h : Blank.Trimmed s.toList t) : Answered t (duration s) := by
  rw [duration, ← (Blank.trimmed_iff _ _).mp h]
  by_cases hempty : t.isEmpty
  · rw [if_pos hempty]
    exact List.isEmpty_iff.mp hempty
  · rw [if_neg hempty]
    dsimp only
    obtain ⟨unit, htext, hfactor⟩ := exists_unit t
    split
    · next hnumber =>
        refine ⟨rfl, fun hnil => hempty (List.isEmpty_iff.mpr hnil), fun v unit' hv => ?_⟩
        by_contra hlt
        have hok := (Numeral.unsigned_eq_ok_iff (by decide) (Nat.two_pow_pos 64)).mpr
          ⟨Nat.lt_of_not_le hlt, (splitUnit_of_measured hv).2⟩
        exact absurd (hnumber.symm.trans hok) nofun
    · next v hnumber =>
        obtain ⟨hlt, hv⟩ :=
          (Numeral.unsigned_eq_ok_iff (by decide) (Nat.two_pow_pos 64)).mp hnumber
        have hmeasured : Measured t v unit := ⟨_, htext, hv⟩
        split
        · next hzero => exact ⟨unit, hzero ▸ hmeasured⟩
        · next hzero =>
            refine ⟨v, unit, ⟨hmeasured, Nat.pos_of_ne_zero hzero, hlt⟩, (lasts_iff hlt).mpr ?_⟩
            rw [hfactor]

/-- The text of a duration has no other answer. -/
theorem Timed.answer_eq {r : Except DurationError Duration} (h : Timed t v unit)
    (hr : Answered t r) : ∃ d, r = .ok d ∧ d.Lasts (v * unit.nanoseconds) := by
  obtain ⟨hmeasured, hpos, hlt⟩ := h
  match r with
  | .ok d =>
      obtain ⟨w, unit', ⟨hw, -, hwlt⟩, hlasts⟩ := hr
      obtain ⟨rfl, hfactor⟩ := hmeasured.unique hw
      rw [lasts_iff hlt, ← hfactor, ← lasts_iff hlt] at hlasts
      exact ⟨d, rfl, hlasts⟩
  | .error .empty => exact absurd hr hmeasured.ne_nil
  | .error (.invalid text) => exact absurd (hr.2.2 v unit hmeasured) (Nat.not_le_of_lt hlt)
  | .error .zero =>
      obtain ⟨unit', hzero⟩ := hr
      have hv := (hmeasured.unique hzero).1
      omega

theorem duration_eq_ok_iff (h : Blank.Trimmed s.toList t) :
    duration s = .ok d ↔ ∃ v unit, Timed t v unit ∧ d.Lasts (v * unit.nanoseconds) := by
  have hanswer := answered_duration h
  constructor
  · intro hd
    rwa [hd] at hanswer
  · rintro ⟨v, unit, htimed, hlasts⟩
    obtain ⟨d', hd', hlasts'⟩ := htimed.answer_eq hanswer
    rw [lasts_iff htimed.2.2] at hlasts hlasts'
    rw [hd', hlasts, hlasts']

/-! ## Texts of no duration -/

theorem TimeUnit.not_blank {c : Char} (hc : c ∈ unit.mark) : Blank.isBlank c = false := by
  have hletter : c = 'm' ∨ c = 's' := by
    cases unit <;> simp_all [TimeUnit.mark]
  rcases hletter with rfl | rfl <;> decide

theorem TimeUnit.count_mark (unit : TimeUnit) :
    unit.mark.count 's' = if unit.mark = [] then 0 else 1 := by
  cases unit <;> decide

/-- The letter s ends each mark and is nowhere else. -/
theorem Measured.count_le_one (h : Measured t v unit) : t.count 's' ≤ 1 := by
  obtain ⟨cs, rfl, hcs⟩ := h
  rw [List.count_append, List.count_eq_zero_of_not_mem hcs.letterless.2, TimeUnit.count_mark]
  split <;> decide

theorem Untimed.not_timed (h : Untimed t) : ¬Timed t v unit := by
  rintro ⟨hmeasured, hpos, -⟩
  cases h with
  | empty => exact hmeasured.ne_nil rfl
  | zero hzero =>
      have hv := (hmeasured.unique hzero).1
      omega
  | spaced hc hblank =>
      obtain ⟨cs, rfl, hcs⟩ := hmeasured
      rw [(List.mem_append.mp hc).elim hcs.not_blank TimeUnit.not_blank] at hblank
      cases hblank
  | doubled hfirst hsecond =>
      have hcount := hmeasured.count_le_one
      rw [List.count_append, List.count_append, TimeUnit.count_mark, if_neg hfirst,
        TimeUnit.count_mark, if_neg hsecond] at hcount
      omega

/-- What stands between the blanks of a text decides.  The text of a duration is read as this
duration, and a number of 64 bits overflows in no unit.  Any other text is refused for what it
is, as a wrong use.  The empty text, every zero, a text with a blank inside and one with two
marks are among the others. -/
theorem durations_exact :
    (∀ s, ∃ t, Blank.Trimmed s.toList t ∧
      (∀ d, duration s = .ok d ↔ ∃ v unit, Timed t v unit ∧ d.Lasts (v * unit.nanoseconds)) ∧
      ((∀ v unit, ¬Timed t v unit) →
        ∃ e, duration s = .error e ∧ Answered t (.error e) ∧ e.failure.status.code = 64)) ∧
      (∀ v < 2 ^ 64, ∀ unit : TimeUnit, ∃ d : Duration, d.Lasts (v * unit.nanoseconds)) ∧
      ∀ t, Untimed t → ∀ v unit, ¬Timed t v unit := by
  refine ⟨fun s => ?_, fun v hv unit => ⟨_, (lasts_iff hv).mpr rfl⟩,
    fun t ht v unit => ht.not_timed⟩
  have htrim := Blank.trimmed_trim s.toList
  have hanswer := answered_duration htrim
  refine ⟨_, htrim, fun d => duration_eq_ok_iff htrim, fun hnone => ?_⟩
  cases hresult : duration s with
  | ok d =>
      obtain ⟨v, unit, htimed, -⟩ := (duration_eq_ok_iff htrim).mp hresult
      exact absurd htimed (hnone v unit)
  | error e =>
      rw [hresult] at hanswer
      exact ⟨e, rfl, hanswer, rfl⟩

/-- The longer mark with a sign, a zero and blanks in front, and a text with both marks. -/
theorem durations_exact_marks :
    (∃ d, duration "\u3000 +0150ms\n" = .ok d ∧ d.Lasts 150000000) ∧
      ∃ e, duration "1sms" = .error e ∧ e.failure.status.code = 64 := by
  obtain ⟨hread, hlasts, huntimed⟩ := durations_exact
  constructor
  · obtain ⟨t, ht, hok, -⟩ := hread "\u3000 +0150ms\n"
    have htext : t = ['+', '0', '1', '5', '0'] ++ TimeUnit.milliseconds.mark :=
      ((Blank.trimmed_iff _ t).mp ht).trans (by decide +kernel)
    have hnumber : Numeral.unsigned 10 151 ['+', '0', '1', '5', '0'] = .ok 150 := by
      decide +kernel
    have hgrammar := ((Numeral.unsigned_eq_ok_iff (by decide) (by decide)).mp hnumber).2
    obtain ⟨d, hd⟩ := hlasts 150 (by decide) .milliseconds
    exact ⟨d, (hok d).mpr ⟨150, .milliseconds, ⟨⟨_, htext, hgrammar⟩, by decide, by decide⟩, hd⟩,
      hd⟩
  · obtain ⟨t, ht, -, hrefused⟩ := hread "1sms"
    have htext : t = ['1'] ++ TimeUnit.seconds.mark ++ TimeUnit.milliseconds.mark :=
      ((Blank.trimmed_iff _ t).mp ht).trans (by decide +kernel)
    have hdoubled : Untimed t := htext ▸ .doubled (by decide) (by decide)
    obtain ⟨e, he, -, hcode⟩ := hrefused (huntimed t hdoubled)
    exact ⟨e, he, hcode⟩

end Tool.Argument

end WordFifo
