import WordFifo.Proofs.MovedMessages

/-!
# Commands that both processors agree on

A special command has three forms: the value that a processor works with, its code
of 24 bits and its word.  The code is what they share.  Every command is sent as its
code, and a word is read as the command of its code, whatever the bits around the
code are.

So a command comes back as it was sent exactly when it is the command of its own code
(`ofCode_code_eq_iff`).  Two sorts of `Command.other` are not.  A number wider than a
code is cut.  A number with the code of a reset request comes back as that request,
and this is the sort that matters: the sender sees no request in it and its peer obeys
(`Disguised`, `resetTarget_ofCode_code_eq_iff`).
-/

namespace WordFifo.Command

open Layout
open Reader (Reads)

/-! ## Commands of a code -/

theorem mod_commandSize_eq_iff_toNat (n m : UInt32) :
    n % commandSize = m ↔ n.toNat % 2 ^ 24 = m.toNat := by
  rw [← UInt32.toNat_inj, UInt32.toNat_mod]
  rfl

/-- A code asks for one of the two resets, or for none. -/
theorem ofCode_cases (n : UInt32) :
    (n.toNat % 2 ^ 24 = 0x4000B ∧ ofCode n = .resetPrimary) ∨
      (n.toNat % 2 ^ 24 = 0x4000C ∧ ofCode n = .resetCoprocessor) ∨
      (n.toNat % 2 ^ 24 ≠ 0x4000B ∧ n.toNat % 2 ^ 24 ≠ 0x4000C ∧
        ofCode n = .other (n % commandSize)) := by
  have hp := mod_commandSize_eq_iff_toNat n primaryResetCode
  have hc := mod_commandSize_eq_iff_toNat n coprocessorResetCode
  by_cases hprimary : n % commandSize = primaryResetCode
  · exact Or.inl ⟨hp.mp hprimary, by rw [ofCode, if_pos hprimary]⟩
  · by_cases hcoprocessor : n % commandSize = coprocessorResetCode
    · refine Or.inr (Or.inl ⟨hc.mp hcoprocessor, ?_⟩)
      rw [ofCode, if_neg hprimary, if_pos hcoprocessor]
    · refine Or.inr (Or.inr ⟨mt hp.mpr hprimary, mt hc.mpr hcoprocessor, ?_⟩)
      rw [ofCode, if_neg hprimary, if_neg hcoprocessor]

theorem ofCode_code_ofCode (n : UInt32) : ofCode (ofCode n).code = ofCode n := by
  rw [code_ofCode, ofCode_mod_commandSize]

/-- A command is known by the low 24 bits of its code and by nothing else. -/
theorem ofCode_eq_iff (m n : UInt32) :
    ofCode m = ofCode n ↔ m.toNat % 2 ^ 24 = n.toNat % 2 ^ 24 := by
  have hcut : m % commandSize = n % commandSize ↔ m.toNat % 2 ^ 24 = n.toNat % 2 ^ 24 := by
    rw [mod_commandSize_eq_iff_toNat, UInt32.toNat_mod]
    rfl
  rw [← hcut]
  constructor
  · intro h
    rw [← code_ofCode, h, code_ofCode]
  · intro h
    rw [← ofCode_mod_commandSize, h, ofCode_mod_commandSize]

/-! ## Commands that come back -/

/-- A number is written with 24 bits, and only where it is no reset request. -/
def WellFormed : Command → Prop
  | .other n => n.toNat < 2 ^ 24 ∧ n ≠ primaryResetCode ∧ n ≠ coprocessorResetCode
  | _ => True

/-- A number that goes out as the code of a reset request. -/
def Disguised : Command → Prop
  | .other n => n.toNat % 2 ^ 24 = 0x4000B ∨ n.toNat % 2 ^ 24 = 0x4000C
  | _ => False

instance : DecidablePred WellFormed
  | .other n =>
    inferInstanceAs
      (Decidable (n.toNat < 2 ^ 24 ∧ n ≠ primaryResetCode ∧ n ≠ coprocessorResetCode))
  | .resetPrimary => inferInstanceAs (Decidable True)
  | .resetCoprocessor => inferInstanceAs (Decidable True)

instance : DecidablePred Disguised
  | .other n =>
    inferInstanceAs (Decidable (n.toNat % 2 ^ 24 = 0x4000B ∨ n.toNat % 2 ^ 24 = 0x4000C))
  | .resetPrimary => inferInstanceAs (Decidable False)
  | .resetCoprocessor => inferInstanceAs (Decidable False)

theorem ofCode_code_other (n : UInt32) : ofCode (other n).code = ofCode n := by
  rw [code, ofCode_mod_commandSize]

theorem ofCode_code_eq_iff (c : Command) : ofCode c.code = c ↔ c.WellFormed := by
  cases c with
  | resetPrimary => exact iff_of_true rfl trivial
  | resetCoprocessor => exact iff_of_true rfl trivial
  | other n =>
      rw [ofCode_code_other, WellFormed, ← mod_commandSize_eq_iff]
      rcases ofCode_cases n with ⟨hn, hcode⟩ | ⟨hn, hcode⟩ | ⟨hp, hc, hcode⟩
      · -- A number that is not cut would be the code of the request itself.
        refine hcode ▸ iff_of_false nofun fun h => h.2.1 ?_
        rw [← h.1, mod_commandSize_eq_iff_toNat]
        exact hn
      · refine hcode ▸ iff_of_false nofun fun h => h.2.2 ?_
        rw [← h.1, mod_commandSize_eq_iff_toNat]
        exact hn
      · rw [hcode, other.injEq]
        refine ⟨fun h => ⟨h, ?_, ?_⟩, fun h => h.1⟩
        · rintro rfl
          exact hp rfl
        · rintro rfl
          exact hc rfl

theorem resetTarget_ofCode_code_eq_iff (c : Command) :
    (ofCode c.code).resetTarget = c.resetTarget ↔ ¬c.Disguised := by
  cases c with
  | resetPrimary => exact iff_of_true rfl not_false
  | resetCoprocessor => exact iff_of_true rfl not_false
  | other n =>
      rw [ofCode_code_other, Disguised]
      rcases ofCode_cases n with ⟨hn, hcode⟩ | ⟨hn, hcode⟩ | ⟨hp, hc, hcode⟩
      · exact hcode ▸ iff_of_false nofun fun h => h (Or.inl hn)
      · exact hcode ▸ iff_of_false nofun fun h => h (Or.inr hn)
      · exact hcode ▸ iff_of_true rfl fun h => h.elim hp hc

/-! ## Commands and words -/

theorem ofWord_toWord (c : Command) : ofWord c.toWord = ofCode c.code := by
  rw [ofWord, toWord, Word.code_packSpecial, ofCode_mod_commandSize]

theorem ofWord_eq_iff (v w : UInt32) :
    ofWord v = ofWord w ↔ v.toNat % 2 ^ 24 = w.toNat % 2 ^ 24 := by
  rw [ofWord, ofWord, ofCode_eq_iff, Word.toNat_code, Word.toNat_code, Nat.mod_mod, Nat.mod_mod]

/-- A word that is read as a special command announces the code of that command. -/
theorem ofWord_of_tag {w : UInt32} (h : (Kind.ofWord w).tag = .special) :
    Kind.ofWord w = .special (ofWord w).code := by
  rcases Kind.ofWord_cases w with ⟨-, hk⟩ | ⟨-, hk⟩ | ⟨-, hk⟩ | ⟨-, hk⟩ | ⟨-, hk⟩
  · cases hk ▸ h
  · cases hk ▸ h
  · cases hk ▸ h
  · cases hk ▸ h
  · have hcode : Word.code w % commandSize = Word.code w := by
      rw [mod_commandSize_eq_iff, Word.toNat_code]
      omega
    rw [hk, ofWord, code_ofCode, hcode]

theorem reads_ofWord {w : UInt32} (h : (Kind.ofWord w).tag = .special) (limit : Nat) :
    Reads limit [w] (.special (ofWord w)) := by
  have hread := Reader.reads_special (ofWord_of_tag h) limit
  rwa [ofWord, ofCode_code_ofCode] at hread

theorem tag_toWord (c : Command) : (Kind.ofWord c.toWord).tag = .special := by
  rw [toWord, Kind.ofWord_packSpecial]
  rfl

/-- The code of a command is a normal form.  A command is sent as its code, and what its peer
reads is the command of that code.  It is the command that was sent exactly when this is
well formed, and it asks for the same reset exactly when this is not disguised.  Of a word
that is read as a command only the code counts, and a reset request reaches the processor
that it is for. -/
theorem agree_iff_wellFormed :
    (∀ n : UInt32, (ofCode n).code.toNat = n.toNat % 2 ^ 24 ∧
        ofCode (ofCode n).code = ofCode n) ∧
      (∀ c : Command, ofWord c.toWord = ofCode c.code ∧
        (∀ limit, Reads limit [c.toWord] (.special (ofWord c.toWord))) ∧
        (ofWord c.toWord = c ↔ c.WellFormed) ∧
        ((ofWord c.toWord).resetTarget = c.resetTarget ↔ ¬c.Disguised)) ∧
      (∀ w : UInt32, (Kind.ofWord w).tag = .special →
        Kind.ofWord w = .special (ofWord w).code ∧
        (∀ limit, Reads limit [w] (.special (ofWord w))) ∧
        ∀ v : UInt32, ofWord v = ofWord w ↔ v.toNat % 2 ^ 24 = w.toNat % 2 ^ 24) ∧
      ∀ p : Processor, ofWord (resetRequest p).toWord = resetRequest p ∧
        (ofWord (resetRequest p).toWord).resetTarget = some p.peer := by
  refine ⟨fun n => ⟨?_, ofCode_code_ofCode n⟩, fun c => ?_, fun w hw => ?_, fun p => ?_⟩
  · rw [code_ofCode, UInt32.toNat_mod]
    rfl
  · rw [← ofCode_code_eq_iff, ← resetTarget_ofCode_code_eq_iff, ← ofWord_toWord]
    exact ⟨rfl, reads_ofWord (tag_toWord c), Iff.rfl, Iff.rfl⟩
  · exact ⟨ofWord_of_tag hw, reads_ofWord hw, fun v => ofWord_eq_iff v w⟩
  · have hsent : ofWord (resetRequest p).toWord = resetRequest p := by
      rw [ofWord_toWord, ofCode_code_eq_iff]
      cases p <;> trivial
    exact ⟨hsent, by rw [hsent, resetTarget_resetRequest]⟩

/-- A number with the code of a reset request and a bit above it.  For its sender it asks for
nothing, and its word with every other bit set asks the primary to reset. -/
theorem agree_iff_wellFormed_disguised :
    let c : Command := .other 0x0104000B
    (Kind.ofWord 0xFF04000B).tag = .special ∧ c.resetTarget = none ∧
      (ofWord c.toWord).resetTarget ≠ c.resetTarget ∧
      (Reader.readMessage 0 ([0xFF04000B] : List UInt32)).result =
        .ok (.special (ofWord c.toWord)) ∧
      ofWord c.toWord = .resetPrimary := by
  intro c
  have hspecial : (Kind.ofWord 0xFF04000B).tag = .special := rfl
  obtain ⟨-, hsent, hread, -⟩ := agree_iff_wellFormed
  obtain ⟨-, hreads, hsame⟩ := hread 0xFF04000B hspecial
  have hword : ofWord c.toWord = ofWord 0xFF04000B := (hsame c.toWord).mpr (by decide)
  obtain ⟨hcode, -, -, htarget⟩ := hsent c
  refine ⟨hspecial, rfl, mt htarget.mp (not_not_intro (by decide)), ?_, hcode.trans rfl⟩
  rw [hword]
  exact (hreads 0 (List UInt32) [0xFF04000B] [] (Source.gives_self [0xFF04000B])).1

end WordFifo.Command
