import Referee.Proofs.Tokens
import Referee.Proofs.Utf8
import Referee.Settings.Form

/-!
# What validation accepts

`Settings.problem?_eq_none_iff` lists what sound settings have. Validation takes every blank for a
break but the vertical tab, so an accepted command word is a token unless it holds one
(`isToken_ofString_iff`).
-/

namespace Referee

/-! ## Blank characters -/

theorem isBlank_ofNat_iff {n : Nat} (hn : n < 256) :
    isBlank (UInt8.ofNat n) = true ↔ n = 32 ∨ 9 ≤ n ∧ n ≤ 13 := by
  have hval : (UInt8.ofNat n).toNat = n := UInt8.toNat_ofNat_of_lt' hn
  simp only [isBlank, Bool.or_eq_true, Bool.and_eq_true, beq_iff_eq, decide_eq_true_eq,
    UInt8.le_iff_toNat_le, ← UInt8.toNat_inj, hval]
  rfl

/-- What validation looks for, and the vertical tab. -/
theorem isCommandBreak_or_iff {c : Char} :
    isCommandBreak c = true ∨ c = '\x0b' ↔ c.toNat = 32 ∨ 9 ≤ c.toNat ∧ c.toNat ≤ 13 := by
  simp only [isCommandBreak, Bool.or_eq_true, beq_iff_eq, ← Char.toNat_inj, Char.reduceToNat]
  omega

theorem not_isBlank_of_not_ascii {c : Char} (hc : 127 < c.toNat) {b : UInt8}
    (hb : b ∈ String.utf8EncodeChar c) : isBlank b = false := by
  have hlo := le_toNat_of_mem_utf8EncodeChar hc hb
  rw [Bool.eq_false_iff, Ne, ← UInt8.ofNat_toNat (x := b), isBlank_ofNat_iff b.toNat_lt]
  omega

/-- A character has a blank in its UTF-8 form only if it is one. -/
theorem exists_isBlank_iff {c : Char} : (∃ b ∈ String.utf8EncodeChar c, isBlank b = true) ↔
    isCommandBreak c = true ∨ c = '\x0b' := by
  rw [isCommandBreak_or_iff]
  rcases Nat.lt_or_ge 127 c.toNat with hc | hc
  · constructor
    · rintro ⟨b, hb, hblank⟩
      rw [not_isBlank_of_not_ascii hc hb] at hblank
      cases hblank
    · omega
  · rw [Bytes.utf8EncodeChar_of_ascii hc]
    simp only [List.mem_singleton, exists_eq_left]
    exact isBlank_ofNat_iff (by omega)

/-! ## Command words -/

/-- A validated command word is a token unless it holds a vertical tab. -/
theorem isToken_ofString_iff {word : String} (h : isCommandWord word = true) :
    IsToken (Bytes.ofString word) ↔ '\x0b' ∉ word.toList := by
  simp only [isCommandWord, Bool.and_eq_true, Bool.not_eq_true', List.any_eq_false] at h
  obtain ⟨hempty, hbreak⟩ := h
  constructor
  · intro ht hc
    obtain ⟨b, hb, hblank⟩ := exists_isBlank_iff.mpr (.inr rfl)
    rw [ht.2 b (List.mem_flatMap.mpr ⟨_, hc, hb⟩)] at hblank
    cases hblank
  · intro htab
    constructor
    · intro hnil
      obtain ⟨c, hc⟩ := List.exists_mem_of_ne_nil word.toList (by simpa using hempty)
      exact utf8EncodeChar_ne_nil c (List.flatMap_eq_nil_iff.mp hnil c hc)
    · intro b hb
      obtain ⟨c, hc, hbc⟩ := List.mem_flatMap.mp hb
      by_contra hblank
      rcases exists_isBlank_iff.mp ⟨b, hbc, by simpa using hblank⟩ with h | rfl
      · exact hbreak c hc h
      · exact htab hc

/-! ## Settings -/

namespace Settings

theorem validate_eq_ok_iff {s s' : Settings} : s.validate = .ok s' ↔ s.problem? = none ∧ s = s' := by
  unfold validate
  cases s.problem? with
  | none => simp
  | some p => simp

/-- Validation names the first problem. -/
theorem validate_eq_error_iff {s : Settings} {f : Failure} :
    s.validate = .error f ↔ ∃ p, s.problem? = some p ∧ .config p.message = f := by
  unfold validate
  cases s.problem? with
  | none => simp
  | some p => simp

/-- What is read from a text has been validated. -/
theorem validate_of_ofText {text : String} {s : Settings} (h : ofText text = .ok s) :
    s.validate = .ok s := by
  unfold ofText at h
  split at h
  · obtain ⟨-, rfl⟩ := validate_eq_ok_iff.mp h
    exact h
  · cases h

/-- The settings with no problem are those that pass every check. -/
theorem problem?_eq_none_iff {s : Settings} : s.problem? = none ↔
    (Checker.ofSettings? s.checker).isSome = true ∧ s.checker.precision ≤ 15 ∧
      s.guessing.roundLimit ≠ 0 ∧ s.guessing.guessMin ≤ s.guessing.guessMax ∧
      isCommandWord s.relay.encodeCommand = true ∧ isCommandWord s.relay.decodeCommand = true := by
  have hcheck : ∀ {c : Prop} [Decidable c] {p : SettingsProblem} {rest : Option SettingsProblem},
      (if c then some p else rest) = none ↔ ¬ c ∧ rest = none := by
    intro c _ p rest
    split <;> simp_all
  simp only [problem?, hcheck]
  simp [Option.isSome_iff_ne_none]

end Settings

end Referee
