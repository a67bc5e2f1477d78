import Referee.Proofs.Double.Numbers
import Referee.Proofs.Tolerance

/-!
# Tokens that are not a number

A token reads as a NaN just when it is the word `nan` in any case, with or without a sign
(`Decimal.exists_isNaN_iff`): every decimal reads as a number, however long it is. A tolerance
checker accepts no output with such a token on either side (`Tolerance.noNaN_of_accepted`). A NaN is
close to nothing, and a word of the judge's is only matched by itself.
-/

namespace Referee

namespace Decimal

/-! ## Decimals are numbers -/

theorem isNaN_infinity : infinity.isNaN = false := by decide +kernel

theorem isNaN_notANumber : notANumber.isNaN = true := by decide +kernel

theorem isNaN_nearest (digits : Nat) (exponent : Int) :
    (nearest digits exponent).isNaN = false := by
  unfold nearest
  dsimp only
  split
  · decide +kernel
  split
  · exact isNaN_infinity
  · exact Double.isNaN_ofScientific _ _ _

section Read

variable {bs word token : Bytes} {x : Float}

theorem isNaN_of_readDecimal? (h : readDecimal? bs = some x) : x.isNaN = false := by
  unfold readDecimal? at h
  dsimp only at h
  -- with a point or without
  split at h
  all_goals
    split at h
    · cases h
    · obtain ⟨e, -, rfl⟩ := Option.map_eq_some_iff.mp h
      exact isNaN_nearest _ _

/-! ## The word -/

/-- The word `nan` in any case. -/
def IsNaNWord (word : Bytes) : Prop := word.map lowerCase = Bytes.ofString "nan"

theorem lowerCase_eq_n {b : UInt8} (h : lowerCase b = 110) : b = 78 ∨ b = 110 := by
  unfold lowerCase at h
  split at h
  · left
    grind
  · exact .inr h

theorem IsNaNWord.head (h : IsNaNWord word) : ∃ rest, word = 78 :: rest ∨ word = 110 :: rest := by
  have hnan : Bytes.ofString "nan" = [110, 97, 110] := by decide
  rw [IsNaNWord, hnan] at h
  cases word with
  | nil => cases h
  | cons b rest =>
    rcases lowerCase_eq_n (List.cons.inj h).1 with rfl | rfl
    · exact ⟨rest, .inl rfl⟩
    · exact ⟨rest, .inr rfl⟩

theorem IsNaNWord.readDecimal? (h : IsNaNWord word) : Decimal.readDecimal? word = none := by
  obtain ⟨rest, rfl | rfl⟩ := h.head
  · rfl
  · rfl

theorem IsNaNWord.splitSign (h : IsNaNWord word) : Decimal.splitSign word = (false, word) := by
  obtain ⟨rest, rfl | rfl⟩ := h.head
  · rfl
  · rfl

theorem exists_isNaN_readMagnitude?_iff :
    (∃ x, readMagnitude? word = some x ∧ x.isNaN = true) ↔ IsNaNWord word := by
  constructor
  · rintro ⟨x, hx, hnan⟩
    unfold readMagnitude? at hx
    split at hx
    · rename_i y hdecimal
      cases hx
      cases (isNaN_of_readDecimal? hdecimal).symm.trans hnan
    · dsimp only at hx
      split at hx
      · cases hx
        cases isNaN_infinity.symm.trans hnan
      split at hx
      · assumption
      · cases hx
  · intro h
    refine ⟨notANumber, ?_, isNaN_notANumber⟩
    have hinf : ¬ (word.map lowerCase = Bytes.ofString "inf" ∨
        word.map lowerCase = Bytes.ofString "infinity") := by
      rw [IsNaNWord] at h
      rw [h]
      decide
    rw [readMagnitude?, h.readDecimal?]
    exact (if_neg hinf).trans (if_pos h)

/-! ## The sign -/

/-- The word `nan` in any case, perhaps with a sign. -/
def SpellsNaN (token : Bytes) : Prop :=
  ∃ sign word, token = sign ++ word ∧ (sign = [] ∨ sign = [43] ∨ sign = [45]) ∧ IsNaNWord word

theorem spellsNaN_iff : SpellsNaN token ↔ IsNaNWord (splitSign token).2 := by
  constructor
  · rintro ⟨sign, word, rfl, rfl | rfl | rfl, h⟩
    · rwa [List.nil_append, h.splitSign]
    · exact h
    · exact h
  · intro h
    unfold splitSign at h
    split at h
    · exact ⟨[43], _, rfl, .inr (.inl rfl), h⟩
    · exact ⟨[45], _, rfl, .inr (.inr rfl), h⟩
    · exact ⟨[], _, rfl, .inl rfl, h⟩

/-- **Only the word reads as a NaN.** -/
theorem exists_isNaN_iff :
    (∃ x, readFloat? token = some x ∧ x.isNaN = true) ↔ SpellsNaN token := by
  have hsigned : ∀ x : Float, (if (splitSign token).1 then -x else x).isNaN = x.isNaN := by
    intro x
    split
    · exact Double.isNaN_neg x
    · rfl
  rw [spellsNaN_iff, ← exists_isNaN_readMagnitude?_iff]
  constructor
  · rintro ⟨x, hx, hnan⟩
    obtain ⟨y, hy, rfl⟩ := Option.map_eq_some_iff.mp hx
    exact ⟨y, hy, (hsigned y).symm.trans hnan⟩
  · rintro ⟨y, hy, hnan⟩
    exact ⟨_, Option.map_eq_some_iff.mpr ⟨y, hy, rfl⟩, (hsigned y).trans hnan⟩

end Read

end Decimal

/-! ## Accepted outputs -/

section Walk

open Decimal

variable {mode : ErrorMode} {epsilon : Float} {e a : Bytes} {E A : List (List Bytes)}

/-- The tokens that pass are no NaNs. -/
theorem Passes.not_spellsNaN (h : Passes readFloat? (mode.close epsilon) e a) :
    ¬ SpellsNaN e ∧ ¬ SpellsNaN a := by
  simp only [← exists_isNaN_iff, not_exists, not_and]
  cases h with
  | word he =>
    have hnone : ∀ x, readFloat? e = some x → ¬ x.isNaN = true := fun x hx => by
      cases he.symm.trans hx
    exact ⟨hnone, hnone⟩
  | number he ha hclose =>
    -- a NaN on either side would make the test fail
    obtain ⟨hx, hy⟩ := not_or.mp fun h => by
      cases (ErrorMode.close_of_isNaN h).symm.trans hclose
    constructor
    · intro x' hx'
      cases he.symm.trans hx'
      exact hx
    · intro y' hy'
      cases ha.symm.trans hy'
      exact hy

theorem Tallies.not_spellsNaN (h : Tallies readFloat? (mode.close epsilon) E A) :
    (∀ token ∈ E.flatten, ¬ SpellsNaN token) ∧ ∀ token ∈ A.flatten, ¬ SpellsNaN token := by
  have hpass : List.Forall₂ (Passes readFloat? (mode.close epsilon)) E.flatten A.flatten :=
    List.rel_flatten h
  have hleft := hpass.imp fun _ _ hp => And.intro hp.not_spellsNaN.1 hp
  have hright := hpass.flip.imp fun _ _ hp => And.intro (Passes.not_spellsNaN hp).2 hp
  exact ⟨(List.forall₂_and_left _ _).mp hleft |>.1, (List.forall₂_and_left _ _).mp hright |>.1⟩

end Walk

/-- **No NaN is accepted.** If a tolerance checker accepts an output, no token of it or of the
judge's reads as a NaN, whatever the tolerance and the error mode are. -/
theorem Tolerance.noNaN_of_accepted {t : Tolerance} {expected actual : Bytes}
    (h : (t.check expected actual).verdict = .accepted) :
    ∀ token ∈ tokens expected ++ tokens actual, ¬ Decimal.SpellsNaN token ∧
      ∀ x, Decimal.readFloat? token = some x → x.isNaN = false := by
  have htallies := firstNumericDifference_eq_none_iff.mp (check_accepted_iff.mp h)
  have hnone := List.forall_mem_append.mpr htallies.not_spellsNaN
  rw [flatten_rows, flatten_rows] at hnone
  intro token htoken
  refine ⟨hnone token htoken, fun x hx => ?_⟩
  rw [← Bool.not_eq_true]
  intro hnan
  exact hnone token htoken (Decimal.exists_isNaN_iff.mp ⟨x, hx, hnan⟩)

/-- Infinities and a word that begins like a NaN are accepted. -/
theorem Tolerance.noNaN_of_accepted_relative :
    let expected := Bytes.ofString "inf 1e400\nnano"
    let actual := Bytes.ofString "inf +Infinity\nnano"
    (Tolerance.check ⟨6, .relative⟩ expected actual).verdict = .accepted ∧
      ∀ token ∈ tokens expected ++ tokens actual, ¬ Decimal.SpellsNaN token ∧
        ∀ x, Decimal.readFloat? token = some x → x.isNaN = false := by
  intro expected actual
  have haccepted : (Tolerance.check ⟨6, .relative⟩ expected actual).verdict = .accepted := by
    decide +kernel
  exact ⟨haccepted, Tolerance.noNaN_of_accepted haccepted⟩

end Referee
