import Mathlib.Data.List.Basic
import Referee.Json.Lexeme

/-!
# Decimal digits of a number

The digits of a number are decimal digits that denote it (`ofDigits_repr_toList`), the first of them
is no zero unless it is alone (`no_leading_zero_repr`), and zeros in front do not matter
(`ofDigits_padded`). Digits are told from what follows them if that does not start with a digit
(`NoDigit`).
-/

namespace Referee.Decimal

theorem digit_of_mem_toDigits {n : Nat} {c : Char} (h : c ∈ Nat.toDigits 10 n) :
    48 ≤ c.toNat ∧ c.toNat ≤ 57 := by
  have hdigit := Nat.isDigit_of_mem_toDigits (by decide) (by decide) h
  simpa [Char.isDigit, UInt32.le_iff_toNat_le] using hdigit

theorem isDigit_char_iff {c : Char} :
    Json.Lexeme.isDigit c = true ↔ 48 ≤ c.toNat ∧ c.toNat ≤ 57 := by
  simp [Json.Lexeme.isDigit, Char.le_def, UInt32.le_iff_toNat_le]

theorem isDigit_of_mem_repr_toList {n : Nat} {c : Char} (h : c ∈ n.repr.toList) :
    Json.Lexeme.isDigit c = true := by
  rw [Nat.toList_repr] at h
  exact isDigit_char_iff.mpr (digit_of_mem_toDigits h)

theorem repr_toList_ne_nil (n : Nat) : n.repr.toList ≠ [] := by
  rw [Nat.toList_repr]
  exact Nat.toDigits_ne_nil

namespace Numeral

theorem ofDigits_eq (cs : List Char) : ofDigits cs = Nat.ofDigitChars 10 cs 0 := by
  rw [Nat.ofDigitChars_eq_foldl]
  rfl

theorem ofDigits_repr_toList (n : Nat) : ofDigits n.repr.toList = n := by
  rw [ofDigits_eq, Nat.toList_repr]
  exact Nat.ofDigitChars_ten_toDigits

/-- Zeros in front do not matter. -/
theorem ofDigits_padded (k n : Nat) : ofDigits (List.replicate k '0' ++ n.repr.toList) = n := by
  rw [ofDigits_eq, Nat.ofDigitChars_append, Nat.ofDigitChars_replicate_zero, Nat.mul_zero, ← ofDigits_eq,
    ofDigits_repr_toList]

end Numeral

theorem head_toDigits_ne {n : Nat} (h : 0 < n) : (Nat.toDigits 10 n).head? ≠ some '0' := by
  induction n using Nat.strongRecOn with
  | ind n ih =>
    by_cases hlt : n < 10
    · have hall : ∀ d : Fin 10, 0 < d.val → Nat.digitChar d.val ≠ '0' := by decide
      rw [Nat.toDigits_of_lt_base hlt]
      intro heq
      exact hall ⟨n, hlt⟩ h (Option.some.inj heq)
    · have hdiv := ih (n / 10) (by omega) (by omega)
      rw [Nat.toDigits_of_base_le (by decide) (by omega), List.head?_append_of_ne_nil _ Nat.toDigits_ne_nil]
      exact hdiv

theorem no_leading_zero_repr {n : Nat} (h : n.repr.toList.head? = some '0') :
    n.repr.toList = ['0'] := by
  rw [Nat.toList_repr] at h ⊢
  rcases Nat.eq_zero_or_pos n with rfl | hpos
  · rfl
  · exact absurd h (head_toDigits_ne hpos)

end Referee.Decimal

namespace Referee.Json.Lexeme

/-- The text does not go on with a digit. -/
def NoDigit (rest : List Char) : Prop := ∀ c ∈ rest.head?, isDigit c = false

section NoDigit

variable {ds rest : List Char}

theorem noDigit_cons {c : Char} (hc : isDigit c = false) (rest : List Char) : NoDigit (c :: rest) := by
  rintro _ ⟨⟩
  exact hc

theorem takeWhile_isDigit_append (hds : ∀ c ∈ ds, isDigit c = true) (hrest : NoDigit rest) :
    (ds ++ rest).takeWhile isDigit = ds := by
  have htake : rest.takeWhile isDigit = [] := by
    cases rest with
    | nil => rfl
    | cons c rest => exact List.takeWhile_cons_of_neg (by rw [hrest c rfl]; exact Bool.false_ne_true)
  rw [List.takeWhile_append_of_pos hds, htake, List.append_nil]

theorem dropWhile_isDigit_append (hds : ∀ c ∈ ds, isDigit c = true) (hrest : NoDigit rest) :
    (ds ++ rest).dropWhile isDigit = rest := by
  rw [List.dropWhile_append_of_pos hds]
  cases rest with
  | nil => rfl
  | cons c rest => exact List.dropWhile_cons_of_neg (by rw [hrest c rfl]; exact Bool.false_ne_true)

end NoDigit

end Referee.Json.Lexeme
