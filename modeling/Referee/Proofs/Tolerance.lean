import Referee.Proofs.Comparison
import Referee.Proofs.Double.Rounding
import Referee.Proofs.NumericWalk
import Referee.Settings

/-!
# An output against itself

The walk of a tolerance checker over an output and itself stops at the first number that is not
close to itself (`firstNumericDifference_self_eq_none_iff`). Those are the NaNs and, unless the error
is a relative one, the infinities: the distance of an infinity from itself is a NaN
(`ErrorMode.close_self_iff`). Every other checker accepts any output against itself
(`Checker.check_self_accepted_iff`).
-/

namespace Referee

/-! ## Rows and tokens -/

namespace Tolerance

/-- **The rows hold the tokens of the whole output.** An empty line has none. -/
theorem flatten_rows (bs : Bytes) : (rows bs).flatten = tokens bs := by
  have hempty : ∀ ls : List Bytes,
      ((ls.filter (!·.isEmpty)).map tokens).flatten = (ls.map tokens).flatten := by
    intro ls
    induction ls with
    | nil => rfl
    | cons l ls ih =>
      cases l with
      | nil => exact ih
      | cons b l => exact congrArg (tokens (b :: l) ++ ·) ih
  rw [rows_eq, hempty]
  exact flatten_lineTokens bs

end Tolerance

/-! ## The walk over an output and itself -/

section Walk

variable {α : Type} {read? : Bytes → Option α} {close : α → α → Bool}

/-- The token is no number, or a number that is close to itself. -/
def SelfClose (read? : Bytes → Option α) (close : α → α → Bool) (token : Bytes) : Prop :=
  ∀ x, read? token = some x → close x x = true

theorem passes_self_iff {token : Bytes} :
    Passes read? close token token ↔ SelfClose read? close token := by
  constructor
  · intro h x hx
    cases h with
    | word hnone => cases hnone.symm.trans hx
    | number hx' hy hclose =>
      cases hx'.symm.trans hx
      cases hy.symm.trans hx
      exact hclose
  · intro h
    cases htoken : read? token with
    | none => exact .word htoken
    | some x => exact .number htoken htoken (h x htoken)

/-- **An output differs from itself in the numbers that are not close to themselves.** -/
theorem firstNumericDifference_self_eq_none_iff {rows : List (List Bytes)} :
    firstNumericDifference read? close rows rows = none ↔
      ∀ t ∈ rows.flatten, SelfClose read? close t := by
  simp only [firstNumericDifference_eq_none_iff, Tallies, List.forall₂_same, passes_self_iff]
  exact List.forall_mem_flatten.symm

end Walk

/-! ## The tests -/

/-- What the tests take for granted: the tolerance is not negative, and it takes one to a factor
between zero and one or to a factor between one and two. -/
def Margin (epsilon : Float) : Prop :=
  0.0 ≤ epsilon ∧ 0.0 ≤ 1.0 - epsilon ∧ 1.0 - epsilon ≤ 1.0 ∧ 1.0 ≤ 1.0 + epsilon ∧
    1.0 + epsilon ≤ 2.0

instance (epsilon : Float) : Decidable (Margin epsilon) :=
  inferInstanceAs (Decidable (_ ∧ _ ∧ _ ∧ _ ∧ _))

theorem margin_powerOfTen {p : UInt32} (h : p ≤ 15) : Margin (powerOfTen (-p.toInt32)) := by
  have hall : ∀ n : Fin 16, Margin (powerOfTen (-(UInt32.ofNat n).toInt32)) := by decide +kernel
  have hlt : p.toNat < 16 := Nat.lt_succ_of_le (UInt32.le_iff_toNat_le.mp h)
  have hp := hall ⟨p.toNat, hlt⟩
  rwa [UInt32.ofNat_toNat] at hp

section Extremes

open Double

variable {a b x : Float}

theorem isNaN_lesser (ha : a.isNaN = true) (hb : b.isNaN = true) : (lesser a b).isNaN = true := by
  rwa [lesser, if_pos ha]

/-- A NaN gives way to the other operand. -/
theorem parts_lesser (ha : a.isNaN = true ∨ parts a = parts x) (hb : parts b = parts x) :
    parts (lesser a b) = parts x := by
  rw [lesser]
  by_cases hnan : a.isNaN = true
  · rwa [if_pos hnan]
  · rw [if_neg hnan]
    replace ha := ha.resolve_left hnan
    split
    · exact ha
    · split
      · exact ha
      · exact hb

theorem parts_greater (ha : a.isNaN = true ∨ parts a = parts x) (hb : parts b = parts x) :
    parts (greater a b) = parts x := by
  rw [greater]
  by_cases hnan : a.isNaN = true
  · rwa [if_pos hnan]
  · rw [if_neg hnan]
    replace ha := ha.resolve_left hnan
    split
    · exact ha
    · split
      · exact ha
      · exact hb

/-- The lesser of two numbers comes before any number that one of them comes before. -/
theorem lesser_le (ha : a.isNaN = false) (hb : b.isNaN = false) (hx : x.isNaN = false)
    (h : min (rank (parts a)) (rank (parts b)) ≤ rank (parts x)) : lesser a b ≤ x := by
  rw [lesser, if_neg (Bool.eq_false_iff.mp ha), if_neg (Bool.eq_false_iff.mp hb)]
  by_cases hab : a < b
  · rw [if_pos hab, le_iff]
    rw [lt_iff] at hab
    exact ⟨ha, hx, by omega⟩
  · rw [if_neg hab, le_iff]
    rw [lt_iff] at hab
    refine ⟨hb, hx, ?_⟩
    have hle : rank (parts b) ≤ rank (parts a) := not_lt.mp fun h => hab ⟨ha, hb, h⟩
    omega

theorem le_greater (ha : a.isNaN = false) (hb : b.isNaN = false) (hx : x.isNaN = false)
    (h : rank (parts x) ≤ max (rank (parts a)) (rank (parts b))) : x ≤ greater a b := by
  rw [greater, if_neg (Bool.eq_false_iff.mp ha), if_neg (Bool.eq_false_iff.mp hb)]
  by_cases hba : b < a
  · rw [if_pos hba, le_iff]
    rw [lt_iff] at hba
    exact ⟨hx, ha, by omega⟩
  · rw [if_neg hba, le_iff]
    rw [lt_iff] at hba
    refine ⟨hx, hb, ?_⟩
    have hle : rank (parts a) ≤ rank (parts b) := not_lt.mp fun h => hba ⟨hb, ha, h⟩
    omega

end Extremes

namespace ErrorMode

open Double

variable {mode : ErrorMode} {epsilon expected found x : Float}

/-- **A NaN is close to nothing**, whatever the tolerance. -/
theorem close_of_isNaN (h : expected.isNaN = true ∨ found.isNaN = true) :
    mode.close epsilon expected found = false := by
  have hdistance : ¬ (found - expected).abs ≤ epsilon :=
    not_le_of_isNaN (.inl (isNaN_abs (isNaN_sub h.symm)))
  cases mode with
  | absolute => exact decide_eq_false hdistance
  | either =>
    have hratio : ¬ (1.0 - found / expected).abs ≤ epsilon :=
      not_le_of_isNaN (.inl (isNaN_abs (isNaN_sub (.inr (isNaN_div h.symm)))))
    simp only [close, hdistance, hratio, decide_false, Bool.and_false, Bool.or_false]
  | relative =>
    have hlesser : ¬ lesser (expected * (1.0 - epsilon)) (expected * (1.0 + epsilon)) ≤ found := by
      refine not_le_of_isNaN ?_
      exact h.imp_left fun h => isNaN_lesser (isNaN_mul (.inl h)) (isNaN_mul (.inl h))
    simp only [close, hlesser, decide_false, Bool.false_and]

theorem close_self_of_finite (hm : Margin epsilon) (hx : x.isNaN = false) (hinf : x.isInf = false) :
    mode.close epsilon x x = true := by
  obtain ⟨hpos, hlo, hone, hone', htwo⟩ := hm
  have hdistance : (x - x).abs ≤ epsilon := by
    have hzero := parts_abs_sub_self hx hinf
    obtain ⟨-, hnan, hle⟩ := le_iff.mp hpos
    rw [rank_zero] at hle
    rw [le_iff, hzero]
    exact ⟨isNaN_of_zero hzero, hnan, hle⟩
  cases mode with
  | absolute => exact decide_eq_true hdistance
  | either => simp only [close, hdistance, decide_true, Bool.true_or]
  | relative =>
    obtain ⟨ha, hwithin⟩ := within_mul hx hinf hlo hone
    obtain ⟨hb, hwithin'⟩ := mul_within hx hinf hone' htwo
    rw [Within] at hwithin hwithin'
    have hlesser := lesser_le ha hb hx (by omega)
    have hgreater := le_greater ha hb hx (by omega)
    simp only [close, hlesser, hgreater, decide_true, Bool.and_true]

theorem close_self_of_infinite (hm : Margin epsilon) (hinf : x.isInf = true) :
    mode.close epsilon x x = true ↔ mode = .relative := by
  obtain ⟨-, hlo, hone, hone', htwo⟩ := hm
  obtain ⟨s, hs⟩ := isInf_iff.mp hinf
  have hdistance : ¬ (x - x).abs ≤ epsilon :=
    not_le_of_isNaN (.inl (isNaN_abs (sub_self_infinity hs)))
  cases mode with
  | absolute =>
    refine iff_of_false ?_ nofun
    simp only [close, hdistance, decide_false]
    nofun
  | either =>
    have hratio : ¬ (1.0 - x / x).abs ≤ epsilon :=
      not_le_of_isNaN (.inl (isNaN_abs (isNaN_sub (.inr (div_self_infinity hs)))))
    refine iff_of_false ?_ nofun
    simp only [close, hdistance, hratio, decide_false, Bool.and_false, Bool.or_false]
    nofun
  | relative =>
    -- one less the tolerance may be zero, and then the product is a NaN and gives way
    have ha : (x * (1.0 - epsilon)).isNaN = true ∨ parts (x * (1.0 - epsilon)) = parts x := by
      rcases factor_cases hlo (le_two_of_le_one hone) with ⟨t, ht⟩ | ⟨m, d, hm, hc, -, -⟩
      · exact .inl (infinity_mul_zero hs ht)
      · exact .inr ((infinity_mul hs hc).trans hs.symm)
    have hb : parts (x * (1.0 + epsilon)) = parts x := by
      obtain ⟨m, d, hm, hc, -, -⟩ := factor_of_one_le hone' htwo
      exact (infinity_mul hs hc).trans hs.symm
    have hlesser := parts_lesser ha hb
    have hle := le_of_parts_eq (isNaN_of_infinity (hlesser.trans hs)) hlesser
    have hge := le_of_parts_eq (isNaN_of_infinity hs) (parts_greater ha hb).symm
    refine iff_of_true ?_ rfl
    simp only [close, hle, hge, decide_true, Bool.and_true]

/-- **A number is close to itself**, unless it is infinite and a difference or a quotient is formed. -/
theorem close_self_iff (hm : Margin epsilon) : mode.close epsilon x x = true ↔
    x.isNaN = false ∧ (x.isInf = true → mode = .relative) := by
  cases hnan : x.isNaN with
  | true =>
    rw [close_of_isNaN (.inl hnan)]
    exact iff_of_false nofun fun h => nomatch h.1
  | false =>
    cases hinf : x.isInf with
    | true =>
      rw [close_self_of_infinite hm hinf]
      exact ⟨fun h => ⟨rfl, fun _ => h⟩, fun h => h.2 rfl⟩
    | false => exact iff_of_true (close_self_of_finite hm hnan hinf) ⟨rfl, nofun⟩

end ErrorMode

/-! ## Every checker -/

theorem Tolerance.check_accepted_iff {t : Tolerance} {expected actual : Bytes} :
    (t.check expected actual).verdict = .accepted ↔
      firstNumericDifference Decimal.readFloat? (t.mode.close t.epsilon) (rows expected)
        (rows actual) = none := by
  cases hwalk : firstNumericDifference Decimal.readFloat? (t.mode.close t.epsilon) (rows expected)
    (rows actual) with
  | none =>
    have hcheck := check_of_tallies (firstNumericDifference_eq_none_iff.mp hwalk)
    exact iff_of_true (congrArg Outcome.verdict hcheck) rfl
  | some d =>
    have hcheck := check_of_firstFailure (firstNumericDifference_eq_some_iff.mp hwalk) rfl
    refine iff_of_false ?_ (Option.some_ne_none d)
    intro hverdict
    rw [hcheck] at hverdict
    cases hverdict

theorem Tolerance.accepts_itself_iff {t : Tolerance} (hp : t.precision ≤ 15) (data : Bytes) :
    (t.check data data).verdict = .accepted ↔ ∀ token ∈ tokens data, ∀ x,
      Decimal.readFloat? token = some x → x.isNaN = false ∧ (x.isInf = true → t.mode = .relative) := by
  have hm : Margin t.epsilon := margin_powerOfTen hp
  rw [check_accepted_iff, firstNumericDifference_self_eq_none_iff, flatten_rows]
  refine forall₂_congr fun token _ => forall₂_congr fun x _ => ?_
  exact ErrorMode.close_self_iff hm

namespace Checker

/-- The settings pass their precision on. -/
theorem precision_of_ofSettings {s : CheckerSettings} {t : Tolerance}
    (h : ofSettings s = .ok (tolerance t)) : t.precision = s.precision := by
  unfold ofSettings ofSettings? at h
  split at h
  · rename_i c hc
    cases h
    split at hc <;> cases hc <;> rfl
  · cases h

/-- **An output against itself.** Every checker that settings can name accepts it, except for a
tolerance and a token that reads as a NaN, or as an infinity where the error is not a relative
one. -/
theorem check_self_accepted_iff {s : CheckerSettings} {c : Checker} (h : ofSettings s = .ok c)
    (hp : s.precision ≤ 15) (data : Bytes) :
    (c.check data data).verdict = .accepted ↔ ∀ t, c = .tolerance t → ∀ token ∈ tokens data, ∀ x,
      Decimal.readFloat? token = some x → x.isNaN = false ∧ (x.isInf = true → t.mode = .relative) := by
  cases c with
  | standard =>
    refine iff_of_true ?_ nofun
    exact standard_accepted_iff.mpr rfl
  | lineCount =>
    refine iff_of_true ?_ nofun
    exact lineCount_accepted_iff.mpr rfl
  | identical presentationErrors =>
    refine iff_of_true ?_ nofun
    rw [check, Referee.identical, if_pos rfl]
    rfl
  | tolerance t =>
    rw [← precision_of_ofSettings h] at hp
    rw [check, t.accepts_itself_iff hp data]
    exact ⟨fun h t' ht => by cases ht; exact h, fun h => h t rfl⟩

/-- Infinities, a subnormal and a word: a relative error accepts them all. -/
theorem check_self_accepted_relative :
    ((tolerance ⟨6, .relative⟩).check (Bytes.ofString "-INF 1e999 0.1\n2e-320 end\n")
      (Bytes.ofString "-INF 1e999 0.1\n2e-320 end\n")).verdict = .accepted := by
  have hsettings : ofName "floatsrel" = .ok (tolerance ⟨6, .relative⟩) := rfl
  have hnumbers : ∀ token ∈ tokens (Bytes.ofString "-INF 1e999 0.1\n2e-320 end\n"),
      (Decimal.readFloat? token).any (·.isNaN) = false := by decide +kernel
  refine (check_self_accepted_iff hsettings (by decide) _).mpr ?_
  intro t ht token htoken x hx
  cases ht
  have hnumber := hnumbers token htoken
  rw [hx] at hnumber
  exact ⟨hnumber, fun _ => rfl⟩

/-- An infinity is no NaN, but its distance from itself is one. -/
theorem check_self_rejected_infinity :
    ofName "floatsabs" = .ok (tolerance ⟨6, .absolute⟩) ∧
      (∀ token ∈ tokens (Bytes.ofString "inf"),
        (Decimal.readFloat? token).any (·.isNaN) = false) ∧
      ((tolerance ⟨6, .absolute⟩).check (Bytes.ofString "inf") (Bytes.ofString "inf")).verdict =
        .wrongAnswer :=
  ⟨rfl, by decide +kernel, by decide +kernel⟩

end Checker

end Referee
