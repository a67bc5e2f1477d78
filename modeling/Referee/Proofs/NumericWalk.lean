import Mathlib.Data.List.Forall2
import Referee.Checker.Tolerance
import Referee.Proofs.Lines

/-!
# A numeric walk stops at its first failing test

`FirstFailure` says where two outputs, given as rows of tokens, fail for the first time, row by row
and within a row token by token; `Tallies` that they fail nowhere. The walk of a tolerance checker
finds just that (`firstNumericDifference_eq_some_iff`, `firstNumericDifference_eq_none_iff`), and
`Tolerance.check_walk` states the outcome for each kind of failure. The rows are the lines that are
not empty, by the same notion of a line that the count of lines has (`nonEmptyLines_eq`).
-/

namespace Referee

/-! ## The lines that are not empty -/

theorem nonEmptyLines_append_break {b : UInt8} (hb : isLineBreak b = true) (as bs : Bytes) :
    nonEmptyLines (as ++ b :: bs) = nonEmptyLines as ++ nonEmptyLines bs := by
  rw [nonEmptyLines, List.splitOnP_append_cons _ _ hb, List.filter_append]
  rfl

theorem nonEmptyLines_of_unbroken {l : Bytes} (hl : Unbroken l) :
    nonEmptyLines l = [l].filter (!·.isEmpty) := by
  rw [nonEmptyLines, List.splitOnP_eq_singleton hl]

/-- The CR and the LF of a terminator have nothing between them. -/
theorem nonEmptyLines_append_terminated {t rest : Bytes} (ht : EndsLine t rest) (l : Bytes) :
    nonEmptyLines (l ++ (t ++ rest)) = nonEmptyLines l ++ nonEmptyLines rest := by
  rcases ht with rfl | rfl | ⟨rfl, -⟩
  · have hlf : nonEmptyLines (10 :: rest) = nonEmptyLines rest :=
      nonEmptyLines_append_break rfl [] rest
    show nonEmptyLines (l ++ 13 :: 10 :: rest) = _
    rw [nonEmptyLines_append_break rfl, hlf]
  · exact nonEmptyLines_append_break rfl l rest
  · exact nonEmptyLines_append_break rfl l rest

theorem Lined.nonEmptyLines_eq {bs : Bytes} {ls : List Bytes} (h : Lined bs ls) :
    nonEmptyLines bs = ls.filter (!·.isEmpty) := by
  induction h with
  | done => rfl
  | last hl hne => exact nonEmptyLines_of_unbroken hl
  | @line l t rest ls hl ht _ ih =>
    rw [nonEmptyLines_append_terminated ht, nonEmptyLines_of_unbroken hl, ih, ← List.filter_append,
      List.singleton_append]

/-- **The non-empty runs between line breaks are the lines, the empty ones left out.** -/
theorem nonEmptyLines_eq (bs : Bytes) : nonEmptyLines bs = (lines bs).filter (!·.isEmpty) :=
  (lined_lines bs).nonEmptyLines_eq

/-! ## Tokens -/

section Walk

variable {α : Type} (read? : Bytes → Option α) (close : α → α → Bool)

/-- The participant's token will do for the judge's. -/
inductive Passes (e : Bytes) : Bytes → Prop where
  | word (he : read? e = none) : Passes e e
  | number {a : Bytes} {x y : α} (he : read? e = some x) (ha : read? a = some y)
      (hclose : close x y = true) : Passes e a

/-- The participant's token, the `n`-th one, will not do for the judge's. -/
inductive TokenFails (n : Nat) (e a : Bytes) : NumericDifference α → Prop where
  | token (he : read? e = none) (hne : e ≠ a) : TokenFails n e a (.token n e a)
  | notANumber {x : α} (he : read? e = some x) (ha : read? a = none) :
      TokenFails n e a (.notANumber n e a)
  | number {x y : α} (he : read? e = some x) (ha : read? a = some y) (hfar : close x y = false) :
      TokenFails n e a (.number n x y)

/-- After `n` tokens, two rows pass up to some column and fail there. -/
inductive RowFails (n : Nat) (es as : List Bytes) (d : NumericDifference α) : Prop where
  | column {j : Nat} {e a : Bytes}
      (before : List.Forall₂ (Passes read? close) (es.take j) (as.take j))
      (he : es[j]? = some e) (ha : as[j]? = some a)
      (hfails : TokenFails read? close (n + j + 1) e a d)

variable {read? close} {n : Nat} {e a : Bytes} {es as : List Bytes} {d : NumericDifference α}

theorem passes_or_tokenFails (n : Nat) (e a : Bytes) :
    Passes read? close e a ∨ ∃ d, TokenFails read? close n e a d := by
  cases he : read? e with
  | none =>
    by_cases hne : e = a
    · subst hne
      exact .inl (.word he)
    · exact .inr ⟨_, .token he hne⟩
  | some x =>
    cases ha : read? a with
    | none => exact .inr ⟨_, .notANumber he ha⟩
    | some y =>
      cases hclose : close x y with
      | true => exact .inl (.number he ha hclose)
      | false => exact .inr ⟨_, .number he ha hclose⟩

theorem Passes.not_tokenFails (h : Passes read? close e a) : ¬ TokenFails read? close n e a d := by
  intro hfails
  cases h with
  | word he =>
    cases hfails with
    | token _ hne => exact hne rfl
    | notANumber he' => cases he.symm.trans he'
    | number he' => cases he.symm.trans he'
  | number he ha hclose =>
    cases hfails with
    | token he' => cases he.symm.trans he'
    | notANumber _ ha' => cases ha.symm.trans ha'
    | number he' ha' hfar =>
      cases he.symm.trans he'
      cases ha.symm.trans ha'
      cases hclose.symm.trans hfar

theorem firstTokenFailure_of_passes (h : Passes read? close e a) :
    firstTokenFailure read? close n (e :: es) (a :: as) =
      firstTokenFailure read? close (n + 1) es as := by
  cases h with
  | word he => simp only [firstTokenFailure, he, if_true]
  | number he ha hclose => simp only [firstTokenFailure, he, ha, hclose, if_true]

theorem firstTokenFailure_of_tokenFails (h : TokenFails read? close (n + 1) e a d) :
    firstTokenFailure read? close n (e :: es) (a :: as) = some d := by
  cases h with
  | token he hne => simp only [firstTokenFailure, he, if_neg hne]
  | notANumber he ha => simp only [firstTokenFailure, he, ha]
  | number he ha hfar => simp only [firstTokenFailure, he, ha, hfar, Bool.false_eq_true, if_false]

/-! ## Rows -/

theorem TokenFails.rowFails (h : TokenFails read? close (n + 1) e a d) :
    RowFails read? close n (e :: es) (a :: as) d :=
  .column (j := 0) .nil rfl rfl h

theorem rowFails_cons_iff_of_passes (h : Passes read? close e a) :
    RowFails read? close n (e :: es) (a :: as) d ↔ RowFails read? close (n + 1) es as d := by
  constructor
  · rintro ⟨before, he, ha, hfails⟩
    rename_i j _ _
    cases j with
    | zero =>
      cases he
      cases ha
      exact absurd hfails h.not_tokenFails
    | succ j =>
      rw [← Nat.add_assoc, Nat.add_right_comm n j 1] at hfails
      exact .column (List.forall₂_cons.mp before).2 he ha hfails
  · rintro ⟨before, he, ha, hfails⟩
    rename_i j _ _
    rw [Nat.add_right_comm n 1 j] at hfails
    exact .column (j := j + 1) (.cons h before) he ha hfails

/-- Rows whose first tokens fail do not fail anywhere else. -/
theorem rowFails_cons_iff_of_not_passes (h : ¬ Passes read? close e a) :
    RowFails read? close n (e :: es) (a :: as) d ↔ TokenFails read? close (n + 1) e a d := by
  refine ⟨?_, TokenFails.rowFails⟩
  rintro ⟨before, he, ha, hfails⟩
  rename_i j _ _
  cases j with
  | zero =>
    cases he
    cases ha
    exact hfails
  | succ j => exact absurd (List.forall₂_cons.mp before).1 h

theorem not_rowFails_nil_left : ¬ RowFails read? close n [] as d := by
  rintro ⟨-, he, -, -⟩
  cases he

theorem not_rowFails_nil_right : ¬ RowFails read? close n es [] d := by
  rintro ⟨-, -, ha, -⟩
  cases ha

/-- **Within a row the walk stops at the first token that fails.** -/
theorem firstTokenFailure_eq_some_iff :
    firstTokenFailure read? close n es as = some d ↔ RowFails read? close n es as d := by
  induction es generalizing n as with
  | nil => exact iff_of_false nofun not_rowFails_nil_left
  | cons e es ih =>
    cases as with
    | nil => exact iff_of_false nofun not_rowFails_nil_right
    | cons a as =>
      rcases passes_or_tokenFails (n + 1) e a with hpasses | ⟨d', hfails⟩
      · rw [firstTokenFailure_of_passes hpasses, rowFails_cons_iff_of_passes hpasses, ih]
      · rw [rowFails_cons_iff_of_not_passes fun h => h.not_tokenFails hfails]
        refine ⟨fun h => ?_, firstTokenFailure_of_tokenFails⟩
        rw [firstTokenFailure_of_tokenFails hfails] at h
        cases h
        exact hfails

theorem firstTokenFailure_eq_none_iff (hlength : es.length = as.length) :
    firstTokenFailure read? close n es as = none ↔ List.Forall₂ (Passes read? close) es as := by
  induction es generalizing n as with
  | nil =>
    obtain rfl := List.length_eq_zero_iff.mp hlength.symm
    exact iff_of_true rfl .nil
  | cons e es ih =>
    cases as with
    | nil => cases hlength
    | cons a as =>
      rcases passes_or_tokenFails (n + 1) e a with hpasses | ⟨d', hfails⟩
      · rw [firstTokenFailure_of_passes hpasses, List.forall₂_cons, and_iff_right hpasses]
        exact ih (Nat.succ.inj hlength)
      · rw [firstTokenFailure_of_tokenFails hfails, List.forall₂_cons]
        exact iff_of_false nofun fun h => h.1.not_tokenFails hfails

/-! ## Outputs -/

variable (read? close)

/-- The outputs have the same rows of tokens, but for tokens that pass. -/
def Tallies (E A : List (List Bytes)) : Prop := List.Forall₂ (List.Forall₂ (Passes read? close)) E A

/-- After `line` rows with `n` tokens, two outputs tally up to some row and fail there. The lengths
of the two rows are compared before their tokens are. -/
inductive RowsFail (line n : Nat) (E A : List (List Bytes)) : NumericDifference α → Prop where
  | lineLength {i : Nat} {es as : List Bytes}
      (before : Tallies read? close (E.take i) (A.take i))
      (hes : E[i]? = some es) (has : A[i]? = some as) (hne : es.length ≠ as.length) :
      RowsFail line n E A (.lineLength (line + i + 1) es.length as.length)
  | token {i : Nat} {es as : List Bytes} {d : NumericDifference α}
      (before : Tallies read? close (E.take i) (A.take i))
      (hes : E[i]? = some es) (has : A[i]? = some as) (hlength : es.length = as.length)
      (hfails : RowFails read? close (n + (E.take i).flatten.length) es as d) :
      RowsFail line n E A d

/-- Where two outputs fail for the first time. -/
inductive FirstFailure (E A : List (List Bytes)) : NumericDifference α → Prop where
  | lineTotals (hne : E.length ≠ A.length) :
      FirstFailure E A (.lineTotals E.length A.length)
  | rows {d : NumericDifference α} (hlength : E.length = A.length)
      (hfails : RowsFail read? close 0 0 E A d) : FirstFailure E A d

variable {read? close} {line : Nat} {E A : List (List Bytes)}

theorem rowsFail_cons_iff_of_pass (h : List.Forall₂ (Passes read? close) es as) :
    RowsFail read? close line n (es :: E) (as :: A) d ↔
      RowsFail read? close (line + 1) (n + es.length) E A d := by
  constructor
  · intro hd
    cases hd with
    | @lineLength i es' as' before hes has hne =>
      cases i with
      | zero =>
        cases hes
        cases has
        exact absurd h.length_eq hne
      | succ i =>
        rw [← Nat.add_assoc, Nat.add_right_comm line i 1]
        exact .lineLength (List.forall₂_cons.mp before).2 hes has hne
    | @token i es' as' d before hes has hlength hfails =>
      cases i with
      | zero =>
        cases hes
        cases has
        rw [← firstTokenFailure_eq_some_iff, (firstTokenFailure_eq_none_iff hlength).mpr h] at hfails
        cases hfails
      | succ i =>
        rw [List.take_succ_cons, List.flatten_cons, List.length_append, ← Nat.add_assoc] at hfails
        exact .token (List.forall₂_cons.mp before).2 hes has hlength hfails
  · intro hd
    cases hd with
    | @lineLength i es' as' before hes has hne =>
      rw [Nat.add_right_comm line 1 i]
      exact .lineLength (i := i + 1) (.cons h before) hes has hne
    | @token i es' as' d before hes has hlength hfails =>
      rw [Nat.add_assoc, ← List.length_append, ← List.flatten_cons, ← List.take_succ_cons] at hfails
      exact .token (i := i + 1) (.cons h before) hes has hlength hfails

/-- Outputs whose first rows fail do not fail anywhere else. -/
theorem rowsFail_cons_iff_of_not_pass (h : ¬ List.Forall₂ (Passes read? close) es as) :
    RowsFail read? close line n (es :: E) (as :: A) d ↔
      if es.length = as.length then RowFails read? close n es as d
      else d = .lineLength (line + 1) es.length as.length := by
  constructor
  · intro hd
    cases hd with
    | @lineLength i es' as' before hes has hne =>
      cases i with
      | zero =>
        cases hes
        cases has
        rw [if_neg hne, Nat.add_zero]
      | succ i => exact absurd (List.forall₂_cons.mp before).1 h
    | @token i es' as' d before hes has hlength hfails =>
      cases i with
      | zero =>
        cases hes
        cases has
        rw [if_pos hlength]
        exact hfails
      | succ i => exact absurd (List.forall₂_cons.mp before).1 h
  · intro hd
    split at hd
    · rename_i hlength
      exact .token (i := 0) .nil rfl rfl hlength hd
    · rename_i hne
      subst hd
      exact .lineLength (i := 0) .nil rfl rfl hne

theorem not_rowsFail_nil_left : ¬ RowsFail read? close line n [] A d := by
  rintro (⟨-, hes, -, -⟩ | ⟨-, hes, -, -, -⟩) <;> cases hes

theorem not_rowsFail_nil_right : ¬ RowsFail read? close line n E [] d := by
  rintro (⟨-, -, has, -⟩ | ⟨-, -, has, -, -⟩) <;> cases has

theorem firstLineFailure_of_pass (h : List.Forall₂ (Passes read? close) es as) :
    firstLineFailure read? close line n (es :: E) (as :: A) =
      firstLineFailure read? close (line + 1) (n + es.length) E A := by
  rw [firstLineFailure, if_pos h.length_eq, (firstTokenFailure_eq_none_iff h.length_eq).mpr h]

/-- **The walk stops at the first row that fails**, and at the first token of it that does. -/
theorem firstLineFailure_eq_some_iff :
    firstLineFailure read? close line n E A = some d ↔ RowsFail read? close line n E A d := by
  induction E generalizing line n A with
  | nil => exact iff_of_false nofun not_rowsFail_nil_left
  | cons es E ih =>
    cases A with
    | nil => exact iff_of_false nofun not_rowsFail_nil_right
    | cons as A =>
      by_cases hpass : List.Forall₂ (Passes read? close) es as
      · rw [firstLineFailure_of_pass hpass, rowsFail_cons_iff_of_pass hpass, ih]
      · rw [rowsFail_cons_iff_of_not_pass hpass, firstLineFailure]
        split
        · rename_i hlength
          rw [← firstTokenFailure_eq_some_iff]
          cases htoken : firstTokenFailure read? close n es as with
          | none => exact absurd ((firstTokenFailure_eq_none_iff hlength).mp htoken) hpass
          | some d' => rfl
        · rw [Option.some.injEq, eq_comm]

theorem firstLineFailure_eq_none_iff (hlength : E.length = A.length) :
    firstLineFailure read? close line n E A = none ↔ Tallies read? close E A := by
  induction E generalizing line n A with
  | nil =>
    obtain rfl := List.length_eq_zero_iff.mp hlength.symm
    exact iff_of_true rfl .nil
  | cons es E ih =>
    cases A with
    | nil => cases hlength
    | cons as A =>
      rw [Tallies, List.forall₂_cons]
      by_cases hpass : List.Forall₂ (Passes read? close) es as
      · rw [firstLineFailure_of_pass hpass, and_iff_right hpass]
        exact ih (Nat.succ.inj hlength)
      · refine iff_of_false ?_ fun h => hpass h.1
        rw [firstLineFailure]
        split
        · rename_i hlength
          rw [← firstTokenFailure_eq_none_iff hlength (n := n)] at hpass
          split
          · nofun
          · exact absurd ‹_› hpass
        · nofun

/-- **The walk over two outputs** finds their first failure. -/
theorem firstNumericDifference_eq_some_iff :
    firstNumericDifference read? close E A = some d ↔ FirstFailure read? close E A d := by
  rw [firstNumericDifference]
  split
  · rename_i hlength
    rw [firstLineFailure_eq_some_iff]
    refine ⟨.rows hlength, fun h => ?_⟩
    cases h with
    | lineTotals hne => exact absurd hlength hne
    | rows _ hfails => exact hfails
  · rename_i hne
    constructor
    · intro h
      cases h
      exact .lineTotals hne
    · intro h
      cases h with
      | lineTotals => rfl
      | rows hlength => exact absurd hlength hne

theorem firstNumericDifference_eq_none_iff :
    firstNumericDifference read? close E A = none ↔ Tallies read? close E A := by
  rw [firstNumericDifference]
  split
  · rename_i hlength
    exact firstLineFailure_eq_none_iff hlength
  · rename_i hne
    exact iff_of_false nofun fun h => hne h.length_eq

end Walk

/-! ## The outcome -/

namespace Tolerance

variable {t : Tolerance} {expected actual : Bytes} {d : NumericDifference Float}

theorem rows_eq (bs : Bytes) : rows bs = ((lines bs).filter (!·.isEmpty)).map tokens := by
  rw [rows, nonEmptyLines_eq]

theorem check_of_firstFailure
    (h : FirstFailure Decimal.readFloat? (t.mode.close t.epsilon) (rows expected) (rows actual) d)
    {message : Bytes} {layout : Bool} (hd : t.describe d = (message, layout)) :
    t.check expected actual =
      ⟨.wrongAnswer, if layout then some presentationError else none, message⟩ := by
  simp only [check, firstNumericDifference_eq_some_iff.mpr h, hd]
  cases layout <;> rfl

theorem check_of_tallies
    (h : Tallies Decimal.readFloat? (t.mode.close t.epsilon) (rows expected) (rows actual)) :
    t.check expected actual = .accepted (tokenCountMessage (rows expected).flatten.length) := by
  rw [check, firstNumericDifference_eq_none_iff.mpr h]

theorem tallies_or_firstFailure (t : Tolerance) (E A : List (List Bytes)) :
    Tallies Decimal.readFloat? (t.mode.close t.epsilon) E A ∨
      ∃ d, FirstFailure Decimal.readFloat? (t.mode.close t.epsilon) E A d := by
  rw [← firstNumericDifference_eq_none_iff]
  simp only [← firstNumericDifference_eq_some_iff]
  exact Option.eq_none_or_eq_some _

/-- **The whole outcome of a check.** With `J` and `P` the token lists of the lines of the two outputs,
the empty lines left out, the answer is accepted if and only if these tally; otherwise there is
exactly one first failure, and the outcome says which. -/
theorem check_walk (t : Tolerance) (expected actual : Bytes) :
    let J := ((lines expected).filter (!·.isEmpty)).map tokens
    let P := ((lines actual).filter (!·.isEmpty)).map tokens
    let fails := FirstFailure Decimal.readFloat? (t.mode.close t.epsilon) J P
    let places := Decimal.fixed (t.precision.toNat + 2)
    let outcome := t.check expected actual
    (nonEmptyLines expected = (lines expected).filter (!·.isEmpty) ∧
      nonEmptyLines actual = (lines actual).filter (!·.isEmpty)) ∧
    (outcome.verdict = .accepted ↔ Tallies Decimal.readFloat? (t.mode.close t.epsilon) J P) ∧
    (outcome.verdict = .accepted ∨ ∃ d, fails d) ∧
    (∀ d, fails d → outcome.verdict = .wrongAnswer ∧ ∀ d', fails d' → d' = d) ∧
    (outcome.verdict = .accepted →
      outcome = ⟨.accepted, none, Bytes.ofString (J.flatten.length.repr ++ " token(s)")⟩) ∧
    (∀ j p, fails (.lineTotals j p) → outcome = ⟨.wrongAnswer, some "Presentation Error",
      Bytes.ofString ("Judge's output has " ++ j.repr ++
        " non-empty line(s), participant's output has " ++ p.repr)⟩) ∧
    (∀ line j p, fails (.lineLength line j p) → outcome = ⟨.wrongAnswer, some "Presentation Error",
      Bytes.ofString (ordinal line ++ " line differs, judge's output has " ++ j.repr ++
        " token(s), participant's output has " ++ p.repr)⟩) ∧
    (∀ n e a, fails (.token n e a) → outcome = ⟨.wrongAnswer, none,
      Bytes.ofString (ordinal n ++ " token differs - expected: ") ++ Excerpt.quote e ++
        Bytes.ofString ", found: " ++ Excerpt.quote a⟩) ∧
    (∀ n e a, fails (.notANumber n e a) → outcome = ⟨.wrongAnswer, some "Presentation Error",
      Bytes.ofString (ordinal n ++ " token differs - expected float: ") ++ Excerpt.quote e ++
        Bytes.ofString ", found: " ++ Excerpt.quote a⟩) ∧
    (∀ n x y, fails (.number n x y) → outcome = ⟨.wrongAnswer, none,
      Bytes.ofString (ordinal n ++ " number differs - expected: '" ++ places x ++ "', found: '" ++
        places y ++ "', error = '" ++ places (t.mode.error x y) ++ "'")⟩) := by
  intro J P fails places outcome
  have hJ : rows expected = J := rows_eq expected
  have hP : rows actual = P := rows_eq actual
  have haccepted : Tallies Decimal.readFloat? (t.mode.close t.epsilon) J P →
      outcome = .accepted (tokenCountMessage J.flatten.length) := by
    rw [← hJ, ← hP]
    exact check_of_tallies
  have hfails : ∀ d, fails d → ∀ {message layout}, t.describe d = (message, layout) →
      outcome = ⟨.wrongAnswer, if layout then some presentationError else none, message⟩ := by
    intro d h
    simp only [fails, ← hJ, ← hP] at h
    exact check_of_firstFailure h
  have hrejected : ∀ d, fails d → outcome.verdict = .wrongAnswer := fun d h => by rw [hfails d h rfl]
  have hiff : outcome.verdict = .accepted ↔ Tallies Decimal.readFloat? (t.mode.close t.epsilon) J P := by
    refine ⟨fun h => ?_, fun h => by rw [haccepted h]; rfl⟩
    obtain htallies | ⟨d, hd⟩ := t.tallies_or_firstFailure J P
    · exact htallies
    · cases (hrejected d hd).symm.trans h
  refine ⟨⟨nonEmptyLines_eq expected, nonEmptyLines_eq actual⟩, hiff, ?_, ?_, ?_, ?_, ?_, ?_, ?_, ?_⟩
  · rw [hiff]
    exact t.tallies_or_firstFailure J P
  · intro d hd
    refine ⟨hrejected d hd, fun d' hd' => ?_⟩
    rw [← Option.some.injEq, ← firstNumericDifference_eq_some_iff.mpr hd,
      firstNumericDifference_eq_some_iff.mpr hd']
  · exact fun h => haccepted (hiff.mp h)
  · exact fun j p h => hfails _ h rfl
  · exact fun line j p h => hfails _ h rfl
  · exact fun n e a h => hfails _ h rfl
  · exact fun n e a h => hfails _ h rfl
  · exact fun n x y h => hfails _ h rfl

end Tolerance

end Referee
