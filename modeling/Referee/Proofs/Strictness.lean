import Referee.Proofs.Comparison
import Referee.Proofs.Integers

/-!
# From the strictest exact checker to the loosest

Equal outputs have equal lines, and outputs whose lines have the same tokens have the same tokens
(`tokens_eq_of_lineTokens_eq`). So whatever `identical` accepts `lineCount` accepts, and whatever
`lineCount` accepts `standard` accepts, with the same number of tokens.
-/

namespace Referee

/-! ## The tokens of the lines -/

theorem length_lineTokens (bs : Bytes) : (lineTokens bs).length = (lines bs).length :=
  List.length_map _

theorem tokens_eq_of_lineTokens_eq {expected actual : Bytes}
    (h : lineTokens expected = lineTokens actual) : tokens expected = tokens actual := by
  rw [← flatten_lineTokens, h, flatten_lineTokens]

/-! ## The two counts in a message -/

/-- What an accepted comparison by lines says. -/
def lineCountMessage (l t : Nat) : Bytes :=
  Bytes.ofString (l.repr ++ " line(s), total " ++ t.repr ++ " token(s)")

/-- Digits at the end of a byte string, with another byte in front of them, are found again. -/
theorem digits_eq_of_append_eq {as as' ds ds' : Bytes} {b : UInt8}
    (hb : Decimal.isDigit b = false) (hds : ∀ d ∈ ds, Decimal.isDigit d = true)
    (hds' : ∀ d ∈ ds', Decimal.isDigit d = true) (h : as ++ b :: ds = as' ++ b :: ds') :
    ds = ds' := by
  have hfind : ∀ {as ds : Bytes}, (∀ d ∈ ds, Decimal.isDigit d = true) →
      (as ++ b :: ds).reverse.takeWhile Decimal.isDigit = ds.reverse := by
    intro as ds hds
    have hrun : ∀ d ∈ ds.reverse, Decimal.isDigit d = true := fun d hd => hds d (List.mem_reverse.mp hd)
    rw [List.reverse_append, List.reverse_cons, List.append_assoc, List.takeWhile_append_of_pos hrun,
      List.singleton_append, List.takeWhile_cons_of_neg (by simp [hb]), List.append_nil]
  have hrev : ds.reverse = ds'.reverse := by rw [← hfind hds, h, hfind hds']
  exact List.reverse_injective hrev

theorem tokenCount_eq_of_message_eq {l l' t t' : Nat} (h : lineCountMessage l t = lineCountMessage l' t') :
    t = t' := by
  have hsplit : ∀ l t, lineCountMessage l t =
      (Bytes.ofString l.repr ++ Bytes.ofString " line(s), total") ++ 32 :: Bytes.ofString t.repr ++
        Bytes.ofString " token(s)" := by
    intro l t
    have hmiddle : Bytes.ofString " line(s), total " = Bytes.ofString " line(s), total" ++ [32] := by
      decide
    simp only [lineCountMessage, Bytes.ofString_append, hmiddle, List.append_assoc,
      List.nil_append, List.cons_append]
  rw [hsplit, hsplit] at h
  have hdigits := digits_eq_of_append_eq (by decide) Decimal.isDigit_of_mem_repr
    Decimal.isDigit_of_mem_repr (List.append_cancel_right h)
  rw [← Decimal.ofDigits_repr t, hdigits, Decimal.ofDigits_repr]

theorem Outcome.accepted_inj {m m' : Bytes} (h : Outcome.accepted m = .accepted m') : m = m' :=
  congrArg Outcome.message h

/-! ## The identical checker -/

section Identical

variable {presentationErrors : Bool} {expected actual : Bytes}

theorem identical_eq_accepted (h : expected = actual) : identical presentationErrors expected actual =
    .accepted (Bytes.ofString (expected.length.repr ++ " byte(s) identical")) :=
  if_pos h

/-- The tokens are right and the bytes are not. -/
theorem identical_of_layout (hne : expected ≠ actual) (h : tokens expected = tokens actual) :
    identical presentationErrors expected actual =
      ⟨.wrongAnswer, if presentationErrors then some whitespaceFeedback else none,
        tokenCountMessage (tokens expected).length⟩ := by
  rw [identical, if_neg hne, standard_eq_accepted h]
  cases presentationErrors <;> rfl

/-- With other tokens the outcome is that of the standard comparison. -/
theorem identical_of_tokens_ne (h : tokens expected ≠ tokens actual) :
    identical presentationErrors expected actual = standard expected actual := by
  have hne : expected ≠ actual := fun e => h (e ▸ rfl)
  have hrejected : (standard expected actual).passed = false := by
    cases hv : (standard expected actual).verdict with
    | accepted => exact absurd (standard_accepted_iff.mp hv) h
    | wrongAnswer => rw [Outcome.passed, hv]; rfl
  rw [identical, if_neg hne]
  simp [hrejected]

theorem identical_accepted_iff :
    (identical presentationErrors expected actual).verdict = .accepted ↔ expected = actual := by
  by_cases heq : expected = actual
  · rw [identical_eq_accepted heq]
    exact iff_of_true rfl heq
  refine iff_of_false ?_ heq
  by_cases htokens : tokens expected = tokens actual
  · rw [identical_of_layout heq htokens]
    nofun
  · rw [identical_of_tokens_ne htokens, standard_accepted_iff]
    exact htokens

theorem standard_feedback (expected actual : Bytes) : (standard expected actual).feedback = none := by
  unfold standard
  split <;> rfl

theorem identical_layout_iff :
    ((identical presentationErrors expected actual).verdict = .wrongAnswer ∧
      (identical presentationErrors expected actual).feedback = some whitespaceFeedback) ↔
    presentationErrors = true ∧ expected ≠ actual ∧ tokens expected = tokens actual := by
  by_cases heq : expected = actual
  · rw [identical_eq_accepted heq]
    exact iff_of_false (fun h => nomatch h.1) fun h => h.2.1 heq
  by_cases htokens : tokens expected = tokens actual
  · rw [identical_of_layout heq htokens]
    cases presentationErrors with
    | false => exact iff_of_false (fun h => nomatch h.2) fun h => nomatch h.1
    | true => exact iff_of_true ⟨rfl, rfl⟩ ⟨rfl, heq, htokens⟩
  · rw [identical_of_tokens_ne htokens, standard_feedback]
    exact iff_of_false (fun h => nomatch h.2) fun h => htokens h.2.2

end Identical

/-! ## The three checkers side by side -/

/-- **The exact checkers in the order of their strictness.** What the identical checker accepts the
comparison by lines accepts, and what that accepts the standard comparison accepts, with as many
tokens. The identical checker accepts the expected bytes alone. It blames the layout if it may and
the standard comparison accepts, and repeats the outcome of the standard comparison if that rejects. -/
theorem identical_lineCount_standard (presentationErrors : Bool) (expected actual : Bytes) :
    let byBytes := identical presentationErrors expected actual
    let byLines := lineCount expected actual
    let byTokens := standard expected actual
    (byBytes.verdict = .accepted → byLines.verdict = .accepted) ∧
    (byLines.verdict = .accepted → byTokens.verdict = .accepted) ∧
    (byLines.verdict = .accepted → byLines = .accepted (Bytes.ofString ((lines expected).length.repr ++
      " line(s), total " ++ (tokens expected).length.repr ++ " token(s)"))) ∧
    (∀ l t : Nat, byLines = .accepted
        (Bytes.ofString (l.repr ++ " line(s), total " ++ t.repr ++ " token(s)")) →
      byTokens = .accepted (Bytes.ofString (t.repr ++ " token(s)"))) ∧
    (∀ bs, tokens bs = ((lines bs).map tokens).flatten) ∧
    (byBytes.verdict = .accepted ↔ expected = actual) ∧
    (byBytes.verdict = .wrongAnswer ∧
        byBytes.feedback = some "Presentation Error, check your whitespace" ↔
      presentationErrors = true ∧ expected ≠ actual ∧ byTokens.verdict = .accepted) ∧
    (byTokens.verdict = .wrongAnswer → byBytes.verdict = .wrongAnswer ∧
      byBytes.message = byTokens.message ∧ byBytes.feedback = none ∧ byTokens.feedback = none) := by
  intro byBytes byLines byTokens
  have hcounts : byLines.verdict = .accepted →
      byLines = .accepted (lineCountMessage (lines expected).length (tokens expected).length) := by
    intro h
    rw [← flatten_lineTokens expected, ← length_lineTokens expected]
    exact lineCount_eq_accepted (lineCount_accepted_iff.mp h)
  refine ⟨?_, ?_, ?_, ?_, ?_, ?_, ?_, ?_⟩
  · intro h
    exact lineCount_accepted_iff.mpr (congrArg lineTokens (identical_accepted_iff.mp h))
  · intro h
    exact standard_accepted_iff.mpr (tokens_eq_of_lineTokens_eq (lineCount_accepted_iff.mp h))
  · exact hcounts
  · intro l t (h : byLines = .accepted (lineCountMessage l t))
    have haccepted : byLines.verdict = .accepted := by rw [h]; rfl
    rw [hcounts haccepted] at h
    rw [← tokenCount_eq_of_message_eq (Outcome.accepted_inj h)]
    exact standard_eq_accepted (tokens_eq_of_lineTokens_eq (lineCount_accepted_iff.mp haccepted))
  · exact fun bs => (flatten_lineTokens bs).symm
  · exact identical_accepted_iff
  · rw [standard_accepted_iff]
    exact identical_layout_iff
  · intro h
    have htokens : tokens expected ≠ tokens actual := fun e => by
      rw [standard_accepted_iff.mpr e] at h
      cases h
    have heq : byBytes = byTokens := identical_of_tokens_ne htokens
    rw [heq]
    exact ⟨h, rfl, standard_feedback expected actual, standard_feedback expected actual⟩

end Referee
