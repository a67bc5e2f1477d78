import Mathlib.Algebra.GroupWithZero.Nat
import Mathlib.Data.List.Forall2
import Referee.Proofs.Agreement
import Referee.Proofs.Lines
import Referee.Proofs.Tokens

/-!
# What the two comparisons report

The whole outcome of a comparison is given by the token lists of the two outputs, for the line
count by those of their lines, and the index at which they part. Their converse halves need messages of
different kinds to be different texts; that is read off where the messages end.
-/

namespace Referee

/-! ## Messages of different kinds differ -/

theorem ofString_append_ne {t u : String} (h : Bytes.ofString t ≠ Bytes.ofString u) (s : String) :
    Bytes.ofString (s ++ t) ≠ Bytes.ofString (s ++ u) := by
  rw [Bytes.ofString_append, Bytes.ofString_append]
  exact fun e => h (List.append_cancel_left e)

theorem getLast?_ofString_append (s : String) {t : String} (h : Bytes.ofString t ≠ []) :
    (Bytes.ofString (s ++ t)).getLast? = (Bytes.ofString t).getLast? := by
  rw [Bytes.ofString_append, List.getLast?_append_of_ne_nil _ h]

/-- A message that quotes two tokens ends with the closing quote. -/
theorem getLast?_mismatch (head : String) (e a : Bytes) :
    (Excerpt.mismatch head e a).getLast? = some 39 := by
  rw [Excerpt.mismatch, Excerpt.quote, Excerpt.quote, ← List.append_assoc, List.getLast?_concat]

namespace Difference

theorem message_extra_ne_missing : extra.message ≠ missing.message := by decide

end Difference

namespace LineDifference

theorem message_extra_ne_missing (n : Nat) : (extra n).message ≠ (missing n).message :=
  ofString_append_ne (by decide) ("First " ++ n.repr)

theorem message_more_ne_fewer (line : Nat) :
    (inLine line .extra).message ≠ (inLine line .missing).message :=
  ofString_append_ne (by decide) ("In line " ++ ordinal line)

theorem message_token_ne_more (line n : Nat) (e a : Bytes) :
    (inLine line (.token n e a)).message ≠ (inLine line .extra).message := by
  intro h
  have h : (Excerpt.mismatch _ e a).getLast? = _ := congrArg List.getLast? h
  rw [getLast?_mismatch, message, getLast?_ofString_append _ (by decide)] at h
  exact absurd h (by decide)

theorem message_token_ne_fewer (line n : Nat) (e a : Bytes) :
    (inLine line (.token n e a)).message ≠ (inLine line .missing).message := by
  intro h
  have h : (Excerpt.mismatch _ e a).getLast? = _ := congrArg List.getLast? h
  rw [getLast?_mismatch, message, getLast?_ofString_append _ (by decide)] at h
  exact absurd h (by decide)

end LineDifference

/-! ## The standard comparison -/

theorem standard_eq_accepted {expected actual : Bytes} (h : tokens expected = tokens actual) :
    standard expected actual = .accepted (tokenCountMessage (tokens expected).length) := by
  rw [standard, h, firstDifference_self]

theorem standard_eq_wrongAnswer {expected actual : Bytes} {d : Difference}
    (h : firstDifference 0 (tokens expected) (tokens actual) = some d) :
    standard expected actual = .wrongAnswer d.message := by
  rw [standard, h]

theorem standard_accepted_iff {expected actual : Bytes} :
    (standard expected actual).verdict = .accepted ↔ tokens expected = tokens actual := by
  constructor
  · intro h
    by_contra hne
    obtain ⟨d, hd⟩ := Option.ne_none_iff_exists'.mp fun h' => hne (firstDifference_eq_none_iff.mp h')
    rw [standard_eq_wrongAnswer hd] at h
    cases h
  · intro h
    rw [standard_eq_accepted h]
    rfl

/-- The token lists of the lines of a byte string, in order. -/
def TokenLines (bs : Bytes) (tss : List (List Bytes)) : Prop :=
  ∃ ls, Lined bs ls ∧ List.Forall₂ MaximalRuns ls tss

theorem forall₂_maximalRuns_iff {ls : List Bytes} {tss : List (List Bytes)} :
    List.Forall₂ MaximalRuns ls tss ↔ tss = ls.map tokens := by
  have h : MaximalRuns = fun l ts => tokens l = ts := by
    funext l ts
    exact propext (maximalRuns_iff.trans eq_comm)
  rw [h, ← List.forall₂_map_left_iff (R := Eq), List.forall₂_eq_eq_eq, eq_comm]

theorem tokenLines_iff {bs : Bytes} {tss : List (List Bytes)} :
    TokenLines bs tss ↔ tss = lineTokens bs := by
  constructor
  · rintro ⟨ls, hls, h⟩
    rw [forall₂_maximalRuns_iff.mp h, hls.eq_lines, lineTokens]
  · rintro rfl
    exact ⟨lines bs, lined_lines bs, forall₂_maximalRuns_iff.mpr rfl⟩

theorem EndsLine.isBlank {t rest : Bytes} (h : EndsLine t rest) :
    t ≠ [] ∧ ∀ b ∈ t, isBlank b = true := by
  rcases h with rfl | rfl | ⟨rfl, -⟩ <;> exact ⟨by decide, List.all_eq_true.mp rfl⟩

theorem Lined.flatten_tokens {bs : Bytes} {ls : List Bytes} (h : Lined bs ls) :
    (ls.map tokens).flatten = tokens bs := by
  induction h with
  | done => rfl
  | last hl hne => rw [List.map_singleton, List.flatten_singleton]
  | line hl ht _ ih =>
    obtain ⟨hne, hblank⟩ := ht.isBlank
    rw [List.map_cons, List.flatten_cons, ih, tokens_append_blanks_append hne hblank]

/-- **The tokens of a byte string are those of its lines**, whatever terminators part these. -/
theorem flatten_lineTokens (bs : Bytes) : (lineTokens bs).flatten = tokens bs :=
  (lined_lines bs).flatten_tokens

theorem lineCount_eq_accepted {expected actual : Bytes} (h : lineTokens expected = lineTokens actual) :
    lineCount expected actual = .accepted (Bytes.ofString
      ((lineTokens expected).length.repr ++ " line(s), total " ++
        (lineTokens expected).flatten.length.repr ++ " token(s)")) := by
  rw [lineCount, h, firstLineDifference_eq_none_iff.mpr rfl]

theorem lineCount_eq_wrongAnswer {expected actual : Bytes} {d : LineDifference}
    (h : firstLineDifference 0 (lineTokens expected) (lineTokens actual) = some d) :
    lineCount expected actual = .wrongAnswer d.message := by
  rw [lineCount, h]

theorem lineCount_accepted_iff {expected actual : Bytes} :
    (lineCount expected actual).verdict = .accepted ↔ lineTokens expected = lineTokens actual := by
  constructor
  · intro h
    by_contra hne
    obtain ⟨d, hd⟩ :=
      Option.ne_none_iff_exists'.mp fun h' => hne (firstLineDifference_eq_none_iff.mp h')
    rw [lineCount_eq_wrongAnswer hd] at h
    cases h
  · intro h
    rw [lineCount_eq_accepted h]
    rfl

/-- What the message says about the first line that differs, of which the judge's holds `e` and the
participant's `a`. -/
theorem inLine_message (line : Nat) {e a : List Bytes} (hne : e ≠ a) :
    ∃ d, firstDifference 0 e a = some d ∧
      let k := agreement e a
      let message := (LineDifference.inLine line d).message
      (message = Bytes.ofString ("In line " ++ ordinal line ++
          ", participant's output has more tokens than judge's output") ↔ k = e.length) ∧
      (message = Bytes.ofString ("In line " ++ ordinal line ++
          ", participant's output has fewer tokens than judge's output") ↔ k = a.length) ∧
      (k ≠ e.length → k ≠ a.length → ∃ x y, e[k]? = some x ∧ a[k]? = some y ∧
        message = Bytes.ofString ("In line " ++ ordinal line ++ ", " ++ ordinal (k + 1) ++
            " token differs - expected: ") ++
          Excerpt.quote x ++ Bytes.ofString ", found: " ++ Excerpt.quote y) := by
  rcases agreement_cases e a with heq | ⟨hk, hlt⟩ | ⟨hk, hlt⟩ | ⟨x, y, hx, hy⟩
  · exact absurd heq hne
  · refine ⟨_, firstDifference_of_extra hk hlt, iff_of_true rfl hk,
      iff_of_false (LineDifference.message_more_ne_fewer line) ?_, fun h => absurd hk h⟩
    omega
  · refine ⟨_, firstDifference_of_missing hk hlt,
      iff_of_false (LineDifference.message_more_ne_fewer line).symm ?_, iff_of_true rfl hk,
      fun _ h => absurd hk h⟩
    omega
  · have hke : agreement e a < e.length := (List.getElem?_eq_some_iff.mp hx).1
    have hka : agreement e a < a.length := (List.getElem?_eq_some_iff.mp hy).1
    refine ⟨_, firstDifference_of_token hx hy,
      iff_of_false (LineDifference.message_token_ne_more line _ x y) (by omega),
      iff_of_false (LineDifference.message_token_ne_fewer line _ x y) (by omega),
      fun _ _ => ⟨x, y, hx, hy, ?_⟩⟩
    rw [Nat.zero_add]
    rfl

/-- **The comparison by lines.** With `EL` and `AL` the token lists of the lines of the two outputs,
the outcome locates their first disagreement. -/
theorem compare_lineCount (expected actual : Bytes) :
    let EL := lineTokens expected
    let AL := lineTokens actual
    let m := min EL.length AL.length
    let outcome := compare .lineCount expected actual
    (∀ tss, TokenLines expected tss ↔ tss = EL) ∧ (∀ tss, TokenLines actual tss ↔ tss = AL) ∧
    (outcome.verdict = .accepted ↔ EL = AL) ∧
    (EL = AL → outcome = .accepted (Bytes.ofString (EL.length.repr ++ " line(s), total " ++
      (EL.map List.length).sum.repr ++ " token(s)"))) ∧
    (EL ≠ AL → outcome = .wrongAnswer outcome.message ∧
      (EL.take m = AL.take m →
        (outcome.message = Bytes.ofString ("First " ++ m.repr ++
            " line(s) are correct but participant's output contains extra tokens") ↔
          EL.length < AL.length) ∧
        (outcome.message = Bytes.ofString ("First " ++ m.repr ++
            " line(s) are correct but unexpected EOF in the participant's output") ↔
          AL.length < EL.length)) ∧
      (EL.take m ≠ AL.take m → ∃ l e a, EL[l]? = some e ∧ AL[l]? = some a ∧ e ≠ a ∧
        EL.take l = AL.take l ∧
        let k := agreement e a
        (outcome.message = Bytes.ofString ("In line " ++ ordinal (l + 1) ++
            ", participant's output has more tokens than judge's output") ↔ k = e.length) ∧
        (outcome.message = Bytes.ofString ("In line " ++ ordinal (l + 1) ++
            ", participant's output has fewer tokens than judge's output") ↔ k = a.length) ∧
        (k ≠ e.length → k ≠ a.length → ∃ x y, e[k]? = some x ∧ a[k]? = some y ∧
          outcome.message = Bytes.ofString ("In line " ++ ordinal (l + 1) ++ ", " ++
              ordinal (k + 1) ++ " token differs - expected: ") ++
            Excerpt.quote x ++ Bytes.ofString ", found: " ++ Excerpt.quote y))) := by
  intro EL AL m outcome
  refine ⟨fun tss => tokenLines_iff, fun tss => tokenLines_iff, lineCount_accepted_iff, ?_, ?_⟩
  · intro h
    rw [← List.length_flatten]
    exact lineCount_eq_accepted h
  · intro hne
    rcases agreement_cases EL AL with heq | ⟨hk, hlt⟩ | ⟨hk, hlt⟩ | ⟨e, a, he, ha⟩
    · exact absurd heq hne
    · have hm : m = EL.length := Nat.min_eq_left hlt.le
      have hout : outcome = .wrongAnswer (LineDifference.extra (0 + EL.length)).message :=
        lineCount_eq_wrongAnswer (firstLineDifference_of_extra hk hlt)
      rw [Nat.zero_add, ← hm] at hout
      rw [hout]
      refine ⟨rfl, fun _ => ⟨iff_of_true rfl hlt,
        iff_of_false (LineDifference.message_extra_ne_missing m) (by omega)⟩, fun h => absurd ?_ h⟩
      rw [hm, ← hk]
      exact take_agreement EL AL
    · have hm : m = AL.length := Nat.min_eq_right hlt.le
      have hout : outcome = .wrongAnswer (LineDifference.missing (0 + AL.length)).message :=
        lineCount_eq_wrongAnswer (firstLineDifference_of_missing hk hlt)
      rw [Nat.zero_add, ← hm] at hout
      rw [hout]
      refine ⟨rfl, fun _ => ⟨iff_of_false (LineDifference.message_extra_ne_missing m).symm (by omega),
        iff_of_true rfl hlt⟩, fun h => absurd ?_ h⟩
      rw [hm, ← hk]
      exact take_agreement EL AL
    · have hea : e ≠ a := getElem?_agreement_ne he ha
      obtain ⟨d, hd, hmessage⟩ := inLine_message (agreement EL AL + 1) hea
      have hout : outcome = .wrongAnswer (LineDifference.inLine (0 + agreement EL AL + 1) d).message :=
        lineCount_eq_wrongAnswer (firstLineDifference_of_inLine he ha hd)
      rw [Nat.zero_add] at hout
      have hkE : agreement EL AL < EL.length := (List.getElem?_eq_some_iff.mp he).1
      have hkA : agreement EL AL < AL.length := (List.getElem?_eq_some_iff.mp ha).1
      rw [hout]
      refine ⟨rfl, fun h => absurd ?_ hea,
        fun _ => ⟨agreement EL AL, e, a, he, ha, hea, take_agreement EL AL, hmessage⟩⟩
      -- equal prefixes of the shorter length would agree where the lists part
      have hlt : agreement EL AL < m := Nat.lt_min.mpr ⟨hkE, hkA⟩
      have h := congrArg (·[agreement EL AL]?) h
      simpa [List.getElem?_take_of_lt hlt, he, ha] using h

end Referee
