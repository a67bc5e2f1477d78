import Referee.Bridge
import Referee.Proofs.Messages

/-!
# Nothing is lost at the bridge

The parts of a message that are not quoted are `Plain`: they are short and hold no NUL, since its
numbers have at most twenty digits. With two quoted tokens, each cut down to its budget, a message
still fits the buffer of the host (`compare_shows`), so the bridge only cuts it where a quoted token
holds a NUL (`Bridge.reply_whole_iff`).
-/

namespace Referee

/-! ## Parts of messages -/

/-- A text of at most `k` bytes, none of which is a NUL. -/
structure Plain (s : String) (k : Nat) : Prop where
  length_le : (Bytes.ofString s).length ≤ k
  no_nul : 0 ∉ Bytes.ofString s

instance decidablePlain (s : String) (k : Nat) : Decidable (Plain s k) :=
  decidable_of_iff (_ ∧ _) ⟨fun h => ⟨h.1, h.2⟩, fun h => ⟨h.1, h.2⟩⟩

theorem Plain.append {s t : String} {k l : Nat} (hs : Plain s k) (ht : Plain t l) :
    Plain (s ++ t) (k + l) := by
  constructor
  · rw [Bytes.ofString_append, List.length_append]
    exact Nat.add_le_add hs.length_le ht.length_le
  · rw [Bytes.ofString_append, List.mem_append, not_or]
    exact ⟨hs.no_nul, ht.no_nul⟩

theorem plain_repr {n : Nat} (h : n < 2 ^ 64) : Plain n.repr 20 := by
  constructor
  · rw [Decimal.ofString_repr, List.length_map]
    exact (Nat.length_toDigits_le_iff (by decide) (by decide)).mpr (by omega)
  · intro hzero
    cases Decimal.isDigit_of_mem_repr 0 hzero

theorem plain_ordinal {n : Nat} (h : n < 2 ^ 64) : Plain (ordinal n) 22 := by
  have hending : Plain (ordinalEnding n) 2 := by
    unfold ordinalEnding
    split
    · decide
    · split <;> decide
  exact (plain_repr h).append hending

theorem Excerpt.length_quote_le (token : Bytes) : (quote token).length ≤ 66 := by
  have hle := length_shorten_le token
  have hbudget : budget = 64 := rfl
  rw [quote, List.length_append, List.length_cons, List.length_singleton]
  omega

theorem Excerpt.zero_mem_quote_iff {token : Bytes} : 0 ∈ quote token ↔ 0 ∈ shorten token := by
  simp [quote]

/-! ## Numbers in messages -/

/-- The positions and totals that a difference shows. -/
def Difference.numbers : Difference → List Nat
  | token n _ _ => [n]
  | extra | missing => []

def LineDifference.numbers : LineDifference → List Nat
  | extra n | missing n => [n]
  | inLine line d => line :: d.numbers

theorem Difference.le_of_numbers {n m : Nat} {es as : List Bytes} {d : Difference}
    (h : firstDifference n es as = some d) (hm : m ∈ d.numbers) : m ≤ n + es.length := by
  induction es generalizing n as with
  | nil =>
    cases as with
    | nil => cases h
    | cons a as =>
      cases h
      cases hm
  | cons e es ih =>
    cases as with
    | nil =>
      cases h
      cases hm
    | cons a as =>
      rw [firstDifference] at h
      rw [List.length_cons]
      split at h
      · have hle := ih h
        omega
      · cases h
        rw [List.mem_singleton.mp hm]
        omega

/-- A line is numbered by the lines, a token by the tokens. -/
theorem LineDifference.le_of_numbers {n m : Nat} {es as : List (List Bytes)} {d : LineDifference}
    (h : firstLineDifference n es as = some d) (hm : m ∈ d.numbers) :
    m ≤ n + es.length ∨ m ≤ es.flatten.length := by
  induction es generalizing n as with
  | nil =>
    cases as with
    | nil => cases h
    | cons a as =>
      cases h
      rw [List.mem_singleton.mp hm]
      exact .inl (Nat.le_add_right n 0)
  | cons e es ih =>
    cases as with
    | nil =>
      cases h
      rw [List.mem_singleton.mp hm]
      exact .inl (Nat.le_add_right n _)
    | cons a as =>
      rw [firstLineDifference] at h
      rw [List.length_cons, List.flatten_cons, List.length_append]
      split at h
      · rename_i d' hd
        cases h
        rcases List.mem_cons.mp hm with rfl | hm
        · omega
        · have hle := Difference.le_of_numbers hd hm
          omega
      · have hle := ih h
        omega

/-! ## Whole messages -/

/-- The message fits the host's buffer, and holds a NUL only where it quotes one. -/
structure Shows (message : Bytes) (quoted : List Bytes) : Prop where
  length_le : message.length ≤ Bridge.capacity
  nul_iff : 0 ∈ message ↔ ∃ t ∈ quoted, 0 ∈ Excerpt.shorten t

theorem Plain.shows {s : String} {k : Nat} (h : Plain s k) (hk : k ≤ Bridge.capacity) :
    Shows (Bytes.ofString s) [] :=
  ⟨h.length_le.trans hk, iff_of_false h.no_nul fun ⟨_, ht, _⟩ => nomatch ht⟩

theorem Plain.shows_mismatch {head : String} {k : Nat} (h : Plain head k)
    (hk : k + 141 ≤ Bridge.capacity) (e a : Bytes) :
    Shows (Excerpt.mismatch head e a) [e, a] := by
  have hfound : Plain ", found: " 9 := by decide
  constructor
  · have hhead := h.length_le
    have hlength := hfound.length_le
    have he := Excerpt.length_quote_le e
    have ha := Excerpt.length_quote_le a
    simp only [Excerpt.mismatch, List.length_append]
    omega
  · simp only [Excerpt.mismatch, List.mem_append, h.no_nul, hfound.no_nul,
      Excerpt.zero_mem_quote_iff, false_or, or_false, List.mem_cons, List.not_mem_nil,
      exists_eq_or_imp, exists_eq_left]

theorem Difference.shows_message {d : Difference} (h : ∀ n ∈ d.numbers, n < 2 ^ 64) :
    Shows d.message d.quoted := by
  cases d with
  | extra => exact Plain.shows (by decide) (by decide : 50 ≤ _)
  | missing => exact Plain.shows (by decide) (by decide : 50 ≤ _)
  | token n e a =>
    have htext : Plain " token differs - expected: " 30 := by decide
    exact ((plain_ordinal (h n List.mem_cons_self)).append htext).shows_mismatch (by decide) e a

theorem LineDifference.shows_message {d : LineDifference} (h : ∀ n ∈ d.numbers, n < 2 ^ 64) :
    Shows d.message d.quoted := by
  have hfirst : ∀ {n : Nat}, n < 2 ^ 64 → Plain ("First " ++ n.repr) 26 := fun hn =>
    Plain.append (by decide : Plain _ 6) (plain_repr hn)
  cases d with
  | extra n =>
    have htext :
        Plain " line(s) are correct but participant's output contains extra tokens" 80 := by decide
    exact ((hfirst (h n List.mem_cons_self)).append htext).shows (by decide)
  | missing n =>
    have htext :
        Plain " line(s) are correct but unexpected EOF in the participant's output" 80 := by decide
    exact ((hfirst (h n List.mem_cons_self)).append htext).shows (by decide)
  | inLine line d =>
    have hline : Plain ("In line " ++ ordinal line) 30 :=
      Plain.append (by decide : Plain _ 8) (plain_ordinal (h line List.mem_cons_self))
    cases d with
    | extra =>
      have htext : Plain ", participant's output has more tokens than judge's output" 80 := by
        decide
      exact (hline.append htext).shows (by decide)
    | missing =>
      have htext : Plain ", participant's output has fewer tokens than judge's output" 80 := by
        decide
      exact (hline.append htext).shows (by decide)
    | token n e a =>
      have hcomma : Plain ", " 2 := by decide
      have htext : Plain " token differs - expected: " 30 := by decide
      have hposition := plain_ordinal (h n (List.mem_cons_of_mem _ List.mem_cons_self))
      exact (((hline.append hcomma).append hposition).append htext).shows_mismatch (by decide) e a

/-- The tokens that the outcome of a comparison quotes. -/
def CheckMode.quoted (mode : CheckMode) (expected actual : Bytes) : List Bytes :=
  match mode with
  | .standard => (firstDifference 0 (tokens expected) (tokens actual)).elim [] Difference.quoted
  | .lineCount =>
    (firstLineDifference 0 (lineTokens expected) (lineTokens actual)).elim [] LineDifference.quoted

section Compare

variable {mode : CheckMode} {expected actual : Bytes}

theorem CheckMode.quoted_of_accepted (h : (compare mode expected actual).verdict = .accepted) :
    mode.quoted expected actual = [] := by
  cases mode with
  | standard =>
    rw [quoted, standard_accepted_iff.mp h, firstDifference_self]
    rfl
  | lineCount =>
    rw [quoted, lineCount_accepted_iff.mp h, firstLineDifference_eq_none_iff.mpr rfl]
    rfl

/-- **The message of a comparison fits the host's buffer**, and holds a NUL only where it quotes
one. -/
theorem compare_shows (mode : CheckMode) (actual : Bytes)
    (hlines : (lines expected).length < 2 ^ 64) (htokens : (tokens expected).length < 2 ^ 64) :
    Shows (compare mode expected actual).message (mode.quoted expected actual) := by
  cases mode with
  | standard =>
    rw [compare, CheckMode.quoted]
    cases hd : firstDifference 0 (tokens expected) (tokens actual) with
    | none =>
      have htext : Plain " token(s)" 9 := by decide
      rw [standard_eq_accepted (firstDifference_eq_none_iff.mp hd)]
      exact ((plain_repr htokens).append htext).shows (by decide)
    | some d =>
      rw [standard_eq_wrongAnswer hd]
      refine Difference.shows_message fun n hn => ?_
      have hle := Difference.le_of_numbers hd hn
      omega
  | lineCount =>
    have hcount : (lineTokens expected).length = (lines expected).length := List.length_map _
    have htotal : (lineTokens expected).flatten.length = (tokens expected).length :=
      congrArg List.length (flatten_lineTokens expected)
    rw [compare, CheckMode.quoted]
    cases hd : firstLineDifference 0 (lineTokens expected) (lineTokens actual) with
    | none =>
      have htext : Plain " line(s), total " 16 := by decide
      have htext' : Plain " token(s)" 9 := by decide
      rw [lineCount_eq_accepted (firstLineDifference_eq_none_iff.mp hd), hcount, htotal]
      exact ((((plain_repr hlines).append htext).append (plain_repr htokens)).append htext').shows
        (by decide)
    | some d =>
      rw [lineCount_eq_wrongAnswer hd]
      refine LineDifference.shows_message fun n hn => ?_
      have hle := LineDifference.le_of_numbers hd hn
      omega

end Compare

namespace Bridge

/-! ## The cut -/

section Bound

variable {message : Bytes}

theorem zero_not_mem_bound (message : Bytes) : 0 ∉ bound message := by
  intro hzero
  have hmem := List.mem_of_mem_take hzero
  exact absurd (List.mem_takeWhile_imp hmem) (by decide)

theorem bound_of_length_le (h : message.length ≤ capacity) :
    bound message = message.takeWhile (· ≠ 0) :=
  List.take_of_length_le ((List.takeWhile_sublist _).length_le.trans h)

theorem bound_eq_self_iff (h : message.length ≤ capacity) :
    bound message = message ↔ 0 ∉ message := by
  rw [bound_of_length_le h, List.takeWhile_eq_self_iff]
  constructor
  · intro hall hzero
    exact absurd (hall 0 hzero) (by decide)
  · intro hzero b hb
    refine decide_eq_true ?_
    rintro rfl
    exact hzero hb

end Bound

/-! ## Operations by name -/

theorem ofName?_eq_some_iff {operation : String} {mode : CheckMode} :
    CheckMode.ofName? operation = some mode ↔ operation = mode.name := by
  constructor
  · intro h
    rw [CheckMode.ofName?] at h
    have hname := List.find?_some h
    exact (beq_iff_eq.mp hname).symm
  · rintro rfl
    cases mode <;> rfl

section Invoke

variable {operation : String} {args : List HostValue}

/-- The operation is known and both arguments are byte strings. -/
def Callable (operation : String) (args : List HostValue) : Prop :=
  (operation = "standard" ∨ operation = "linecount") ∧
    ∃ expected actual, args = [.bytes expected, .bytes actual]

theorem invoke_name (mode : CheckMode) (expected actual : Bytes) :
    invoke mode.name [.bytes expected, .bytes actual] = .ok (run mode expected actual) := by
  rw [invoke, ofName?_eq_some_iff.mpr rfl]

theorem exists_invoke_of_callable (h : Callable operation args) :
    ∃ r, invoke operation args = .ok r := by
  obtain ⟨rfl | rfl, expected, actual, rfl⟩ := h
  · exact ⟨_, invoke_name .standard expected actual⟩
  · exact ⟨_, invoke_name .lineCount expected actual⟩

theorem invoke_of_not_callable (h : ¬ Callable operation args) :
    ∃ m, invoke operation args = .error (.invalidArgument m) := by
  unfold invoke
  cases hname : CheckMode.ofName? operation with
  | none => exact ⟨_, rfl⟩
  | some mode =>
    have hknown : operation = "standard" ∨ operation = "linecount" := by
      rw [ofName?_eq_some_iff.mp hname]
      cases mode
      · exact .inl rfl
      · exact .inr rfl
    dsimp only
    split
    · exact absurd ⟨hknown, _, _, rfl⟩ h
    · exact ⟨_, rfl⟩
    · exact ⟨_, rfl⟩

theorem exists_invoke_iff : (∃ r, invoke operation args = .ok r) ↔ Callable operation args := by
  refine ⟨fun ⟨r, hr⟩ => ?_, exists_invoke_of_callable⟩
  by_contra hnot
  obtain ⟨m, hm⟩ := invoke_of_not_callable hnot
  cases hr.symm.trans hm

end Invoke

/-! ## Replies -/

theorem passed_run_iff {mode : CheckMode} {expected actual : Bytes} :
    (run mode expected actual).passed = true ↔
      (compare mode expected actual).verdict = .accepted := by
  show (compare mode expected actual).verdict.isAccepted = true ↔ _
  cases (compare mode expected actual).verdict
  · exact iff_of_true rfl rfl
  · exact iff_of_false nofun nofun

/-- **The bridge loses nothing to its capacity.** The message of a comparison fits, so the reply is
the message up to its first NUL: all of it, unless a token that it quotes shows a NUL. Every
operation by its name gives that reply, and any other call is an invalid argument. -/
theorem reply_whole_iff (mode : CheckMode) {expected : Bytes} (actual : Bytes)
    (hlines : (lines expected).length < 2 ^ 64) (htokens : (tokens expected).length < 2 ^ 64) :
    let outcome := compare mode expected actual
    let reply := run mode expected actual
    outcome.message.length ≤ capacity ∧
    reply.message = outcome.message.takeWhile (· ≠ 0) ∧ 0 ∉ reply.message ∧
    (reply.message = outcome.message ↔ ∀ t ∈ mode.quoted expected actual, 0 ∉ Excerpt.shorten t) ∧
    (outcome.verdict = .accepted → reply.message = outcome.message) ∧
    (reply.passed = true ↔ outcome.verdict = .accepted) ∧
    invoke mode.name [.bytes expected, .bytes actual] = .ok reply ∧
    ∀ operation args,
      ((∃ r, invoke operation args = .ok r) ↔ Callable operation args) ∧
      (¬ Callable operation args → ∃ m, invoke operation args = .error (.invalidArgument m)) := by
  intro outcome reply
  obtain ⟨hlength, hnul⟩ := compare_shows mode actual hlines htokens
  have hwhole : reply.message = outcome.message ↔
      ∀ t ∈ mode.quoted expected actual, 0 ∉ Excerpt.shorten t := by
    refine (bound_eq_self_iff hlength).trans ((not_congr hnul).trans ?_)
    simp only [not_exists, not_and]
  refine ⟨hlength, bound_of_length_le hlength, zero_not_mem_bound _, hwhole, ?_, passed_run_iff,
    invoke_name mode expected actual,
    fun operation args => ⟨exists_invoke_iff, invoke_of_not_callable⟩⟩
  intro haccepted
  rw [hwhole, CheckMode.quoted_of_accepted haccepted]
  nofun

/-- A NUL in the first token that differs cuts the message there. -/
theorem reply_whole_iff_nul :
    (run .standard [97, 0, 98] [97, 99]).message =
        Bytes.ofString "1st token differs - expected: 'a" ∧
      (run .standard [97, 0, 98] [97, 99]).message ≠
        (compare .standard [97, 0, 98] [97, 99]).message := by
  have hlines : (lines [97, 0, 98]).length < 2 ^ 64 := by decide
  have hreply := reply_whole_iff .standard [97, 99] hlines (by decide)
  refine ⟨hreply.2.1.trans (by decide), fun h => ?_⟩
  exact absurd (hreply.2.2.2.1.mp h) (by decide)

end Bridge

end Referee
