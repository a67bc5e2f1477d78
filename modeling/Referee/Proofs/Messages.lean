import Referee.Proofs.Strictness
import Referee.Proofs.Tolerance
import Referee.Proofs.Utf8

/-!
# Messages of one line

Whatever a checker is given, its message makes one line (`Checker.check_presentable`): the templates
hold no line break, the tokens that they quote come from the token lists of the two outputs, where
no byte is blank, and neither cutting a token nor decoding it with replacements makes a break.
-/

namespace Referee

/-- A text that makes a line of its own. -/
structure OneLine (s : String) : Prop where
  ne_empty : s ≠ ""
  no_break : ∀ c ∈ s.toList, c ≠ '\n' ∧ c ≠ '\r'

/-! ## Bytes without line breaks -/

instance decidableUnbroken (bs : Bytes) : Decidable (Unbroken bs) :=
  List.decidableBAll (isLineBreak · = false) bs

@[simp] theorem unbroken_append_iff {as bs : Bytes} :
    Unbroken (as ++ bs) ↔ Unbroken as ∧ Unbroken bs := List.forall_mem_append

theorem IsToken.unbroken {t : Bytes} (ht : IsToken t) : Unbroken t := by
  intro b hb
  by_contra hbreak
  have hblank : isBlank b = true := isBlank_of_isLineBreak (by simpa using hbreak)
  rw [ht.2 b hb] at hblank
  cases hblank

theorem exists_isLineBreak_iff {c : Char} :
    (∃ b ∈ String.utf8EncodeChar c, isLineBreak b = true) ↔ c = '\n' ∨ c = '\r' := by
  have hbreak : ∀ b : UInt8, isLineBreak b = true ↔ b.toNat = 10 ∨ b.toNat = 13 := by
    intro b
    simp only [isLineBreak, Bool.or_eq_true, beq_iff_eq, ← UInt8.toNat_inj, UInt8.reduceToNat]
    omega
  simp only [hbreak, ← Char.toNat_inj, Char.reduceToNat]
  rcases Nat.lt_or_ge 0x7F c.toNat with hc | hc
  · refine iff_of_false ?_ (by omega)
    rintro ⟨b, hb, h⟩
    have := le_toNat_of_mem_utf8EncodeChar hc hb
    omega
  · rw [Bytes.utf8EncodeChar_of_ascii hc]
    simp only [List.mem_singleton, exists_eq_left, UInt8.toNat_ofNat']
    omega

theorem unbroken_ofChars_iff {cs : List Char} :
    Unbroken (Bytes.ofChars cs) ↔ ∀ c ∈ cs, c ≠ '\n' ∧ c ≠ '\r' := by
  constructor
  · intro h c hc
    rw [← not_or, ← exists_isLineBreak_iff]
    rintro ⟨b, hb, hbreak⟩
    rw [h b (List.mem_flatMap.mpr ⟨c, hc, hb⟩)] at hbreak
    cases hbreak
  · intro h b hb
    obtain ⟨c, hc, hbc⟩ := List.mem_flatMap.mp hb
    by_contra hbreak
    have hc' := exists_isLineBreak_iff.mp ⟨b, hbc, by simpa using hbreak⟩
    exact not_or.mpr (h c hc) hc'

theorem oneLine_iff {s : String} : OneLine s ↔ s ≠ "" ∧ Unbroken (Bytes.ofString s) := by
  rw [Bytes.ofString, unbroken_ofChars_iff]
  exact ⟨fun h => ⟨h.ne_empty, h.no_break⟩, fun h => ⟨h.1, h.2⟩⟩

theorem OneLine.unbroken {s : String} (h : OneLine s) : Unbroken (Bytes.ofString s) :=
  (oneLine_iff.mp h).2

instance decidableOneLine (s : String) : Decidable (OneLine s) := decidable_of_iff' _ oneLine_iff

theorem OneLine.append {s t : String} (hs : OneLine s) (ht : Unbroken (Bytes.ofString t)) :
    OneLine (s ++ t) := by
  obtain ⟨hne, hunbroken⟩ := oneLine_iff.mp hs
  refine oneLine_iff.mpr ⟨fun h => hne (String.append_eq_empty_iff.mp h).1, ?_⟩
  rw [Bytes.ofString_append]
  exact unbroken_append_iff.mpr ⟨hunbroken, ht⟩

theorem ofString_ne_nil {s : String} (h : s ≠ "") : Bytes.ofString s ≠ [] := by
  intro hnil
  obtain ⟨c, hc⟩ := List.exists_mem_of_ne_nil s.toList (by simpa using h)
  exact utf8EncodeChar_ne_nil c (List.flatMap_eq_nil_iff.mp hnil c hc)

/-! ## Pieces of messages -/

theorem oneLine_repr (n : Nat) : OneLine n.repr := by
  refine oneLine_iff.mpr ⟨by simp, fun b hb => ?_⟩
  by_contra hbreak
  have hblank : isBlank b = true := isBlank_of_isLineBreak (by simpa using hbreak)
  rw [Decimal.not_isBlank_of_isDigit (Decimal.isDigit_of_mem_repr b hb)] at hblank
  cases hblank

theorem unbroken_repr_int (n : Int) : Unbroken (Bytes.ofString n.repr) :=
  (Decimal.isToken_repr n).unbroken

theorem oneLine_ordinal (n : Nat) : OneLine (ordinal n) := by
  have hending : Unbroken (Bytes.ofString (ordinalEnding n)) := by
    unfold ordinalEnding
    split
    · decide
    · split <;> decide
  exact (oneLine_repr n).append hending

namespace Excerpt

theorem unbroken_shorten {t : Bytes} (ht : Unbroken t) : Unbroken (shorten t) := by
  unfold shorten
  split
  · exact ht
  · simp only [unbroken_append_iff]
    exact ⟨⟨fun b hb => ht b (List.mem_of_mem_take hb), by decide⟩,
      fun b hb => ht b (List.mem_of_mem_drop hb)⟩

theorem shorten_ne_nil {t : Bytes} (ht : t ≠ []) : shorten t ≠ [] := by
  unfold shorten
  split
  · exact ht
  · have hdots : Bytes.ofString "..." ≠ [] := by decide
    simp [hdots]

theorem unbroken_quote {t : Bytes} (ht : Unbroken t) : Unbroken (quote t) := by
  have hquote : quote t = [39] ++ (shorten t ++ [39]) := rfl
  rw [hquote, unbroken_append_iff, unbroken_append_iff]
  exact ⟨by decide, unbroken_shorten ht, by decide⟩

theorem mismatch_ne_nil (head : String) (expected found : Bytes) :
    mismatch head expected found ≠ [] := by
  simp [mismatch, quote]

theorem unbroken_mismatch {head : String} {expected found : Bytes}
    (hhead : Unbroken (Bytes.ofString head)) (he : Unbroken expected) (hf : Unbroken found) :
    Unbroken (mismatch head expected found) := by
  simp only [mismatch, unbroken_append_iff]
  exact ⟨⟨⟨hhead, unbroken_quote he⟩, by decide⟩, unbroken_quote hf⟩

end Excerpt

/-! ## Tokens that a difference quotes -/

def Difference.quoted : Difference → List Bytes
  | token _ e a => [e, a]
  | extra | missing => []

def LineDifference.quoted : LineDifference → List Bytes
  | inLine _ d => d.quoted
  | extra _ | missing _ => []

def NumericDifference.quoted {α : Type} : NumericDifference α → List Bytes
  | token _ e a | notANumber _ e a => [e, a]
  | lineTotals _ _ | lineLength _ _ _ | number _ _ _ => []

section Quoted

variable {t : Bytes}

theorem Difference.mem_of_quoted {n : Nat} {es as : List Bytes} {d : Difference}
    (h : firstDifference n es as = some d) (ht : t ∈ d.quoted) : t ∈ es ∨ t ∈ as := by
  induction es generalizing n as with
  | nil =>
    cases as with
    | nil => cases h
    | cons a as =>
      cases h
      cases ht
  | cons e es ih =>
    cases as with
    | nil =>
      cases h
      cases ht
    | cons a as =>
      rw [firstDifference] at h
      split at h
      · exact (ih h).imp (List.mem_cons_of_mem e) (List.mem_cons_of_mem a)
      · cases h
        rcases List.mem_pair.mp ht with rfl | rfl
        · exact .inl List.mem_cons_self
        · exact .inr List.mem_cons_self

theorem LineDifference.mem_of_quoted {n : Nat} {es as : List (List Bytes)} {d : LineDifference}
    (h : firstLineDifference n es as = some d) (ht : t ∈ d.quoted) :
    t ∈ es.flatten ∨ t ∈ as.flatten := by
  induction es generalizing n as with
  | nil =>
    cases as with
    | nil => cases h
    | cons a as =>
      cases h
      cases ht
  | cons e es ih =>
    cases as with
    | nil =>
      cases h
      cases ht
    | cons a as =>
      rw [firstLineDifference] at h
      rw [List.flatten_cons, List.flatten_cons, List.mem_append, List.mem_append]
      split at h
      · rename_i d' hd
        cases h
        exact (Difference.mem_of_quoted hd ht).imp .inl .inl
      · exact (ih h).imp .inr .inr

namespace NumericDifference

variable {α : Type} {read? : Bytes → Option α} {close : α → α → Bool} {d : NumericDifference α}

theorem mem_of_quoted_token {n : Nat} {es as : List Bytes}
    (h : firstTokenFailure read? close n es as = some d) (ht : t ∈ d.quoted) : t ∈ es ∨ t ∈ as := by
  induction es generalizing n as with
  | nil => cases h
  | cons e es ih =>
    cases as with
    | nil => cases h
    | cons a as =>
      have hpair : t ∈ [e, a] → t ∈ e :: es ∨ t ∈ a :: as := fun ht => by
        rcases List.mem_pair.mp ht with rfl | rfl
        · exact .inl List.mem_cons_self
        · exact .inr List.mem_cons_self
      have hrest : firstTokenFailure read? close (n + 1) es as = some d → t ∈ e :: es ∨ t ∈ a :: as :=
        fun h => (ih h).imp (List.mem_cons_of_mem e) (List.mem_cons_of_mem a)
      rw [firstTokenFailure] at h
      split at h
      · split at h
        · exact hrest h
        · cases h
          exact hpair ht
      · split at h
        · cases h
          exact hpair ht
        · split at h
          · exact hrest h
          · cases h
            cases ht

theorem mem_of_quoted_line {line n : Nat} {es as : List (List Bytes)}
    (h : firstLineFailure read? close line n es as = some d) (ht : t ∈ d.quoted) :
    t ∈ es.flatten ∨ t ∈ as.flatten := by
  induction es generalizing line n as with
  | nil => cases h
  | cons e es ih =>
    cases as with
    | nil => cases h
    | cons a as =>
      rw [firstLineFailure] at h
      rw [List.flatten_cons, List.flatten_cons, List.mem_append, List.mem_append]
      split at h
      · split at h
        · rename_i d' hd
          cases h
          exact (mem_of_quoted_token hd ht).imp .inl .inl
        · exact (ih h).imp .inr .inr
      · cases h
        cases ht

theorem mem_of_quoted {es as : List (List Bytes)}
    (h : firstNumericDifference read? close es as = some d) (ht : t ∈ d.quoted) :
    t ∈ es.flatten ∨ t ∈ as.flatten := by
  unfold firstNumericDifference at h
  split at h
  · exact mem_of_quoted_line h ht
  · cases h
    cases ht

end NumericDifference

end Quoted

/-! ## Messages -/

/-- The bytes make a line of their own. -/
def IsLine (bs : Bytes) : Prop := bs ≠ [] ∧ Unbroken bs

theorem OneLine.isLine {s : String} (h : OneLine s) : IsLine (Bytes.ofString s) :=
  ⟨ofString_ne_nil h.ne_empty, (oneLine_iff.mp h).2⟩

theorem IsLine.oneLine {bs : Bytes} (h : IsLine bs) : OneLine bs.toStringLossy := by
  obtain ⟨hne, hunbroken⟩ := h
  constructor
  · intro hempty
    refine Utf8.decodeLossy_ne_nil hne ?_
    simpa [Bytes.toStringLossy] using hempty
  · intro c hc
    rw [Bytes.toStringLossy, String.toList_ofList] at hc
    have hbreak : c.toNat ≤ 0x7F → isLineBreak (UInt8.ofNat c.toNat) = false := fun hascii =>
      hunbroken _ (Utf8.mem_of_mem_decodeLossy hc hascii)
    constructor
    · rintro rfl
      exact absurd (hbreak (by decide)) (by decide)
    · rintro rfl
      exact absurd (hbreak (by decide)) (by decide)

theorem Excerpt.isLine_mismatch {head : String} (hhead : Unbroken (Bytes.ofString head))
    {e a : Bytes} (h : ∀ t ∈ [e, a], IsToken t) : IsLine (mismatch head e a) :=
  ⟨mismatch_ne_nil head e a, unbroken_mismatch hhead (h e List.mem_cons_self).unbroken
    (h a (List.mem_pair.mpr (.inr rfl))).unbroken⟩

theorem Excerpt.isLine_tokenDiffers (n : Nat) {e a : Bytes} (h : ∀ t ∈ [e, a], IsToken t) :
    IsLine (tokenDiffers n e a) :=
  isLine_mismatch ((oneLine_ordinal n).append (by decide)).unbroken h

theorem Difference.isLine_message {d : Difference} (h : ∀ t ∈ d.quoted, IsToken t) :
    IsLine d.message := by
  cases d with
  | extra => exact ⟨by decide, by decide⟩
  | missing => exact ⟨by decide, by decide⟩
  | token n e a => exact Excerpt.isLine_tokenDiffers n h

theorem LineDifference.isLine_message {d : LineDifference} (h : ∀ t ∈ d.quoted, IsToken t) :
    IsLine d.message := by
  have hfirst : ∀ n : Nat, OneLine ("First " ++ n.repr) := fun n =>
    OneLine.append (by decide) (oneLine_repr n).unbroken
  have hline : ∀ line, OneLine ("In line " ++ ordinal line) := fun line =>
    OneLine.append (by decide) (oneLine_ordinal line).unbroken
  cases d with
  | extra n =>
    rw [message]
    exact ((hfirst n).append (by decide)).isLine
  | missing n =>
    rw [message]
    exact ((hfirst n).append (by decide)).isLine
  | inLine line d =>
    cases d with
    | extra =>
      rw [message]
      exact ((hline line).append (by decide)).isLine
    | missing =>
      rw [message]
      exact ((hline line).append (by decide)).isLine
    | token n e a =>
      have hhead : OneLine ("In line " ++ ordinal line ++ ", " ++ ordinal n) :=
        ((hline line).append (by decide)).append (oneLine_ordinal n).unbroken
      rw [message]
      exact Excerpt.isLine_mismatch (hhead.append (by decide)).unbroken h

/-! ## Decimals -/

theorem unbroken_pointAt (places n : Nat) : Unbroken (Bytes.ofString (Decimal.pointAt places n)) := by
  unfold Decimal.pointAt
  split
  · exact (oneLine_repr n).unbroken
  · have hdigits : ∀ c ∈ List.replicate (places + 1 - n.repr.toList.length) '0' ++ n.repr.toList,
        c ≠ '\n' ∧ c ≠ '\r' := by
      intro c hc
      rcases List.mem_append.mp hc with hc | hc
      · rw [List.eq_of_mem_replicate hc]
        decide
      · exact (oneLine_repr n).no_break c hc
    rw [Bytes.ofString, String.toList_ofList, unbroken_ofChars_iff]
    intro c hc
    rcases List.mem_append.mp hc with hc | hc
    · exact hdigits c (List.mem_of_mem_take hc)
    rcases List.mem_cons.mp hc with rfl | hc
    · decide
    · exact hdigits c (List.mem_of_mem_drop hc)

theorem unbroken_fixed (places : Nat) (x : Float) :
    Unbroken (Bytes.ofString (Decimal.fixed places x)) := by
  unfold Decimal.fixed
  split
  · decide
  · rename_i negative _
    cases negative <;> decide
  · rename_i negative m q _
    rw [Bytes.ofString_append, unbroken_append_iff]
    exact ⟨by cases negative <;> decide, unbroken_pointAt places _⟩

theorem Tolerance.isLine_describe (t : Tolerance) {d : NumericDifference Float}
    (h : ∀ token ∈ d.quoted, IsToken token) : IsLine (t.describe d).1 := by
  cases d with
  | lineTotals e a =>
    have hhead : OneLine ("Judge's output has " ++ e.repr) :=
      OneLine.append (by decide) (oneLine_repr e).unbroken
    simp only [describe]
    exact ((hhead.append (by decide)).append (oneLine_repr a).unbroken).isLine
  | lineLength line e a =>
    have hhead : OneLine (ordinal line ++ " line differs, judge's output has " ++ e.repr) :=
      ((oneLine_ordinal line).append (by decide)).append (oneLine_repr e).unbroken
    simp only [describe]
    exact ((hhead.append (by decide)).append (oneLine_repr a).unbroken).isLine
  | token n e a => exact Excerpt.isLine_tokenDiffers n h
  | notANumber n e a =>
    simp only [describe]
    exact Excerpt.isLine_mismatch ((oneLine_ordinal n).append (by decide)).unbroken h
  | number n e a =>
    have hplaces := unbroken_fixed (t.precision.toNat + 2)
    simp only [describe]
    refine OneLine.isLine (((((((oneLine_ordinal n).append ?_).append (hplaces e)).append ?_).append
      (hplaces a)).append ?_).append (hplaces (t.mode.error e a)) |>.append ?_)
    all_goals decide

/-! ## Outcomes -/

/-- Message and headline each make a line. -/
structure Outcome.Presentable (o : Outcome) : Prop where
  message : IsLine o.message
  feedback : ∀ f ∈ o.feedback, OneLine f

namespace Outcome

theorem presentable_accepted {message : Bytes} (h : IsLine message) :
    (accepted message).Presentable :=
  ⟨h, nofun⟩

theorem presentable_wrongAnswer {message : Bytes} (h : IsLine message) :
    (wrongAnswer message).Presentable :=
  ⟨h, nofun⟩

theorem Presentable.withFeedback {o : Outcome} (ho : o.Presentable) {f : String} (hf : OneLine f) :
    (o.withFeedback f).Presentable :=
  ⟨ho.message, fun g hg => by obtain rfl := Option.mem_some.mp hg; exact hf⟩

/-- The text shown for such an outcome makes a line. -/
theorem Presentable.oneLine {o : Outcome} (ho : o.Presentable) :
    OneLine (Ruling.ofOutcome o).message := by
  have hdetail : OneLine o.message.toStringLossy := ho.message.oneLine
  show OneLine (Ruling.messageOf o.feedback o.message.toStringLossy)
  cases hf : o.feedback with
  | none => exact hdetail
  | some headline =>
    have hheadline := ho.feedback headline (by rw [hf]; exact rfl)
    rw [Ruling.messageOf]
    split
    · exact hheadline
    · exact (hheadline.append (by decide)).append hdetail.unbroken

end Outcome

section Checkers

variable (expected actual : Bytes)

theorem isLine_tokenCountMessage (n : Nat) : IsLine (tokenCountMessage n) :=
  ((oneLine_repr n).append (by decide)).isLine

theorem isLine_lineCountMessage (l t : Nat) : IsLine (lineCountMessage l t) := by
  have hlines : OneLine (l.repr ++ " line(s), total ") := (oneLine_repr l).append (by decide)
  exact ((hlines.append (oneLine_repr t).unbroken).append (by decide)).isLine

theorem standard_presentable : (standard expected actual).Presentable := by
  unfold standard
  split
  · exact Outcome.presentable_accepted (isLine_tokenCountMessage _)
  · rename_i d hd
    refine Outcome.presentable_wrongAnswer (Difference.isLine_message fun t ht => ?_)
    exact (Difference.mem_of_quoted hd ht).elim isToken_of_mem_tokens isToken_of_mem_tokens

theorem lineCount_presentable : (lineCount expected actual).Presentable := by
  unfold lineCount
  simp only
  split
  · exact Outcome.presentable_accepted (isLine_lineCountMessage _ _)
  · rename_i d hd
    refine Outcome.presentable_wrongAnswer (LineDifference.isLine_message fun t ht => ?_)
    have hmem := LineDifference.mem_of_quoted hd ht
    rw [flatten_lineTokens, flatten_lineTokens] at hmem
    exact hmem.elim isToken_of_mem_tokens isToken_of_mem_tokens

theorem identical_presentable (presentationErrors : Bool) :
    (identical presentationErrors expected actual).Presentable := by
  by_cases heq : expected = actual
  · rw [identical_eq_accepted heq]
    exact Outcome.presentable_accepted ((oneLine_repr _).append (by decide)).isLine
  by_cases htokens : tokens expected = tokens actual
  · rw [identical_of_layout heq htokens]
    refine ⟨isLine_tokenCountMessage _, ?_⟩
    cases presentationErrors with
    | false => nofun
    | true =>
      rintro f ⟨⟩
      decide
  · rw [identical_of_tokens_ne htokens]
    exact standard_presentable expected actual

theorem Tolerance.check_presentable (t : Tolerance) : (t.check expected actual).Presentable := by
  unfold check
  simp only
  split
  · exact Outcome.presentable_accepted (isLine_tokenCountMessage _)
  · rename_i d hd
    have hmessage : IsLine (t.describe d).1 := t.isLine_describe fun token ht => by
      have hmem := NumericDifference.mem_of_quoted hd ht
      rw [flatten_rows, flatten_rows] at hmem
      exact hmem.elim isToken_of_mem_tokens isToken_of_mem_tokens
    split
    · rename_i message h
      rw [h] at hmessage
      exact (Outcome.presentable_wrongAnswer hmessage).withFeedback (by decide)
    · rename_i message h
      rw [h] at hmessage
      exact Outcome.presentable_wrongAnswer hmessage

/-- **The message of every checker makes a line**, whatever the two outputs hold. -/
theorem Checker.check_presentable (c : Checker) : (c.check expected actual).Presentable := by
  cases c with
  | standard => exact standard_presentable expected actual
  | lineCount => exact lineCount_presentable expected actual
  | identical presentationErrors => exact identical_presentable expected actual presentationErrors
  | tolerance t => exact t.check_presentable expected actual

end Checkers

end Referee
