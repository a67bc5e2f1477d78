import Referee.Json.Reader
import Referee.Proofs.Digits

/-!
# Lexemes in every spelling

A string may be spelled with or without escapes (`SpellsString`), a numeral with any of several marks,
signs and zeros in its exponent (`SpellsNumber`). Each spelling is scanned as what it spells
(`scan?_of_spellsString`, `scan?_of_spellsNumber`), a number if nothing behind it could belong to it.
The form in which a string or a numeral is written is one of its spellings. A text that starts with a
lexeme is that lexeme and those of the rest (`ofChars_of_scan?`).
-/

namespace Referee.Json

open Decimal (Numeral)

namespace Lexeme

/-! ## Strings -/

/-- A character that stands for itself, or an escape. -/
inductive SpellsPiece : List Char → Piece → Prop where
  | plain {c : Char} (hcontrol : 32 ≤ c.toNat) (hquote : c ≠ '"') (hslash : c ≠ '\\') :
      SpellsPiece [c] (.char c)
  | letter {c d : Char} (h : unescape? c = some d) : SpellsPiece ['\\', c] (.char d)
  | unit {a b c d : Char} {n : Nat} (h : unit? a b c d = some n) :
      SpellsPiece ['\\', 'u', a, b, c, d] (.ofUnit n)

/-- What stands between the quotes of a string. -/
inductive SpellsPieces : List Char → List Piece → Prop where
  | nil : SpellsPieces [] []
  | cons {cs ds : List Char} {p : Piece} {ps : List Piece} (hp : SpellsPiece cs p)
      (h : SpellsPieces ds ps) : SpellsPieces (cs ++ ds) (p :: ps)

inductive SpellsString : List Char → Option String → Prop where
  | quoted {cs : List Char} {ps : List Piece} (h : SpellsPieces cs ps) :
      SpellsString ('"' :: (cs ++ ['"'])) ((joinPieces ps).map String.ofList)

theorem SpellsPiece.scanPieces {cs : List Char} {p : Piece} (h : SpellsPiece cs p)
    (pieces : List Piece) (rest : List Char) :
    scanPieces pieces (cs ++ rest) = scanPieces (p :: pieces) rest := by
  cases h with
  | @plain c hcontrol hquote hslash =>
    have hfirst : ¬ (c.toNat < 32 ∨ c = '\\') := not_or.mpr ⟨Nat.not_lt.mpr hcontrol, hslash⟩
    rw [List.singleton_append, Lexeme.scanPieces]
    · exact if_neg hfirst
    all_goals grind
  | @letter c d h =>
    have hunit : c ≠ 'u' := by
      rintro rfl
      cases h
    show Lexeme.scanPieces pieces ('\\' :: c :: rest) = _
    rw [Lexeme.scanPieces, h]
    rintro _ _ _ _ _ hc
    exact absurd hc hunit
  | unit h => simp only [List.cons_append, List.nil_append, Lexeme.scanPieces, h]

theorem SpellsPieces.scanPieces {cs : List Char} {ps : List Piece} (h : SpellsPieces cs ps)
    (pieces : List Piece) (rest : List Char) :
    scanPieces pieces (cs ++ '"' :: rest) = some (pieces.reverse ++ ps, rest) := by
  induction h generalizing pieces with
  | nil => simp [Lexeme.scanPieces]
  | cons hp _ ih =>
    rw [List.append_assoc, hp.scanPieces, ih]
    simp

theorem scan?_of_spellsString {cs : List Char} {s : Option String} (h : SpellsString cs s)
    (rest : List Char) : scan? (cs ++ rest) = some (.string s, rest) := by
  obtain ⟨hpieces⟩ := h
  rw [List.cons_append, List.append_assoc, List.singleton_append, scan?, hpieces.scanPieces]
  rfl

theorem hexValue?_hexDigit {n : Nat} (h : n < 16) : hexValue? (hexDigit n) = some n := by
  have hall : ∀ n : Fin 16, hexValue? (hexDigit n.val) = some n.val := by decide
  exact hall ⟨n, h⟩

/-- A control character in its numeric escape. -/
theorem unit?_control {n : Nat} (h : n < 32) :
    unit? '0' '0' (hexDigit (n / 16)) (hexDigit (n % 16)) = some n := by
  have hzero : hexValue? '0' = some 0 := rfl
  have hvalue : ((0 * 16 + 0) * 16 + n / 16) * 16 + n % 16 = n := by omega
  rw [unit?, hzero, hexValue?_hexDigit (by omega), hexValue?_hexDigit (by omega)]
  exact congrArg some hvalue

theorem spellsPiece_escape (c : Char) : SpellsPiece (escape c) (.char c) := by
  unfold escape
  split
  case h_8 _ hquote hslash _ _ _ _ _ =>
    split
    · rename_i hcontrol
      have hunit : Piece.ofUnit c.toNat = .char c := by
        rw [Piece.ofUnit, if_neg (by omega), Char.ofNat_toNat]
      rw [← hunit]
      exact .unit (unit?_control hcontrol)
    · rename_i hplain
      exact .plain (Nat.le_of_not_lt hplain) hquote hslash
  all_goals exact .letter rfl

theorem spellsPieces_escape (s : List Char) : SpellsPieces (s.flatMap escape) (s.map .char) := by
  induction s with
  | nil => exact .nil
  | cons c s ih => exact .cons (spellsPiece_escape c) ih

theorem joinPieces_text (s : List Char) : joinPieces (s.map .char) = some s := by
  induction s with
  | nil => rfl
  | cons c s ih => rw [List.map_cons, joinPieces, ih]; rfl

/-- A string is written in one of its spellings. -/
theorem spellsString_quote (s : Option String) : SpellsString (quote s) s := by
  cases s with
  | none =>
    have hhalf : SpellsPieces ['\\', 'u', 'd', '8', '0', '0'] [.ofUnit 0xD800] :=
      .cons (.unit rfl) .nil
    exact .quoted hhalf
  | some s =>
    have hstring := SpellsString.quoted (spellsPieces_escape s.toList)
    rwa [joinPieces_text, Option.map_some, String.ofList_toList] at hstring

/-! ## Numbers -/

/-- The text does not go on with anything that could belong to a number. -/
def EndsNumber (rest : List Char) : Prop :=
  ∀ c ∈ rest.head?, isDigit c = false ∧ c ≠ '.' ∧ c ≠ 'e' ∧ c ≠ 'E'

/-- A numeral as JSON writes it: digits without a needless zero in front. -/
structure Written (n : Numeral) : Prop where
  whole_ne_nil : n.whole ≠ []
  whole_digits : ∀ c ∈ n.whole, isDigit c = true
  no_leading_zero : n.whole.head? = some '0' → n.whole = ['0']
  fraction_digits : ∀ c ∈ n.fraction, isDigit c = true

/-- A point and digits, if there are any. -/
def fractionPart (n : Numeral) : List Char := if n.fraction.isEmpty then [] else '.' :: n.fraction

def exponentPart (n : Numeral) : List Char :=
  match n.exponent with
  | none => []
  | some e => Numeral.exponentChars e

/-- Digits, at least one. -/
def IsDigits (ds : List Char) : Prop := ds ≠ [] ∧ ∀ c ∈ ds, isDigit c = true

/-- A mark, perhaps a sign, and digits; or nothing. -/
inductive SpellsExponent : List Char → Option Int → Prop where
  | none : SpellsExponent [] none
  | unsigned {c : Char} {ds : List Char} (hc : c = 'e' ∨ c = 'E') (hds : IsDigits ds) :
      SpellsExponent (c :: ds) (some (Numeral.ofDigits ds))
  | plus {c : Char} {ds : List Char} (hc : c = 'e' ∨ c = 'E') (hds : IsDigits ds) :
      SpellsExponent (c :: '+' :: ds) (some (Numeral.ofDigits ds))
  | minus {c : Char} {ds : List Char} (hc : c = 'e' ∨ c = 'E') (hds : IsDigits ds) :
      SpellsExponent (c :: '-' :: ds) (some (-(Numeral.ofDigits ds : Int)))

inductive SpellsNumber : List Char → Numeral → Prop where
  | parts {n : Numeral} {es : List Char} (h : Written n) (he : SpellsExponent es n.exponent) :
      SpellsNumber ((if n.negative then ['-'] else []) ++ (n.whole ++ (fractionPart n ++ es))) n

section Numbers

variable {n : Numeral} {ds es rest : List Char} {e : Option Int}

theorem EndsNumber.noDigit (h : EndsNumber rest) : NoDigit rest := fun c hc => (h c hc).1

theorem scanDigits_append (hds : IsDigits ds) (hrest : NoDigit rest) :
    scanDigits (ds ++ rest) = some (ds, rest) := by
  rw [scanDigits, takeWhile_isDigit_append hds.2 hrest, dropWhile_isDigit_append hds.2 hrest,
    if_neg (by simpa using hds.1)]

theorem scanWhole_append (h : Written n) (hrest : NoDigit rest) :
    scanWhole (n.whole ++ rest) = some (n.whole, rest) := by
  obtain ⟨c, cs, hwhole⟩ := List.exists_cons_of_ne_nil h.whole_ne_nil
  by_cases hzero : c = '0'
  · have hsingle : n.whole = ['0'] := h.no_leading_zero (by rw [hwhole, hzero]; rfl)
    rw [hsingle]
    cases rest with
    | nil => rfl
    | cons d rest =>
      have hd : isDigit d = false := hrest d rfl
      simp [scanWhole, hd]
  · have hdigits := scanDigits_append ⟨h.whole_ne_nil, h.whole_digits⟩ hrest
    rw [hwhole] at hdigits ⊢
    rw [List.cons_append, scanWhole]
    · exact hdigits
    · intro cs' hcs
      exact hzero (List.cons.inj hcs).1

theorem scanFraction_append (h : Written n) (hrest : NoDigit rest) (hpoint : rest.head? ≠ some '.') :
    scanFraction (fractionPart n ++ rest) = some (n.fraction, rest) := by
  unfold fractionPart
  split
  · rename_i hempty
    rw [List.isEmpty_iff.mp hempty, List.nil_append, scanFraction]
    rintro cs rfl
    exact hpoint rfl
  · rename_i hne
    rw [List.cons_append, scanFraction]
    exact scanDigits_append ⟨by simpa using hne, h.fraction_digits⟩ hrest

theorem scanPower_append (negative : Bool) (hds : IsDigits ds) (hrest : NoDigit rest) :
    scanPower negative (ds ++ rest) =
      some (some (if negative then -(Numeral.ofDigits ds : Int) else Numeral.ofDigits ds), rest) := by
  rw [scanPower, scanDigits_append hds hrest]
  rfl

/-- Digits do not start with a sign. -/
theorem scanSignedPower_append (hds : IsDigits ds) (hrest : NoDigit rest) :
    scanSignedPower (ds ++ rest) = some (some (Numeral.ofDigits ds : Int), rest) := by
  have hpower := scanPower_append false hds hrest
  obtain ⟨d, ds', rfl⟩ := List.exists_cons_of_ne_nil hds.1
  have hd : isDigit d = true := hds.2 d List.mem_cons_self
  rw [List.cons_append, scanSignedPower]
  · exact hpower
  all_goals
    rintro _ hsign
    cases hsign
    cases hd

theorem scanExponent_mark {c : Char} (hc : c = 'e' ∨ c = 'E') (cs : List Char) :
    scanExponent (c :: cs) = scanSignedPower cs := by
  rcases hc with rfl | rfl <;> rfl

theorem scanExponent_append (h : SpellsExponent es e) (hrest : EndsNumber rest) :
    scanExponent (es ++ rest) = some (e, rest) := by
  cases h with
  | none =>
    rw [List.nil_append, scanExponent]
    · rintro cs rfl
      exact (hrest 'e' rfl).2.2.1 rfl
    · rintro cs rfl
      exact (hrest 'E' rfl).2.2.2 rfl
  | unsigned hc hds =>
    rw [List.cons_append, scanExponent_mark hc, scanSignedPower_append hds hrest.noDigit]
  | plus hc hds =>
    rw [List.cons_append, scanExponent_mark hc, List.cons_append, scanSignedPower,
      scanPower_append false hds hrest.noDigit, if_neg Bool.false_ne_true]
  | minus hc hds =>
    rw [List.cons_append, scanExponent_mark hc, List.cons_append, scanSignedPower,
      scanPower_append true hds hrest.noDigit, if_pos rfl]

theorem head_exponent {c : Char} (h : SpellsExponent es e) (hrest : EndsNumber rest)
    (hc : c ∈ (es ++ rest).head?) : isDigit c = false ∧ c ≠ '.' := by
  have hmark : ∀ d : Char, d = 'e' ∨ d = 'E' → d = c → isDigit c = false ∧ c ≠ '.' := by
    rintro d (rfl | rfl) rfl <;> decide
  cases h with
  | none => exact ⟨(hrest c hc).1, (hrest c hc).2.1⟩
  | unsigned he => exact hmark _ he (Option.mem_some.mp hc)
  | plus he => exact hmark _ he (Option.mem_some.mp hc)
  | minus he => exact hmark _ he (Option.mem_some.mp hc)

theorem head_fraction {c : Char} (h : SpellsExponent es e) (hrest : EndsNumber rest)
    (hc : c ∈ (fractionPart n ++ (es ++ rest)).head?) : isDigit c = false := by
  unfold fractionPart at hc
  split at hc
  · exact (head_exponent h hrest hc).1
  · obtain rfl : '.' = c := Option.mem_some.mp hc
    decide

theorem scanNumber_append (h : Written n) (he : SpellsExponent es n.exponent)
    (hrest : EndsNumber rest) :
    scanNumber n.negative (n.whole ++ (fractionPart n ++ (es ++ rest))) = some (.number n, rest) := by
  have hexponent : NoDigit (es ++ rest) := fun c hc => (head_exponent he hrest hc).1
  have hpoint : (es ++ rest).head? ≠ some '.' := fun hc => (head_exponent he hrest hc).2 rfl
  have hfirst : NoDigit (fractionPart n ++ (es ++ rest)) := fun c hc => head_fraction he hrest hc
  have hwhole := scanWhole_append h hfirst
  have hfraction := scanFraction_append h hexponent hpoint
  simp only [scanNumber, hwhole, hfraction, scanExponent_append he hrest, Option.bind_eq_bind,
    Option.bind_some, Option.pure_def]

theorem scan?_digit {c : Char} (hc : isDigit c = true) (cs : List Char) :
    scan? (c :: cs) = scanNumber false (c :: cs) := by
  rw [scan?]
  all_goals
    rintro _ h
    cases h
    cases hc

theorem scan?_of_spellsNumber {cs : List Char} (h : SpellsNumber cs n) (hrest : EndsNumber rest) :
    scan? (cs ++ rest) = some (.number n, rest) := by
  obtain ⟨hwritten, he⟩ := h
  have hnumber := scanNumber_append hwritten he hrest
  simp only [List.append_assoc]
  cases hneg : n.negative with
  | true =>
    rw [hneg] at hnumber
    exact hnumber
  | false =>
    rw [hneg] at hnumber
    obtain ⟨c, cs, hwhole⟩ := List.exists_cons_of_ne_nil hwritten.whole_ne_nil
    have hdigit : isDigit c = true :=
      hwritten.whole_digits c (by rw [hwhole]; exact List.mem_cons_self)
    rw [if_neg Bool.false_ne_true, List.nil_append]
    rw [hwhole, List.cons_append] at hnumber ⊢
    rw [scan?_digit hdigit, hnumber]

theorem isDigits_repr (k : Nat) : IsDigits k.repr.toList :=
  ⟨Decimal.repr_toList_ne_nil k, fun _ => Decimal.isDigit_of_mem_repr_toList⟩

theorem spellsExponent_exponentPart (n : Numeral) : SpellsExponent (exponentPart n) n.exponent := by
  unfold exponentPart
  cases n.exponent with
  | none => exact .none
  | some e =>
    by_cases hneg : e < 0
    · have hvalue : -(e.natAbs : Int) = e := by omega
      have hspells := SpellsExponent.minus (.inl rfl) (isDigits_repr e.natAbs)
      rw [Numeral.ofDigits_repr_toList, hvalue] at hspells
      simpa only [Numeral.exponentChars, if_pos hneg] using hspells
    · have hvalue : (e.natAbs : Int) = e := by omega
      have hspells := SpellsExponent.plus (.inl rfl) (isDigits_repr e.natAbs)
      rw [Numeral.ofDigits_repr_toList, hvalue] at hspells
      simpa only [Numeral.exponentChars, if_neg hneg] using hspells

/-- A numeral is written in one of its spellings. -/
theorem spellsNumber_chars (h : Written n) : SpellsNumber n.chars n := by
  have hspells := SpellsNumber.parts h (spellsExponent_exponentPart n)
  simp only [← List.append_assoc] at hspells
  exact hspells

end Numbers

/-! ## One lexeme off the front -/

theorem isBlank_iff {c : Char} : isBlank c = true ↔ c = ' ' ∨ c = '\t' ∨ c = '\n' ∨ c = '\r' := by
  simp only [isBlank, Bool.or_eq_true, beq_iff_eq, or_assoc]

/-- No lexeme starts with a blank. -/
theorem not_isBlank_of_scan? {c : Char} {cs rest : List Char} {l : Lexeme}
    (h : scan? (c :: cs) = some (l, rest)) : isBlank c = false := by
  rw [← Bool.not_eq_true]
  intro hblank
  have hnone : scan? (c :: cs) = none := by
    rcases isBlank_iff.mp hblank with rfl | rfl | rfl | rfl <;> rfl
  rw [hnone] at h
  cases h

theorem ofChars_blank {c : Char} (hc : isBlank c = true) (cs : List Char) :
    ofChars (c :: cs) = ofChars cs := by
  have hdrop : (c :: cs).dropWhile isBlank = cs.dropWhile isBlank := List.dropWhile_cons_of_pos hc
  rw [ofChars, ofChars, hdrop]

theorem ofChars_of_scan? {cs rest : List Char} {l : Lexeme} (h : scan? cs = some (l, rest)) :
    ofChars cs = (ofChars rest).map (l :: ·) := by
  cases cs with
  | nil => cases h
  | cons c cs =>
    have hdrop : (c :: cs).dropWhile isBlank = c :: cs :=
      List.dropWhile_cons_of_neg (by rw [not_isBlank_of_scan? h]; exact Bool.false_ne_true)
    conv => lhs; rw [ofChars]
    rw [hdrop, if_neg (by simp)]
    split
    · rename_i h'
      rw [h] at h'
      cases h'
    · rename_i l' rest' h'
      rw [h] at h'
      cases h'
      rfl

end Lexeme

end Referee.Json
