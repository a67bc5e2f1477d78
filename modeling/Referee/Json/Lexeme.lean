import Referee.Json.Value

/-!
# JSON lexemes

A text is cut into brackets, commas, colons, words, numbers and strings. Each scanner takes what
it reads off the front of the characters and returns the rest, which is shorter.
-/

namespace Referee.Json

open Decimal (Numeral)

inductive Lexeme where
  | openArray
  | closeArray
  | openObject
  | closeObject
  | comma
  | colon
  | null
  | bool (b : Bool)
  | number (n : Numeral)
  | string (s : Option String)
  deriving DecidableEq, Repr

namespace Lexeme

/-- Space, tab, line feed and carriage return. -/
def isBlank (c : Char) : Bool := c == ' ' || c == '\t' || c == '\n' || c == '\r'

/-! ## Strings -/

/-- A character, or an escape with the number of half a surrogate pair. -/
inductive Piece where
  | char (c : Char)
  | half (unit : Nat)
  deriving DecidableEq, Repr

def Piece.ofUnit (n : Nat) : Piece :=
  if 0xD800 ≤ n ∧ n ≤ 0xDFFF then .half n else .char (Char.ofNat n)

/-- The characters of the pieces. A high half must be followed by a low one. -/
def joinPieces : List Piece → Option (List Char)
  | [] => some []
  | .char c :: ps => (joinPieces ps).map (c :: ·)
  | .half hi :: .half lo :: ps =>
    if hi < 0xDC00 ∧ 0xDC00 ≤ lo then
      (joinPieces ps).map (Char.ofNat (0x10000 + (hi - 0xD800) * 0x400 + (lo - 0xDC00)) :: ·)
    else none
  | .half _ :: _ => none

def hexValue? (c : Char) : Option Nat :=
  if '0' ≤ c && c ≤ '9' then some (c.toNat - 48)
  else if 'a' ≤ c && c ≤ 'f' then some (c.toNat - 87)
  else if 'A' ≤ c && c ≤ 'F' then some (c.toNat - 55)
  else none

/-- The number that four hexadecimal digits denote. -/
def unit? (a b c d : Char) : Option Nat := do
  let a ← hexValue? a
  let b ← hexValue? b
  let c ← hexValue? c
  let d ← hexValue? d
  return ((a * 16 + b) * 16 + c) * 16 + d

/-- The character that a one-letter escape stands for. -/
def unescape? : Char → Option Char
  | '"' => some '"'
  | '\\' => some '\\'
  | '/' => some '/'
  | 'b' => some '\x08'
  | 'f' => some '\x0c'
  | 'n' => some '\n'
  | 'r' => some '\r'
  | 't' => some '\t'
  | _ => none

/-- Reads up to the closing quote onto the pieces so far, which are held in reverse. -/
def scanPieces (pieces : List Piece) : List Char → Option (List Piece × List Char)
  | [] => none
  | '"' :: cs => some (pieces.reverse, cs)
  | '\\' :: 'u' :: a :: b :: c :: d :: cs =>
    match unit? a b c d with
    | some n => scanPieces (.ofUnit n :: pieces) cs
    | none => none
  | '\\' :: c :: cs =>
    match unescape? c with
    | some c => scanPieces (.char c :: pieces) cs
    | none => none
  | c :: cs => if c.toNat < 32 ∨ c = '\\' then none else scanPieces (.char c :: pieces) cs

theorem length_scanPieces {pieces ps : List Piece} {cs rest : List Char}
    (h : scanPieces pieces cs = some (ps, rest)) : rest.length < cs.length := by
  fun_induction scanPieces pieces cs with
  | case1 | case4 | case6 | case7 =>
    -- nothing is read: the text ends, or an escape or a character is not allowed
    cases h
  | case2 pieces cs =>
    -- the closing quote is taken
    cases h
    exact Nat.lt_succ_self _
  | case3 pieces a b c d cs n hunit ih =>
    -- an escape of six characters is taken
    have hrest : rest.length < cs.length := ih h
    simp only [List.length_cons]
    omega
  | case5 pieces c cs hnotUnit char hescape ih =>
    -- an escape of two characters is taken
    have hrest : rest.length < cs.length := ih h
    simp only [List.length_cons]
    omega
  | case8 pieces c cs hquote hnotUnit hnotEscape hplain ih =>
    -- one character is taken
    exact Nat.lt_succ_of_lt (ih h)

/-! ## Numbers -/

def isDigit (c : Char) : Bool := '0' ≤ c && c ≤ '9'

/-- Takes the digits off the front; there must be one. -/
def scanDigits (cs : List Char) : Option (List Char × List Char) :=
  if (cs.takeWhile isDigit).isEmpty then none
  else some (cs.takeWhile isDigit, cs.dropWhile isDigit)

/-- A whole part is a zero or does not start with one. -/
def scanWhole : List Char → Option (List Char × List Char)
  | '0' :: cs =>
    match cs with
    | c :: _ => if isDigit c then none else some (['0'], cs)
    | [] => some (['0'], [])
  | cs => scanDigits cs

def scanFraction : List Char → Option (List Char × List Char)
  | '.' :: cs => scanDigits cs
  | cs => some ([], cs)

/-- The digits of an exponent, after its sign. -/
def scanPower (negative : Bool) (cs : List Char) : Option (Option Int × List Char) :=
  (scanDigits cs).map fun (ds, rest) =>
    let n : Int := Numeral.ofDigits ds
    (some (if negative then -n else n), rest)

/-- The sign and the digits of an exponent, after its mark. -/
def scanSignedPower : List Char → Option (Option Int × List Char)
  | '+' :: cs => scanPower false cs
  | '-' :: cs => scanPower true cs
  | cs => scanPower false cs

def scanExponent : List Char → Option (Option Int × List Char)
  | 'e' :: cs => scanSignedPower cs
  | 'E' :: cs => scanSignedPower cs
  | cs => some (none, cs)

def scanNumber (negative : Bool) (cs : List Char) : Option (Lexeme × List Char) := do
  let (whole, cs) ← scanWhole cs
  let (fraction, cs) ← scanFraction cs
  let (exponent, cs) ← scanExponent cs
  return (.number ⟨negative, whole, fraction, exponent⟩, cs)

theorem length_scanDigits {cs ds rest : List Char} (h : scanDigits cs = some (ds, rest)) :
    rest.length < cs.length := by
  unfold scanDigits at h
  split at h
  · simp at h
  · rename_i hd
    simp only [Option.some.injEq, Prod.mk.injEq] at h
    obtain ⟨rfl, rfl⟩ := h
    have := congrArg List.length (List.takeWhile_append_dropWhile (p := isDigit) (l := cs))
    rw [List.length_append] at this
    have : (cs.takeWhile isDigit).length ≠ 0 := by simpa using hd
    omega

theorem length_scanWhole {cs ds rest : List Char} (h : scanWhole cs = some (ds, rest)) :
    rest.length < cs.length := by
  unfold scanWhole at h
  split at h
  · split at h
    · split at h
      · simp at h
      · simp only [Option.some.injEq, Prod.mk.injEq] at h
        simp [← h.2]
    · simp only [Option.some.injEq, Prod.mk.injEq] at h
      simp [← h.2]
  · exact length_scanDigits h

theorem length_scanFraction {cs ds rest : List Char} (h : scanFraction cs = some (ds, rest)) :
    rest.length ≤ cs.length := by
  unfold scanFraction at h
  split at h
  · exact Nat.le_succ_of_le (Nat.le_of_lt (length_scanDigits h))
  · -- without a point nothing is taken
    cases h
    exact Nat.le_refl _

theorem length_scanPower {b : Bool} {cs rest : List Char} {e : Option Int}
    (h : scanPower b cs = some (e, rest)) : rest.length < cs.length := by
  simp only [scanPower, Option.map_eq_some_iff, Prod.mk.injEq, Prod.exists] at h
  obtain ⟨ds, r, hd, -, rfl⟩ := h
  exact length_scanDigits hd

theorem length_scanSignedPower {cs rest : List Char} {e : Option Int}
    (h : scanSignedPower cs = some (e, rest)) : rest.length < cs.length := by
  unfold scanSignedPower at h
  split at h
  · exact Nat.lt_succ_of_lt (length_scanPower h)
  · exact Nat.lt_succ_of_lt (length_scanPower h)
  · exact length_scanPower h

theorem length_scanExponent {cs rest : List Char} {e : Option Int}
    (h : scanExponent cs = some (e, rest)) : rest.length ≤ cs.length := by
  unfold scanExponent at h
  split at h
  · exact Nat.le_succ_of_le (Nat.le_of_lt (length_scanSignedPower h))
  · exact Nat.le_succ_of_le (Nat.le_of_lt (length_scanSignedPower h))
  · -- without a mark nothing is taken
    cases h
    exact Nat.le_refl _

theorem length_scanNumber {b : Bool} {cs rest : List Char} {l : Lexeme}
    (h : scanNumber b cs = some (l, rest)) : rest.length < cs.length := by
  simp only [scanNumber, Option.bind_eq_bind, Option.bind_eq_some_iff, Prod.exists,
    Option.pure_def, Option.some.injEq, Prod.mk.injEq] at h
  obtain ⟨w, r1, h1, f, r2, h2, e, r3, h3, -, rfl⟩ := h
  have := length_scanWhole h1
  have := length_scanFraction h2
  have := length_scanExponent h3
  omega

/-! ## Lexemes -/

/-- The lexeme at the front of a text that does not start with a blank. -/
def scan? : List Char → Option (Lexeme × List Char)
  | '[' :: cs => some (.openArray, cs)
  | ']' :: cs => some (.closeArray, cs)
  | '\x7b' :: cs => some (.openObject, cs)
  | '\x7d' :: cs => some (.closeObject, cs)
  | ',' :: cs => some (.comma, cs)
  | ':' :: cs => some (.colon, cs)
  | 'n' :: 'u' :: 'l' :: 'l' :: cs => some (.null, cs)
  | 't' :: 'r' :: 'u' :: 'e' :: cs => some (.bool true, cs)
  | 'f' :: 'a' :: 'l' :: 's' :: 'e' :: cs => some (.bool false, cs)
  | '"' :: cs =>
    (scanPieces [] cs).map fun (ps, rest) => (.string ((joinPieces ps).map String.ofList), rest)
  | '-' :: cs => scanNumber true cs
  | cs => scanNumber false cs

theorem length_scan? {cs rest : List Char} {l : Lexeme} (h : scan? cs = some (l, rest)) :
    rest.length < cs.length := by
  unfold scan? at h
  split at h
  case h_10 =>
    simp only [Option.map_eq_some_iff, Prod.mk.injEq, Prod.exists] at h
    obtain ⟨ps, r, hp, -, rfl⟩ := h
    have := length_scanPieces hp
    simp only [List.length_cons]
    omega
  case h_11 =>
    have := length_scanNumber h
    simp only [List.length_cons]
    omega
  case h_12 => exact length_scanNumber h
  all_goals
    simp only [Option.some.injEq, Prod.mk.injEq] at h
    obtain ⟨-, rfl⟩ := h
    simp only [List.length_cons]
    omega

/-- The lexemes of a text, blanks left out. -/
def ofChars (cs : List Char) : Option (List Lexeme) :=
  if (cs.dropWhile isBlank).isEmpty then some []
  else
    match _h : scan? (cs.dropWhile isBlank) with
    | none => none
    | some (l, rest) => (ofChars rest).map (l :: ·)
termination_by cs.length
decreasing_by
  have := length_scan? _h
  have := (List.dropWhile_sublist isBlank (l := cs)).length_le
  omega

end Lexeme

end Referee.Json
