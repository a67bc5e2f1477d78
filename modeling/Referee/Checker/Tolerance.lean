import Referee.Checker.Exact
import Referee.Decimal.Fixed
import Referee.Decimal.Number

/-!
# Comparison within a tolerance

`firstNumericDifference` walks the non-empty lines of two outputs; judge tokens that read as
numbers are compared by a given test and all others byte for byte. `Tolerance.check` instantiates
it with doubles that lie within `10 ^ (-precision)` of each other, absolutely, relatively or
either way. A NaN lies within no distance of anything.
-/

namespace Referee

/-- Where a numeric walk stops; positions count from one. -/
inductive NumericDifference (α : Type) where
  | lineTotals (expected found : Nat)
  | lineLength (line expected found : Nat)
  | token (position : Nat) (expected found : Bytes)
  | notANumber (position : Nat) (expected found : Bytes)
  | number (position : Nat) (expected found : α)
  deriving DecidableEq

/-- The first token of two lines that fails its test, after `n` tokens in all. -/
def firstTokenFailure {α : Type} (read? : Bytes → Option α) (close : α → α → Bool) (n : Nat) :
    List Bytes → List Bytes → Option (NumericDifference α)
  | e :: es, a :: as =>
    match read? e with
    | none => if e = a then firstTokenFailure read? close (n + 1) es as else some (.token (n + 1) e a)
    | some x =>
      match read? a with
      | none => some (.notANumber (n + 1) e a)
      | some y =>
        if close x y then firstTokenFailure read? close (n + 1) es as
        else some (.number (n + 1) x y)
  | _, _ => none

/-- The first failure in two lists of as many lines, after `line` lines with `n` tokens. -/
def firstLineFailure {α : Type} (read? : Bytes → Option α) (close : α → α → Bool) (line n : Nat) :
    List (List Bytes) → List (List Bytes) → Option (NumericDifference α)
  | e :: es, a :: as =>
    if e.length = a.length then
      match firstTokenFailure read? close n e a with
      | some d => some d
      | none => firstLineFailure read? close (line + 1) (n + e.length) es as
    else some (.lineLength (line + 1) e.length a.length)
  | _, _ => none

def firstNumericDifference {α : Type} (read? : Bytes → Option α) (close : α → α → Bool)
    (expected actual : List (List Bytes)) : Option (NumericDifference α) :=
  if expected.length = actual.length then firstLineFailure read? close 0 0 expected actual
  else some (.lineTotals expected.length actual.length)

/-! ## Error modes -/

inductive ErrorMode where
  | either
  | absolute
  | relative
  deriving DecidableEq, Repr

/-- The lesser of two doubles; a NaN gives way to the other one. -/
def lesser (a b : Float) : Float :=
  if a.isNaN then b else if b.isNaN then a else if a < b then a else b

/-- The greater of two doubles; a NaN gives way to the other one. -/
def greater (a b : Float) : Float :=
  if a.isNaN then b else if b.isNaN then a else if b < a then a else b

namespace ErrorMode

/-- Whether `found` is close enough to `expected`. -/
def close (mode : ErrorMode) (epsilon expected found : Float) : Bool :=
  match mode with
  | absolute => (found - expected).abs ≤ epsilon
  | relative =>
    let a := expected * (1.0 - epsilon)
    let b := expected * (1.0 + epsilon)
    lesser a b ≤ found && found ≤ greater a b
  | either =>
    (found - expected).abs ≤ epsilon
      || (epsilon ≤ expected.abs && (1.0 - found / expected).abs ≤ epsilon)

/-- The error that a diagnostic shows. -/
def error (mode : ErrorMode) (expected found : Float) : Float :=
  let distance := (found - expected).abs
  let ratio := (distance / expected).abs
  match mode with
  | absolute => distance
  | relative => if expected.abs > 1e-9 then ratio else distance
  | either => if expected.abs > 1e-9 then lesser distance ratio else distance

end ErrorMode

/-! ## Powers of ten -/

/-- `r · a ^ n` by repeated squaring. -/
def powerOnto (r a : Float) (n : Nat) : Float :=
  let r := if n % 2 = 1 then r * a else r
  if h : n / 2 = 0 then r else powerOnto r (a * a) (n / 2)
termination_by n
decreasing_by omega

def powerOfTen (e : Int32) : Float :=
  let p := powerOnto 1.0 10.0 e.toInt.natAbs
  if e < 0 then 1.0 / p else p

/-! ## The checker -/

/-- Decimal digits of tolerance and how the error is measured. -/
structure Tolerance where
  precision : UInt32
  mode : ErrorMode
  deriving DecidableEq, Repr

namespace Tolerance

def epsilon (t : Tolerance) : Float := powerOfTen (-t.precision.toInt32)

/-- The token lists of the non-empty lines of a byte string. -/
def rows (bs : Bytes) : List (List Bytes) := (nonEmptyLines bs).map tokens

/-- The diagnostic of a difference and whether the layout is to blame. -/
def describe (t : Tolerance) : NumericDifference Float → Bytes × Bool
  | .lineTotals e a =>
    (Bytes.ofString ("Judge's output has " ++ e.repr
      ++ " non-empty line(s), participant's output has " ++ a.repr), true)
  | .lineLength line e a =>
    (Bytes.ofString (ordinal line ++ " line differs, judge's output has " ++ e.repr
      ++ " token(s), participant's output has " ++ a.repr), true)
  | .token n e a => (Excerpt.tokenDiffers n e a, false)
  | .notANumber n e a =>
    (Excerpt.mismatch (ordinal n ++ " token differs - expected float: ") e a, true)
  | .number n e a =>
    let places := Decimal.fixed (t.precision.toNat + 2)
    (Bytes.ofString (ordinal n ++ " number differs - expected: '" ++ places e ++ "', found: '"
      ++ places a ++ "', error = '" ++ places (t.mode.error e a) ++ "'"), false)

def check (t : Tolerance) (expected actual : Bytes) : Outcome :=
  let judge := rows expected
  match firstNumericDifference Decimal.readFloat? (t.mode.close t.epsilon) judge (rows actual) with
  | none => .accepted (tokenCountMessage judge.flatten.length)
  | some d =>
    match t.describe d with
    | (message, true) => (Outcome.wrongAnswer message).withFeedback presentationError
    | (message, false) => .wrongAnswer message

end Tolerance

end Referee
