import Referee.Text.Utf8

/-!
# Numbers in tokens

`readFloat?` reads a decimal or one of the words `inf`, `infinity` and `nan`, in any case; the
value is the nearest double. `readInteger` reads a signed 64-bit integer from left to right and
stops at the first problem, so a number that has already left the range is out of range whatever
characters follow; a token that is not text is no number at all.
-/

namespace Referee.Decimal

def isDigit (b : UInt8) : Bool := 48 ≤ b && b ≤ 57

def digitValue (b : UInt8) : Nat := b.toNat - 48

/-- The number that decimal digits denote. -/
def ofDigits (bs : Bytes) : Nat := bs.foldl (fun n b => 10 * n + digitValue b) 0

/-- A sign and what follows it. -/
def splitSign : Bytes → Bool × Bytes
  | 43 :: bs => (false, bs)
  | 45 :: bs => (true, bs)
  | bs => (false, bs)

/-! ## Doubles -/

def infinity : Float := 1.0 / 0.0

def notANumber : Float := 0.0 / 0.0

/-- The double nearest to `digits · 10 ^ exponent`. Values beyond every double and values below
half of the least one need no arithmetic. -/
def nearest (digits : Nat) (exponent : Int) : Float :=
  let magnitude := exponent + digits.repr.length
  if digits = 0 ∨ magnitude < -330 then 0.0
  else if 310 < magnitude then infinity
  else Float.ofScientific digits (decide (exponent < 0)) exponent.natAbs

/-- A power of ten as written; one that has five digits stops growing. -/
def exponentOfDigits (bs : Bytes) : Nat :=
  bs.foldl (fun n b => if n < 65536 then 10 * n + digitValue b else n) 0

/-- The exponent part of a decimal: nothing, or `e` and an integer. -/
def readExponent? : Bytes → Option Int
  | [] => some 0
  | b :: bs =>
    let (negative, digits) := splitSign bs
    if (b == 101 || b == 69) && !digits.isEmpty && digits.all isDigit then
      let n : Int := exponentOfDigits digits
      some (if negative then -n else n)
    else none

/-- An unsigned decimal with at least one digit before or after an optional point. -/
def readDecimal? (bs : Bytes) : Option Float :=
  let whole := bs.takeWhile isDigit
  let afterWhole := bs.dropWhile isDigit
  let (fraction, rest) := match afterWhole with
    | 46 :: cs => (cs.takeWhile isDigit, cs.dropWhile isDigit)
    | cs => ([], cs)
  if whole.isEmpty && fraction.isEmpty then none
  else (readExponent? rest).map fun e => nearest (ofDigits (whole ++ fraction)) (e - fraction.length)

def lowerCase (b : UInt8) : UInt8 := if 65 ≤ b && b ≤ 90 then b + 32 else b

/-- An unsigned number: a decimal, an infinity or a NaN. -/
def readMagnitude? (bs : Bytes) : Option Float :=
  match readDecimal? bs with
  | some x => some x
  | none =>
    let word := bs.map lowerCase
    if word = Bytes.ofString "inf" ∨ word = Bytes.ofString "infinity" then some infinity
    else if word = Bytes.ofString "nan" then some notANumber
    else none

def readFloat? (bs : Bytes) : Option Float :=
  let (negative, magnitude) := splitSign bs
  (readMagnitude? magnitude).map fun x => if negative then -x else x

/-! ## Integers -/

inductive IntegerToken where
  | value (n : Int64)
  | outOfRange
  | malformed
  deriving DecidableEq

/-- Reads digits onto `n`, which carries the sign. -/
def readDigits (negative : Bool) (n : Int) : Bytes → IntegerToken
  | [] => .value (Int64.ofInt n)
  | b :: bs =>
    if isDigit b then
      let n := if negative then 10 * n - digitValue b else 10 * n + digitValue b
      if n < Int64.minValue.toInt ∨ Int64.maxValue.toInt < n then .outOfRange
      else readDigits negative n bs
    else .malformed

def readInteger (bs : Bytes) : IntegerToken :=
  if (Utf8.decode? bs).isNone then .malformed
  else match splitSign bs with
    | (_, []) => .malformed
    | (negative, digits) => readDigits negative 0 digits

end Referee.Decimal
