import Referee.Json.Value

/-!
# Doubles in JSON

The leading digits that fit an unsigned 64-bit integer are read and the others only counted; the
integer is then scaled by a power of ten in double arithmetic. A number beyond every double is
refused.
-/

namespace Referee.Json

open Decimal (Numeral)

namespace Double

/-- The digits read so far: their value, and how many were left out. -/
structure Significand where
  value : Nat
  skipped : Nat
  deriving DecidableEq, Repr

/-- Reads digits as long as the value fits 64 bits. -/
def read (value : Nat) : List Char → Significand
  | [] => ⟨value, 0⟩
  | c :: cs =>
    if 10 * value + Numeral.digitValue c < UInt64.size then
      read (10 * value + Numeral.digitValue c) cs
    else ⟨value, cs.length + 1⟩

/-- The significand of a numeral and the power of ten of its last digit. -/
def significand (n : Numeral) : Nat × Int :=
  let whole := read 0 n.whole
  let all := read whole.value n.fraction
  (all.value, (whole.skipped : Int) - ((n.fraction.length - all.skipped : Nat) : Int))

def largestPower : Nat := 308

/-- The double nearest to a power of ten. -/
def power (n : Nat) : Float := Float.ofScientific 1 false n

/-- `x / 10 ^ n`, in steps that a double can hold. -/
def shiftDown (x : Float) (n : Nat) : Float :=
  if n ≤ largestPower then x / power n
  else if x == 0.0 then x
  else shiftDown (x / power largestPower) (n - largestPower)
termination_by n
decreasing_by simp only [largestPower] at *; omega

/-- `m · 10 ^ e`, unless it is too large. -/
def scale? (m : Nat) (e : Int) : Option Float :=
  let x := Float.ofNat m
  if e < 0 then some (shiftDown x e.natAbs)
  else if e.toNat ≤ largestPower then
    let y := x * power e.toNat
    if y.isInf then none else some y
  else if m = 0 then some x
  else none

/-- The largest exponent that is added to the power of ten; a larger one decides by itself. -/
def largestExponent : Nat := 2147483647

def magnitude? (n : Numeral) : Option Float :=
  let (m, e) := significand n
  match n.exponent with
  | none => scale? m e
  | some x =>
    if x.natAbs ≤ largestExponent then scale? m (e + x)
    else if m ≠ 0 ∧ 0 < x then none
    else some 0.0

end Double

/-- The double that a numeral denotes. -/
def double? (n : Numeral) : Option Float :=
  (Double.magnitude? n).map fun x => if n.negative then -x else x

end Referee.Json
