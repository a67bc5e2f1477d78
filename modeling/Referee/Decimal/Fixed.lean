import Referee.Decimal.Binary

/-!
# Decimals with a fixed number of places

The exact binary value is rounded to the nearest decimal of that many places; a tie goes to the
even neighbour.
-/

namespace Referee.Decimal

/-- The integer nearest to `num / den`, the even one of two. -/
def roundHalfEven (num den : Nat) : Nat :=
  let quotient := num / den
  let twice := 2 * (num % den)
  if twice < den ∨ (twice = den ∧ quotient % 2 = 0) then quotient else quotient + 1

/-- The digits of `n` with the last `places` of them after a point. -/
def pointAt (places : Nat) (n : Nat) : String :=
  if places = 0 then n.repr
  else
    let digits := n.repr.toList
    let digits := List.replicate (places + 1 - digits.length) '0' ++ digits
    String.ofList (digits.take (digits.length - places) ++ '.' :: digits.drop (digits.length - places))

/-- `m · 2 ^ q` in units of `10 ^ (-places)`. -/
def scaled (places mantissa : Nat) (exponent : Int) : Nat :=
  if 0 ≤ exponent then mantissa * Nat.pow 2 exponent.toNat * Nat.pow 10 places
  else roundHalfEven (mantissa * Nat.pow 10 places) (Nat.pow 2 (-exponent).toNat)

/-- A number with `places` digits after the point. -/
def fixed (places : Nat) (x : Float) : String :=
  match Binary.ofFloat x with
  | .nan => nanText
  | .infinite negative => infinityText negative
  | .finite negative m q => signText negative ++ pointAt places (scaled places m q)

end Referee.Decimal
