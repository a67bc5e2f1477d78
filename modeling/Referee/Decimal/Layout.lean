import Referee.Decimal.Numeral
import Referee.Decimal.Shortest

/-!
# Number text

Two written forms of a double, both made of the shortest digits that read back. `plain` is always
positional, drops a zero fraction and takes the larger of two equally near decimals; `json?` keeps
one fractional digit, turns to an exponent outside `10 ^ (-5)` to `10 ^ 16` and takes the even one.
-/

namespace Referee.Decimal

def zeros (n : Nat) : List Char := List.replicate n '0'

/-- `± digits · 10 ^ exponent` in positional notation. -/
def positional (negative : Bool) (d : Digits) : Numeral :=
  let digits := d.digits.repr.toList
  if 0 ≤ d.exponent then ⟨negative, digits ++ zeros d.exponent.toNat, [], none⟩
  else
    let places := (-d.exponent).toNat
    if places < digits.length then
      ⟨negative, digits.take (digits.length - places), digits.drop (digits.length - places), none⟩
    else ⟨negative, ['0'], zeros (places - digits.length) ++ digits, none⟩

/-- The power of ten of the leading digit. -/
def Digits.magnitude (d : Digits) : Int := d.exponent + d.digits.repr.length - 1

/-- One digit, the others as a fraction, and a power of ten. -/
def scientific (negative : Bool) (d : Digits) : Numeral :=
  let digits := d.digits.repr.toList
  ⟨negative, digits.take 1, digits.drop 1, some d.magnitude⟩

/-- The shortest digits of `m · 2 ^ q`, which has a single digit if it is zero. -/
def digitsOf (tie : Tie) (mantissa : Nat) (exponent : Int) : Digits :=
  if mantissa = 0 then ⟨0, 0⟩ else shortest tie mantissa exponent

def plain (x : Float) : String :=
  match Binary.ofFloat x with
  | .nan => nanText
  | .infinite negative => infinityText negative
  | .finite negative m q => (positional negative (digitsOf .up m q)).text

/-- At least one digit after the point. -/
def withFraction (n : Numeral) : Numeral :=
  if n.fraction.isEmpty then { n with fraction := ['0'] } else n

/-- The JSON form of a double; JSON has none for an infinity or a NaN. -/
def json? (x : Float) : Option Numeral :=
  match Binary.ofFloat x with
  | .nan | .infinite _ => none
  | .finite negative m q =>
    let d := digitsOf .even m q
    some (if -5 ≤ d.magnitude ∧ d.magnitude < 16 then withFraction (positional negative d)
      else scientific negative d)

end Referee.Decimal
