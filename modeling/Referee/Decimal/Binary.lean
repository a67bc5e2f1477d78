/-!
# Binary floating point numbers taken apart

`Binary.ofFloat` reads the sign, the mantissa `m` and the exponent `q` of a double from its bits;
a finite value is `± m · 2 ^ q`.
-/

namespace Referee.Decimal

inductive Binary where
  | nan
  | infinite (negative : Bool)
  | finite (negative : Bool) (mantissa : Nat) (exponent : Int)
  deriving DecidableEq, Repr

namespace Binary

/-- The leading bit of the mantissas that are not subnormal. -/
def leadingBit : Nat := 0x10000000000000

def ofBits (bits : UInt64) : Binary :=
  let negative := bits >>> 63 == 1
  let exponent := ((bits >>> 52) &&& 0x7FF).toNat
  let fraction := (bits &&& 0xFFFFFFFFFFFFF).toNat
  if exponent = 0x7FF then if fraction = 0 then .infinite negative else .nan
  else if exponent = 0 then .finite negative fraction (-1074)
  else .finite negative (leadingBit + fraction) (exponent - 1075)

def ofFloat (x : Float) : Binary := ofBits x.toBits

end Binary

/-- The sign that a number shows. -/
def signText (negative : Bool) : String := if negative then "-" else ""

/-- A value that has no digits. -/
def infinityText (negative : Bool) : String := signText negative ++ "inf"

def nanText : String := "NaN"

end Referee.Decimal
