/-!
# Numerals

A number as it is written: digits, perhaps a fraction, perhaps a power of ten.
-/

namespace Referee.Decimal

structure Numeral where
  negative : Bool
  whole : List Char
  /-- The digits after the point, which is left out if there are none. -/
  fraction : List Char
  exponent : Option Int
  deriving DecidableEq, Repr

namespace Numeral

/-- A power of ten, its sign always written. -/
def exponentChars (e : Int) : List Char :=
  'e' :: (if e < 0 then '-' else '+') :: e.natAbs.repr.toList

def chars (n : Numeral) : List Char :=
  (if n.negative then ['-'] else []) ++ n.whole
    ++ (if n.fraction.isEmpty then [] else '.' :: n.fraction)
    ++ (match n.exponent with
      | none => []
      | some e => exponentChars e)

def text (n : Numeral) : String := String.ofList n.chars

def ofNat (n : Nat) : Numeral := ⟨false, n.repr.toList, [], none⟩

def ofInt (n : Int) : Numeral := ⟨n < 0, n.natAbs.repr.toList, [], none⟩

def digitValue (c : Char) : Nat := c.toNat - 48

/-- The number that decimal digits denote. -/
def ofDigits (cs : List Char) : Nat := cs.foldl (fun n c => 10 * n + digitValue c) 0

/-- The value of a numeral without fraction and exponent; a negative zero is not an integer. -/
def toInt? (n : Numeral) : Option Int :=
  if n.fraction.isEmpty && n.exponent.isNone then
    let m := ofDigits n.whole
    if n.negative then if m = 0 then none else some (-m) else some m
  else none

end Numeral

end Referee.Decimal
