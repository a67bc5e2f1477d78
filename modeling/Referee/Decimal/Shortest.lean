import Referee.Decimal.Binary

/-!
# The fewest digits that read back

A decimal reads back as `m · 2 ^ q` when it lies in the interval of reals that round to it; the
ends belong to the interval iff `m` is even. On the decimal grids of 1, 2, … digits the two grid
points around the value are tried, and the first grid with a point in the interval wins; of two
points the nearer one is taken, and of two equally near ones the written form says which.
-/

namespace Referee.Decimal

/-- `digits · 10 ^ exponent`. -/
structure Digits where
  digits : Nat
  exponent : Int
  deriving DecidableEq, Repr

/-- Which of two equally near decimals is written. -/
inductive Tie where
  | up
  | even
  deriving DecidableEq, Repr

namespace Shortest

/-- A nonnegative fraction. -/
structure Ratio where
  num : Nat
  den : Nat

/-- `n · 2 ^ q`. -/
def Ratio.dyadic (n : Nat) (q : Int) : Ratio :=
  if 0 ≤ q then ⟨n * Nat.pow 2 q.toNat, 1⟩ else ⟨n, Nat.pow 2 (-q).toNat⟩

/-- `r · 10 ^ e`. -/
def Ratio.shift (r : Ratio) (e : Int) : Ratio :=
  if 0 ≤ e then ⟨r.num * Nat.pow 10 e.toNat, r.den⟩ else ⟨r.num, r.den * Nat.pow 10 (-e).toNat⟩

/-- The reals that round to a value, in units of a decimal grid: their ends and whether these
belong to them. -/
structure Interval where
  lo : Ratio
  hi : Ratio
  closed : Bool

def Interval.mem (i : Interval) (n : Nat) : Bool :=
  if i.closed then i.lo.num ≤ n * i.lo.den && n * i.hi.den ≤ i.hi.num
  else i.lo.num < n * i.lo.den && n * i.hi.den < i.hi.num

/-- The gap below a power of two is half as wide as the gap above it. -/
def interval (mantissa : Nat) (exponent e : Int) : Interval :=
  let narrow := mantissa = Binary.leadingBit ∧ -1074 < exponent
  let below := if narrow then 4 * mantissa - 1 else 4 * mantissa - 2
  { lo := (Ratio.dyadic below (exponent - 2)).shift e
    hi := (Ratio.dyadic (4 * mantissa + 2) (exponent - 2)).shift e
    closed := mantissa % 2 == 0 }

/-- The integer nearest to a ratio. -/
def Ratio.round (tie : Tie) (r : Ratio) : Nat :=
  let n := r.num / r.den
  match compare (2 * (r.num % r.den)) r.den with
  | .lt => n
  | .gt => n + 1
  | .eq => if tie = .even ∧ n % 2 = 0 then n else n + 1

/-- The point of the grid `10 ^ e` that reads back as `m · 2 ^ q`, if there is one. -/
def onGrid (tie : Tie) (mantissa : Nat) (exponent e : Int) : Option Nat :=
  let value := (Ratio.dyadic mantissa exponent).shift (-e)
  let i := interval mantissa exponent (-e)
  let n := value.num / value.den
  match i.mem n, i.mem (n + 1) with
  | true, true => some (value.round tie)
  | true, false => some n
  | false, true => some (n + 1)
  | false, false => none

/-- The first grid with a point, among `grids` grids from `10 ^ e` down. -/
def search (tie : Tie) (mantissa : Nat) (exponent e : Int) : Nat → Digits
  | 0 => ⟨0, 0⟩
  | grids + 1 =>
    match onGrid tie mantissa exponent e with
    | some n => ⟨n, e⟩
    | none => search tie mantissa exponent (e - 1) grids

end Shortest

/-- The shortest decimal that reads back as `m · 2 ^ q`. The first grid is not finer than that
of one digit, and seventeen digits always suffice. -/
def shortest (tie : Tie) (mantissa : Nat) (exponent : Int) : Digits :=
  Shortest.search tie mantissa exponent ((mantissa.log2 + exponent + 1) * 30103 / 100000 + 1) 20

end Referee.Decimal
