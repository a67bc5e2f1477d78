import Referee.Bytes

/-!
# English ordinals
-/

namespace Referee

/-- The ending that makes `n` an ordinal: the teens take `th`, otherwise the last digit decides. -/
def ordinalEnding (n : Nat) : String :=
  if n % 100 / 10 = 1 then "th"
  else match n % 10 with
    | 1 => "st"
    | 2 => "nd"
    | 3 => "rd"
    | _ => "th"

/-- `1st`, `2nd`, `3rd`, `11th`. -/
def ordinal (n : Nat) : String := n.repr ++ ordinalEnding n

end Referee
