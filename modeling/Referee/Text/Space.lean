/-!
# Space between words

The characters with the Unicode property White_Space, and the words that they separate.
-/

namespace Referee.Text

/-- The code points with the property White_Space, as closed ranges. -/
def spaceRanges : List (Nat × Nat) :=
  [(0x9, 0xD), (0x20, 0x20), (0x85, 0x85), (0xA0, 0xA0), (0x1680, 0x1680), (0x2000, 0x200A),
   (0x2028, 0x2029), (0x202F, 0x202F), (0x205F, 0x205F), (0x3000, 0x3000)]

def isSpace (c : Char) : Bool := spaceRanges.any fun (lo, hi) => lo ≤ c.toNat && c.toNat ≤ hi

/-- There are twenty-five such characters. -/
example : (spaceRanges.flatMap fun (lo, hi) => List.range' lo (hi + 1 - lo)).length = 25 := by decide

/-- The words of a text: its maximal runs of characters that are not space. -/
def words (s : String) : List String :=
  ((s.toList.splitOnP isSpace).filter (!·.isEmpty)).map String.ofList

end Referee.Text
