import Referee.Ordinal

/-!
# Quoted excerpts

Diagnostics quote tokens byte for byte. A token above `Excerpt.budget` bytes keeps its first 30
and its last 31 bytes around an ellipsis, which fills the budget exactly.
-/

namespace Referee.Excerpt

def budget : Nat := 64

def headLength : Nat := 30

def tailLength : Nat := 31

/-- A token cut down to the budget. -/
def shorten (token : Bytes) : Bytes :=
  if token.length ≤ budget then token
  else token.take headLength ++ Bytes.ofString "..." ++ token.drop (token.length - tailLength)

/-- A token between single quotes. -/
def quote (token : Bytes) : Bytes := 39 :: shorten token ++ [39]

/-- `head`, then the two tokens that disagree. -/
def mismatch (head : String) (expected found : Bytes) : Bytes :=
  Bytes.ofString head ++ quote expected ++ Bytes.ofString ", found: " ++ quote found

/-- The diagnostic for the token at the 1-based position `n`. -/
def tokenDiffers (n : Nat) (expected found : Bytes) : Bytes :=
  mismatch (ordinal n ++ " token differs - expected: ") expected found

theorem length_shorten_le (token : Bytes) : (shorten token).length ≤ budget := by
  unfold shorten
  split
  · assumption
  · have : (Bytes.ofString "...").length = 3 := by decide
    simp only [List.length_append, List.length_take, List.length_drop, this]
    simp only [budget, headLength, tailLength] at *
    omega

end Referee.Excerpt
