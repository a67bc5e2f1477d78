import Referee.Bytes

/-!
# Tokens and lines

A token is a maximal run of bytes that are not blank; six bytes are blank. A line ends at CR LF,
at a lone CR or at a lone LF, and bytes after the last terminator form a line of their own.
-/

namespace Referee

/-- Space, tab, line feed, vertical tab, form feed and carriage return. -/
def isBlank (b : UInt8) : Bool := b == 32 || (9 ≤ b && b ≤ 13)

def isLineBreak (b : UInt8) : Bool := b == 13 || b == 10

theorem isBlank_of_isLineBreak {b : UInt8} (h : isLineBreak b = true) : isBlank b = true := by
  simp only [isLineBreak, Bool.or_eq_true, beq_iff_eq] at h
  rcases h with rfl | rfl <;> rfl

/-- The tokens of a byte string, in order. -/
def tokens (bs : Bytes) : List Bytes := (bs.splitOnP isBlank).filter (!·.isEmpty)

@[simp] theorem tokens_nil : tokens [] = [] := rfl

theorem tokens_blank {b : UInt8} (h : isBlank b = true) (bs : Bytes) :
    tokens (b :: bs) = tokens bs := by
  simp [tokens, List.splitOnP_cons_eq_if_modifyHead, h]

/-- The lines of a byte string from `line` on, whose bytes so far are held in reverse. -/
def linesFrom (line : Bytes) : Bytes → List Bytes
  | [] => if line.isEmpty then [] else [line.reverse]
  | 13 :: 10 :: bs => line.reverse :: linesFrom [] bs
  | b :: bs => if isLineBreak b then line.reverse :: linesFrom [] bs else linesFrom (b :: line) bs

/-- The lines of a byte string, without their terminators. -/
def lines (bs : Bytes) : List Bytes := linesFrom [] bs

/-- The non-empty runs between line breaks. -/
def nonEmptyLines (bs : Bytes) : List Bytes := (bs.splitOnP isLineBreak).filter (!·.isEmpty)

@[simp] theorem lines_nil : lines [] = [] := rfl

end Referee
