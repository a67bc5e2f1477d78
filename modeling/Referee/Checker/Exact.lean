import Referee.Excerpt
import Referee.Outcome
import Referee.Token

/-!
# The exact checkers

`standard` compares the token lists of two outputs, `lineCount` the token lists of their lines
and `identical` their bytes. `firstDifference` finds where two token lists part.
-/

namespace Referee

/-- Where an output departs from the expected tokens; positions count from one. -/
inductive Difference where
  | extra
  | missing
  | token (position : Nat) (expected found : Bytes)
  deriving DecidableEq, Repr

/-- The first difference of two token lists that follow `n` equal tokens. -/
def firstDifference (n : Nat) : List Bytes → List Bytes → Option Difference
  | [], [] => none
  | [], _ :: _ => some .extra
  | _ :: _, [] => some .missing
  | e :: es, a :: as => if e = a then firstDifference (n + 1) es as else some (.token (n + 1) e a)

theorem firstDifference_self (n : Nat) (ts : List Bytes) : firstDifference n ts ts = none := by
  induction ts generalizing n with
  | nil => rfl
  | cons t ts ih => simp [firstDifference, ih]

theorem firstDifference_eq_none_iff {n : Nat} {es as : List Bytes} :
    firstDifference n es as = none ↔ es = as := by
  induction es generalizing n as with
  | nil => cases as <;> simp [firstDifference]
  | cons e es ih =>
    cases as with
    | nil => simp [firstDifference]
    | cons a as => by_cases h : e = a <;> simp [firstDifference, h, ih]

/-- A difference within the token lists of two lines, or a line too many or too few. -/
inductive LineDifference where
  | extra (agreeing : Nat)
  | missing (agreeing : Nat)
  | inLine (line : Nat) (difference : Difference)
  deriving DecidableEq, Repr

/-- The first difference of two lists of lines, given as token lists, that follow `n` equal ones. -/
def firstLineDifference (n : Nat) : List (List Bytes) → List (List Bytes) → Option LineDifference
  | [], [] => none
  | [], _ :: _ => some (.extra n)
  | _ :: _, [] => some (.missing n)
  | e :: es, a :: as =>
    match firstDifference 0 e a with
    | some d => some (.inLine (n + 1) d)
    | none => firstLineDifference (n + 1) es as

theorem firstLineDifference_eq_none_iff {n : Nat} {es as : List (List Bytes)} :
    firstLineDifference n es as = none ↔ es = as := by
  induction es generalizing n as with
  | nil => cases as <;> simp [firstLineDifference]
  | cons e es ih =>
    cases as with
    | nil => simp [firstLineDifference]
    | cons a as =>
      have same : firstDifference 0 e a = none ↔ e = a := firstDifference_eq_none_iff
      have rest : firstLineDifference (n + 1) es as = none ↔ es = as := ih
      simp only [firstLineDifference, List.cons.injEq, ← same, ← rest]
      split <;> simp [*]

/-! ## Messages -/

def Difference.message : Difference → Bytes
  | extra => Bytes.ofString "Participant's output contains extra tokens"
  | missing => Bytes.ofString "Unexpected EOF in the participant's output"
  | token n e a => Excerpt.tokenDiffers n e a

def LineDifference.message : LineDifference → Bytes
  | extra n => Bytes.ofString
      ("First " ++ n.repr ++ " line(s) are correct but participant's output contains extra tokens")
  | missing n => Bytes.ofString
      ("First " ++ n.repr ++ " line(s) are correct but unexpected EOF in the participant's output")
  | inLine line .extra => Bytes.ofString
      ("In line " ++ ordinal line ++ ", participant's output has more tokens than judge's output")
  | inLine line .missing => Bytes.ofString
      ("In line " ++ ordinal line ++ ", participant's output has fewer tokens than judge's output")
  | inLine line (.token n e a) => Excerpt.mismatch
      ("In line " ++ ordinal line ++ ", " ++ ordinal n ++ " token differs - expected: ") e a

/-! ## Checkers -/

def tokenCountMessage (n : Nat) : Bytes := Bytes.ofString (n.repr ++ " token(s)")

/-- Accepts an output with the expected tokens. -/
def standard (expected actual : Bytes) : Outcome :=
  match firstDifference 0 (tokens expected) (tokens actual) with
  | none => .accepted (tokenCountMessage (tokens expected).length)
  | some d => .wrongAnswer d.message

/-- The token lists of the lines of a byte string. -/
def lineTokens (bs : Bytes) : List (List Bytes) := (lines bs).map tokens

/-- Accepts an output whose lines have the expected tokens. -/
def lineCount (expected actual : Bytes) : Outcome :=
  let judge := lineTokens expected
  match firstLineDifference 0 judge (lineTokens actual) with
  | none => .accepted (Bytes.ofString (judge.length.repr ++ " line(s), total "
      ++ judge.flatten.length.repr ++ " token(s)"))
  | some d => .wrongAnswer d.message

def whitespaceFeedback : String := presentationError ++ ", check your whitespace"

/-- Accepts the expected bytes only. An output with the expected tokens is a presentation error,
if there is such a thing. -/
def identical (presentationErrors : Bool) (expected actual : Bytes) : Outcome :=
  if expected = actual then
    .accepted (Bytes.ofString (expected.length.repr ++ " byte(s) identical"))
  else
    let outcome := standard expected actual
    if outcome.passed then
      let rejected := Outcome.wrongAnswer outcome.message
      if presentationErrors then rejected.withFeedback whitespaceFeedback else rejected
    else outcome

/-! ## Choosing between the two token comparisons -/

inductive CheckMode where
  | standard
  | lineCount
  deriving DecidableEq, Repr

namespace CheckMode

def all : List CheckMode := [standard, lineCount]

def name : CheckMode → String
  | standard => "standard"
  | lineCount => "linecount"

def ofName? (s : String) : Option CheckMode := all.find? (·.name == s)

end CheckMode

def compare (mode : CheckMode) (expected actual : Bytes) : Outcome :=
  match mode with
  | .standard => standard expected actual
  | .lineCount => lineCount expected actual

end Referee
