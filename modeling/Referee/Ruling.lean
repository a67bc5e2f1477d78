import Referee.Outcome
import Referee.Text.Utf8

/-!
# Rulings

What a referee or checker tells the judging system: the verdict, a one-line text, the fraction of
the points and whether the layout was to blame.
-/

namespace Referee

structure Ruling where
  verdict : Verdict
  message : String
  score : Float
  presentationError : Bool

namespace Ruling

/-- Full score for an accepted answer and none otherwise. -/
def new (verdict : Verdict) (message : String) : Ruling :=
  ⟨verdict, message, if verdict.isAccepted then 1.0 else 0.0, false⟩

/-- The headline in front of the detail, where there are both. -/
def messageOf (feedback : Option String) (detail : String) : String :=
  match feedback with
  | none => detail
  | some headline => if detail.isEmpty then headline else headline ++ ": " ++ detail

def ofOutcome (o : Outcome) : Ruling :=
  { new o.verdict (messageOf o.feedback o.message.toStringLossy) with
    presentationError := !o.passed && o.isPresentationError }

end Ruling

end Referee
