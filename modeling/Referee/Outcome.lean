import Referee.Bytes

/-!
# Verdicts and outcomes
-/

namespace Referee

inductive Verdict where
  | accepted
  | wrongAnswer
  deriving DecidableEq, Repr

namespace Verdict

def isAccepted : Verdict → Bool
  | accepted => true
  | wrongAnswer => false

/-- The two-letter code of a verdict. -/
def code : Verdict → String
  | accepted => "AC"
  | wrongAnswer => "WA"

end Verdict

/-- What a checker concludes about an answer. The message quotes tokens byte for byte; the
feedback is a headline for the contestant. -/
structure Outcome where
  verdict : Verdict
  feedback : Option String
  message : Bytes
  deriving DecidableEq, Repr

/-- The headline of an answer rejected for its layout. -/
def presentationError : String := "Presentation Error"

namespace Outcome

def accepted (message : Bytes) : Outcome := ⟨.accepted, none, message⟩

def wrongAnswer (message : Bytes) : Outcome := ⟨.wrongAnswer, none, message⟩

def withFeedback (o : Outcome) (feedback : String) : Outcome := { o with feedback := some feedback }

def passed (o : Outcome) : Bool := o.verdict.isAccepted

/-- The feedback opens with the layout headline. -/
def isPresentationError (o : Outcome) : Bool :=
  o.feedback.any fun f => presentationError.toList.isPrefixOf f.toList

end Outcome

end Referee
