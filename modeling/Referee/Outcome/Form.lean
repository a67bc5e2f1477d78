import Referee.Checker.Exact
import Referee.Json.Record
import Referee.Ruling

/-!
# Outcomes and rulings as JSON
-/

namespace Referee

def Verdict.all : List Verdict := [.accepted, .wrongAnswer]

def Verdict.toJson (v : Verdict) : Json := .text v.code

def Verdict.ofJson? (v : Json) : Option Verdict := v.choice? Verdict.all Verdict.code

def CheckMode.toJson (m : CheckMode) : Json := .text m.name

def CheckMode.ofJson? (v : Json) : Option CheckMode := v.choice? CheckMode.all CheckMode.name

/-- The message travels as text, its ill-formed parts replaced. -/
def Outcome.toJson (o : Outcome) : Json :=
  .record ([("verdict", o.verdict.toJson)] ++ Json.member? "feedback" .text o.feedback
    ++ [("message", .text o.message.toStringLossy)])

def Outcome.ofJson? (v : Json) : Option Outcome := do
  let f ← v.fields? ["verdict", "feedback", "message"]
  let verdict ← f.required "verdict" Verdict.ofJson?
  let feedback ← f.optional "feedback" Json.string?
  let message ← f.required "message" Json.string?
  return ⟨verdict, feedback, Bytes.ofString message⟩

def Ruling.toJson (r : Ruling) : Json :=
  .record [("verdict", r.verdict.toJson), ("message", .text r.message), ("score", .float r.score),
    ("presentation_error", .bool r.presentationError)]

def Ruling.ofJson? (v : Json) : Option Ruling := do
  let f ← v.fields? ["verdict", "message", "score", "presentation_error"]
  let verdict ← f.required "verdict" Verdict.ofJson?
  let message ← f.required "message" Json.string?
  let score ← f.required "score" Json.float?
  let presentationError ← f.defaulted "presentation_error" false Json.bool?
  return ⟨verdict, message, score, presentationError⟩

end Referee
