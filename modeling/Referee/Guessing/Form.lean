import Referee.Guessing.Session
import Referee.Outcome.Form

/-!
# Session endings as JSON
-/

namespace Referee.Guessing.Ending

def toJson (e : Ending) : Json :=
  .record [("verdict", e.verdict.toJson), ("rounds", .nat e.rounds.toNat), ("message", .text e.message)]

def ofJson? (v : Json) : Option Ending := do
  let f ← v.fields? ["verdict", "rounds", "message"]
  let verdict ← f.required "verdict" Verdict.ofJson?
  let rounds ← f.required "rounds" Json.uint32?
  let message ← f.required "message" Json.string?
  return ⟨verdict, rounds, message⟩

end Referee.Guessing.Ending
