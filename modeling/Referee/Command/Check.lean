import Referee.Arguments
import Referee.Command.Complaint
import Referee.Files
import Referee.Outcome.Form
import Referee.Settings

/-!
# Checking files

`checkFiles` reports on an answer in the shape that a convention asks for; `compareFiles` prints the
outcome for a reader.
-/

namespace Referee.Command

def readFile (fs : Files) (path : String) : Except Complaint Bytes :=
  (fs.read path).mapError (.ofFault ("failed to read " ++ path))

/-- The checker of the settings, or another one by name with the same options. -/
def chooseChecker (settings : Settings) (name : Option String) : Except Complaint Checker :=
  (Checker.ofSettings { settings.checker with name := name.getD settings.checker.name }).mapError
    .ofFailure

/-- Checks the output file of a run against its answer file. -/
def checkFiles (settings : Settings) (files : List String) (checker : Option String)
    (convention : Option Convention) (fs : Files) : Except Complaint Report := do
  let convention := convention.getD settings.convention
  let binding ← (Binding.ofArguments convention.checkerLayout files).mapError .ofFailure
  let checker ← chooseChecker settings checker
  let expected ← readFile fs binding.answer
  let actual ← readFile fs binding.output
  return convention.report (.ofOutcome (checker.check expected actual))

/-- An outcome on a line. -/
def outcomeLine (o : Outcome) : String :=
  o.verdict.code ++ ": " ++
    match o.feedback with
    | some feedback => feedback ++ " (" ++ o.message.toStringLossy ++ ")"
    | none => o.message.toStringLossy

/-- Compares two files. The exit code tells whether the second one is accepted. -/
def compareFiles (settings : Settings) (expected actual : String) (checker : Option String) (json : Bool)
    (fs : Files) : Except Complaint Report := do
  let checker ← chooseChecker settings checker
  let outcome := checker.check (← readFile fs expected) (← readFile fs actual)
  let line := if json then outcome.toJson.pretty else outcomeLine outcome
  return ⟨[(.out, line)], if outcome.passed then 0 else 1⟩

end Referee.Command
