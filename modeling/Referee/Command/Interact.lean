import Referee.Arguments
import Referee.Audit.Log
import Referee.Command.Complaint
import Referee.Guessing.Session

/-!
# Refereeing a guessing game

The input file holds the target, and the contestant is at the other end of two streams. When the
contestant wins, the number of rounds goes to the output file; it is not touched otherwise.
`refereeGame` prepares a session, runs it and concludes.
-/

namespace Referee.Command

open Guessing

/-- What an interactor leaves behind. A report is made only if nothing has failed. -/
structure Interaction where
  result : Except Complaint Report
  toContestant : Writer
  files : Files

namespace Interaction

/-- Writes the report, if there is one. -/
def deliver (i : Interaction) (out err : Writer) : Except Complaint Nat × Writer × Writer :=
  match i.result with
  | .error e => (.error e, out, err)
  | .ok report =>
    let (code, out, err) := report.deliver out err
    (code.mapError fun fault => .ofFailure (.io fault), out, err)

end Interaction

/-- The files of a run and the session that is played over them. -/
def prepare (settings : Settings) (args : List String) (convention : Convention) (fs : Files)
    (contestant : Reader) (toContestant : Writer) : Except Complaint (Binding × Session) := do
  let binding ← (Binding.ofArguments convention.interactorLayout args).mapError .ofFailure
  let judge ← (fs.openReader binding.input).mapError (.ofFault ("failed to open " ++ binding.input))
  return (binding, .new settings.guessing judge contestant toContestant)

/-- The content of the output file of an accepted run. -/
def roundsLine (rounds : UInt32) : Bytes := Bytes.ofString rounds.toNat.repr ++ [10]

def cannotCreate (output : String) : Fault → Complaint :=
  .ofFault ("failed to create " ++ output)

/-- Writes the output file if the contestant has won, and reports how the session ended. -/
def conclude (convention : Convention) (output : String) (ending : Ending) (fs : Files) :
    Except Complaint Report × Files :=
  let report := convention.report (.new ending.verdict ending.message)
  if ending.verdict.isAccepted then
    match fs.write output (roundsLine ending.rounds) with
    | .error fault => (.error (cannotCreate output fault), fs)
    | .ok fs => (.ok report, fs)
  else (.ok report, fs)

def refereeGame (settings : Settings) (args : List String) (convention : Option Convention)
    (recorder : Audit.Recorder) (fs : Files) (contestant : Reader) (toContestant : Writer) :
    Interaction :=
  let convention := convention.getD settings.convention
  match prepare settings args convention fs contestant toContestant with
  | .error e => ⟨.error e, toContestant, fs⟩
  | .ok (binding, session) =>
    let (result, session) := session.run
    let fs := recorder.record 0 session.trail fs
    match result with
    | .error e => ⟨.error (.ofFailure e), session.toContestant, fs⟩
    | .ok ending =>
      let (result, fs) := conclude convention binding.output ending fs
      ⟨result, session.toContestant, fs⟩

end Referee.Command
