import Referee.Bridge
import Referee.Guessing.Form
import Referee.Main
import Referee.Proofs.Agreement
import Referee.Proofs.Lines
import Referee.Proofs.Tokens
import Referee.Proofs.Channel
import Referee.Proofs.Comparison
import Referee.Proofs.Guessing.Round
import Referee.Proofs.Guessing.Run
import Referee.Proofs.Guessing.Safety
import Referee.Proofs.Reading
import Referee.Proofs.Integers
import Referee.Proofs.Double.Parts
import Referee.Proofs.Double.Rounding
import Referee.Proofs.Tolerance
import Referee.Proofs.Guessing.Lockstep
import Referee.Proofs.Guessing.Bisection
import Referee.Proofs.Guessing.Trail
import Referee.Proofs.Relay.Run
import Referee.Proofs.Relay.Lockstep
import Referee.Proofs.Relay.Framing
import Referee.Proofs.Faults
import Referee.Proofs.Relay.Isolation
import Referee.Proofs.Guessing.Blame
import Referee.Proofs.Strictness
import Referee.Proofs.Messages
import Referee.Proofs.Reports
import Referee.Proofs.Audit.Events
import Referee.Proofs.Audit.Log
import Referee.Proofs.NumericWalk
import Referee.Proofs.Guessing.OutputFile
import Referee.Proofs.Settings.Overrides
import Referee.Proofs.Settings.RoundTrip
import Referee.Proofs.Guessing.Refusals
import Referee.Proofs.Guessing.Counter
import Referee.Proofs.Double.Numbers
import Referee.Proofs.NotANumber
import Referee.Proofs.Bridge
import Referee.Proofs.Spacing
import Referee.Proofs.Arguments
import Referee.Proofs.Delivery
import Referee.Proofs.Outcome.RoundTrip
import Referee.Proofs.Lineation
