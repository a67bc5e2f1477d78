import Referee.Audit.Log
import Referee.Command.Complaint
import Referee.Relay.Files

/-!
# Relaying a token

One token from the standard input is passed through both stages, and the reply of the second one is
printed.
-/

namespace Referee.Command

open Relay (FileEnds)

def stdinChannel : String := "stdin"

/-- Passes the first token of a stream through the stages. -/
def passToken (commands : RelaySettings) (stdin : Reader) (ends : FileEnds) :
    Except Failure Bytes × List Audit.Entry × FileEnds :=
  match (stdin.readToken stdinChannel).1 with
  | .error e => (.error e, [], ends)
  | .ok payload => ends.pass commands payload

/-- What is printed of a reply. -/
def replyLine (reply : Bytes) : Bytes := reply ++ [10]

/-- That the channels are closed is recorded only after a reply. -/
def relayToken (settings : Settings) (paths : Relay.Paths) (recorder : Audit.Recorder) (fs : Files)
    (stdin : Reader) : Except Complaint Bytes × Files :=
  let opening := Relay.openFiles fs paths
  let opened := opening.entries.length
  match opening.result with
  | .error e => (.error (.ofFailure e), recorder.record 0 opening.entries fs)
  | .ok ends =>
    let ends := { ends with files := recorder.record 0 opening.entries ends.files }
    let (result, entries, ends) := passToken settings.relay stdin ends
    let trail := match result with
      | .ok _ => entries ++ [Relay.closeEntry]
      | .error _ => entries
    let fs := recorder.record opened trail ends.files
    match result with
    | .error e => (.error (.ofFailure e), fs)
    | .ok reply => (.ok (replyLine reply), fs)

end Referee.Command
