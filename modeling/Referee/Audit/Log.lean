import Referee.Audit.Event
import Referee.Files

/-!
# The audit log

Events are appended to a file, one JSON line each. The directory of the file is created if there is
none.
-/

namespace Referee.Audit

def eventLine (e : Event) : Bytes := Bytes.ofString e.line ++ [10]

/-- The lines of a sequence of events. -/
def eventLines (es : List Event) : Bytes := es.flatMap eventLine

def cannotMakeDirectory (fault : Fault) : Failure :=
  .config ("Failed to create audit log directory: " ++ fault.text)

def cannotOpen (fault : Fault) : Failure := .config ("Failed to open audit log: " ++ fault.text)

/-- Opens a log for appending. -/
def openLog (fs : Files) (path : String) : Except Failure (Path × Files) :=
  match fs.makeParents path with
  | .error fault => .error (cannotMakeDirectory fault)
  | .ok fs =>
    match fs.openOrCreate path with
    | .error fault => .error (cannotOpen fault)
    | .ok r => .ok r

/-- Where entries go: who stamps them, and the log file, if there is one. -/
structure Recorder where
  clock : Clock
  log : Option Path

/-- Appends the entries of a trail, the first of which is number `n` of the session. -/
def Recorder.record (r : Recorder) (n : Nat) (trail : List Entry) (fs : Files) : Files :=
  match r.log with
  | some p => fs.append p (eventLines (r.clock.stamp n trail))
  | none => fs

end Referee.Audit
