import Referee.Command.Check
import Referee.Command.Interact
import Referee.Command.Relay
import Referee.Command.Request
import Referee.Settings.Load

/-!
# Running a program

`Start.run` takes a program from its start to its exit. The settings are read first, then the audit
log is opened, then the command is carried out.
-/

namespace Referee

/-- What a program starts with. -/
structure Start where
  program : Program
  args : List String
  /-- The configuration that the environment names. -/
  environment : Option String
  stdin : Reader
  files : Files
  clock : Audit.Clock

/-- What a program has written when it ends, and its exit code. -/
structure Exit where
  code : Nat
  stdout : Bytes
  stderr : Bytes
  files : Files

namespace Exit

/-- A program that has done nothing but print. -/
def printing (text : String) (fs : Files) : Exit := ⟨0, Bytes.ofString text, [], fs⟩

/-- A command line or a program that does not fit the command. -/
def refusing (text : String) (fs : Files) : Exit := ⟨2, [], Bytes.ofString text, fs⟩

def failing (c : Command.Complaint) (stdout : Bytes) (fs : Files) : Exit :=
  ⟨1, stdout, Bytes.ofString c.text, fs⟩

def reporting (r : Report) (fs : Files) : Exit := ⟨r.code, r.text .out, r.text .err, fs⟩

end Exit

namespace Command

def versionText : String := "arbiter 0.1.0\n"

def helpText : String :=
  "Usage: arbiter [--config PATH] [--audit-log PATH] COMMAND\n\n"
    ++ "  check FILE FILE FILE [--checker NAME] [--convention NAME]\n"
    ++ "  compare EXPECTED ACTUAL [--checker NAME] [--json]\n"
    ++ "  interact FILE FILE FILE [--convention NAME]\n"
    ++ "  relay FROM_A TO_A FROM_B TO_B\n"

def misuseText (m : Misuse) : String := "error: " ++ m.message ++ "\n\n" ++ helpText

def wrongProgramText (p : Program) (c : Command) : String :=
  "Error: command '" ++ c.name ++ "' is not available in '" ++ p.name ++ "'\nUse '"
    ++ c.program.name ++ "' for '" ++ c.name ++ "'.\n"

/-- What a command works with. -/
structure Surroundings where
  settings : Settings
  recorder : Audit.Recorder
  files : Files

def loadSettings (fs : Files) (config : Option String) : Except Complaint Settings :=
  (Settings.loadOrStandard fs config).mapError fun e =>
    (Complaint.ofFailure e).within "failed to load configuration"

def setUp (i : Invocation) (clock : Audit.Clock) (fs : Files) : Except Complaint Surroundings := do
  let settings ← loadSettings fs i.config
  match i.auditLog with
  | none => return ⟨settings, ⟨clock, none⟩, fs⟩
  | some path =>
    let (log, fs) ← (Audit.openLog fs path).mapError .ofFailure
    return ⟨settings, ⟨clock, some log⟩, fs⟩

/-- The exit of a command that changes no file. -/
def exitOf (result : Except Complaint Report) (fs : Files) : Exit :=
  match result with
  | .ok report => .reporting report fs
  | .error e => .failing e [] fs

/-- The standard output belongs to the contestant, so that the whole report goes to the other
stream. -/
def Interaction.exit (i : Interaction) : Exit :=
  match i.result with
  | .ok report => ⟨report.code, i.toContestant.written, report.combined, i.files⟩
  | .error e => .failing e i.toContestant.written i.files

def perform (t : Task) (s : Surroundings) (stdin : Reader) : Exit :=
  match t with
  | .check files checker convention =>
    exitOf (checkFiles s.settings files checker convention s.files) s.files
  | .compare expected actual checker json =>
    exitOf (compareFiles s.settings expected actual checker json s.files) s.files
  | .interact files convention =>
    (refereeGame s.settings files convention s.recorder s.files stdin .working).exit
  | .relay paths =>
    match relayToken s.settings paths s.recorder s.files stdin with
    | (.ok reply, fs) => ⟨0, reply, [], fs⟩
    | (.error e, fs) => .failing e [] fs

end Command

namespace Start

open Command

/-- Carries out a command in a program in which it is available. -/
def invoke (s : Start) (i : Invocation) : Exit :=
  if s.program.allows i.task.command then
    match setUp i s.clock s.files with
    | .error e => .failing e [] s.files
    | .ok surroundings => perform i.task surroundings s.stdin
  else .refusing (wrongProgramText s.program i.task.command) s.files

def run (s : Start) : Exit :=
  match Request.ofArguments s.environment s.args with
  | .help => .printing helpText s.files
  | .version => .printing versionText s.files
  | .misuse m => .refusing (misuseText m) s.files
  | .run i => s.invoke i

end Start

end Referee
