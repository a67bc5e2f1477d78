import Referee.Files
import Referee.Settings.Form

/-!
# Settings from a file
-/

namespace Referee.Settings

def cannotRead (path : String) (fault : Fault) : Failure :=
  .config ("cannot read " ++ path ++ ": " ++ fault.text)

def load (fs : Files) (path : String) : Except Failure Settings :=
  match fs.readText path with
  | .error fault => .error (cannotRead path fault)
  | .ok text => ofText text

/-- The settings of a file, or the standard ones if no file is named. -/
def loadOrStandard (fs : Files) : Option String → Except Failure Settings
  | some path => load fs path
  | none => .ok standard

end Referee.Settings
