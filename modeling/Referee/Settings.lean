import Referee.Checker.Tolerance
import Referee.Convention
import Referee.Text.Quoted

/-!
# Settings

What can be configured, the defaults, and which settings are sound. `Checker.ofSettings` picks the
checker that the settings name.
-/

namespace Referee

structure CheckerSettings where
  name : String
  /-- Decimal digits of tolerance. -/
  precision : UInt32
  errorMode : ErrorMode
  /-- Whether an answer that differs in blanks only is a presentation error. -/
  presentationErrors : Bool
  deriving DecidableEq, Repr

structure GuessingSettings where
  roundLimit : UInt32
  guessMin : Int64
  guessMax : Int64
  deriving DecidableEq

/-- The command words that the relay puts in front of a payload. -/
structure RelaySettings where
  encodeCommand : String
  decodeCommand : String
  deriving DecidableEq, Repr

structure Settings where
  checker : CheckerSettings
  guessing : GuessingSettings
  relay : RelaySettings
  convention : Convention
  deriving DecidableEq

def CheckerSettings.standard : CheckerSettings := ⟨"standard", 6, .either, true⟩

/-- Thirty-one rounds are enough to find a number of the range by bisection. -/
def GuessingSettings.standard : GuessingSettings := ⟨31, 1, 2000000000⟩

def RelaySettings.standard : RelaySettings := ⟨"ENCODE", "DECODE"⟩

def Settings.standard : Settings := ⟨.standard, .standard, .standard, .plain⟩

/-! ## Checkers by name -/

inductive Checker where
  | standard
  | lineCount
  | identical (presentationErrors : Bool)
  | tolerance (t : Tolerance)
  deriving DecidableEq, Repr

namespace Checker

/-- A tolerance checker is named after its error mode. -/
def name : Checker → String
  | standard => "standard"
  | lineCount => "linecount"
  | identical _ => "identical"
  | tolerance ⟨_, .either⟩ => "floats"
  | tolerance ⟨_, .absolute⟩ => "floatsabs"
  | tolerance ⟨_, .relative⟩ => "floatsrel"

def check : Checker → Bytes → Bytes → Outcome
  | standard => Referee.standard
  | lineCount => Referee.lineCount
  | identical presentationErrors => Referee.identical presentationErrors
  | tolerance t => t.check

def ofSettings? (s : CheckerSettings) : Option Checker :=
  match s.name with
  | "standard" => some standard
  | "linecount" => some lineCount
  | "identical" => some (identical s.presentationErrors)
  | "floats" => some (tolerance ⟨s.precision, s.errorMode⟩)
  | "floatsabs" => some (tolerance ⟨s.precision, .absolute⟩)
  | "floatsrel" => some (tolerance ⟨s.precision, .relative⟩)
  | _ => none

def unsupported (name : String) : String := "unsupported checker: " ++ name

def ofSettings (s : CheckerSettings) : Except Failure Checker :=
  match ofSettings? s with
  | some c => .ok c
  | none => .error (.config (unsupported s.name))

/-- A checker with the default options. -/
def ofName (name : String) : Except Failure Checker :=
  ofSettings { CheckerSettings.standard with name := name }

end Checker

/-! ## Validation -/

/-- What makes settings unsound. -/
inductive SettingsProblem where
  | unsupportedChecker (name : String)
  | precisionTooHigh (precision : UInt32)
  | noRounds
  | emptyRange (lo hi : Int64)
  | badCommandWord (word : String)
  deriving DecidableEq

namespace SettingsProblem

def message : SettingsProblem → String
  | unsupportedChecker name => Checker.unsupported name
  | precisionTooHigh p => "precision " ++ p.toNat.repr ++ " exceeds f64 resolution (max 15)"
  | noRounds => "round_limit must be positive"
  | emptyRange lo hi => "guess range is empty: [" ++ lo.toInt.repr ++ ", " ++ hi.toInt.repr ++ "]"
  | badCommandWord word =>
    "relay command word must be a single non-empty token: " ++ Text.quoted word

end SettingsProblem

/-- Tab, line feed, form feed, carriage return and space. -/
def isCommandBreak (c : Char) : Bool :=
  c == '\t' || c == '\n' || c == '\x0c' || c == '\r' || c == ' '

/-- A command word holds a character and no break. -/
def isCommandWord (word : String) : Bool := !word.isEmpty && !word.toList.any isCommandBreak

namespace Settings

/-- The first problem of the settings. -/
def problem? (s : Settings) : Option SettingsProblem :=
  if (Checker.ofSettings? s.checker).isNone then some (.unsupportedChecker s.checker.name)
  else if 15 < s.checker.precision then some (.precisionTooHigh s.checker.precision)
  else if s.guessing.roundLimit = 0 then some .noRounds
  else if s.guessing.guessMax < s.guessing.guessMin then
    some (.emptyRange s.guessing.guessMin s.guessing.guessMax)
  else ([s.relay.encodeCommand, s.relay.decodeCommand].find? (!isCommandWord ·)).map .badCommandWord

def validate (s : Settings) : Except Failure Settings :=
  match s.problem? with
  | none => .ok s
  | some p => .error (.config p.message)

end Settings

end Referee
