import Referee.Json.Reader
import Referee.Json.Record
import Referee.Settings

/-!
# Settings as JSON

Every field has a default, so the empty object is a configuration. `Settings.ofText` reads a
configuration and validates it.
-/

namespace Referee

namespace ErrorMode

def all : List ErrorMode := [either, absolute, relative]

def name : ErrorMode → String
  | either => "default"
  | absolute => "absolute"
  | relative => "relative"

def toJson (m : ErrorMode) : Json := .text m.name

def ofJson? (v : Json) : Option ErrorMode := v.choice? all name

end ErrorMode

def Convention.toJson (c : Convention) : Json := .text c.name

def Convention.ofJson? (v : Json) : Option Convention := v.choice? Convention.all Convention.name

namespace CheckerSettings

def toJson (s : CheckerSettings) : Json :=
  .record [("name", .text s.name), ("precision", .nat s.precision.toNat),
    ("error_mode", s.errorMode.toJson), ("pe_allowed", .bool s.presentationErrors)]

def ofJson? (v : Json) : Option CheckerSettings := do
  let f ← v.fields? ["name", "precision", "error_mode", "pe_allowed"]
  let name ← f.defaulted "name" standard.name Json.string?
  let precision ← f.defaulted "precision" standard.precision Json.uint32?
  let errorMode ← f.defaulted "error_mode" standard.errorMode ErrorMode.ofJson?
  let presentationErrors ← f.defaulted "pe_allowed" standard.presentationErrors Json.bool?
  return ⟨name, precision, errorMode, presentationErrors⟩

end CheckerSettings

namespace GuessingSettings

def toJson (s : GuessingSettings) : Json :=
  .record [("round_limit", .nat s.roundLimit.toNat), ("guess_min", .int s.guessMin.toInt),
    ("guess_max", .int s.guessMax.toInt)]

def ofJson? (v : Json) : Option GuessingSettings := do
  let f ← v.fields? ["round_limit", "guess_min", "guess_max"]
  let roundLimit ← f.defaulted "round_limit" standard.roundLimit Json.uint32?
  let guessMin ← f.defaulted "guess_min" standard.guessMin Json.int64?
  let guessMax ← f.defaulted "guess_max" standard.guessMax Json.int64?
  return ⟨roundLimit, guessMin, guessMax⟩

end GuessingSettings

namespace RelaySettings

def toJson (s : RelaySettings) : Json :=
  .record [("encode_command", .text s.encodeCommand), ("decode_command", .text s.decodeCommand)]

def ofJson? (v : Json) : Option RelaySettings := do
  let f ← v.fields? ["encode_command", "decode_command"]
  let encodeCommand ← f.defaulted "encode_command" standard.encodeCommand Json.string?
  let decodeCommand ← f.defaulted "decode_command" standard.decodeCommand Json.string?
  return ⟨encodeCommand, decodeCommand⟩

end RelaySettings

namespace Settings

def toJson (s : Settings) : Json :=
  .record [("checker", s.checker.toJson), ("guessing", s.guessing.toJson),
    ("relay", s.relay.toJson), ("convention", s.convention.toJson)]

def ofJson? (v : Json) : Option Settings := do
  let f ← v.fields? ["checker", "guessing", "relay", "convention"]
  let checker ← f.defaulted "checker" .standard CheckerSettings.ofJson?
  let guessing ← f.defaulted "guessing" .standard GuessingSettings.ofJson?
  let relay ← f.defaulted "relay" .standard RelaySettings.ofJson?
  let convention ← f.defaulted "convention" .plain Convention.ofJson?
  return ⟨checker, guessing, relay, convention⟩

/-- Reads and validates a configuration. -/
def ofText (text : String) : Except Failure Settings :=
  match (Json.ofString? text).bind ofJson? with
  | some s => s.validate
  | none => .error .json

end Settings

end Referee
