import Referee.Audit.Entry
import Referee.Audit.Instant
import Referee.Audit.SessionId
import Referee.Json.Reader
import Referee.Outcome.Form

/-!
# Audit events

An entry with the session it belongs to and the time of its recording. `Event.line` is its JSON
form on one line, which `Event.ofJson?` reads back.
-/

namespace Referee.Audit

def Severity.toJson (s : Severity) : Json := .text s.name

def Severity.ofJson? (v : Json) : Option Severity := v.choice? Severity.all Severity.name

def Kind.toJson (k : Kind) : Json := .text k.name

def Kind.ofJson? (v : Json) : Option Kind := v.choice? Kind.all Kind.name

structure Event where
  session : SessionId
  time : Instant
  entry : Entry

namespace Event

def toJson (e : Event) : Json :=
  .record ([("session_id", .text e.session.text), ("timestamp", .text e.time.text),
    ("event_type", e.entry.kind.toJson), ("severity", e.entry.severity.toJson),
    ("details", .text e.entry.details)]
    ++ Json.member? "channel" .text e.entry.channel
    ++ Json.member? "round" (fun n : UInt32 => .nat n.toNat) e.entry.round
    ++ Json.member? "verdict" Verdict.toJson e.entry.verdict)

def ofJson? (v : Json) : Option Event := do
  let f ← v.fields? ["session_id", "timestamp", "event_type", "severity", "details", "channel",
    "round", "verdict"]
  let session ← f.required "session_id" fun v => v.string?.bind SessionId.ofString?
  let time ← f.required "timestamp" fun v => v.string?.bind Instant.ofString?
  let kind ← f.required "event_type" Kind.ofJson?
  let severity ← f.required "severity" Severity.ofJson?
  let details ← f.required "details" Json.string?
  let channel ← f.optional "channel" Json.string?
  let round ← f.optional "round" Json.uint32?
  let verdict ← f.optional "verdict" Verdict.ofJson?
  return ⟨session, time, ⟨kind, severity, details, channel, round, verdict⟩⟩

def line (e : Event) : String := e.toJson.compact

end Event

/-- Who records, and at what times: the session and the time of each event in order. -/
structure Clock where
  session : SessionId
  time : Nat → Instant

/-- The events of a trail whose first entry is number `n` of its session. -/
def Clock.stamp (c : Clock) (n : Nat) : List Entry → List Event
  | [] => []
  | e :: es => ⟨c.session, c.time n, e⟩ :: c.stamp (n + 1) es

end Referee.Audit
