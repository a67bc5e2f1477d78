import Referee.Outcome

/-!
# Audit entries

What is recorded of a session or a relay: what happened, how grave it is, and a detail. An entry
is graded by its kind unless it says otherwise.
-/

namespace Referee.Audit

inductive Severity where
  | info
  | warning
  | error
  deriving DecidableEq, Repr

inductive Kind where
  | sessionStart
  | round
  | channelOpen
  | channelClose
  | peerClosed
  /-- Judge-side input that the referee cannot work with. -/
  | protocolError
  | sessionEnd
  deriving DecidableEq, Repr

namespace Severity

def all : List Severity := [info, warning, error]

def name : Severity → String
  | info => "Info"
  | warning => "Warning"
  | error => "Error"

end Severity

namespace Kind

def all : List Kind :=
  [sessionStart, round, channelOpen, channelClose, peerClosed, protocolError, sessionEnd]

def name : Kind → String
  | sessionStart => "SessionStart"
  | round => "Round"
  | channelOpen => "ChannelOpen"
  | channelClose => "ChannelClose"
  | peerClosed => "PeerClosed"
  | protocolError => "ProtocolError"
  | sessionEnd => "SessionEnd"

def severity : Kind → Severity
  | peerClosed => .warning
  | protocolError => .error
  | _ => .info

end Kind

structure Entry where
  kind : Kind
  severity : Severity
  details : String
  channel : Option String
  round : Option UInt32
  verdict : Option Verdict
  deriving DecidableEq, Repr

namespace Entry

/-- An entry that says no more than its kind and a detail. -/
def plain (kind : Kind) (details : String) : Entry := ⟨kind, kind.severity, details, none, none, none⟩

def withChannel (e : Entry) (channel : String) : Entry := { e with channel := some channel }

def withRound (e : Entry) (round : UInt32) : Entry := { e with round := some round }

def withVerdict (e : Entry) (verdict : Verdict) : Entry := { e with verdict := some verdict }

end Entry

end Referee.Audit
