import Referee.Audit.Entry
import Referee.Channel
import Referee.Settings
import Referee.Text.Utf8

/-!
# The relay

A payload is sent to stage A, the reply of stage A to stage B, and the reply of stage B is the
result. A `Peer` is how the relay reaches a stage: it acts on a state `σ` that holds the ends of the
channels. `Ends` is such a state, made of streams.
-/

namespace Referee

namespace Relay

/-- The channel to one stage. -/
structure Peer (σ : Type) where
  channel : String
  send : Bytes → σ → Except Failure Unit × σ
  receive : σ → Except Failure Bytes × σ

def stageA : String := "stage-a"

def stageB : String := "stage-b"

namespace Peer

/-- Sends a command with its payload and awaits the reply. -/
def exchange {σ : Type} (p : Peer σ) (command : String) (payload : Bytes) (s : σ) :
    Except Failure Bytes × σ :=
  match p.send (commandLine command payload) s with
  | (.error e, s) => (.error e, s)
  | (.ok (), s) => p.receive s

/-- What is recorded of a failed exchange: that the peer has gone away, if it has. -/
def entries {σ : Type} (p : Peer σ) (e : Failure) : List Audit.Entry :=
  if e.isPeerClosed then [(Audit.Entry.plain .peerClosed e.message).withChannel p.channel] else []

end Peer

def badPayload (payload : Bytes) : Failure :=
  .invalidArgument ("relay payload must be a single token, got '" ++ payload.toStringLossy ++ "'")

/-- Passes a payload through both stages. -/
def pass {σ : Type} (a b : Peer σ) (commands : RelaySettings) (payload : Bytes) (s : σ) :
    Except Failure Bytes × List Audit.Entry × σ :=
  if payload.isEmpty || payload.any isBlank then (.error (badPayload payload), [], s)
  else
    match a.exchange commands.encodeCommand payload s with
    | (.error e, s) => (.error e, a.entries e, s)
    | (.ok encoded, s) =>
      match b.exchange commands.decodeCommand encoded s with
      | (.error e, s) => (.error e, b.entries e, s)
      | (.ok reply, s) => (.ok reply, [], s)

/-- Recorded when a relay is closed. -/
def closeEntry : Audit.Entry := .plain .channelClose "all relay channels closed"

/-! ## Over streams -/

structure Ends where
  toA : Writer
  fromA : Reader
  toB : Writer
  fromB : Reader

namespace Ends

def peerA : Peer Ends where
  channel := stageA
  send bs e := let (r, w) := e.toA.send stageA [bs]; (r, { e with toA := w })
  receive e := let (r, reader) := e.fromA.readToken stageA; (r, { e with fromA := reader })

def peerB : Peer Ends where
  channel := stageB
  send bs e := let (r, w) := e.toB.send stageB [bs]; (r, { e with toB := w })
  receive e := let (r, reader) := e.fromB.readToken stageB; (r, { e with fromB := reader })

end Ends

end Relay

/-- A relay between two pairs of streams. -/
structure Relay where
  commands : RelaySettings
  ends : Relay.Ends
  trail : List Audit.Entry

namespace Relay

def run (payload : Bytes) (r : Relay) : Except Failure Bytes × Relay :=
  let (result, entries, ends) := pass Ends.peerA Ends.peerB r.commands payload r.ends
  (result, { r with ends := ends, trail := r.trail ++ entries })

def close (r : Relay) : Relay := { r with trail := r.trail ++ [closeEntry] }

end Relay

end Referee
