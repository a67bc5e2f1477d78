/-!
# Failures

A `Fault` is what the operating system or a stream reports; a `Failure` is what the referee
reports. `Failure.message` is the wording of each.
-/

namespace Referee

/-- The kinds of input and output errors that the referee tells apart. -/
inductive FaultKind where
  | brokenPipe
  | unexpectedEof
  | connectionReset
  | connectionAborted
  | timedOut
  | wouldBlock
  | permissionDenied
  | notFound
  | alreadyExists
  | notADirectory
  | isADirectory
  | invalidInput
  | invalidData
  | interrupted
  | writeZero
  | other
  deriving DecidableEq, Repr

/-- The kinds that mean that the other end has gone away. -/
def FaultKind.isPeerClosed : FaultKind → Bool
  | brokenPipe | unexpectedEof | connectionReset => true
  | _ => false

structure Fault where
  kind : FaultKind
  text : String
  deriving DecidableEq, Repr

inductive Failure where
  | io (fault : Fault)
  | config (detail : String)
  | invalidArgument (detail : String)
  | peerClosed (channel : String)
  | protocol (detail : String)
  | json
  deriving DecidableEq, Repr

namespace Failure

def jsonDetail : String := "not the expected JSON"

def message : Failure → String
  | io fault => "IO error: " ++ fault.text
  | config detail => "Configuration error: " ++ detail
  | invalidArgument detail => "Invalid argument: " ++ detail
  | peerClosed channel => "Peer closed channel '" ++ channel ++ "'"
  | protocol detail => "Protocol error: " ++ detail
  | json => "JSON error: " ++ jsonDetail

/-- The failure behind a failure, as a command shows it below the message. -/
def cause? : Failure → Option String
  | io fault => some fault.text
  | json => some jsonDetail
  | _ => none

/-- Whether the failure came from the other end of a channel going away. -/
def isPeerClosed : Failure → Bool
  | peerClosed _ => true
  | io fault => fault.kind.isPeerClosed
  | _ => false

end Failure

end Referee
