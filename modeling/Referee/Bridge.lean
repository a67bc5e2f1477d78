import Referee.Checker.Exact
import Referee.Failure

/-!
# The bridge

A host program hands over two byte strings and takes back a pass flag and a diagnostic that fits
its buffer: at most `Bridge.capacity` bytes and no NUL.
-/

namespace Referee.Bridge

def capacity : Nat := 1000

structure Reply where
  passed : Bool
  message : Bytes
  deriving DecidableEq, Repr

/-- Cuts a message at its first NUL, then to the capacity. -/
def bound (message : Bytes) : Bytes := (message.takeWhile (· ≠ 0)).take capacity

def Reply.ofOutcome (o : Outcome) : Reply := ⟨o.passed, bound o.message⟩

/-- Compares two outputs on behalf of a host. -/
def run (mode : CheckMode) (expected actual : Bytes) : Reply := .ofOutcome (compare mode expected actual)

/-- A value as it arrives from a dynamically typed host. -/
inductive HostValue where
  | bytes (bs : Bytes)
  | str (s : String)
  | int (n : Int64)
  | none
  deriving DecidableEq

def HostValue.typeName : HostValue → String
  | bytes _ => "bytes"
  | str _ => "str"
  | int _ => "int"
  | none => "None"

/-- Runs an operation by name. Operation and arguments are checked before any comparison. -/
def invoke (operation : String) (args : List HostValue) : Except Failure Reply :=
  match CheckMode.ofName? operation with
  | .none => .error (.invalidArgument ("unknown operation: " ++ operation))
  | some mode =>
    match args with
    | [.bytes expected, .bytes actual] => .ok (run mode expected actual)
    | [a, b] => .error (.invalidArgument
        ("expected strings, got (" ++ a.typeName ++ ", " ++ b.typeName ++ ")"))
    | _ => .error (.invalidArgument
        (operation ++ " takes exactly 2 arguments (" ++ args.length.repr ++ " given)"))

end Referee.Bridge
