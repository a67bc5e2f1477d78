import Referee.Failure

/-!
# Complaints

How a command reports that it has failed: what could not be done and, below it, why.
-/

namespace Referee.Command

structure Complaint where
  message : String
  /-- Each is the reason for the one in front of it. -/
  causes : List String
  deriving DecidableEq, Repr

namespace Complaint

def ofFailure (e : Failure) : Complaint := ⟨e.message, e.cause?.toList⟩

def ofFault (attempt : String) (fault : Fault) : Complaint := ⟨attempt, [fault.text]⟩

/-- A complaint about an attempt for which another complaint is the reason. -/
def within (attempt : String) (c : Complaint) : Complaint := ⟨attempt, c.message :: c.causes⟩

/-- A text whose lines, after the first one, are indented. -/
def indented (width : Nat) (s : String) : List Char :=
  s.toList.flatMap fun c => if c = '\n' then '\n' :: List.replicate width ' ' else [c]

/-- A numbered cause. -/
def numbered (n : Nat) (cause : String) : List Char :=
  let number := n.repr.toList
  '\n' :: List.replicate (5 - number.length) ' ' ++ number ++ ": ".toList ++ indented 7 cause

/-- Several causes are numbered from 0, a single one is not. -/
def causeChars : List String → List Char
  | [] => []
  | [cause] => "\n\nCaused by:\n    ".toList ++ indented 4 cause
  | causes => "\n\nCaused by:".toList ++ (causes.zipIdx.flatMap fun (cause, n) => numbered n cause)

def text (c : Complaint) : String :=
  "Error: " ++ c.message ++ String.ofList (causeChars c.causes) ++ "\n"

end Complaint

end Referee.Command
