import Referee.Failure
import Referee.Text.Space

/-!
# File arguments

A layout names, in order, the files that a judging system passes to a checker or an interactor.
`Binding.ofArguments` reads a list of arguments along such a layout.
-/

namespace Referee

inductive Slot where
  | input
  | output
  | answer
  deriving DecidableEq, Repr

namespace Slot

def all : List Slot := [input, output, answer]

def name : Slot → String
  | input => "\x7binput_file\x7d"
  | output => "\x7boutput_file\x7d"
  | answer => "\x7banswer_file\x7d"

def ofName? (s : String) : Option Slot := all.find? (·.name == s)

end Slot

/-- The three files of a run. -/
structure Binding where
  input : String
  output : String
  answer : String
  deriving DecidableEq, Repr

/-- The files bound so far. -/
structure PartialBinding where
  input : Option String
  output : Option String
  answer : Option String
  deriving DecidableEq, Repr

namespace PartialBinding

def empty : PartialBinding := ⟨none, none, none⟩

/-- A later argument for a slot replaces an earlier one. -/
def assign (b : PartialBinding) (slot : Slot) (file : String) : PartialBinding :=
  match slot with
  | .input => { b with input := some file }
  | .output => { b with output := some file }
  | .answer => { b with answer := some file }

def complete? : PartialBinding → Option Binding
  | ⟨some input, some output, some answer⟩ => some ⟨input, output, answer⟩
  | _ => none

/-- Assigns each argument to the slot beside it. -/
def assignAll (b : PartialBinding) : List (String × String) → Except Failure PartialBinding
  | [] => .ok b
  | (slot, file) :: rest =>
    match Slot.ofName? slot with
    | some slot => (b.assign slot file).assignAll rest
    | none => .error (.config ("unknown argument slot: " ++ slot))

end PartialBinding

def Binding.ofArguments (layout : String) (args : List String) : Except Failure Binding :=
  let slots := Text.words layout
  if slots.length = args.length then
    match PartialBinding.empty.assignAll (slots.zip args) with
    | .error e => .error e
    | .ok b =>
      match b.complete? with
      | some binding => .ok binding
      | none => .error (.config ("argument layout is missing a slot: " ++ layout))
  else
    .error (.invalidArgument ("expected " ++ slots.length.repr ++ " file arguments (" ++ layout
      ++ "), got " ++ args.length.repr))

end Referee
