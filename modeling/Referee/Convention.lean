import Referee.Decimal.Layout
import Referee.Ruling
import Referee.Stream

/-!
# Conventions

A judging system expects a verdict in a shape of its own: certain lines on the two output streams
and an exit code. `Convention.report` gives that shape and `Report.deliver` writes it.
-/

namespace Referee

inductive Convention where
  | plain
  | testlib
  | cms
  | themis
  deriving DecidableEq, Repr

inductive OutputStream where
  | out
  | err
  deriving DecidableEq, Repr

/-- The lines to write, in order, and the exit code. -/
structure Report where
  lines : List (OutputStream × String)
  code : Nat
  deriving DecidableEq, Repr

namespace Convention

def all : List Convention := [plain, testlib, cms, themis]

def name : Convention → String
  | plain => "default"
  | testlib => "testlib"
  | cms => "cms"
  | themis => "themis"

def ofName? (s : String) : Option Convention := all.find? (·.name == s)

def ofName (s : String) : Except Failure Convention :=
  match ofName? s with
  | some c => .ok c
  | none => .error (.config ("unsupported convention: " ++ s))

/-- The order in which the files are passed to a checker. -/
def checkerLayout : Convention → String
  | cms => "\x7binput_file\x7d \x7banswer_file\x7d \x7boutput_file\x7d"
  | _ => "\x7binput_file\x7d \x7boutput_file\x7d \x7banswer_file\x7d"

/-- The order in which the files are passed to an interactor. -/
def interactorLayout (_ : Convention) : String :=
  "\x7binput_file\x7d \x7boutput_file\x7d \x7banswer_file\x7d"

/-- The tag that stands for a translated text. -/
def cmsTag (r : Ruling) : String :=
  match r.verdict with
  | .accepted => if r.score < 1.0 then "translate:partial" else "translate:success"
  | .wrongAnswer => "translate:wrong"

/-- The opening of a report and its exit code. -/
def testlibStatus (r : Ruling) : String × Nat :=
  match r.verdict with
  | .accepted => ("ok ", 0)
  | .wrongAnswer => if r.presentationError then ("wrong output format ", 2) else ("wrong answer ", 1)

/-- A line for the message, unless it is empty. -/
def messageLine (stream : OutputStream) (r : Ruling) : List (OutputStream × String) :=
  if r.message.isEmpty then [] else [(stream, r.message)]

def report (c : Convention) (r : Ruling) : Report :=
  let score := (OutputStream.out, Decimal.plain r.score)
  match c with
  | plain => ⟨score :: messageLine .err r, 0⟩
  | testlib => ⟨[(.err, (testlibStatus r).1 ++ r.message)], (testlibStatus r).2⟩
  | cms => ⟨score :: (.err, cmsTag r) :: messageLine .err r, 0⟩
  | themis => ⟨messageLine .out r ++ [score], 0⟩

end Convention

namespace Report

def lineBytes (line : String) : Bytes := Bytes.ofString line ++ [10]

/-- Everything that is written to one stream. -/
def text (r : Report) (stream : OutputStream) : Bytes :=
  (r.lines.filter (·.1 == stream)).flatMap fun l => lineBytes l.2

/-- Everything that is written, where both streams are one. -/
def combined (r : Report) : Bytes := r.lines.flatMap fun l => lineBytes l.2

/-- Writes lines up to the first fault. -/
def writeLines : List (OutputStream × String) → Writer → Writer → Except Fault Unit × Writer × Writer
  | [], out, err => (.ok (), out, err)
  | (.out, line) :: lines, out, err =>
    match out.write (lineBytes line) with
    | (.ok (), out) => writeLines lines out err
    | (.error fault, out) => (.error fault, out, err)
  | (.err, line) :: lines, out, err =>
    match err.write (lineBytes line) with
    | (.ok (), err) => writeLines lines out err
    | (.error fault, err) => (.error fault, out, err)

/-- Writes the report and flushes both streams; the exit code counts only then. -/
def deliver (r : Report) (out err : Writer) : Except Fault Nat × Writer × Writer :=
  match writeLines r.lines out err with
  | (.error fault, out, err) => (.error fault, out, err)
  | (.ok (), out, err) =>
    match out.flush with
    | (.error fault, out) => (.error fault, out, err)
    | (.ok (), out) =>
      match err.flush with
      | (.error fault, err) => (.error fault, out, err)
      | (.ok (), err) => (.ok r.code, out, err)

end Report

end Referee
