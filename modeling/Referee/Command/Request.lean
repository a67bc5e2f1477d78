import Referee.Convention
import Referee.Relay.Files

/-!
# Requests

What a command line asks for. `Request.ofArguments` reads its words in order: options that hold for
every command, the command, then its files and options. The first thing that ends the reading, be it
a call for help or a mistake, is the request.
-/

namespace Referee

/-- The programs in which commands are available: all of them in the first, each in one of the
others. -/
inductive Program where
  | full
  | checker
  | interactor
  | manager
  deriving DecidableEq, Repr

inductive Command where
  | check
  | compare
  | interact
  | relay
  deriving DecidableEq, Repr

namespace Program

def all : List Program := [full, checker, interactor, manager]

def name : Program → String
  | full => "arbiter"
  | checker => "checker"
  | interactor => "interactor"
  | manager => "manager"

def ofName? (s : String) : Option Program := all.find? (·.name == s)

end Program

namespace Command

def all : List Command := [check, compare, interact, relay]

def name : Command → String
  | check => "check"
  | compare => "compare"
  | interact => "interact"
  | relay => "relay"

def ofName? (s : String) : Option Command := all.find? (·.name == s)

/-- The program that is made for a command. -/
def program : Command → Program
  | check | compare => .checker
  | interact => .interactor
  | relay => .manager

def fileCount : Command → Nat
  | check | interact => 3
  | compare => 2
  | relay => 4

/-- Whether the files may be given again after an option. -/
def takesGroups : Command → Bool
  | check | interact => true
  | compare | relay => false

end Command

def Program.allows (p : Program) (c : Command) : Bool := p == .full || p == c.program

/-- A command with its files and the options of its own. -/
inductive Task where
  | check (files : List String) (checker : Option String) (convention : Option Convention)
  | compare (expected actual : String) (checker : Option String) (json : Bool)
  | interact (files : List String) (convention : Option Convention)
  | relay (paths : Relay.Paths)
  deriving DecidableEq, Repr

def Task.command : Task → Command
  | check .. => .check
  | compare .. => .compare
  | interact .. => .interact
  | relay .. => .relay

/-- The files that a command is given, other than channels. -/
def Task.files : Task → List String
  | .check files .. => files
  | .compare expected actual .. => [expected, actual]
  | .interact files .. => files
  | .relay _ => []

structure Invocation where
  config : Option String
  auditLog : Option String
  task : Task
  deriving DecidableEq, Repr

/-! ## Options -/

namespace Command

inductive Key where
  | config
  | auditLog
  | checker
  | convention
  | json
  deriving DecidableEq, Repr

namespace Key

def all : List Key := [config, auditLog, checker, convention, json]

def name : Key → String
  | config => "config"
  | auditLog => "audit-log"
  | checker => "checker"
  | convention => "convention"
  | json => "json"

def ofName? (s : String) : Option Key := all.find? (·.name == s)

/-- A flag takes no value. -/
def isFlag : Key → Bool
  | json => true
  | _ => false

/-- Options in front of a command, and those of each command. -/
def isAllowed : Key → Option Command → Bool
  | config, _ | auditLog, _ => true
  | checker, some .check | checker, some .compare => true
  | convention, some .check | convention, some .interact => true
  | json, some .compare => true
  | _, _ => false

end Key

inductive Misuse where
  | missingCommand
  | unknownCommand (name : String)
  | unknownOption (word : String)
  | repeatedOption (key : Key)
  | missingValue (key : Key)
  | unexpectedValue (key : Key)
  | badValue (key : Key) (value : String)
  | emptyPath
  | wrongFileCount (command : Command)
  deriving DecidableEq, Repr

def Misuse.message : Misuse → String
  | missingCommand => "a command is required"
  | unknownCommand name => "unknown command '" ++ name ++ "'"
  | unknownOption word => "unknown option '" ++ word ++ "'"
  | repeatedOption key => "option '--" ++ key.name ++ "' is given twice"
  | missingValue key => "option '--" ++ key.name ++ "' needs a value"
  | unexpectedValue key => "option '--" ++ key.name ++ "' takes no value"
  | badValue key value => "bad value '" ++ value ++ "' for option '--" ++ key.name ++ "'"
  | emptyPath => "a path must not be empty"
  | wrongFileCount c => "command '" ++ c.name ++ "' takes " ++ c.fileCount.repr ++ " files"

end Command

inductive Request where
  | run (invocation : Invocation)
  | help
  | version
  | misuse (misuse : Command.Misuse)
  deriving DecidableEq, Repr

namespace Command

/-- Reading goes on with a value or ends with a request. -/
abbrev Reading (α : Type) := Except Request α

def refuse {α : Type} (m : Misuse) : Reading α := .error (.misuse m)

structure Options where
  config : Option String
  auditLog : Option String
  checker : Option String
  convention : Option Convention
  json : Bool
  deriving DecidableEq, Repr

namespace Options

def empty : Options := ⟨none, none, none, none, false⟩

def has (o : Options) : Key → Bool
  | .config => o.config.isSome
  | .auditLog => o.auditLog.isSome
  | .checker => o.checker.isSome
  | .convention => o.convention.isSome
  | .json => o.json

/-- Sets an option that has not been set. -/
def set (o : Options) (key : Key) (value : Option String) : Reading Options :=
  if o.has key then refuse (.repeatedOption key)
  else match key, value with
    | .json, none => .ok { o with json := true }
    | .json, some _ => refuse (.unexpectedValue .json)
    | key, none => refuse (.missingValue key)
    | .config, some v => if v.isEmpty then refuse .emptyPath else .ok { o with config := some v }
    | .auditLog, some v => if v.isEmpty then refuse .emptyPath else .ok { o with auditLog := some v }
    | .checker, some v => .ok { o with checker := some v }
    | .convention, some v =>
      match Convention.ofName? v with
      | some c => .ok { o with convention := some c }
      | none => refuse (.badValue .convention v)

end Options

/-! ## Words -/

/-- A word of a command line, or an option and its value. -/
inductive Item where
  /-- Only operands follow. -/
  | separator
  | operand (text : String)
  | option (key : Key) (value : Option String)
  | help
  | version
  | unknown (word : String)
  deriving DecidableEq, Repr

namespace Item

/-- An option by its name, and the value that is part of the word. -/
def ofOption (word name : String) (value : Option String) : Item :=
  match Key.ofName? name, value with
  | some key, value => .option key value
  | none, none =>
    if name = "help" then .help else if name = "version" then .version else .unknown word
  | none, some _ => .unknown word

def ofWord (word : String) : Item :=
  match word.toList with
  | ['-', '-'] => .separator
  | '-' :: '-' :: cs =>
    let value := match cs.dropWhile (· ≠ '=') with
      | [] => none
      | _ :: v => some (String.ofList v)
    ofOption word (String.ofList (cs.takeWhile (· ≠ '='))) value
  | '-' :: 'h' :: _ => .help
  | '-' :: 'V' :: _ => .version
  | '-' :: _ :: _ => .unknown word
  | _ => .operand word

/-- A word that does not look like an option. -/
def isOperand (word : String) : Bool := ofWord word == .operand word

/-- The items of a command line. An option without a value takes the next word as its value, unless
that one looks like an option. -/
def ofWords : List String → List Item
  | [] => []
  | [word] => [ofWord word]
  | word :: next :: rest =>
    match ofWord word with
    | .separator => .separator :: (next :: rest).map .operand
    | .option key none =>
      if !key.isFlag && isOperand next then .option key (some next) :: ofWords rest
      else .option key none :: ofWords (next :: rest)
    | item => item :: ofWords (next :: rest)

end Item

/-! ## The part behind the command -/

structure Part where
  options : Options
  files : List String
  /-- How many files there are since the last option. -/
  group : Nat
  deriving DecidableEq, Repr

namespace Part

def empty : Part := ⟨.empty, [], 0⟩

/-- Groups of files are complete. -/
def endGroup (c : Command) (p : Part) : Reading Part :=
  if c.takesGroups ∧ p.group ≠ 0 ∧ p.group ≠ c.fileCount then refuse (.wrongFileCount c)
  else .ok { p with group := 0 }

def addFile (c : Command) (p : Part) (file : String) : Reading Part :=
  if !c.takesGroups ∧ p.files.length = c.fileCount then refuse (.wrongFileCount c)
  else if file.isEmpty then refuse .emptyPath
  else .ok { p with files := p.files ++ [file], group := p.group + 1 }

def read (c : Command) (p : Part) : Item → Reading Part
  | .separator => .ok p
  | .operand file => p.addFile c file
  | .option key value => do
    let p ← p.endGroup c
    if key.isAllowed (some c) then return { p with options := ← p.options.set key value }
    else refuse (.unknownOption key.name)
  | .help => do
    let _ ← p.endGroup c
    .error .help
  | .version => refuse (.unknownOption "version")
  | .unknown word => refuse (.unknownOption word)

def task (c : Command) (p : Part) : Reading Task :=
  match c, p.files with
  | .check, f :: fs => .ok (.check (f :: fs) p.options.checker p.options.convention)
  | .compare, [expected, actual] => .ok (.compare expected actual p.options.checker p.options.json)
  | .interact, f :: fs => .ok (.interact (f :: fs) p.options.convention)
  | .relay, [fromA, toA, fromB, toB] => .ok (.relay ⟨fromA, toA, fromB, toB⟩)
  | c, _ => refuse (.wrongFileCount c)

end Part

/-- The part of a command line behind a command. -/
def readPart (c : Command) (items : List Item) : Reading (Options × Task) := do
  let p ← items.foldlM (Part.read c) .empty
  let p ← p.endGroup c
  return (p.options, ← p.task c)

/-! ## The whole line -/

/-- The configuration that is used: an option counts more than the environment, and more so behind
the command. The environment has to be sound where an option could have been. -/
def chooseConfig (environment outer inner : Option String) : Reading (Option String) :=
  if environment = some "" ∧ (outer.isNone ∨ inner.isNone) then refuse .emptyPath
  else .ok (inner <|> outer <|> environment)

/-- Help may be asked for by name, about one command or about help. -/
def readHelp : List Item → Request
  | [] => .help
  | [.operand name] =>
    if name = "help" ∨ (ofName? name).isSome then .help else .misuse (.unknownCommand name)
  | _ => .misuse (.unknownCommand "help")

def readLine (environment : Option String) (o : Options) : List Item → Reading Invocation
  | [] | .separator :: _ => refuse .missingCommand
  | .operand name :: rest =>
    if name = "help" then .error (readHelp rest)
    else match ofName? name with
      | none => refuse (.unknownCommand name)
      | some c => do
        let (inner, task) ← readPart c rest
        let config ← chooseConfig environment o.config inner.config
        return ⟨config, inner.auditLog <|> o.auditLog, task⟩
  | .option key value :: rest =>
    if key.isAllowed none then do readLine environment (← o.set key value) rest
    else refuse (.unknownOption key.name)
  | .help :: _ => .error .help
  | .version :: _ => .error .version
  | .unknown word :: _ => refuse (.unknownOption word)

end Command

/-- What the words of a command line ask for. The environment may name a configuration. -/
def Request.ofArguments (environment : Option String) (args : List String) : Request :=
  match Command.readLine environment .empty (Command.Item.ofWords args) with
  | .ok i => .run i
  | .error r => r

end Referee
