import Referee.Json.Lexeme

/-!
# Reading JSON

Lexemes drive a machine with a stack of the containers that are still open, so nesting has no
limit. `Json.ofString?` reads a text that holds one value and blanks around it.
-/

namespace Referee.Json

/-- An open container: the items or members before the value being read, newest first. -/
inductive Frame where
  | array (items : List Json)
  | object (members : List (Option String × Json)) (key : Option String)

/-- What may come next. -/
inductive Expected where
  | value
  | firstItem
  | afterItem (items : List Json)
  | firstMember
  | member (members : List (Option String × Json))
  | colon (members : List (Option String × Json)) (key : Option String)
  | afterMember (members : List (Option String × Json))
  | nothing (v : Json)

structure Machine where
  expected : Expected
  frames : List Frame

namespace Machine

def start : Machine := ⟨.value, []⟩

/-- A value has been read. -/
def complete (v : Json) : List Frame → Machine
  | [] => ⟨.nothing v, []⟩
  | .array items :: frames => ⟨.afterItem (v :: items), frames⟩
  | .object members key :: frames => ⟨.afterMember ((key, v) :: members), frames⟩

/-- Reads a lexeme that begins a value. -/
def begin? (frames : List Frame) : Lexeme → Option Machine
  | .null => some (complete .null frames)
  | .bool b => some (complete (.bool b) frames)
  | .number n => some (complete (.number n) frames)
  | .string s => some (complete (.string s) frames)
  | .openArray => some ⟨.firstItem, frames⟩
  | .openObject => some ⟨.firstMember, frames⟩
  | _ => none

def step? (m : Machine) (l : Lexeme) : Option Machine :=
  match m.expected, l with
  | .value, l => begin? m.frames l
  | .firstItem, .closeArray => some (complete (.array []) m.frames)
  | .firstItem, l => begin? (.array [] :: m.frames) l
  | .afterItem items, .comma => some ⟨.value, .array items :: m.frames⟩
  | .afterItem items, .closeArray => some (complete (.array items.reverse) m.frames)
  | .firstMember, .string key => some ⟨.colon [] key, m.frames⟩
  | .firstMember, .closeObject => some (complete (.object []) m.frames)
  | .member members, .string key => some ⟨.colon members key, m.frames⟩
  | .colon members key, .colon => some ⟨.value, .object members key :: m.frames⟩
  | .afterMember members, .comma => some ⟨.member members, m.frames⟩
  | .afterMember members, .closeObject => some (complete (.object members.reverse) m.frames)
  | _, _ => none

def result? (m : Machine) : Option Json :=
  match m.expected with
  | .nothing v => some v
  | _ => none

end Machine

/-- The value that a sequence of lexemes denotes. -/
def ofLexemes? (ls : List Lexeme) : Option Json := (ls.foldlM Machine.step? .start).bind (·.result?)

def ofChars? (cs : List Char) : Option Json := (Lexeme.ofChars cs).bind ofLexemes?

def ofString? (s : String) : Option Json := ofChars? s.toList

end Referee.Json
