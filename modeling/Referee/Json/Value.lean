import Referee.Decimal.Layout

/-!
# JSON values

Members keep their order and numbers their written form. A string may hold an escape that stands
for no character, namely half of a surrogate pair; such a string is `none`. `Json.compact` and
`Json.pretty` are the two written forms.
-/

namespace Referee

open Decimal (Numeral)

inductive Json where
  | null
  | bool (b : Bool)
  | number (n : Numeral)
  | string (s : Option String)
  | array (items : List Json)
  | object (members : List (Option String × Json))

namespace Json

def text (s : String) : Json := .string (some s)

def nat (n : Nat) : Json := .number (.ofNat n)

def int (n : Int) : Json := .number (.ofInt n)

/-- A double, or null if it is infinite or a NaN. -/
def float (x : Float) : Json :=
  match Decimal.json? x with
  | some n => .number n
  | none => .null

/-- An object with the given members. -/
def record (members : List (String × Json)) : Json :=
  .object (members.map fun (k, v) => (some k, v))

/-! ## Writing -/

def hexDigit (n : Nat) : Char := Nat.digitChar n

/-- Quotes, backslashes and control characters are escaped; all else stands for itself. -/
def escape (c : Char) : List Char :=
  match c with
  | '"' => ['\\', '"']
  | '\\' => ['\\', '\\']
  | '\x08' => ['\\', 'b']
  | '\x0c' => ['\\', 'f']
  | '\n' => ['\\', 'n']
  | '\r' => ['\\', 'r']
  | '\t' => ['\\', 't']
  | c =>
    if c.toNat < 32 then ['\\', 'u', '0', '0', hexDigit (c.toNat / 16), hexDigit (c.toNat % 16)]
    else [c]

/-- A string; one that is none is written as half of a surrogate pair. -/
def quote (s : Option String) : List Char :=
  match s with
  | some s => '"' :: s.toList.flatMap escape ++ ['"']
  | none => ['"', '\\', 'u', 'd', '8', '0', '0', '"']

def openBrace : Char := '\x7b'

def closeBrace : Char := '\x7d'

mutual

/-- The form without blanks. -/
def compactChars : Json → List Char
  | null => ['n', 'u', 'l', 'l']
  | bool true => ['t', 'r', 'u', 'e']
  | bool false => ['f', 'a', 'l', 's', 'e']
  | number n => n.chars
  | string s => quote s
  | array items => '[' :: (itemChars items ++ [']'])
  | object members => openBrace :: (memberChars members ++ [closeBrace])

/-- Items with commas between them. -/
def itemChars : List Json → List Char
  | [] => []
  | [v] => compactChars v
  | v :: w :: rest => compactChars v ++ ',' :: itemChars (w :: rest)

/-- Members with commas between them. -/
def memberChars : List (Option String × Json) → List Char
  | [] => []
  | [(k, v)] => quote k ++ ':' :: compactChars v
  | (k, v) :: m :: rest => quote k ++ ':' :: (compactChars v ++ ',' :: memberChars (m :: rest))

end

def compact (v : Json) : String := String.ofList v.compactChars

/-- A line break and two spaces for each level. -/
def breakChars (level : Nat) : List Char := '\n' :: List.replicate (2 * level) ' '

mutual

/-- The form with one item or member a line, from the given level of nesting on. -/
def prettyChars (level : Nat) : Json → List Char
  | null => ['n', 'u', 'l', 'l']
  | bool true => ['t', 'r', 'u', 'e']
  | bool false => ['f', 'a', 'l', 's', 'e']
  | number n => n.chars
  | string s => quote s
  | array [] => ['[', ']']
  | array (v :: items) => '[' :: (prettyItems (level + 1) (v :: items) ++ breakChars level ++ [']'])
  | object [] => [openBrace, closeBrace]
  | object (m :: members) =>
    openBrace :: (prettyMembers (level + 1) (m :: members) ++ breakChars level ++ [closeBrace])

def prettyItems (level : Nat) : List Json → List Char
  | [] => []
  | [v] => breakChars level ++ prettyChars level v
  | v :: w :: rest =>
    breakChars level ++ prettyChars level v ++ ',' :: prettyItems level (w :: rest)

def prettyMembers (level : Nat) : List (Option String × Json) → List Char
  | [] => []
  | [(k, v)] => breakChars level ++ quote k ++ ':' :: ' ' :: prettyChars level v
  | (k, v) :: m :: rest =>
    breakChars level ++ quote k ++ ':' :: ' ' :: (prettyChars level v
      ++ ',' :: prettyMembers level (m :: rest))

end

def pretty (v : Json) : String := String.ofList (v.prettyChars 0)

end Json

end Referee
