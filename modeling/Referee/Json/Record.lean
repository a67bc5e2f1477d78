import Referee.Json.Double

/-!
# Values out of JSON

A word is a string, or an object with one key whose value is null. A record is an object, whose
known keys come at most once and whose other keys are passed over, or an array of the field values
in order. `Fields` holds the values that a record gives.
-/

namespace Referee.Json

def word? : Json → Option String
  | .string s => s
  | .object [(key, .null)] => key
  | _ => none

/-- One of the listed values, by its name. -/
def choice? {α : Type} (all : List α) (name : α → String) (v : Json) : Option α :=
  v.word?.bind fun w => all.find? (name · == w)

def string? : Json → Option String
  | .string s => s
  | _ => none

def bool? : Json → Option Bool
  | .bool b => some b
  | _ => none

def int? : Json → Option Int
  | .number n => n.toInt?
  | _ => none

def uint32? (v : Json) : Option UInt32 :=
  v.int?.bind fun n => if 0 ≤ n ∧ n.toNat < UInt32.size then some (UInt32.ofNat n.toNat) else none

def int64? (v : Json) : Option Int64 :=
  v.int?.bind fun n =>
    if Int64.minValue.toInt ≤ n ∧ n ≤ Int64.maxValue.toInt then some (Int64.ofInt n) else none

def float? : Json → Option Float
  | .number n => double? n
  | _ => none

/-! ## Records -/

/-- The values that a record gives, by field name. -/
structure Fields where
  /-- Whether the values were listed without their names. -/
  positional : Bool
  values : List (String × Json)

/-- The members whose key is a text; every key must be one. -/
def namedMembers? : List (Option String × Json) → Option (List (String × Json))
  | [] => some []
  | (some k, v) :: rest => (namedMembers? rest).map ((k, v) :: ·)
  | (none, _) :: _ => none

/-- No name occurs twice. -/
def distinct : List String → Bool
  | [] => true
  | k :: ks => !ks.contains k && distinct ks

/-- Reads a record whose fields are `names`. -/
def fields? (names : List String) : Json → Option Fields
  | .object members =>
    (namedMembers? members).bind fun members =>
      let known := members.filter (names.contains ·.1)
      if distinct (known.map (·.1)) then some ⟨false, known⟩ else none
  | .array items => if items.length ≤ names.length then some ⟨true, names.zip items⟩ else none
  | _ => none

namespace Fields

def get? (f : Fields) (name : String) : Option Json := f.values.lookup name

def required {α : Type} (f : Fields) (name : String) (read? : Json → Option α) : Option α :=
  (f.get? name).bind read?

/-- A field that takes its default if it is not given. -/
def defaulted {α : Type} (f : Fields) (name : String) (default : α) (read? : Json → Option α) :
    Option α :=
  match f.get? name with
  | some v => read? v
  | none => some default

/-- A field that may be null, or left out where fields have names. -/
def optional {α : Type} (f : Fields) (name : String) (read? : Json → Option α) : Option (Option α) :=
  match f.get? name with
  | some .null => some none
  | some v => (read? v).map some
  | none => if f.positional then none else some none

end Fields

/-- A member that is left out if there is no value. -/
def member? {α : Type} (name : String) (toJson : α → Json) (v : Option α) : List (String × Json) :=
  match v with
  | some v => [(name, toJson v)]
  | none => []

end Referee.Json
