import Referee.Text.Space

/-!
# Instants

A moment in UTC, to the nanosecond. It is written as `2024-01-02T03:04:05.678Z` with as many
groups of three fractional digits as it needs; a leap second is a second 60. It is read with
blanks between its parts, a space for the `T`, and any offset from UTC.
-/

namespace Referee.Audit

/-! ## Dates -/

def isLeapYear (year : Int) : Bool := year % 4 == 0 && (year % 100 != 0 || year % 400 == 0)

def daysInMonth (year : Int) : Nat → Nat
  | 1 | 3 | 5 | 7 | 8 | 10 | 12 => 31
  | 4 | 6 | 9 | 11 => 30
  | 2 => if isLeapYear year then 29 else 28
  | _ => 0

/-- The days of the years that are supported. -/
def isDate (year : Int) (month day : Nat) : Bool :=
  -262143 ≤ year && year ≤ 262142 && 1 ≤ day && day ≤ daysInMonth year month

structure Date where
  year : Int
  month : Nat
  day : Nat
  valid : isDate year month day = true

namespace Date

def of? (year : Int) (month day : Nat) : Option Date :=
  if h : isDate year month day = true then some ⟨year, month, day, h⟩ else none

def next? (d : Date) : Option Date :=
  if d.day < daysInMonth d.year d.month then of? d.year d.month (d.day + 1)
  else if d.month < 12 then of? d.year (d.month + 1) 1
  else of? (d.year + 1) 1 1

def previous? (d : Date) : Option Date :=
  if 1 < d.day then of? d.year d.month (d.day - 1)
  else if 1 < d.month then of? d.year (d.month - 1) (daysInMonth d.year (d.month - 1))
  else of? (d.year - 1) 12 31

/-- The date a number of days later. -/
def later? : Nat → Date → Option Date
  | 0, d => some d
  | n + 1, d => d.next?.bind (later? n)

end Date

structure Instant where
  date : Date
  hour : Fin 24
  minute : Fin 60
  second : Fin 60
  /-- At least a whole second during a leap second. -/
  nanosecond : Nat
  valid : nanosecond < 1000000000 ∨ (second = 59 ∧ nanosecond < 2000000000)

namespace Instant

def epoch : Instant := ⟨⟨1970, 1, 1, by decide⟩, 0, 0, 0, 0, .inl (by decide)⟩

/-- The instant a number of nanoseconds after the epoch. -/
def afterEpoch? (nanoseconds : Nat) : Option Instant :=
  let seconds := nanoseconds / 1000000000
  let clock := seconds % 86400
  (Date.later? (seconds / 86400) epoch.date).map fun d =>
    ⟨d, Fin.ofNat 24 (clock / 3600), Fin.ofNat 60 (clock / 60 % 60), Fin.ofNat 60 (clock % 60),
      nanoseconds % 1000000000, .inl (Nat.mod_lt _ (by decide))⟩

/-! ## Writing -/

/-- A number with leading zeros up to a width. -/
def padded (width n : Nat) : List Char :=
  List.replicate (width - n.repr.length) '0' ++ n.repr.toList

/-- A year of four digits, or a sign and at least four digits. -/
def yearChars (year : Int) : List Char :=
  if 0 ≤ year ∧ year ≤ 9999 then padded 4 year.toNat
  else (if year < 0 then '-' else '+') :: padded 4 year.natAbs

def fractionChars (nanosecond : Nat) : List Char :=
  if nanosecond = 0 then []
  else if nanosecond % 1000000 = 0 then '.' :: padded 3 (nanosecond / 1000000)
  else if nanosecond % 1000 = 0 then '.' :: padded 6 (nanosecond / 1000)
  else '.' :: padded 9 nanosecond

def chars (t : Instant) : List Char :=
  let leap := t.nanosecond / 1000000000
  yearChars t.date.year ++ '-' :: padded 2 t.date.month ++ '-' :: padded 2 t.date.day
    ++ 'T' :: padded 2 t.hour ++ ':' :: padded 2 t.minute ++ ':' :: padded 2 (t.second + leap)
    ++ fractionChars (t.nanosecond % 1000000000) ++ ['Z']

def text (t : Instant) : String := String.ofList t.chars

/-! ## Reading -/

def isDigit (c : Char) : Bool := '0' ≤ c && c ≤ '9'

def ofDigits (cs : List Char) : Nat := cs.foldl (fun n c => 10 * n + (c.toNat - 48)) 0

def skipSpace (cs : List Char) : List Char := cs.dropWhile Text.isSpace

/-- Takes one digit or more off the front, `most` at the most. -/
def digits? (most : Nat) (cs : List Char) : Option (List Char × List Char) :=
  let ds := (cs.take most).takeWhile isDigit
  if ds.isEmpty then none else some (ds, cs.drop ds.length)

def number? (most : Nat) (cs : List Char) : Option (Nat × List Char) :=
  (digits? most cs).map fun (ds, rest) => (ofDigits ds, rest)

/-- A number of one or two digits, perhaps after space. -/
def pair? (cs : List Char) : Option (Nat × List Char) := number? 2 (skipSpace cs)

/-- A year has up to four digits, or a sign and any number of them. -/
def year? (cs : List Char) : Option (Int × List Char) :=
  match skipSpace cs with
  | '-' :: cs => (number? cs.length cs).map fun (n, rest) => (-n, rest)
  | '+' :: cs => (number? cs.length cs).map fun (n, rest) => (n, rest)
  | cs => (number? 4 cs).map fun (n, rest) => (n, rest)

/-- A mark, perhaps after space. -/
def mark? (c : Char) (cs : List Char) : Option (List Char) :=
  match skipSpace cs with
  | d :: rest => if d = c then some rest else none
  | [] => none

/-- The separator of date and time. -/
def separator? : List Char → Option (List Char)
  | c :: rest => if c = 'T' ∨ c = 't' ∨ c = ' ' then some rest else none
  | [] => none

/-- A fraction of a second; digits beyond the ninth are dropped. -/
def fraction? : List Char → Option (Nat × List Char)
  | '.' :: cs =>
    (digits? 9 cs).map fun (ds, rest) =>
      (ofDigits ds * Nat.pow 10 (9 - ds.length), rest.dropWhile isDigit)
  | cs => some (0, cs)

/-- Minutes of an offset, and the rest. -/
def offsetMinutes? : List Char → Option (Nat × List Char)
  | a :: b :: rest =>
    if isDigit a && isDigit b && a ≤ '5' then some (ofDigits [a, b], rest) else none
  | _ => none

/-- Hours and minutes of an offset in seconds, with colons or space between them. -/
def offsetSeconds? : List Char → Option (Nat × List Char)
  | a :: b :: rest =>
    if isDigit a && isDigit b then
      (offsetMinutes? (rest.dropWhile fun c => c = ':' || Text.isSpace c)).map fun (m, rest) =>
        (ofDigits [a, b] * 3600 + m * 60, rest)
    else none
  | _ => none

/-- How far local time is ahead of UTC, in seconds. -/
def offset? (cs : List Char) : Option (Int × List Char) :=
  if (cs.take 3).map Char.toUpper = ['U', 'T', 'C'] then some (0, cs.drop 3)
  else match cs with
    | 'Z' :: rest | 'z' :: rest => some (0, rest)
    | '+' :: rest => (offsetSeconds? rest).map fun (n, rest) => (n, rest)
    | '-' :: rest | '−' :: rest => (offsetSeconds? rest).map fun (n, rest) => (-n, rest)
    | _ => none

/-- The date on which a second of the day falls, counted from a given date on. -/
def dateOf? (d : Date) (seconds : Int) : Option Date :=
  if seconds < 0 then d.previous? else if seconds < 86400 then some d else d.next?

/-- The instant of a second of the day in local time. A second 60 belongs to second 59. -/
def ofLocal? (d : Date) (hour minute second nanosecond : Nat) (offset : Int) : Option Instant :=
  if hour < 24 ∧ minute < 60 ∧ second ≤ 60 ∧ offset.natAbs < 86400 ∧ nanosecond < 1000000000 then
    let leap := second / 60
    let total : Int := hour * 3600 + minute * 60 + (second - leap : Nat) - offset
    let clock := (total % 86400).toNat
    (dateOf? d total).bind fun d =>
      let nanosecond := nanosecond + 1000000000 * leap
      if h : nanosecond < 1000000000 ∨ (Fin.ofNat 60 (clock % 60) = 59 ∧ nanosecond < 2000000000) then
        some ⟨d, Fin.ofNat 24 (clock / 3600), Fin.ofNat 60 (clock / 60 % 60),
          Fin.ofNat 60 (clock % 60), nanosecond, h⟩
      else none
  else none

def ofChars? (cs : List Char) : Option Instant := do
  let (year, cs) ← year? cs
  let cs ← mark? '-' cs
  let (month, cs) ← pair? cs
  let cs ← mark? '-' cs
  let (day, cs) ← pair? cs
  let cs ← separator? cs
  let (hour, cs) ← pair? cs
  let cs ← mark? ':' cs
  let (minute, cs) ← pair? cs
  let cs ← mark? ':' cs
  let (second, cs) ← pair? cs
  let (nanosecond, cs) ← fraction? cs
  let (offset, cs) ← offset? (skipSpace cs)
  let date ← Date.of? year month day
  if (skipSpace cs).isEmpty then ofLocal? date hour minute second nanosecond offset else none

def ofString? (s : String) : Option Instant := ofChars? s.toList

end Instant

end Referee.Audit
