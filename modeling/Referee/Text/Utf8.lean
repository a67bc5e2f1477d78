import Referee.Bytes

/-!
# UTF-8 decoding

Bytes are read one at a time by a machine that remembers how many continuation bytes it still
expects and which range the next one must lie in. A byte that cannot continue a sequence closes
it as ill-formed and is read afresh, so every maximal ill-formed part counts once.
`decodeLossy` shows each such part as U+FFFD; `decode?` refuses them.
-/

namespace Referee

namespace Utf8

/-- The sequence being read: none, or one whose next byte lies between `lo` and `hi`, with
`left` bytes to come after that byte and `code` gathered so far. -/
inductive Pending where
  | idle
  | inside (lo hi : UInt8) (left : Nat) (code : Nat)
  deriving DecidableEq, Repr

/-- What has been read, newest first; `none` is an ill-formed part. -/
structure State where
  read : List (Option Char)
  pending : Pending

namespace State

def start : State := ⟨[], .idle⟩

/-- Reads a byte that begins a sequence. -/
def lead (read : List (Option Char)) (b : UInt8) : State :=
  if b < 0x80 then ⟨some (Char.ofNat b.toNat) :: read, .idle⟩
  else if 0xC2 ≤ b && b ≤ 0xDF then ⟨read, .inside 0x80 0xBF 0 (b.toNat - 0xC0)⟩
  else if b == 0xE0 then ⟨read, .inside 0xA0 0xBF 1 0⟩
  else if b == 0xED then ⟨read, .inside 0x80 0x9F 1 0x0D⟩
  else if 0xE1 ≤ b && b ≤ 0xEF then ⟨read, .inside 0x80 0xBF 1 (b.toNat - 0xE0)⟩
  else if b == 0xF0 then ⟨read, .inside 0x90 0xBF 2 0⟩
  else if b == 0xF4 then ⟨read, .inside 0x80 0x8F 2 4⟩
  else if 0xF1 ≤ b && b ≤ 0xF3 then ⟨read, .inside 0x80 0xBF 2 (b.toNat - 0xF0)⟩
  else ⟨none :: read, .idle⟩

def push (s : State) (b : UInt8) : State :=
  match s.pending with
  | .idle => lead s.read b
  | .inside lo hi left code =>
    if lo ≤ b && b ≤ hi then
      let code := code * 64 + (b.toNat - 0x80)
      match left with
      | 0 => ⟨some (Char.ofNat code) :: s.read, .idle⟩
      | left + 1 => ⟨s.read, .inside 0x80 0xBF left code⟩
    else lead (none :: s.read) b

/-- A sequence cut off by the end of the bytes is ill-formed. -/
def finish (s : State) : List (Option Char) :=
  match s.pending with
  | .idle => s.read.reverse
  | .inside .. => (none :: s.read).reverse

end State

/-- The characters of a byte string, with `none` for each maximal ill-formed part. -/
def decode (bs : Bytes) : List (Option Char) := (bs.foldl State.push State.start).finish

/-- The text of a byte string, if it is well-formed. -/
def decode? (bs : Bytes) : Option (List Char) := (decode bs).mapM id

def replacement : Char := '\uFFFD'

def decodeLossy (bs : Bytes) : List Char := (decode bs).map (·.getD replacement)

end Utf8

/-- The text of a byte string, ill-formed parts replaced. -/
def Bytes.toStringLossy (bs : Bytes) : String := String.ofList (Utf8.decodeLossy bs)

/-- The text of a byte string, if it is one. -/
def Bytes.toString? (bs : Bytes) : Option String := (Utf8.decode? bs).map String.ofList

end Referee
