/-!
# Session identifiers

Thirty-two hexadecimal digits, written in lower case in groups of 8, 4, 4, 4 and 12. They are also
read without the hyphens, or with them in braces or behind `urn:uuid:`.
-/

namespace Referee.Audit

structure SessionId where
  digits : List (Fin 16)
  length_digits : digits.length = 32

namespace SessionId

def nil : SessionId := ⟨List.replicate 32 0, rfl⟩

/-- The identifier of sixteen random bytes. Its thirteenth digit says that it is random, and its
seventeenth one belongs to the form. -/
def ofRandom? (bytes : List UInt8) : Option SessionId :=
  let digits := bytes.flatMap fun b => [Fin.ofNat 16 (b.toNat / 16), Fin.ofNat 16 b.toNat]
  let digits := (digits.set 12 4).set 16 (Fin.ofNat 16 (8 + (digits.getD 16 0).val % 4))
  if h : digits.length = 32 then some ⟨digits, h⟩ else none

def digitChar (d : Fin 16) : Char := Nat.digitChar d.val

def chars (id : SessionId) : List Char :=
  let cs := id.digits.map digitChar
  cs.take 8 ++ '-' :: (cs.drop 8).take 4 ++ '-' :: (cs.drop 12).take 4 ++ '-' :: (cs.drop 16).take 4
    ++ '-' :: cs.drop 20

def text (id : SessionId) : String := String.ofList id.chars

def digit? (c : Char) : Option (Fin 16) :=
  if '0' ≤ c && c ≤ '9' then some (Fin.ofNat 16 (c.toNat - 48))
  else if 'a' ≤ c && c ≤ 'f' then some (Fin.ofNat 16 (c.toNat - 87))
  else if 'A' ≤ c && c ≤ 'F' then some (Fin.ofNat 16 (c.toNat - 55))
  else none

def ofDigits? (cs : List Char) : Option SessionId :=
  match cs.mapM digit? with
  | none => none
  | some digits => if h : digits.length = 32 then some ⟨digits, h⟩ else none

/-- Reads the groups between their hyphens. -/
def ofGroups? (cs : List Char) : Option SessionId :=
  match cs.drop 8, cs.drop 13, cs.drop 18, cs.drop 23 with
  | '-' :: _, '-' :: _, '-' :: _, '-' :: last =>
    ofDigits? (cs.take 8 ++ (cs.drop 9).take 4 ++ (cs.drop 14).take 4 ++ (cs.drop 19).take 4 ++ last)
  | _, _, _, _ => none

def ofChars? (cs : List Char) : Option SessionId :=
  if cs.length = 32 then ofDigits? cs
  else if cs.length = 38 ∧ cs.head? = some '\x7b' ∧ cs.getLast? = some '\x7d' then
    ofGroups? ((cs.drop 1).take 36)
  else if cs.length = 45 ∧ cs.take 9 = "urn:uuid:".toList then ofGroups? (cs.drop 9)
  else ofGroups? cs

def ofString? (s : String) : Option SessionId := ofChars? s.toList

end SessionId

end Referee.Audit
