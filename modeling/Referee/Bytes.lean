/-!
# Byte strings

Answers, tokens and diagnostics are lists of bytes: they need not be text. `Bytes.ofString` is
the UTF-8 form of a text.
-/

namespace Referee

abbrev Bytes := List UInt8

namespace Bytes

/-- The UTF-8 form of a character sequence. -/
def ofChars (cs : List Char) : Bytes := cs.flatMap String.utf8EncodeChar

/-- The UTF-8 form of a text. -/
def ofString (s : String) : Bytes := ofChars s.toList

@[simp] theorem ofChars_nil : ofChars [] = [] := rfl

theorem ofChars_cons (c : Char) (cs : List Char) :
    ofChars (c :: cs) = String.utf8EncodeChar c ++ ofChars cs := rfl

theorem ofChars_append (cs ds : List Char) : ofChars (cs ++ ds) = ofChars cs ++ ofChars ds := by
  simp [ofChars]

theorem utf8EncodeChar_of_ascii {c : Char} (hc : c.toNat ≤ 127) :
    String.utf8EncodeChar c = [UInt8.ofNat c.toNat] := if_pos hc

/-- In ASCII each character is one byte. -/
theorem ofChars_of_ascii {cs : List Char} (h : ∀ c ∈ cs, c.toNat ≤ 127) :
    ofChars cs = cs.map fun c => UInt8.ofNat c.toNat := by
  induction cs with
  | nil => rfl
  | cons c cs ih =>
    rw [ofChars_cons, utf8EncodeChar_of_ascii (h c List.mem_cons_self),
      ih fun d hd => h d (List.mem_cons_of_mem _ hd)]
    rfl

theorem ofString_append (s t : String) : ofString (s ++ t) = ofString s ++ ofString t := by
  simp [ofString, ofChars_append]

end Bytes

end Referee
