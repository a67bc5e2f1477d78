import Referee.Proofs.Json.Grammar
import Referee.Proofs.Utf8

/-!
# Written values are read back

The compact form of a value is one of its texts (`Written.spells`), so it reads as that value
(`ofString?_compact`). It holds no control character (`Written.plain`).
-/

namespace Referee.Json

open Decimal (Numeral)

/-- The numerals in a value are those that JSON writes. -/
inductive Written : Json → Prop where
  | null : Written .null
  | bool (b : Bool) : Written (.bool b)
  | number {n : Numeral} (h : Lexeme.Written n) : Written (.number n)
  | string (s : Option String) : Written (.string s)
  | array {items : List Json} (h : ∀ v ∈ items, Written v) : Written (.array items)
  | object {members : List (Option String × Json)} (h : ∀ m ∈ members, Written m.2) :
    Written (.object members)

/-! ## Characters of a value -/

/-- A member without the comma in front of it. -/
def memberText (m : Option String × Json) : List Char := quote m.1 ++ ':' :: m.2.compactChars

theorem itemChars_cons (v : Json) (items : List Json) :
    itemChars (v :: items) = v.compactChars ++ items.flatMap fun w => ',' :: w.compactChars := by
  induction items generalizing v with
  | nil => simp [itemChars]
  | cons w items ih => rw [itemChars, ih, List.flatMap_cons, List.cons_append]

theorem memberChars_cons (m : Option String × Json) (members : List (Option String × Json)) :
    memberChars (m :: members) = memberText m ++ members.flatMap fun m => ',' :: memberText m := by
  induction members generalizing m with
  | nil => simp [memberChars, memberText]
  | cons m' members ih =>
    obtain ⟨k, v⟩ := m
    have hrest := ih m'
    simp only [memberChars, hrest, memberText, List.flatMap_cons, List.append_assoc, List.cons_append]

/-! ## The compact form is a text of the value -/

theorem spells_array {items : List Json} (h : ∀ v ∈ items, Spells v.compactChars v) :
    Spells (compactChars (.array items)) (.array items) := by
  cases items with
  | nil => exact .emptyArray blank_nil
  | cons v items =>
    have hspells : ∀ j ∈ (v :: items).map (fun w => (w.compactChars, w)), Spells j.1 j.2 :=
      List.forall_mem_map.mpr h
    have htext := Spells.array hspells
    simp only [List.flatMap_map, List.map_cons, List.map_map, Function.comp_def, List.map_id'] at htext
    rw [compactChars, itemChars_cons, List.append_assoc]
    exact htext

theorem spellsKey_quote (k : Option String) : SpellsKey (quote k) k := by
  have hkey := SpellsKey.key blank_nil (Lexeme.spellsString_quote k) blank_nil
  rwa [List.append_nil] at hkey

/-- A member as it is written. -/
def spelledMember (m : Option String × Json) : SpelledMember :=
  ⟨quote m.1, m.1, m.2.compactChars, m.2⟩

theorem text_spelledMember (m : Option String × Json) : (spelledMember m).text = memberText m := rfl

theorem spells_object {members : List (Option String × Json)}
    (h : ∀ m ∈ members, Spells m.2.compactChars m.2) :
    Spells (compactChars (.object members)) (.object members) := by
  cases members with
  | nil => exact .emptyObject blank_nil
  | cons m members =>
    have hkeys : ∀ x ∈ (m :: members).map spelledMember, SpellsKey x.keyText x.key :=
      List.forall_mem_map.mpr fun m' _ => spellsKey_quote m'.1
    have hvalues : ∀ x ∈ (m :: members).map spelledMember, Spells x.valueText x.value :=
      List.forall_mem_map.mpr h
    have htext := Spells.object hkeys hvalues
    have hmembers : (m :: members).map (fun m' => ((spelledMember m').key, (spelledMember m').value)) =
        m :: members := List.map_id _
    rw [← List.map_cons, List.map_map] at htext
    simp only [List.flatMap_map, text_spelledMember, Function.comp_def, hmembers] at htext
    rw [compactChars, memberChars_cons, List.append_assoc]
    exact htext

theorem Written.spells {v : Json} (h : Written v) : Spells v.compactChars v := by
  induction h with
  | null => exact .null
  | bool b =>
    cases b with
    | false => exact .false
    | true => exact .true
  | number hn => exact .number (Lexeme.spellsNumber_chars hn)
  | string s => exact .string (Lexeme.spellsString_quote s)
  | array _ ih => exact spells_array ih
  | object _ ih => exact spells_object ih

theorem Written.spells_compact {v : Json} (h : Written v) : Spells v.compact.toList v := by
  rw [compact, String.toList_ofList]
  exact h.spells

/-- **The compact form of a value reads as that value.** -/
theorem ofString?_compact {v : Json} (h : Written v) : ofString? v.compact = some v :=
  ofString?_of_spells h.spells_compact

/-! ## No control characters -/

/-- The text holds no control character of ASCII. -/
def Plain (cs : List Char) : Prop := ∀ c ∈ cs, 0x20 ≤ c.toNat

/-- No byte of such a text is a control character either. -/
theorem Plain.le_of_mem_ofChars {cs : List Char} (h : Plain cs) {b : UInt8} (hb : b ∈ Bytes.ofChars cs) :
    0x20 ≤ b := by
  obtain ⟨c, hc, hmem⟩ := List.mem_flatMap.mp hb
  rw [UInt8.le_iff_toNat_le]
  rcases Nat.lt_or_ge 0x7F c.toNat with hwide | hascii
  · exact Nat.le_trans (by decide) (le_toNat_of_mem_utf8EncodeChar hwide hmem)
  · rw [Bytes.utf8EncodeChar_of_ascii hascii, List.mem_singleton] at hmem
    have hbyte : c.toNat < UInt8.size := Nat.lt_of_le_of_lt hascii (by decide)
    rw [hmem, UInt8.toNat_ofNat_of_lt' hbyte]
    exact h c hc

theorem plain_append_iff {cs ds : List Char} : Plain (cs ++ ds) ↔ Plain cs ∧ Plain ds :=
  List.forall_mem_append

theorem plain_cons_iff {c : Char} {cs : List Char} : Plain (c :: cs) ↔ 0x20 ≤ c.toNat ∧ Plain cs :=
  List.forall_mem_cons

theorem plain_flatMap {α : Type} {text : α → List Char} {xs : List α} (h : ∀ x ∈ xs, Plain (text x)) :
    Plain (xs.flatMap text) := by
  intro c hc
  obtain ⟨x, hx, hmem⟩ := List.mem_flatMap.mp hc
  exact h x hx c hmem

theorem plain_digits {ds : List Char} (h : ∀ c ∈ ds, Lexeme.isDigit c = true) : Plain ds := fun c hc =>
  Nat.le_trans (by decide) (Decimal.isDigit_char_iff.mp (h c hc)).1

instance decidablePlain (cs : List Char) : Decidable (Plain cs) :=
  List.decidableBAll (fun c : Char => 0x20 ≤ c.toNat) cs

theorem plain_hexDigit {n : Nat} (h : n < 16) : 0x20 ≤ (hexDigit n).toNat := by
  have hall : ∀ n : Fin 16, 0x20 ≤ (hexDigit n.val).toNat := by decide
  exact hall ⟨n, h⟩

theorem plain_escape (c : Char) : Plain (escape c) := by
  unfold escape
  split
  case h_8 =>
    split
    · rename_i hcontrol
      simp only [plain_cons_iff]
      refine ⟨by decide, by decide, by decide, by decide, plain_hexDigit (by omega),
        plain_hexDigit (by omega), nofun⟩
    · rename_i hplain
      exact plain_cons_iff.mpr ⟨Nat.le_of_not_lt hplain, nofun⟩
  all_goals decide

theorem plain_quote (s : Option String) : Plain (quote s) := by
  cases s with
  | none => decide
  | some s =>
    rw [quote, List.cons_append, plain_cons_iff, plain_append_iff]
    exact ⟨by decide, plain_flatMap fun c _ => plain_escape c, by decide⟩

theorem plain_number {n : Numeral} (h : Lexeme.Written n) : Plain n.chars := by
  have hrepr : ∀ k : Nat, Plain k.repr.toList := fun k =>
    plain_digits fun c => Decimal.isDigit_of_mem_repr_toList
  have hfraction : Plain (Lexeme.fractionPart n) := by
    unfold Lexeme.fractionPart
    split
    · nofun
    · exact plain_cons_iff.mpr ⟨by decide, plain_digits h.fraction_digits⟩
  have hexponent : Plain (Lexeme.exponentPart n) := by
    unfold Lexeme.exponentPart
    split
    · nofun
    · rename_i e _
      refine plain_cons_iff.mpr ⟨by decide, plain_cons_iff.mpr ⟨?_, hrepr e.natAbs⟩⟩
      split <;> decide
  have hsign : Plain (if n.negative then ['-'] else []) := by split <;> decide
  exact plain_append_iff.mpr ⟨plain_append_iff.mpr ⟨plain_append_iff.mpr
    ⟨hsign, plain_digits h.whole_digits⟩, hfraction⟩, hexponent⟩

theorem plain_array {items : List Json} (h : ∀ v ∈ items, Plain v.compactChars) :
    Plain (compactChars (.array items)) := by
  have hitems : Plain (itemChars items) := by
    cases items with
    | nil => nofun
    | cons v items =>
      rw [itemChars_cons, plain_append_iff]
      refine ⟨h v List.mem_cons_self, plain_flatMap fun w hw => ?_⟩
      exact plain_cons_iff.mpr ⟨by decide, h w (List.mem_cons_of_mem v hw)⟩
  rw [compactChars, plain_cons_iff, plain_append_iff]
  exact ⟨by decide, hitems, by decide⟩

theorem plain_object {members : List (Option String × Json)}
    (h : ∀ m ∈ members, Plain m.2.compactChars) : Plain (compactChars (.object members)) := by
  have hmember : ∀ m ∈ members, Plain (memberText m) := fun m hm =>
    plain_append_iff.mpr ⟨plain_quote m.1, plain_cons_iff.mpr ⟨by decide, h m hm⟩⟩
  have hmembers : Plain (memberChars members) := by
    cases members with
    | nil => nofun
    | cons m members =>
      rw [memberChars_cons, plain_append_iff]
      refine ⟨hmember m List.mem_cons_self, plain_flatMap fun m' hm' => ?_⟩
      exact plain_cons_iff.mpr ⟨by decide, hmember m' (List.mem_cons_of_mem m hm')⟩
  rw [compactChars, plain_cons_iff, plain_append_iff]
  exact ⟨by decide, hmembers, by decide⟩

/-- **The compact form holds no control character**, whatever the strings in the value hold. -/
theorem Written.plain {v : Json} (h : Written v) : Plain v.compactChars := by
  induction h with
  | null => decide
  | bool b => cases b <;> decide
  | number hn => exact plain_number hn
  | string s => exact plain_quote s
  | array _ ih => exact plain_array ih
  | object _ ih => exact plain_object ih

end Referee.Json
