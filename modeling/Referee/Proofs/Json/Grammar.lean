import Referee.Proofs.Json.Lexemes

/-!
# Texts of values

`Spells cs v` says that `cs` is a JSON text of `v`: the grammar with every spelling of its strings and
numerals and with blanks between any two lexemes. Such a text takes the reader past the value, whatever
containers are open (`Spells.reads`). For an array or an object this follows from its items or members
one after the other, so a text of any depth reads as what it spells (`ofString?_of_spells`).
-/

namespace Referee.Json

open Decimal (Numeral)
open Lexeme (SpellsString SpellsNumber EndsNumber)

/-! ## The grammar -/

def Blank (cs : List Char) : Prop := ∀ c ∈ cs, Lexeme.isBlank c = true

theorem blank_nil : Blank [] := nofun

/-- A key, blanks around it. -/
inductive SpellsKey : List Char → Option String → Prop where
  | key {as bs cs : List Char} {k : Option String} (ha : Blank as) (h : SpellsString cs k)
      (hb : Blank bs) : SpellsKey (as ++ (cs ++ bs)) k

/-- A key and a value, each with its text. -/
structure SpelledMember where
  keyText : List Char
  key : Option String
  valueText : List Char
  value : Json

def SpelledMember.text (m : SpelledMember) : List Char := m.keyText ++ ':' :: m.valueText

inductive Spells : List Char → Json → Prop where
  | before {c : Char} {cs : List Char} {v : Json} (hc : Lexeme.isBlank c = true) (h : Spells cs v) :
      Spells (c :: cs) v
  | after {c : Char} {cs : List Char} {v : Json} (h : Spells cs v) (hc : Lexeme.isBlank c = true) :
      Spells (cs ++ [c]) v
  | null : Spells ['n', 'u', 'l', 'l'] .null
  | true : Spells ['t', 'r', 'u', 'e'] (.bool true)
  | false : Spells ['f', 'a', 'l', 's', 'e'] (.bool false)
  | number {cs : List Char} {n : Numeral} (h : SpellsNumber cs n) : Spells cs (.number n)
  | string {cs : List Char} {s : Option String} (h : SpellsString cs s) : Spells cs (.string s)
  | emptyArray {bs : List Char} (hb : Blank bs) : Spells ('[' :: (bs ++ [']'])) (.array [])
  | array {i : List Char × Json} {is : List (List Char × Json)} (h : ∀ j ∈ i :: is, Spells j.1 j.2) :
      Spells ('[' :: (i.1 ++ (is.flatMap (fun j => ',' :: j.1) ++ [']'])))
        (.array ((i :: is).map fun j => j.2))
  | emptyObject {bs : List Char} (hb : Blank bs) :
      Spells (openBrace :: (bs ++ [closeBrace])) (.object [])
  | object {m : SpelledMember} {ms : List SpelledMember}
      (hkeys : ∀ m' ∈ m :: ms, SpellsKey m'.keyText m'.key)
      (h : ∀ m' ∈ m :: ms, Spells m'.valueText m'.value) :
      Spells (openBrace :: (m.text ++ (ms.flatMap (fun m' => ',' :: m'.text) ++ [closeBrace])))
        (.object ((m :: ms).map fun m' => (m'.key, m'.value)))

/-! ## The machine reads one lexeme -/

namespace Machine

/-- What a text makes of a machine. -/
def read (m : Machine) (cs : List Char) : Option Machine :=
  (Lexeme.ofChars cs).bind (·.foldlM step? m)

theorem read_nil (m : Machine) : m.read [] = some m := by
  have hnil : Lexeme.ofChars [] = some [] := by
    rw [Lexeme.ofChars]
    rfl
  rw [read, hnil]
  rfl

theorem read_blank {c : Char} (hc : Lexeme.isBlank c = true) (m : Machine) (cs : List Char) :
    m.read (c :: cs) = m.read cs := by
  rw [read, Lexeme.ofChars_blank hc, read]

theorem read_blanks {bs : List Char} (hb : Blank bs) (m : Machine) (cs : List Char) :
    m.read (bs ++ cs) = m.read cs := by
  induction bs with
  | nil => rfl
  | cons b bs ih =>
    rw [List.cons_append, read_blank (hb b List.mem_cons_self),
      ih fun c hc => hb c (List.mem_cons_of_mem b hc)]

theorem read_of_scan? {m m' : Machine} {cs rest : List Char} {l : Lexeme}
    (h : Lexeme.scan? cs = some (l, rest)) (hstep : m.step? l = some m') : m.read cs = m'.read rest := by
  rw [read, Lexeme.ofChars_of_scan? h, read]
  cases Lexeme.ofChars rest with
  | none => rfl
  | some ls =>
    simp only [Option.map_some, Option.bind_some, List.foldlM_cons, hstep, Option.bind_eq_bind]

/-- The machine waits for a value in front of these open containers. -/
inductive Awaits : Machine → List Frame → Prop where
  | value (frames : List Frame) : Awaits ⟨.value, frames⟩ frames
  | firstItem (frames : List Frame) : Awaits ⟨.firstItem, frames⟩ (.array [] :: frames)

theorem Awaits.step? {m : Machine} {frames : List Frame} (h : Awaits m frames) {l : Lexeme}
    (hl : l ≠ .closeArray) : m.step? l = begin? frames l := by
  cases h with
  | value => rfl
  | firstItem => cases l <;> first | rfl | exact absurd rfl hl

end Machine

open Machine

theorem ofChars?_eq (cs : List Char) : ofChars? cs = (Machine.start.read cs).bind (·.result?) := by
  rw [ofChars?, Machine.read, Option.bind_assoc]
  rfl

/-! ## What ends a number -/

theorem endsNumber_comma (rest : List Char) : EndsNumber (',' :: rest) := by
  rintro c ⟨⟩
  decide

theorem endsNumber_close {c : Char} (hc : c = ']' ∨ c = closeBrace) (rest : List Char) :
    EndsNumber (c :: rest) := by
  rintro d ⟨⟩
  rcases hc with rfl | rfl <;> decide

theorem endsNumber_blank {c : Char} (hc : Lexeme.isBlank c = true) (rest : List Char) :
    EndsNumber (c :: rest) := by
  rintro d ⟨⟩
  rcases Lexeme.isBlank_iff.mp hc with rfl | rfl | rfl | rfl <;> decide

/-- What follows an item or a member is a comma or the closing bracket. -/
theorem endsNumber_flatMap {α : Type} {text : α → List Char} {c : Char} (hc : c = ']' ∨ c = closeBrace)
    (xs : List α) (rest : List Char) : EndsNumber (xs.flatMap (fun x => ',' :: text x) ++ c :: rest) := by
  cases xs with
  | nil => exact endsNumber_close hc rest
  | cons x xs => exact endsNumber_comma _

/-! ## The machine reads a value -/

/-- The text takes a machine that waits for a value past this one. -/
def Reads (cs : List Char) (v : Json) : Prop :=
  ∀ {m : Machine} {frames : List Frame} {rest : List Char}, Awaits m frames → EndsNumber rest →
    m.read (cs ++ rest) = (complete v frames).read rest

section Read

variable {frames : List Frame} {rest : List Char}

theorem reads_of_scan? {cs : List Char} {v : Json} {l : Lexeme}
    (hscan : ∀ {rest}, EndsNumber rest → Lexeme.scan? (cs ++ rest) = some (l, rest))
    (hbegin : ∀ frames, begin? frames l = some (complete v frames)) : Reads cs v := by
  intro m frames rest hm hrest
  have hl : l ≠ .closeArray := by
    rintro rfl
    cases hbegin []
  exact read_of_scan? (hscan hrest) ((hm.step? hl).trans (hbegin frames))

theorem read_items {is : List (List Char × Json)} (h : ∀ j ∈ is, Reads j.1 j.2) (done : List Json) :
    (Machine.mk (.afterItem done) frames).read (is.flatMap (fun j => ',' :: j.1) ++ ']' :: rest) =
      (complete (.array (done.reverse ++ is.map fun j => j.2)) frames).read rest := by
  induction is generalizing done with
  | nil =>
    rw [List.map_nil, List.append_nil]
    exact read_of_scan? rfl rfl
  | cons i is ih =>
    have hi : Reads i.1 i.2 := h i List.mem_cons_self
    have hrest := ih (fun j hj => h j (List.mem_cons_of_mem i hj)) (i.2 :: done)
    rw [List.flatMap_cons, List.cons_append, List.cons_append, List.append_assoc,
      read_of_scan? rfl rfl, hi (.value _) (endsNumber_flatMap (.inl rfl) is rest)]
    rw [List.reverse_cons, List.append_assoc, List.singleton_append] at hrest
    exact hrest

theorem reads_array {i : List Char × Json} {is : List (List Char × Json)}
    (h : ∀ j ∈ i :: is, Reads j.1 j.2) :
    Reads ('[' :: (i.1 ++ (is.flatMap (fun j => ',' :: j.1) ++ [']'])))
      (.array ((i :: is).map fun j => j.2)) := by
  intro m frames rest hm _
  have hi : Reads i.1 i.2 := h i List.mem_cons_self
  rw [List.cons_append, List.append_assoc, List.append_assoc, List.singleton_append,
    read_of_scan? rfl (hm.step? (by nofun)),
    hi (.firstItem frames) (endsNumber_flatMap (.inl rfl) is rest)]
  exact read_items (fun j hj => h j (List.mem_cons_of_mem i hj)) [i.2]

theorem SpellsKey.read {ks : List Char} {key : Option String} {m m' : Machine} (h : SpellsKey ks key)
    (hm : m.step? (.string key) = some m') : m.read (ks ++ rest) = m'.read rest := by
  cases h with
  | key ha hstring hb =>
    rw [List.append_assoc, read_blanks ha, List.append_assoc,
      read_of_scan? (Lexeme.scan?_of_spellsString hstring _) hm, read_blanks hb]

/-- A machine that waits for a key reads a member. -/
theorem read_member {m : Machine} {x : SpelledMember} {members : List (Option String × Json)}
    (hm : m.step? (.string x.key) = some ⟨.colon members x.key, frames⟩)
    (hkey : SpellsKey x.keyText x.key) (hx : Reads x.valueText x.value) (hrest : EndsNumber rest) :
    m.read (x.text ++ rest) =
      (Machine.mk (.afterMember ((x.key, x.value) :: members)) frames).read rest := by
  rw [SpelledMember.text, List.append_assoc, hkey.read hm, List.cons_append, read_of_scan? rfl rfl,
    hx (.value _) hrest]
  rfl

theorem read_members {ms : List SpelledMember} (hkeys : ∀ m ∈ ms, SpellsKey m.keyText m.key)
    (h : ∀ m ∈ ms, Reads m.valueText m.value) (done : List (Option String × Json)) :
    (Machine.mk (.afterMember done) frames).read
        (ms.flatMap (fun m => ',' :: m.text) ++ closeBrace :: rest) =
      (complete (.object (done.reverse ++ ms.map fun m => (m.key, m.value))) frames).read rest := by
  induction ms generalizing done with
  | nil =>
    rw [List.map_nil, List.append_nil]
    exact read_of_scan? rfl rfl
  | cons m ms ih =>
    have hrest := ih (fun w hw => hkeys w (List.mem_cons_of_mem m hw))
      (fun w hw => h w (List.mem_cons_of_mem m hw)) ((m.key, m.value) :: done)
    rw [List.flatMap_cons, List.cons_append, List.cons_append, List.append_assoc,
      read_of_scan? rfl rfl, read_member rfl (hkeys m List.mem_cons_self) (h m List.mem_cons_self)
        (endsNumber_flatMap (.inr rfl) ms rest)]
    rw [List.reverse_cons, List.append_assoc, List.singleton_append] at hrest
    exact hrest

theorem reads_object {m : SpelledMember} {ms : List SpelledMember}
    (hkeys : ∀ m' ∈ m :: ms, SpellsKey m'.keyText m'.key)
    (h : ∀ m' ∈ m :: ms, Reads m'.valueText m'.value) :
    Reads (openBrace :: (m.text ++ (ms.flatMap (fun m' => ',' :: m'.text) ++ [closeBrace])))
      (.object ((m :: ms).map fun m' => (m'.key, m'.value))) := by
  intro m₀ frames rest hm₀ _
  rw [List.cons_append, List.append_assoc, List.append_assoc, List.singleton_append,
    read_of_scan? rfl (hm₀.step? (by nofun)),
    read_member rfl (hkeys m List.mem_cons_self) (h m List.mem_cons_self)
      (endsNumber_flatMap (.inr rfl) ms rest)]
  exact read_members (fun w hw => hkeys w (List.mem_cons_of_mem m hw))
    (fun w hw => h w (List.mem_cons_of_mem m hw)) [(m.key, m.value)]

theorem reads_emptyArray {bs : List Char} (hb : Blank bs) :
    Reads ('[' :: (bs ++ [']'])) (.array []) := by
  intro m frames rest hm _
  rw [List.cons_append, List.append_assoc, List.singleton_append,
    read_of_scan? rfl (hm.step? (by nofun)), read_blanks hb]
  exact read_of_scan? rfl rfl

theorem reads_emptyObject {bs : List Char} (hb : Blank bs) :
    Reads (openBrace :: (bs ++ [closeBrace])) (.object []) := by
  intro m frames rest hm _
  rw [List.cons_append, List.append_assoc, List.singleton_append,
    read_of_scan? rfl (hm.step? (by nofun)), read_blanks hb]
  exact read_of_scan? rfl rfl

end Read

/-- A text of a value is read as that value, whatever containers are open. -/
theorem Spells.reads {cs : List Char} {v : Json} (h : Spells cs v) : Reads cs v := by
  induction h with
  | before hc _ ih =>
    intro m frames rest hm hrest
    rw [List.cons_append, read_blank hc]
    exact ih hm hrest
  | after _ hc ih =>
    intro m frames rest hm hrest
    rw [List.append_assoc, List.singleton_append, ih hm (endsNumber_blank hc rest), read_blank hc]
  | null => exact reads_of_scan? (fun _ => rfl) fun _ => rfl
  | true => exact reads_of_scan? (fun _ => rfl) fun _ => rfl
  | false => exact reads_of_scan? (fun _ => rfl) fun _ => rfl
  | number h => exact reads_of_scan? (Lexeme.scan?_of_spellsNumber h) fun _ => rfl
  | string h => exact reads_of_scan? (fun _ => Lexeme.scan?_of_spellsString h _) fun _ => rfl
  | emptyArray hb => exact reads_emptyArray hb
  | array _ ih => exact reads_array ih
  | emptyObject hb => exact reads_emptyObject hb
  | object hkeys _ ih => exact reads_object hkeys ih

/-- **A text of a value reads as that value**, however it is spelled and however deep it is. -/
theorem ofString?_of_spells {text : String} {v : Json} (h : Spells text.toList v) :
    ofString? text = some v := by
  have hread : Machine.start.read (text.toList ++ []) = (complete v []).read [] :=
    h.reads (.value []) nofun
  rw [List.append_nil, read_nil] at hread
  rw [ofString?, ofChars?_eq, hread]
  rfl

end Referee.Json
