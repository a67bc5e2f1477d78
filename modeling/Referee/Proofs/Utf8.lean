import Referee.Text.Utf8

/-!
# UTF-8 read back

The first byte of a sequence says how many bytes follow and in which range the next one lies. Hence a
byte string is made of encoded characters and ill-formed parts in the order in which `decode` reports
them (`decodes_decode`), and it decodes as a text just if it is the UTF-8 form of that text
(`decode?_eq_some_iff`). A text decoded with replacements has no ASCII character that is not a byte of its
source (`mem_of_mem_decodeLossy`).
-/

namespace Referee

/-! ## The bytes of a character -/

section Encode

variable {c : Char} {b : UInt8}

theorem toNat_ofNat_of_isValidChar {n : Nat} (h : n.isValidChar) : (Char.ofNat n).toNat = n := by
  rw [Char.ofNat, dif_pos h]
  rfl

/-- A character is no surrogate. -/
theorem toNat_lt_or (c : Char) : c.toNat < 0xD800 ∨ 0xDFFF < c.toNat ∧ c.toNat < 0x110000 := c.valid

theorem utf8EncodeChar_ne_nil (c : Char) : String.utf8EncodeChar c ≠ [] := by
  apply List.ne_nil_of_length_pos
  rw [String.length_utf8EncodeChar]
  exact c.utf8Size_pos

theorem utf8EncodeChar_two (hlo : 0x7F < c.toNat) (hhi : c.toNat ≤ 0x7FF) :
    String.utf8EncodeChar c = [UInt8.ofNat (c.toNat / 64 + 0xC0), UInt8.ofNat (c.toNat % 64 + 0x80)] := by
  have hval : c.val.toNat = c.toNat := rfl
  have hlead : c.toNat / 64 % 32 = c.toNat / 64 := by omega
  simp only [String.utf8EncodeChar, hval, if_neg (Nat.not_le.mpr hlo), if_pos hhi, hlead]

theorem utf8EncodeChar_three (hlo : 0x7FF < c.toNat) (hhi : c.toNat ≤ 0xFFFF) :
    String.utf8EncodeChar c = [UInt8.ofNat (c.toNat / 4096 + 0xE0),
      UInt8.ofNat (c.toNat / 64 % 64 + 0x80), UInt8.ofNat (c.toNat % 64 + 0x80)] := by
  have hval : c.val.toNat = c.toNat := rfl
  have hlead : c.toNat / 4096 % 16 = c.toNat / 4096 := by omega
  have htwo : ¬ c.toNat ≤ 0x7F := by omega
  simp only [String.utf8EncodeChar, hval, if_neg htwo, if_neg (Nat.not_le.mpr hlo), if_pos hhi, hlead]

theorem utf8EncodeChar_four (hlo : 0xFFFF < c.toNat) :
    String.utf8EncodeChar c = [UInt8.ofNat (c.toNat / 262144 + 0xF0),
      UInt8.ofNat (c.toNat / 4096 % 64 + 0x80), UInt8.ofNat (c.toNat / 64 % 64 + 0x80),
      UInt8.ofNat (c.toNat % 64 + 0x80)] := by
  have hval : c.val.toNat = c.toNat := rfl
  have hmax := toNat_lt_or c
  have hlead : c.toNat / 262144 % 8 = c.toNat / 262144 := by omega
  have htwo : ¬ c.toNat ≤ 0x7F := by omega
  have hthree : ¬ c.toNat ≤ 0x7FF := by omega
  simp only [String.utf8EncodeChar, hval, if_neg htwo, if_neg hthree, if_neg (Nat.not_le.mpr hlo), hlead]

/-- Beyond ASCII every byte has the top bit set. -/
theorem le_toNat_of_mem_utf8EncodeChar (hc : 0x7F < c.toNat) (hb : b ∈ String.utf8EncodeChar c) :
    0x80 ≤ b.toNat := by
  have hmax := toNat_lt_or c
  have hbyte : ∀ n, 0x80 ≤ n → n < 0x100 → b = UInt8.ofNat n → 0x80 ≤ b.toNat := by
    rintro n hlo hhi rfl
    rwa [UInt8.toNat_ofNat_of_lt' hhi]
  rcases Nat.lt_or_ge 0xFFFF c.toNat with hfour | hfour
  · rw [utf8EncodeChar_four hfour] at hb
    simp only [List.mem_cons, List.not_mem_nil, or_false] at hb
    rcases hb with hb | hb | hb | hb <;> exact hbyte _ (by omega) (by omega) hb
  rcases Nat.lt_or_ge 0x7FF c.toNat with hthree | hthree
  · rw [utf8EncodeChar_three hthree hfour] at hb
    simp only [List.mem_cons, List.not_mem_nil, or_false] at hb
    rcases hb with hb | hb | hb <;> exact hbyte _ (by omega) (by omega) hb
  · rw [utf8EncodeChar_two hc hthree] at hb
    simp only [List.mem_cons, List.not_mem_nil, or_false] at hb
    rcases hb with hb | hb <;> exact hbyte _ (by omega) (by omega) hb

end Encode

namespace Utf8

/-! ## The first byte of a sequence -/

section Lead

open State

variable {b : UInt8}

/-- The least byte that may follow a first byte; below it the sequence would be too long. -/
def leastNext (b : UInt8) : UInt8 := if b = 0xE0 then 0xA0 else if b = 0xF0 then 0x90 else 0x80

/-- The greatest byte that may follow; above it lie the surrogates and what is no code point. -/
def greatestNext (b : UInt8) : UInt8 := if b = 0xED then 0x9F else if b = 0xF4 then 0x8F else 0xBF

theorem lead_of_ascii (hb : b.toNat ≤ 0x7F) (read : List (Option Char)) :
    lead read b = ⟨some (Char.ofNat b.toNat) :: read, .idle⟩ := by
  have hlt : b < 0x80 := UInt8.lt_iff_toNat_lt.mpr (Nat.lt_succ_of_le hb)
  exact if_pos hlt

theorem lead_two (hlo : 0xC2 ≤ b.toNat) (hhi : b.toNat ≤ 0xDF) (read : List (Option Char)) :
    lead read b = ⟨read, .inside 0x80 0xBF 0 (b.toNat - 0xC0)⟩ := by
  simp only [lead, UInt8.le_iff_toNat_le, UInt8.lt_iff_toNat_lt, UInt8.reduceToNat,
    Bool.and_eq_true, decide_eq_true_eq]
  rw [if_neg (by omega), if_pos ⟨hlo, hhi⟩]

theorem lead_three (hlo : 0xE0 ≤ b.toNat) (hhi : b.toNat ≤ 0xEF) (read : List (Option Char)) :
    lead read b = ⟨read, .inside (leastNext b) (greatestNext b) 1 (b.toNat - 0xE0)⟩ := by
  simp only [lead, leastNext, greatestNext, UInt8.le_iff_toNat_le, UInt8.lt_iff_toNat_lt,
    ← UInt8.toNat_inj, UInt8.reduceToNat, Bool.and_eq_true, decide_eq_true_eq, beq_iff_eq]
  grind

theorem lead_four (hlo : 0xF0 ≤ b.toNat) (hhi : b.toNat ≤ 0xF4) (read : List (Option Char)) :
    lead read b = ⟨read, .inside (leastNext b) (greatestNext b) 2 (b.toNat - 0xF0)⟩ := by
  simp only [lead, leastNext, greatestNext, UInt8.le_iff_toNat_le, UInt8.lt_iff_toNat_lt,
    ← UInt8.toNat_inj, UInt8.reduceToNat, Bool.and_eq_true, decide_eq_true_eq, beq_iff_eq]
  grind

/-- No other byte begins a sequence. -/
theorem lead_stray (h : 0x80 ≤ b.toNat ∧ b.toNat < 0xC2 ∨ 0xF4 < b.toNat)
    (read : List (Option Char)) : lead read b = ⟨none :: read, .idle⟩ := by
  simp only [lead, UInt8.le_iff_toNat_le, UInt8.lt_iff_toNat_lt, ← UInt8.toNat_inj,
    UInt8.reduceToNat, Bool.and_eq_true, decide_eq_true_eq, beq_iff_eq]
  grind

theorem leastNext_le_iff {n : UInt8} : leastNext b ≤ n ↔ 0x80 ≤ n.toNat ∧
    (b.toNat = 0xE0 → 0xA0 ≤ n.toNat) ∧ (b.toNat = 0xF0 → 0x90 ≤ n.toNat) := by
  simp only [leastNext, ← UInt8.toNat_inj, UInt8.le_iff_toNat_le, UInt8.reduceToNat]
  split
  · simp only [UInt8.reduceToNat]; omega
  split <;> simp only [UInt8.reduceToNat] <;> omega

theorem le_greatestNext_iff {n : UInt8} : n ≤ greatestNext b ↔ n.toNat ≤ 0xBF ∧
    (b.toNat = 0xED → n.toNat ≤ 0x9F) ∧ (b.toNat = 0xF4 → n.toNat ≤ 0x8F) := by
  simp only [greatestNext, ← UInt8.toNat_inj, UInt8.le_iff_toNat_le, UInt8.reduceToNat]
  split
  · simp only [UInt8.reduceToNat]; omega
  split <;> simp only [UInt8.reduceToNat] <;> omega

end Lead

/-! ## Sequences that become characters -/

/-- The bytes so far become a character: each next byte in the range completes it or goes on. -/
def Completes (front : Bytes) (lo hi : UInt8) (code : Nat) : Nat → Prop
  | 0 => ∀ b, lo ≤ b → b ≤ hi →
    front ++ [b] = String.utf8EncodeChar (Char.ofNat (code * 64 + (b.toNat - 0x80)))
  | left + 1 => ∀ b, lo ≤ b → b ≤ hi →
    Completes (front ++ [b]) 0x80 0xBF (code * 64 + (b.toNat - 0x80)) left

section Completes

variable {b : UInt8}

theorem completes_two (hlo : 0xC2 ≤ b.toNat) (hhi : b.toNat ≤ 0xDF) :
    Completes [b] 0x80 0xBF (b.toNat - 0xC0) 0 := by
  intro c hclo hchi
  simp only [UInt8.le_iff_toNat_le, UInt8.reduceToNat] at hclo hchi
  have hvalid : ((b.toNat - 0xC0) * 64 + (c.toNat - 0x80)).isValidChar := .inl (by omega)
  have hnat := toNat_ofNat_of_isValidChar hvalid
  rw [utf8EncodeChar_two (by omega) (by omega), hnat]
  simp only [List.cons_append, List.nil_append, List.cons.injEq, ← UInt8.toNat_inj,
    UInt8.toNat_ofNat', and_true]
  omega

theorem completes_three (hlo : 0xE0 ≤ b.toNat) (hhi : b.toNat ≤ 0xEF) :
    Completes [b] (leastNext b) (greatestNext b) (b.toNat - 0xE0) 1 := by
  intro c hclo hchi d hdlo hdhi
  obtain ⟨hcmin, hclong, -⟩ := leastNext_le_iff.mp hclo
  obtain ⟨hcmax, hcsurrogate, -⟩ := le_greatestNext_iff.mp hchi
  simp only [UInt8.le_iff_toNat_le, UInt8.reduceToNat] at hdlo hdhi
  have hvalid : (((b.toNat - 0xE0) * 64 + (c.toNat - 0x80)) * 64 + (d.toNat - 0x80)).isValidChar := by
    unfold Nat.isValidChar
    omega
  have hnat := toNat_ofNat_of_isValidChar hvalid
  rw [utf8EncodeChar_three (by omega) (by omega), hnat]
  simp only [List.cons_append, List.nil_append, List.cons.injEq, ← UInt8.toNat_inj,
    UInt8.toNat_ofNat', and_true]
  omega

theorem completes_four (hlo : 0xF0 ≤ b.toNat) (hhi : b.toNat ≤ 0xF4) :
    Completes [b] (leastNext b) (greatestNext b) (b.toNat - 0xF0) 2 := by
  intro c hclo hchi d hdlo hdhi e helo hehi
  obtain ⟨hcmin, -, hclong⟩ := leastNext_le_iff.mp hclo
  obtain ⟨hcmax, -, hclast⟩ := le_greatestNext_iff.mp hchi
  simp only [UInt8.le_iff_toNat_le, UInt8.reduceToNat] at hdlo hdhi helo hehi
  have hvalid : ((((b.toNat - 0xF0) * 64 + (c.toNat - 0x80)) * 64 + (d.toNat - 0x80)) * 64 +
      (e.toNat - 0x80)).isValidChar := by
    unfold Nat.isValidChar
    omega
  have hnat := toNat_ofNat_of_isValidChar hvalid
  rw [utf8EncodeChar_four (by omega), hnat]
  simp only [List.cons_append, List.nil_append, List.cons.injEq, ← UInt8.toNat_inj,
    UInt8.toNat_ofNat', and_true]
  omega

end Completes

/-! ## Every byte is accounted for -/

/-- The bytes fall into encoded characters and ill-formed parts, listed newest first. -/
inductive Decodes : Bytes → List (Option Char) → Prop where
  | nil : Decodes [] []
  | char {bs : Bytes} {read : List (Option Char)} (h : Decodes bs read) (c : Char) :
    Decodes (bs ++ String.utf8EncodeChar c) (some c :: read)
  | illFormed {bs part : Bytes} {read : List (Option Char)} (h : Decodes bs read) (hne : part ≠ []) :
    Decodes (bs ++ part) (none :: read)

/-- The machine has reported all bytes but those of the sequence that it is inside. -/
inductive Decoding : Bytes → State → Prop where
  | idle {bs : Bytes} {read : List (Option Char)} (h : Decodes bs read) : Decoding bs ⟨read, .idle⟩
  | inside {bs part : Bytes} {read : List (Option Char)} {lo hi : UInt8} {left code : Nat}
    (h : Decodes bs read) (hne : part ≠ []) (hpart : Completes part lo hi code left) :
    Decoding (bs ++ part) ⟨read, .inside lo hi left code⟩

section Run

variable {bs : Bytes} {read : List (Option Char)} {s : State}

theorem Decodes.lead (h : Decodes bs read) (b : UInt8) : Decoding (bs ++ [b]) (State.lead read b) := by
  have hpart : [b] ≠ [] := List.cons_ne_nil b []
  by_cases hascii : b.toNat ≤ 0x7F
  · have hnat := toNat_ofNat_of_isValidChar (n := b.toNat) (.inl (by omega))
    have hone : String.utf8EncodeChar (Char.ofNat b.toNat) = [b] := by
      rw [Bytes.utf8EncodeChar_of_ascii (by omega), hnat, UInt8.ofNat_toNat]
    rw [lead_of_ascii hascii, ← hone]
    exact .idle (h.char _)
  by_cases hstray : 0x80 ≤ b.toNat ∧ b.toNat < 0xC2 ∨ 0xF4 < b.toNat
  · rw [lead_stray hstray]
    exact .idle (h.illFormed hpart)
  by_cases htwo : b.toNat ≤ 0xDF
  · have hlo : 0xC2 ≤ b.toNat := by omega
    rw [lead_two hlo htwo]
    exact .inside h hpart (completes_two hlo htwo)
  by_cases hthree : b.toNat ≤ 0xEF
  · have hlo : 0xE0 ≤ b.toNat := by omega
    rw [lead_three hlo hthree]
    exact .inside h hpart (completes_three hlo hthree)
  · have hlo : 0xF0 ≤ b.toNat := by omega
    have hhi : b.toNat ≤ 0xF4 := by omega
    rw [lead_four hlo hhi]
    exact .inside h hpart (completes_four hlo hhi)

theorem Decoding.push (h : Decoding bs s) (b : UInt8) : Decoding (bs ++ [b]) (s.push b) := by
  cases h with
  | idle h => exact h.lead b
  | @inside bs part read lo hi left code h hne hpart =>
    unfold State.push
    simp only
    split
    · rename_i hin
      obtain ⟨hlo, hhi⟩ : lo ≤ b ∧ b ≤ hi := by simpa using hin
      cases left with
      | zero =>
        rw [List.append_assoc, hpart b hlo hhi]
        exact .idle (h.char _)
      | succ left =>
        rw [List.append_assoc]
        exact .inside h (by simp) (hpart b hlo hhi)
    · exact (h.illFormed hne).lead b

theorem Decoding.foldl (h : Decoding bs s) (rest : Bytes) :
    Decoding (bs ++ rest) (rest.foldl State.push s) := by
  induction rest generalizing bs s with
  | nil => rwa [List.append_nil]
  | cons b rest ih =>
    rw [List.foldl_cons, List.append_cons]
    exact ih (h.push b)

theorem Decoding.finish (h : Decoding bs s) : Decodes bs s.finish.reverse := by
  cases h with
  | idle h => rwa [State.finish, List.reverse_reverse]
  | inside h hne _ =>
    rw [State.finish, List.reverse_reverse]
    exact h.illFormed hne

/-- **What is decoded accounts for every byte.** -/
theorem decodes_decode (bs : Bytes) : Decodes bs (decode bs).reverse := by
  have h := (Decoding.idle .nil).foldl bs
  rw [List.nil_append] at h
  exact h.finish

theorem Decodes.mem_of_ascii {c : Char} (h : Decodes bs read) (hc : some c ∈ read)
    (hascii : c.toNat ≤ 0x7F) : UInt8.ofNat c.toNat ∈ bs := by
  induction h with
  | nil => cases hc
  | char h d ih =>
    rcases List.mem_cons.mp hc with hd | hd
    · obtain rfl := Option.some.inj hd
      rw [Bytes.utf8EncodeChar_of_ascii hascii]
      exact List.mem_append_right _ (List.mem_singleton_self _)
    · exact List.mem_append_left _ (ih hd)
  | illFormed h hne ih =>
    rcases List.mem_cons.mp hc with hd | hd
    · cases hd
    · exact List.mem_append_left _ (ih hd)

theorem Decodes.ofChars_eq {cs : List Char} (h : Decodes bs read) (hread : read.reverse = cs.map some) :
    Bytes.ofChars cs = bs := by
  induction h generalizing cs with
  | nil =>
    obtain rfl := List.map_eq_nil_iff.mp hread.symm
    rfl
  | char h c ih =>
    rw [List.reverse_cons] at hread
    obtain ⟨ds, es, rfl, hds, hes⟩ := List.map_eq_append_iff.mp hread.symm
    obtain ⟨d, rfl, hd⟩ := List.map_eq_singleton_iff.mp hes
    obtain rfl := Option.some.inj hd
    rw [Bytes.ofChars_append, ih hds.symm]
    simp [Bytes.ofChars_cons]
  | illFormed h hne ih =>
    rw [List.reverse_cons] at hread
    obtain ⟨ds, es, rfl, hds, hes⟩ := List.map_eq_append_iff.mp hread.symm
    obtain ⟨d, rfl, hd⟩ := List.map_eq_singleton_iff.mp hes
    cases hd

end Run

/-- An ASCII character of a decoded text is a byte of its source. -/
theorem mem_of_mem_decodeLossy {bs : Bytes} {c : Char} (hc : c ∈ decodeLossy bs)
    (hascii : c.toNat ≤ 0x7F) : UInt8.ofNat c.toNat ∈ bs := by
  obtain ⟨o, ho, rfl⟩ := List.mem_map.mp hc
  cases o with
  | none => exact absurd hascii (by decide)
  | some c => exact (decodes_decode bs).mem_of_ascii (List.mem_reverse.mpr ho) hascii

theorem decodeLossy_ne_nil {bs : Bytes} (h : bs ≠ []) : decodeLossy bs ≠ [] := by
  intro hnil
  have hdecodes := decodes_decode bs
  rw [List.map_eq_nil_iff.mp hnil] at hdecodes
  cases hdecodes
  exact h rfl

/-! ## Text from its bytes -/

theorem mapM_id_eq_some_iff {os : List (Option Char)} {cs : List Char} :
    os.mapM id = some cs ↔ os = cs.map some := by
  induction os generalizing cs with
  | nil => cases cs <;> simp
  | cons o os ih =>
    rw [List.mapM_cons]
    cases o with
    | none => cases cs <;> simp
    | some c =>
      cases cs with
      | nil => cases os.mapM id <;> simp
      | cons d cs =>
        simp only [id_eq, Option.bind_eq_bind, Option.bind_some, List.map_cons, List.cons.injEq, ← ih]
        cases os.mapM id <;> simp

/-- A byte string that decodes is the UTF-8 form of its text. -/
theorem ofChars_of_decode? {bs : Bytes} {cs : List Char} (h : decode? bs = some cs) :
    Bytes.ofChars cs = bs := by
  have hread : (decode bs).reverse.reverse = cs.map some := by
    rw [List.reverse_reverse]
    exact mapM_id_eq_some_iff.mp h
  exact (decodes_decode bs).ofChars_eq hread

section Continue

variable {lo hi b : UInt8} {code : Nat} {read : List (Option Char)}

theorem push_idle (read : List (Option Char)) (b : UInt8) :
    State.push ⟨read, .idle⟩ b = State.lead read b := rfl

theorem push_last (hlo : lo ≤ b) (hhi : b ≤ hi) : State.push ⟨read, .inside lo hi 0 code⟩ b =
    ⟨some (Char.ofNat (code * 64 + (b.toNat - 0x80))) :: read, .idle⟩ := by
  simp [State.push, hlo, hhi]

theorem push_next (hlo : lo ≤ b) (hhi : b ≤ hi) (left : Nat) :
    State.push ⟨read, .inside lo hi (left + 1) code⟩ b =
      ⟨read, .inside 0x80 0xBF left (code * 64 + (b.toNat - 0x80))⟩ := by
  simp [State.push, hlo, hhi]

theorem toNat_ofNat_byte {n : Nat} (h : n < 0x100) : (UInt8.ofNat n).toNat = n :=
  UInt8.toNat_ofNat_of_lt' h

/-- Six bits of a code point as a continuation byte. -/
theorem continuation (n : Nat) : 0x80 ≤ UInt8.ofNat (n % 64 + 0x80) ∧ UInt8.ofNat (n % 64 + 0x80) ≤ 0xBF ∧
    (UInt8.ofNat (n % 64 + 0x80)).toNat = n % 64 + 0x80 := by
  have hnat := toNat_ofNat_byte (n := n % 64 + 0x80) (by omega)
  simp only [UInt8.le_iff_toNat_le, UInt8.reduceToNat, hnat]
  exact ⟨by omega, by omega, trivial⟩

end Continue

/-- A character is read back from its bytes. -/
theorem foldl_push_utf8EncodeChar (c : Char) (read : List (Option Char)) :
    (String.utf8EncodeChar c).foldl State.push ⟨read, .idle⟩ = ⟨some c :: read, .idle⟩ := by
  have hback : ∀ n, n = c.toNat → Char.ofNat n = c := fun n hn => by rw [hn, Char.ofNat_toNat]
  have hvalid := toNat_lt_or c
  obtain ⟨hlo, hhi, hlast⟩ := continuation c.toNat
  obtain ⟨hlo', hhi', hmid⟩ := continuation (c.toNat / 64)
  by_cases hone : c.toNat ≤ 0x7F
  · have hlead := toNat_ofNat_byte (n := c.toNat) (by omega)
    rw [Bytes.utf8EncodeChar_of_ascii hone]
    rw [List.foldl_cons, List.foldl_nil, push_idle, lead_of_ascii (by omega), hback _ hlead]
  by_cases htwo : c.toNat ≤ 0x7FF
  · have hlead := toNat_ofNat_byte (n := c.toNat / 64 + 0xC0) (by omega)
    rw [utf8EncodeChar_two (by omega) htwo]
    simp only [List.foldl_cons, List.foldl_nil, push_idle]
    rw [lead_two (by omega) (by omega), push_last hlo hhi, hback]
    omega
  by_cases hthree : c.toNat ≤ 0xFFFF
  · have hlead := toNat_ofNat_byte (n := c.toNat / 4096 + 0xE0) (by omega)
    rw [utf8EncodeChar_three (by omega) hthree]
    simp only [List.foldl_cons, List.foldl_nil, push_idle]
    rw [lead_three (by omega) (by omega), push_next (leastNext_le_iff.mpr (by omega))
      (le_greatestNext_iff.mpr (by omega)), push_last hlo hhi, hback]
    omega
  · obtain ⟨-, -, htop⟩ := continuation (c.toNat / 4096)
    have hlead := toNat_ofNat_byte (n := c.toNat / 262144 + 0xF0) (by omega)
    rw [utf8EncodeChar_four (by omega)]
    simp only [List.foldl_cons, List.foldl_nil, push_idle]
    rw [lead_four (by omega) (by omega), push_next (leastNext_le_iff.mpr (by omega))
      (le_greatestNext_iff.mpr (by omega)), push_next hlo' hhi', push_last hlo hhi, hback]
    omega

theorem decode_ofChars (cs : List Char) : decode (Bytes.ofChars cs) = cs.map some := by
  have hrun : ∀ read, (Bytes.ofChars cs).foldl State.push ⟨read, .idle⟩ =
      ⟨(cs.map some).reverse ++ read, .idle⟩ := by
    induction cs with
    | nil => exact fun read => rfl
    | cons c cs ih =>
      intro read
      rw [Bytes.ofChars_cons, List.foldl_append, foldl_push_utf8EncodeChar, ih]
      simp
  rw [decode, State.start, hrun, List.append_nil, State.finish, List.reverse_reverse]

/-- A text is read back from its UTF-8 form. -/
theorem decode?_ofChars (cs : List Char) : decode? (Bytes.ofChars cs) = some cs :=
  mapM_id_eq_some_iff.mpr (decode_ofChars cs)

/-- **A byte string decodes as a text just if it is the UTF-8 form of that text.** -/
theorem decode?_eq_some_iff {bs : Bytes} {cs : List Char} : decode? bs = some cs ↔ Bytes.ofChars cs = bs := by
  constructor
  · exact ofChars_of_decode?
  · rintro rfl
    exact decode?_ofChars cs

end Utf8

end Referee
