import Referee.Decimal.Number
import Referee.Proofs.Digits
import Referee.Proofs.Tokens
import Referee.Proofs.Utf8

/-!
# Integers in tokens

Digits are read onto a number that carries the sign. More digits never bring back a number that has
left the range of the 64-bit integers, so a run of digits is the integer that it denotes or out of
range (`readDigits_of_digits`), and a token reads as an integer if it is a sign and digits that
denote it (`readInteger_eq_value_iff`). It is out of range if it begins with an integer that is
(`readInteger_eq_outOfRange_iff`). The decimal form of a 64-bit integer is a short token and reads as
that integer (`readInteger_repr`).
-/

namespace Referee

/-! ## Text in ASCII -/

namespace Utf8

theorem decode?_of_ascii {bs : Bytes} (h : ∀ b ∈ bs, b < 0x80) :
    decode? bs = some (bs.map fun b => Char.ofNat b.toNat) := by
  have hnat : ∀ b ∈ bs, (Char.ofNat b.toNat).toNat = b.toNat := fun b hb =>
    toNat_ofNat_of_isValidChar (.inl (Nat.lt_trans (UInt8.lt_iff_toNat_lt.mp (h b hb)) (by decide)))
  have hchars : Bytes.ofChars (bs.map fun b => Char.ofNat b.toNat) = bs := by
    rw [Bytes.ofChars_of_ascii, List.map_map]
    · refine (List.map_congr_left fun b hb => ?_).trans (List.map_id bs)
      rw [Function.comp_apply, hnat b hb, UInt8.ofNat_toNat, id]
    · intro c hc
      obtain ⟨b, hb, rfl⟩ := List.mem_map.mp hc
      rw [hnat b hb]
      exact Nat.le_of_lt_succ (UInt8.lt_iff_toNat_lt.mp (h b hb))
  have hread := decode?_ofChars (bs.map fun b => Char.ofNat b.toNat)
  rwa [hchars] at hread

end Utf8

namespace Decimal

/-! ## Digits onto a number -/

/-- A magnitude with a sign. -/
def signed (negative : Bool) (m : Nat) : Int := if negative then -m else m

/-- The integer has 64 bits. -/
def Fits (n : Int) : Prop := Int64.minValue.toInt ≤ n ∧ n ≤ Int64.maxValue.toInt

instance decidableFits (n : Int) : Decidable (Fits n) := inferInstanceAs (Decidable (_ ∧ _))

/-- The number that digits denote behind those of `m`. -/
def digitsOnto (m : Nat) (bs : Bytes) : Nat := bs.foldl (fun n b => 10 * n + digitValue b) m

section Digits

variable {negative : Bool} {m n : Nat} {b : UInt8} {bs : Bytes}

theorem le_digitsOnto (m : Nat) (bs : Bytes) : m ≤ digitsOnto m bs := by
  induction bs generalizing m with
  | nil => exact le_rfl
  | cons b bs ih =>
    refine le_trans ?_ (ih (10 * m + digitValue b))
    omega

theorem Fits.of_le (h : Fits (signed negative n)) (hle : m ≤ n) : Fits (signed negative m) := by
  have hmin : Int64.minValue.toInt = -9223372036854775808 := by decide
  have hmax : Int64.maxValue.toInt = 9223372036854775807 := by decide
  simp only [Fits, signed, hmin, hmax] at h ⊢
  cases negative with
  | true =>
    simp only [if_true] at h ⊢
    omega
  | false =>
    simp only [Bool.false_eq_true, if_false] at h ⊢
    omega

theorem readDigits_cons (hb : isDigit b = true) :
    readDigits negative (signed negative m) (b :: bs) =
      if Fits (signed negative (10 * m + digitValue b)) then
        readDigits negative (signed negative (10 * m + digitValue b)) bs
      else .outOfRange := by
  have hnext : (if negative then 10 * signed negative m - digitValue b
      else 10 * signed negative m + digitValue b) = signed negative (10 * m + digitValue b) := by
    cases negative with
    | true =>
      simp only [signed, if_true]
      omega
    | false =>
      simp only [signed, Bool.false_eq_true, if_false]
      omega
  rw [readDigits, if_pos hb]
  simp only [hnext]
  by_cases hfits : Fits (signed negative (10 * m + digitValue b))
  · rw [if_pos hfits, if_neg]
    obtain ⟨hlo, hhi⟩ := hfits
    omega
  · rw [if_neg hfits, if_pos]
    rwa [Fits, not_and_or, Int.not_le, Int.not_le] at hfits

/-- **A run of digits is the integer that it denotes, or out of range.** -/
theorem readDigits_of_digits (hbs : ∀ b ∈ bs, isDigit b = true) (hm : Fits (signed negative m)) :
    readDigits negative (signed negative m) bs =
      if Fits (signed negative (digitsOnto m bs)) then
        .value (Int64.ofInt (signed negative (digitsOnto m bs)))
      else .outOfRange := by
  induction bs generalizing m with
  | nil => exact (if_pos hm).symm
  | cons b bs ih =>
    rw [readDigits_cons (hbs b List.mem_cons_self)]
    by_cases hfits : Fits (signed negative (10 * m + digitValue b))
    · rw [if_pos hfits]
      exact ih (fun c hc => hbs c (List.mem_cons_of_mem _ hc)) hfits
    · rw [if_neg hfits]
      refine (if_neg fun h => hfits ?_).symm
      exact h.of_le (le_digitsOnto (10 * m + digitValue b) bs)

end Digits

/-! ## Digits with a sign -/

section Sign

variable {b : UInt8} {bs : Bytes}

theorem isDigit_iff : isDigit b = true ↔ 48 ≤ b.toNat ∧ b.toNat ≤ 57 := by
  simp only [isDigit, Bool.and_eq_true, decide_eq_true_eq, UInt8.le_iff_toNat_le]
  rfl

theorem lt_of_isDigit (h : isDigit b = true) : b < 0x80 := by
  rw [UInt8.lt_iff_toNat_lt]
  exact Nat.lt_of_le_of_lt (isDigit_iff.mp h).2 (by decide)

theorem not_isBlank_of_isDigit (h : isDigit b = true) : isBlank b = false := by
  obtain ⟨hlo, hhi⟩ := isDigit_iff.mp h
  rw [Bool.eq_false_iff]
  intro hblank
  simp only [isBlank, Bool.or_eq_true, Bool.and_eq_true, beq_iff_eq, decide_eq_true_eq,
    UInt8.le_iff_toNat_le, ← UInt8.toNat_inj] at hblank
  have h32 : (32 : UInt8).toNat = 32 := rfl
  have h13 : (13 : UInt8).toNat = 13 := rfl
  omega

theorem splitSign_of_digits (hbs : ∀ b ∈ bs, isDigit b = true) : splitSign bs = (false, bs) := by
  unfold splitSign
  split
  · exact absurd (hbs 43 List.mem_cons_self) (by decide)
  · exact absurd (hbs 45 List.mem_cons_self) (by decide)
  · rfl

theorem readInteger_of_ascii (hbs : ∀ b ∈ bs, b < 0x80) {negative : Bool} {digits : Bytes}
    (hsplit : splitSign bs = (negative, digits)) (hne : digits ≠ []) :
    readInteger bs = readDigits negative (signed negative 0) digits := by
  obtain ⟨d, ds, rfl⟩ := List.exists_cons_of_ne_nil hne
  have hzero : signed negative 0 = 0 := by cases negative <;> rfl
  rw [readInteger, Utf8.decode?_of_ascii hbs, hsplit, hzero]
  rfl

/-- Digits behind an optional minus sign are the integer that they denote, if it has 64 bits. -/
theorem readInteger_of_digits (hbs : ∀ b ∈ bs, isDigit b = true) (hne : bs ≠ []) (negative : Bool)
    (hfits : Fits (signed negative (ofDigits bs))) :
    readInteger (if negative then 45 :: bs else bs) =
      .value (Int64.ofInt (signed negative (ofDigits bs))) := by
  have hascii : ∀ b ∈ bs, b < 0x80 := fun b hb => lt_of_isDigit (hbs b hb)
  have hzero : Fits (signed negative 0) := hfits.of_le (Nat.zero_le _)
  have hdigits : readDigits negative (signed negative 0) bs =
      .value (Int64.ofInt (signed negative (ofDigits bs))) :=
    (readDigits_of_digits hbs hzero).trans (if_pos hfits)
  rw [← hdigits]
  cases negative with
  | true => exact readInteger_of_ascii (List.forall_mem_cons.mpr ⟨by decide, hascii⟩) rfl hne
  | false => exact readInteger_of_ascii hascii (splitSign_of_digits hbs) hne

end Sign

/-! ## Decimal forms -/

theorem ofString_repr (n : Nat) :
    Bytes.ofString n.repr = (Nat.toDigits 10 n).map fun c => UInt8.ofNat c.toNat := by
  rw [Bytes.ofString, Nat.toList_repr]
  exact Bytes.ofChars_of_ascii fun c hc => le_trans (digit_of_mem_toDigits hc).2 (by decide)

theorem isDigit_of_mem_repr {n : Nat} : ∀ b ∈ Bytes.ofString n.repr, isDigit b = true := by
  intro b hb
  rw [ofString_repr] at hb
  obtain ⟨c, hc, rfl⟩ := List.mem_map.mp hb
  obtain ⟨hlo, hhi⟩ := digit_of_mem_toDigits hc
  rw [isDigit_iff, UInt8.toNat_ofNat_of_lt' (lt_of_le_of_lt hhi (by decide))]
  exact ⟨hlo, hhi⟩

theorem repr_ne_nil (n : Nat) : Bytes.ofString n.repr ≠ [] := by
  rw [ofString_repr]
  simp

theorem ofDigits_repr (n : Nat) : ofDigits (Bytes.ofString n.repr) = n := by
  rw [ofString_repr, ofDigits, List.foldl_map]
  refine Eq.trans (List.foldl_ext _ _ _ fun m c hc => ?_) Nat.ofDigitChars_ten_toDigits
  have hhi := (digit_of_mem_toDigits hc).2
  rw [digitValue, UInt8.toNat_ofNat_of_lt' (lt_of_le_of_lt hhi (by decide))]
  rfl

/-- An integer is written as its digits behind a minus sign if it is negative. -/
theorem ofString_repr_int (n : Int) : Bytes.ofString n.repr =
    if decide (n < 0) then 45 :: Bytes.ofString n.natAbs.repr else Bytes.ofString n.natAbs.repr := by
  cases n with
  | ofNat m => rfl
  | negSucc m =>
    rw [if_pos (by simp), Int.repr, Bytes.ofString_append]
    rfl

theorem fits_toInt (n : Int64) : Fits n.toInt := by
  have hlo := n.le_toInt
  have hhi := n.toInt_lt
  have hmin : Int64.minValue.toInt = -9223372036854775808 := by decide
  have hmax : Int64.maxValue.toInt = 9223372036854775807 := by decide
  rw [Fits, hmin, hmax]
  omega

theorem signed_natAbs (n : Int) : signed (decide (n < 0)) n.natAbs = n := by
  by_cases h : n < 0
  · simp only [signed, h, decide_true, if_true]
    omega
  · simp only [signed, h, decide_false, Bool.false_eq_true, if_false]
    omega

/-- **The decimal form of a 64-bit integer reads as that integer.** -/
theorem readInteger_repr (n : Int64) : readInteger (Bytes.ofString n.toInt.repr) = .value n := by
  have hfits : Fits (signed (decide (n.toInt < 0)) (ofDigits (Bytes.ofString n.toInt.natAbs.repr))) := by
    rw [ofDigits_repr, signed_natAbs]
    exact fits_toInt n
  rw [ofString_repr_int, readInteger_of_digits isDigit_of_mem_repr (repr_ne_nil _) _ hfits,
    ofDigits_repr, signed_natAbs, Int64.ofInt_toInt]

theorem isToken_repr (n : Int) : IsToken (Bytes.ofString n.repr) := by
  have hdigits : ∀ b ∈ Bytes.ofString n.natAbs.repr, isBlank b = false :=
    fun b hb => not_isBlank_of_isDigit (isDigit_of_mem_repr b hb)
  rw [ofString_repr_int]
  split
  · exact ⟨List.cons_ne_nil _ _, List.forall_mem_cons.mpr ⟨rfl, hdigits⟩⟩
  · exact ⟨repr_ne_nil _, hdigits⟩

theorem length_repr_le (n : Int64) : (Bytes.ofString n.toInt.repr).length ≤ 20 := by
  have habs : n.toInt.natAbs < 10 ^ 19 := by
    have hlo := n.le_toInt
    have hhi := n.toInt_lt
    omega
  have hlen : (Bytes.ofString n.toInt.natAbs.repr).length ≤ 19 := by
    rw [ofString_repr, List.length_map]
    exact (Nat.length_toDigits_le_iff (by decide) (by decide)).mpr habs
  rw [ofString_repr_int]
  split
  · rw [List.length_cons]
    omega
  · omega

/-! ## What reads as an integer -/

/-- The token is an optional sign and one digit or more, which together denote `n`. -/
inductive Denotes : Bytes → Int → Prop where
  | bare {digits : Bytes} (hdigits : ∀ b ∈ digits, isDigit b = true) (hne : digits ≠ []) :
      Denotes digits (ofDigits digits)
  | plus {digits : Bytes} (hdigits : ∀ b ∈ digits, isDigit b = true) (hne : digits ≠ []) :
      Denotes (43 :: digits) (ofDigits digits)
  | minus {digits : Bytes} (hdigits : ∀ b ∈ digits, isDigit b = true) (hne : digits ≠ []) :
      Denotes (45 :: digits) (-ofDigits digits)

section Denotes

variable {negative : Bool} {m : Nat} {token digits : Bytes} {n : Int64}

theorem digits_of_readDigits (hm : Fits (signed negative m))
    (h : readDigits negative (signed negative m) digits = .value n) :
    (∀ b ∈ digits, isDigit b = true) ∧ n.toInt = signed negative (digitsOnto m digits) := by
  induction digits generalizing m with
  | nil =>
    obtain rfl := IntegerToken.value.inj h
    exact ⟨nofun, Int64.toInt_ofInt_of_le hm.1 (Int.lt_add_one_of_le hm.2)⟩
  | cons b digits ih =>
    by_cases hb : isDigit b = true
    · rw [readDigits_cons hb] at h
      split at h
      · rename_i hfits
        obtain ⟨hdigits, hn⟩ := ih hfits h
        exact ⟨List.forall_mem_cons.mpr ⟨hb, hdigits⟩, hn⟩
      · cases h
    · rw [readDigits, if_neg hb] at h
      cases h

theorem Denotes.split {z : Int} (h : Denotes token z) : ∃ negative digits,
    splitSign token = (negative, digits) ∧ (∀ b ∈ digits, isDigit b = true) ∧ digits ≠ [] ∧
      z = signed negative (ofDigits digits) ∧ ∀ b ∈ token, b < 0x80 := by
  cases h with
  | bare hdigits hne =>
    exact ⟨false, _, splitSign_of_digits hdigits, hdigits, hne, rfl,
      fun b hb => lt_of_isDigit (hdigits b hb)⟩
  | plus hdigits hne =>
    exact ⟨false, _, rfl, hdigits, hne, rfl,
      List.forall_mem_cons.mpr ⟨by decide, fun b hb => lt_of_isDigit (hdigits b hb)⟩⟩
  | minus hdigits hne =>
    exact ⟨true, _, rfl, hdigits, hne, rfl,
      List.forall_mem_cons.mpr ⟨by decide, fun b hb => lt_of_isDigit (hdigits b hb)⟩⟩

theorem denotes_of_split (hsplit : splitSign token = (negative, digits))
    (hdigits : ∀ b ∈ digits, isDigit b = true) (hne : digits ≠ []) :
    Denotes token (signed negative (ofDigits digits)) := by
  unfold splitSign at hsplit
  split at hsplit
  · obtain ⟨rfl, rfl⟩ := Prod.mk.inj hsplit
    exact .plus hdigits hne
  · obtain ⟨rfl, rfl⟩ := Prod.mk.inj hsplit
    exact .minus hdigits hne
  · obtain ⟨rfl, rfl⟩ := Prod.mk.inj hsplit
    exact .bare hdigits hne

/-- **A token reads as a 64-bit integer if it is a sign and digits that denote it.** -/
theorem readInteger_eq_value_iff : readInteger token = .value n ↔ Denotes token n.toInt := by
  have hzero : ∀ negative, signed negative 0 = 0 := by decide
  have hfits : ∀ negative, Fits (signed negative 0) := by decide
  constructor
  · intro h
    rw [readInteger] at h
    split at h
    · cases h
    rcases hsplit : splitSign token with ⟨negative, digits⟩
    rw [hsplit] at h
    cases digits with
    | nil => cases h
    | cons d ds =>
      obtain ⟨hdigits, hn⟩ := digits_of_readDigits (hfits negative) ((hzero negative).symm ▸ h)
      rw [hn]
      exact denotes_of_split hsplit hdigits (List.cons_ne_nil d ds)
  · intro h
    obtain ⟨negative, digits, hsplit, hdigits, hne, hn, hascii⟩ := h.split
    have hn' : n.toInt = signed negative (digitsOnto 0 digits) := hn
    rw [readInteger_of_ascii hascii hsplit hne, readDigits_of_digits hdigits (hfits negative), ← hn',
      if_pos (fits_toInt n), Int64.ofInt_toInt]

end Denotes

/-! ## What reads as out of range -/

/-- The token is text and begins with an integer beyond 64 bits, whatever comes behind that. -/
def Overflows (token : Bytes) : Prop :=
  (Utf8.decode? token).isSome = true ∧ ∃ front n, front <+: token ∧ Denotes front n ∧ ¬ Fits n

section Overflows

variable {negative : Bool} {m : Nat} {token front rest bs : Bytes} {z : Int}

/-- A number goes out of range with the first digits that take it there. -/
theorem readDigits_eq_outOfRange_iff (hm : Fits (signed negative m)) :
    readDigits negative (signed negative m) bs = .outOfRange ↔
      ∃ ds, ds <+: bs ∧ (∀ b ∈ ds, isDigit b = true) ∧ ¬ Fits (signed negative (digitsOnto m ds)) := by
  induction bs generalizing m with
  | nil =>
    refine iff_of_false nofun ?_
    rintro ⟨ds, hds, -, hover⟩
    rw [List.prefix_nil.mp hds] at hover
    exact hover hm
  | cons b bs ih =>
    by_cases hb : isDigit b = true
    · rw [readDigits_cons hb]
      split
      · rename_i hfits
        rw [ih hfits]
        constructor
        · rintro ⟨ds, hds, hdigits, hover⟩
          exact ⟨b :: ds, List.cons_prefix_cons.mpr ⟨rfl, hds⟩,
            List.forall_mem_cons.mpr ⟨hb, hdigits⟩, hover⟩
        · rintro ⟨ds, hds, hdigits, hover⟩
          cases ds with
          | nil => exact absurd hm hover
          | cons d ds =>
            obtain ⟨rfl, htail⟩ := List.cons_prefix_cons.mp hds
            exact ⟨ds, htail, (List.forall_mem_cons.mp hdigits).2, hover⟩
      · rename_i hover
        exact iff_of_true rfl ⟨[b], List.cons_prefix_cons.mpr ⟨rfl, List.nil_prefix⟩,
          List.forall_mem_singleton.mpr hb, hover⟩
    · rw [readDigits, if_neg hb]
      refine iff_of_false nofun ?_
      rintro ⟨ds, hds, hdigits, hover⟩
      cases ds with
      | nil => exact hover hm
      | cons d ds =>
        obtain ⟨rfl, -⟩ := List.cons_prefix_cons.mp hds
        exact hb (hdigits d List.mem_cons_self)

theorem splitSign_append (hne : front ≠ []) (rest : Bytes) :
    splitSign (front ++ rest) = ((splitSign front).1, (splitSign front).2 ++ rest) := by
  obtain ⟨b, bs, rfl⟩ := List.exists_cons_of_ne_nil hne
  by_cases hplus : b = 43
  · subst hplus
    rfl
  by_cases hminus : b = 45
  · subst hminus
    rfl
  have hbare : ∀ bs, splitSign (b :: bs) = (false, b :: bs) := by
    intro bs
    unfold splitSign
    split
    · exact absurd (List.cons.inj ‹_›).1 hplus
    · exact absurd (List.cons.inj ‹_›).1 hminus
    · rfl
  rw [List.cons_append, hbare, hbare]
  rfl

/-- A token is its sign, if it has one, and what follows that. -/
theorem exists_sign (token : Bytes) : ∃ sign, token = sign ++ (splitSign token).2 ∧
    ∀ ds, (∀ b ∈ ds, isDigit b = true) → splitSign (sign ++ ds) = ((splitSign token).1, ds) := by
  unfold splitSign
  split
  · exact ⟨[43], rfl, fun _ _ => rfl⟩
  · exact ⟨[45], rfl, fun _ _ => rfl⟩
  · exact ⟨[], rfl, fun _ hds => splitSign_of_digits hds⟩

/-- The integers at the beginning of a token are the first digits behind its sign. -/
theorem exists_front_iff (z : Int) : (∃ front, front <+: token ∧ Denotes front z) ↔
    ∃ ds, ds <+: (splitSign token).2 ∧ (∀ b ∈ ds, isDigit b = true) ∧ ds ≠ [] ∧
      z = signed (splitSign token).1 (ofDigits ds) := by
  constructor
  · rintro ⟨front, ⟨rest, rfl⟩, hfront⟩
    obtain ⟨negative, ds, hsplit, hdigits, hne, rfl, -⟩ := hfront.split
    have hfront : front ≠ [] := by
      rintro rfl
      exact hne (Prod.mk.inj hsplit).2.symm
    rw [splitSign_append hfront, hsplit]
    exact ⟨ds, List.prefix_append ds rest, hdigits, hne, rfl⟩
  · rintro ⟨ds, ⟨rest, hrest⟩, hdigits, hne, rfl⟩
    obtain ⟨sign, htoken, hsplit⟩ := exists_sign token
    refine ⟨sign ++ ds, ⟨rest, ?_⟩, denotes_of_split (hsplit ds hdigits) hdigits hne⟩
    rw [List.append_assoc, hrest, ← htoken]

/-- **A token reads as out of range if it begins with an integer that is.** -/
theorem readInteger_eq_outOfRange_iff : readInteger token = .outOfRange ↔ Overflows token := by
  have hfits : ∀ negative, Fits (signed negative 0) := by decide
  have hfront : (∃ front z, front <+: token ∧ Denotes front z ∧ ¬ Fits z) ↔
      ∃ ds, ds <+: (splitSign token).2 ∧ (∀ b ∈ ds, isDigit b = true) ∧
        ¬ Fits (signed (splitSign token).1 (digitsOnto 0 ds)) := by
    constructor
    · rintro ⟨front, z, hprefix, hdenotes, hover⟩
      obtain ⟨ds, hds, hdigits, -, rfl⟩ := (exists_front_iff z).mp ⟨front, hprefix, hdenotes⟩
      exact ⟨ds, hds, hdigits, hover⟩
    · rintro ⟨ds, hds, hdigits, hover⟩
      have hne : ds ≠ [] := by
        rintro rfl
        exact hover (hfits _)
      obtain ⟨front, hprefix, hdenotes⟩ := (exists_front_iff _).mpr ⟨ds, hds, hdigits, hne, rfl⟩
      exact ⟨front, _, hprefix, hdenotes, hover⟩
  rw [Overflows, hfront, readInteger]
  split
  · rename_i hnone
    refine iff_of_false nofun fun h => ?_
    rw [Option.isNone_iff_eq_none.mp hnone] at h
    exact Bool.false_ne_true h.1
  · rename_i hsome
    rw [Bool.not_eq_true, Option.isNone_eq_false_iff] at hsome
    rw [and_iff_right hsome]
    rcases splitSign token with ⟨negative, digits⟩
    cases digits with
    | nil =>
      refine iff_of_false nofun ?_
      rintro ⟨ds, hds, -, hover⟩
      rw [List.prefix_nil.mp hds] at hover
      exact hover (hfits negative)
    | cons d digits =>
      have hzero : signed negative 0 = 0 := by cases negative <;> rfl
      rw [← readDigits_eq_outOfRange_iff (hfits negative), hzero]

theorem Denotes.overflows (h : Denotes token z) (hz : ¬ Fits z) : Overflows token := by
  obtain ⟨-, -, -, -, -, -, hascii⟩ := h.split
  refine ⟨?_, token, z, List.prefix_rfl, h, hz⟩
  rw [Utf8.decode?_of_ascii hascii]
  rfl

/-- An integer of 64 bits is read as such. -/
theorem Denotes.readInteger_eq (h : Denotes token z) (hz : Fits z) :
    readInteger token = .value (Int64.ofInt z) := by
  have hval : (Int64.ofInt z).toInt = z :=
    Int64.toInt_ofInt_of_le hz.1 (Int.lt_add_one_of_le hz.2)
  rw [readInteger_eq_value_iff, hval]
  exact h

end Overflows

end Decimal

end Referee
