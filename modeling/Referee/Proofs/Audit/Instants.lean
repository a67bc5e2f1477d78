import Referee.Audit.Instant
import Referee.Proofs.Digits

/-!
# Written instants are read back

A part of a written instant is read off the front by the reader of that part (`number?_padded`,
`year?_yearChars`, `fraction?_fractionChars`), and what they read are the numbers of that very instant
(`ofLocal?_self`). So an instant is read from its text (`ofString?_text`), be it before the year 0,
after 9999 or in a leap second.
-/

namespace Referee.Audit

open Json.Lexeme (NoDigit noDigit_cons)

/-! ## Bounds of a date -/

namespace Date

theorem bounds (d : Date) : 1 ≤ d.day ∧ d.day ≤ daysInMonth d.year d.month := by
  have hvalid := d.valid
  simp only [isDate, Bool.and_eq_true, decide_eq_true_eq] at hvalid
  exact ⟨hvalid.1.2, hvalid.2⟩

theorem day_le (d : Date) : d.day ≤ 31 := by
  have hle : daysInMonth d.year d.month ≤ 31 := by
    unfold daysInMonth
    split <;> grind
  exact Nat.le_trans d.bounds.2 hle

theorem month_le (d : Date) : d.month ≤ 12 := by
  obtain ⟨hpos, hle⟩ := d.bounds
  unfold daysInMonth at hle
  split at hle <;> omega

theorem of?_self (d : Date) : of? d.year d.month d.day = some d := dif_pos d.valid

end Date

namespace Instant

variable {width n : Nat} {rest : List Char}

/-! ## Numbers -/

theorem isDigit_of_mem_padded {c : Char} (hc : c ∈ padded width n) : isDigit c = true := by
  rcases List.mem_append.mp hc with hzero | hrepr
  · obtain rfl := List.eq_of_mem_replicate hzero
    rfl
  · exact Decimal.isDigit_of_mem_repr_toList hrepr

theorem padded_ne_nil (width n : Nat) : padded width n ≠ [] :=
  List.append_ne_nil_of_right_ne_nil _ (Decimal.repr_toList_ne_nil n)

theorem ofDigits_padded (width n : Nat) : ofDigits (padded width n) = n :=
  Decimal.Numeral.ofDigits_padded _ n

/-- A number that fits its width fills it exactly. -/
theorem length_padded (hwidth : 0 < width) (hn : n < Nat.pow 10 width) : (padded width n).length = width := by
  have hle : n.repr.length ≤ width := (Nat.length_repr_le_iff hwidth).mpr hn
  rw [padded, List.length_append, List.length_replicate, String.length_toList]
  omega

theorem digits?_padded {most : Nat} (hlen : (padded width n).length ≤ most) (hrest : NoDigit rest) :
    digits? most (padded width n ++ rest) = some (padded width n, rest) := by
  have hcut : NoDigit (rest.take (most - (padded width n).length)) := by
    intro c hc
    rw [List.head?_take] at hc
    split at hc
    · cases hc
    · exact hrest c hc
  have htake : ((padded width n ++ rest).take most).takeWhile isDigit = padded width n := by
    rw [List.take_append, List.take_of_length_le hlen]
    exact Json.Lexeme.takeWhile_isDigit_append (fun c => isDigit_of_mem_padded) hcut
  simp only [digits?, htake, List.isEmpty_iff, if_neg (padded_ne_nil width n), List.drop_left]

theorem number?_padded {most : Nat} (hlen : (padded width n).length ≤ most) (hrest : NoDigit rest) :
    number? most (padded width n ++ rest) = some (n, rest) := by
  simp only [number?, digits?_padded hlen hrest, Option.map_some, ofDigits_padded]

theorem not_isSpace_of_isDigit {c : Char} (hc : isDigit c = true) : Text.isSpace c = false := by
  obtain ⟨hlo, hhi⟩ := Decimal.isDigit_char_iff.mp hc
  simp only [Text.isSpace, Text.spaceRanges, List.any_cons, List.any_nil, Bool.or_false,
    Bool.or_eq_false_iff, Bool.and_eq_false_iff, decide_eq_false_iff_not]
  omega

theorem skipSpace_cons {c : Char} (hc : Text.isSpace c = false) (cs : List Char) :
    skipSpace (c :: cs) = c :: cs :=
  List.dropWhile_cons_of_neg (by rw [hc]; exact Bool.false_ne_true)

theorem padded_eq_cons (width n : Nat) : ∃ c cs, padded width n = c :: cs ∧ isDigit c = true := by
  obtain ⟨c, cs, hcons⟩ := List.exists_cons_of_ne_nil (padded_ne_nil width n)
  exact ⟨c, cs, hcons, isDigit_of_mem_padded (by rw [hcons]; exact List.mem_cons_self)⟩

theorem skipSpace_padded (width n : Nat) (rest : List Char) :
    skipSpace (padded width n ++ rest) = padded width n ++ rest := by
  obtain ⟨c, cs, hcons, hdigit⟩ := padded_eq_cons width n
  rw [hcons]
  exact skipSpace_cons (not_isSpace_of_isDigit hdigit) _

theorem pair?_padded (hn : n < 100) (hrest : NoDigit rest) :
    pair? (padded 2 n ++ rest) = some (n, rest) := by
  have hlen : (padded 2 n).length = 2 := length_padded (by decide) hn
  rw [pair?, skipSpace_padded]
  exact number?_padded (Nat.le_of_eq hlen) hrest

theorem mark?_self (c : Char) (hc : Text.isSpace c = false) (rest : List Char) :
    mark? c (c :: rest) = some rest := by
  rw [mark?, skipSpace_cons hc]
  exact if_pos rfl

/-! ## Years -/

theorem year?_digit {c : Char} {cs : List Char} (hc : isDigit c = true) :
    year? (c :: cs) = (number? 4 (c :: cs)).map fun (n, rest) => ((n : Int), rest) := by
  rw [year?, skipSpace_cons (not_isSpace_of_isDigit hc)]
  split
  · rename_i h
    rw [(List.cons.inj h).1] at hc
    cases hc
  · rename_i h
    rw [(List.cons.inj h).1] at hc
    cases hc
  · rfl

theorem year?_minus (cs : List Char) :
    year? ('-' :: cs) = (number? cs.length cs).map fun (n, rest) => (-(n : Int), rest) := rfl

theorem year?_plus (cs : List Char) :
    year? ('+' :: cs) = (number? cs.length cs).map fun (n, rest) => ((n : Int), rest) := rfl

theorem year?_yearChars (year : Int) (hrest : NoDigit rest) :
    year? (yearChars year ++ rest) = some (year, rest) := by
  unfold yearChars
  split
  · rename_i hfour
    have hlen : (padded 4 year.toNat).length = 4 :=
      length_padded (by decide) (show year.toNat < 10000 by omega)
    have hnumber := number?_padded (Nat.le_of_eq hlen) hrest
    obtain ⟨c, cs, hcons, hdigit⟩ := padded_eq_cons 4 year.toNat
    rw [hcons, List.cons_append] at hnumber ⊢
    simp only [year?_digit hdigit, hnumber, Option.map_some, Int.toNat_of_nonneg hfour.1]
  · have hlen : (padded 4 year.natAbs).length ≤ (padded 4 year.natAbs ++ rest).length := by
      rw [List.length_append]
      exact Nat.le_add_right _ _
    have hnumber := number?_padded hlen hrest
    by_cases hneg : year < 0
    · have hvalue : -(year.natAbs : Int) = year := by omega
      simp only [if_pos hneg, List.cons_append, year?_minus, hnumber, Option.map_some, hvalue]
    · have hvalue : (year.natAbs : Int) = year := by omega
      simp only [if_neg hneg, List.cons_append, year?_plus, hnumber, Option.map_some, hvalue]

/-! ## Fractions -/

theorem fraction?_padded (hwidth : 0 < width) (hnine : width ≤ 9) (hn : n < Nat.pow 10 width)
    (hrest : NoDigit rest) :
    fraction? ('.' :: (padded width n ++ rest)) = some (n * Nat.pow 10 (9 - width), rest) := by
  have hlen := length_padded hwidth hn
  have hdrop : ([] ++ rest).dropWhile isDigit = rest :=
    Json.Lexeme.dropWhile_isDigit_append nofun hrest
  rw [List.nil_append] at hdrop
  simp only [fraction?, digits?_padded (Nat.le_trans (Nat.le_of_eq hlen) hnine) hrest, Option.map_some,
    ofDigits_padded, hlen, hdrop]

theorem fraction?_fractionChars (hn : n < 1000000000) (rest : List Char) :
    fraction? (fractionChars n ++ 'Z' :: rest) = some (n, 'Z' :: rest) := by
  have hrest : NoDigit ('Z' :: rest) := noDigit_cons rfl rest
  unfold fractionChars
  split
  · rename_i hzero
    rw [hzero]
    rfl
  split
  · rename_i hmilli
    have hvalue : n / 1000000 * Nat.pow 10 (9 - 3) = n := show _ * 1000000 = n by omega
    rw [List.cons_append, fraction?_padded (by decide) (by decide)
      (show n / 1000000 < 1000 by omega) hrest, hvalue]
  split
  · rename_i hmicro
    have hvalue : n / 1000 * Nat.pow 10 (9 - 6) = n := show _ * 1000 = n by omega
    rw [List.cons_append, fraction?_padded (by decide) (by decide)
      (show n / 1000 < 1000000 by omega) hrest, hvalue]
  · have hvalue : n * Nat.pow 10 (9 - 9) = n := Nat.mul_one n
    rw [List.cons_append, fraction?_padded (by decide) (by decide) hn hrest, hvalue]

/-! ## Instants -/

/-- The whole seconds in the nanoseconds: one during a leap second. -/
theorem leap_cases (t : Instant) :
    t.nanosecond / 1000000000 = 0 ∨ t.nanosecond / 1000000000 = 1 ∧ t.second = 59 := by
  rcases t.valid with hless | ⟨hsecond, hless⟩
  · exact .inl (by omega)
  · rcases Nat.lt_or_ge t.nanosecond 1000000000 with hlt | hge
    · exact .inl (by omega)
    · exact .inr ⟨by omega, hsecond⟩

/-- The numbers of a clock are got back from the second of the day. -/
theorem clock_parts (hour : Nat) {minute second : Nat} (hminute : minute < 60) (hsecond : second < 60) :
    (hour * 3600 + minute * 60 + second) / 3600 = hour ∧
      (hour * 3600 + minute * 60 + second) / 60 % 60 = minute ∧
      (hour * 3600 + minute * 60 + second) % 60 = second := by
  omega

/-- An instant is the one that its own numbers denote in UTC. -/
theorem ofLocal?_self (t : Instant) :
    ofLocal? t.date t.hour t.minute (t.second + t.nanosecond / 1000000000)
      (t.nanosecond % 1000000000) 0 = some t := by
  have hhour := t.hour.isLt
  have hminute := t.minute.isLt
  have hsecond := t.second.isLt
  have hsixty : t.second + t.nanosecond / 1000000000 ≤ 60 := by
    rcases t.leap_cases with h | ⟨h, _⟩ <;> omega
  have hleap : (t.second + t.nanosecond / 1000000000) / 60 = t.nanosecond / 1000000000 := by
    rcases t.leap_cases with h | ⟨h, hlast⟩
    · omega
    · have hval : t.second.val = 59 := congrArg Fin.val hlast
      omega
  have hclock : ((t.hour.val * 3600 + t.minute.val * 60 + t.second.val - 0) % 86400 : Int).toNat =
      t.hour.val * 3600 + t.minute.val * 60 + t.second.val := by omega
  have hdate : dateOf? t.date (t.hour.val * 3600 + t.minute.val * 60 + t.second.val - 0) = some t.date := by
    rw [dateOf?, if_neg (by omega), if_pos (by omega)]
  obtain ⟨hh, hm, hs⟩ := clock_parts t.hour hminute hsecond
  have hguard : t.hour.val < 24 ∧ t.minute.val < 60 ∧ t.second.val + t.nanosecond / 1000000000 ≤ 60 ∧
      (0 : Int).natAbs < 86400 ∧ t.nanosecond % 1000000000 < 1000000000 :=
    ⟨hhour, hminute, hsixty, by decide, Nat.mod_lt _ (by decide)⟩
  simp only [ofLocal?, if_pos hguard, hleap, Nat.add_sub_cancel, hclock, hdate, Option.bind_some, hh, hm,
    hs, Fin.ofNat_val_eq_self, Nat.mod_add_div, t.valid, dif_pos]

/-- A reader goes on from what its first step gives. -/
theorem bind_of_eq {α β : Type} {first : Option α} {next : α → Option β} {a : α} {r : Option β}
    (hfirst : first = some a) (hnext : next a = r) : first.bind next = r := by
  rw [hfirst]
  exact hnext

theorem noDigit_fractionChars (nanosecond : Nat) (rest : List Char) :
    NoDigit (fractionChars nanosecond ++ 'Z' :: rest) := by
  unfold fractionChars
  split
  · exact noDigit_cons rfl _
  split
  · exact noDigit_cons rfl _
  split <;> exact noDigit_cons rfl _

theorem ofChars?_chars (t : Instant) : ofChars? t.chars = some t := by
  have hmonth : t.date.month < 100 := by have := t.date.month_le; omega
  have hday : t.date.day < 100 := by have := t.date.day_le; omega
  have hhour : t.hour.val < 100 := by omega
  have hminute : t.minute.val < 100 := by omega
  have hsecond : t.second.val + t.nanosecond / 1000000000 < 100 := by
    rcases t.leap_cases with h | ⟨h, _⟩ <;> omega
  have hhyphen : ∀ rest, NoDigit ('-' :: rest) := noDigit_cons rfl
  have hcolon : ∀ rest, NoDigit (':' :: rest) := noDigit_cons rfl
  simp only [chars, List.append_assoc, List.cons_append]
  -- one step for each part of the text, in order
  refine bind_of_eq (year?_yearChars t.date.year (hhyphen _)) ?_
  refine bind_of_eq (mark?_self '-' rfl _) ?_
  refine bind_of_eq (pair?_padded hmonth (hhyphen _)) ?_
  refine bind_of_eq (mark?_self '-' rfl _) ?_
  refine bind_of_eq (pair?_padded hday (noDigit_cons rfl _)) ?_
  refine bind_of_eq rfl ?_
  refine bind_of_eq (pair?_padded hhour (hcolon _)) ?_
  refine bind_of_eq (mark?_self ':' rfl _) ?_
  refine bind_of_eq (pair?_padded hminute (hcolon _)) ?_
  refine bind_of_eq (mark?_self ':' rfl _) ?_
  refine bind_of_eq (pair?_padded hsecond (noDigit_fractionChars _ _)) ?_
  refine bind_of_eq (fraction?_fractionChars (Nat.mod_lt t.nanosecond (by decide)) _) ?_
  refine bind_of_eq (a := (0, [])) rfl ?_
  refine bind_of_eq t.date.of?_self ?_
  have hend : (skipSpace []).isEmpty = true := rfl
  rw [if_pos hend]
  exact ofLocal?_self t

/-- **An instant is read from its text.** -/
theorem ofString?_text (t : Instant) : ofString? t.text = some t := by
  rw [ofString?, text, String.toList_ofList, ofChars?_chars]

end Instant

end Referee.Audit
