import Mathlib.Data.List.Nodup
import Referee.Outcome.Form
import Referee.Proofs.Json.RoundTrip

/-!
# Written records are read back

An integer is read back from its decimal form, a verdict from its code. An object gives a record its
known members unless one of them comes twice (`fields?_of_not_repeats`, `fields?_of_repeats`); where the
keys stand in the order of the fields, these are all members (`fields?_record`). A field that is left
out when it has no value reads as such (`optional_of_lookup`).
-/

namespace Referee.Json

open Decimal (Numeral)

/-! ## Values -/

theorem int?_nat (n : Nat) : (nat n).int? = some (n : Int) := by
  simp only [nat, int?, Numeral.toInt?, Numeral.ofNat, List.isEmpty_nil, Option.isNone_none,
    Bool.and_self, if_true, Bool.false_eq_true, if_false, Numeral.ofDigits_repr_toList]

theorem uint32?_nat (n : UInt32) : (nat n.toNat).uint32? = some n := by
  rw [uint32?, int?_nat, Option.bind_some, if_pos ⟨Int.natCast_nonneg _, n.toNat_lt_size⟩]
  exact congrArg some UInt32.ofNat_toNat

theorem int?_int (n : Int) : (int n).int? = some n := by
  have hdigits : Numeral.ofDigits n.natAbs.repr.toList = n.natAbs := Numeral.ofDigits_repr_toList _
  simp only [int, int?, Numeral.toInt?, Numeral.ofInt, List.isEmpty_nil, Option.isNone_none,
    Bool.and_self, if_true, hdigits, decide_eq_true_eq]
  by_cases hneg : n < 0
  · rw [if_pos hneg, if_neg (by omega)]
    exact congrArg some (by omega)
  · rw [if_neg hneg]
    exact congrArg some (by omega)

theorem int64?_int (n : Int64) : (int n.toInt).int64? = some n := by
  rw [int64?, int?_int, Option.bind_some, if_pos ⟨n.minValue_le_toInt, n.toInt_le⟩, Int64.ofInt_toInt]

theorem Lexeme.written_ofNat (n : Nat) : Written (Numeral.ofNat n) where
  whole_ne_nil := Decimal.repr_toList_ne_nil n
  whole_digits := fun _ => Decimal.isDigit_of_mem_repr_toList
  no_leading_zero := Decimal.no_leading_zero_repr
  fraction_digits := nofun

theorem Lexeme.written_ofInt (n : Int) : Written (Numeral.ofInt n) where
  whole_ne_nil := Decimal.repr_toList_ne_nil n.natAbs
  whole_digits := fun _ => Decimal.isDigit_of_mem_repr_toList
  no_leading_zero := Decimal.no_leading_zero_repr
  fraction_digits := nofun

theorem written_int (n : Int) : Written (int n) := .number (Lexeme.written_ofInt n)

theorem written_nat (n : Nat) : Written (nat n) := .number (Lexeme.written_ofNat n)

theorem string?_text (s : String) : (text s).string? = some s := rfl

theorem text_ne_null (s : String) : text s ≠ .null := by
  intro h
  cases h

/-! ## Members -/

theorem namedMembers?_record (members : List (String × Json)) :
    namedMembers? (members.map fun (k, v) => (some k, v)) = some members := by
  induction members with
  | nil => rfl
  | cons m members ih => rw [List.map_cons, namedMembers?, ih]; rfl

theorem distinct_iff (names : List String) : distinct names = true ↔ names.Nodup := by
  induction names with
  | nil => simp [distinct]
  | cons k ks ih => simp [distinct, ih]

/-- The members whose key is a field. -/
def known (names : List String) (members : List (String × Json)) : List (String × Json) :=
  members.filter (names.contains ·.1)

/-- Some field is given more than once. -/
def Repeats (names : List String) (members : List (String × Json)) : Prop :=
  ∃ name ∈ names, 1 < (members.map (·.1)).count name

instance decidableRepeats (names : List String) (members : List (String × Json)) :
    Decidable (Repeats names members) :=
  inferInstanceAs (Decidable (∃ name ∈ names, 1 < (members.map (·.1)).count name))

section Known

variable {names : List String} {members : List (String × Json)}

theorem keys_known (names : List String) (members : List (String × Json)) :
    (known names members).map (·.1) = (members.map (·.1)).filter names.contains := by
  rw [known, List.filter_map]
  rfl

theorem nodup_keys_known_iff : ((known names members).map (·.1)).Nodup ↔ ¬ Repeats names members := by
  rw [keys_known, List.nodup_iff_count_le_one, Repeats, not_exists]
  refine forall_congr' fun name => ?_
  by_cases hname : name ∈ names
  · rw [List.count_filter (List.contains_iff_mem.mpr hname), not_and, Nat.not_lt]
    exact ⟨fun h _ => h, fun h => h hname⟩
  · have hcount : ((members.map (·.1)).filter names.contains).count name = 0 :=
      List.count_eq_zero.mpr fun h => hname (List.contains_iff_mem.mp (List.mem_filter.mp h).2)
    rw [hcount]
    exact iff_of_true (Nat.zero_le 1) fun h => hname h.1

theorem not_repeats_of_nodup (h : (members.map (·.1)).Nodup) : ¬ Repeats names members := by
  rintro ⟨name, -, hcount⟩
  have hle : (members.map (·.1)).count name ≤ 1 := List.nodup_iff_count_le_one.mp h name
  omega

theorem fields?_of_not_repeats (h : ¬ Repeats names members) :
    (record members).fields? names = some ⟨false, known names members⟩ := by
  rw [record, fields?, namedMembers?_record, Option.bind_some]
  exact if_pos ((distinct_iff _).mpr (nodup_keys_known_iff.mpr h))

theorem fields?_of_repeats (h : Repeats names members) : (record members).fields? names = none := by
  rw [record, fields?, namedMembers?_record, Option.bind_some]
  exact if_neg fun hdistinct => nodup_keys_known_iff.mp ((distinct_iff _).mp hdistinct) h

theorem fields?_record (hnames : names.Nodup) (hkeys : (members.map (·.1)).Sublist names) :
    (record members).fields? names = some ⟨false, members⟩ := by
  have hknown : known names members = members := by
    rw [known, List.filter_eq_self]
    intro m hm
    exact List.contains_iff_mem.mpr (hkeys.subset (List.mem_map_of_mem hm))
  rw [fields?_of_not_repeats (not_repeats_of_nodup (hnames.sublist hkeys)), hknown]

end Known

theorem written_record {members : List (String × Json)} (h : ∀ m ∈ members, Written m.2) :
    Written (record members) := by
  refine .object fun m hm => ?_
  obtain ⟨m, hmem, rfl⟩ := List.mem_map.mp hm
  exact h m hmem

section Member

variable {α : Type} {name : String} {toJson : α → Json}

theorem keys_member? (v : Option α) : ((member? name toJson v).map (·.1)).Sublist [name] := by
  cases v with
  | none => exact List.nil_sublist _
  | some v => exact List.Sublist.refl _

theorem lookup_member?_self (v : Option α) : (member? name toJson v).lookup name = v.map toJson := by
  cases v with
  | none => rfl
  | some v => exact List.lookup_cons_self

theorem lookup_member?_of_ne {other : String} (h : other ≠ name) (v : Option α) :
    (member? name toJson v).lookup other = none := by
  cases v with
  | none => rfl
  | some v => rw [member?, List.lookup_cons, beq_false_of_ne h]; rfl

theorem written_member? (h : ∀ x, Written (toJson x)) (v : Option α) :
    ∀ m ∈ member? name toJson v, Written m.2 := by
  cases v with
  | none => nofun
  | some x => exact List.forall_mem_singleton.mpr (h x)

/-- A field that was left out, or written as something other than null. -/
theorem optional_of_lookup {read? : Json → Option α} {values : List (String × Json)} {v : Option α}
    (hread : ∀ x, read? (toJson x) = some x) (hnull : ∀ x, toJson x ≠ .null)
    (hlookup : values.lookup name = v.map toJson) :
    Fields.optional ⟨false, values⟩ name read? = some v := by
  rw [Fields.optional, Fields.get?, hlookup]
  cases v with
  | none => rfl
  | some x =>
    rw [Option.map_some]
    split
    · rename_i h
      exact absurd (Option.some.inj h) (hnull x)
    · rename_i h
      rw [← Option.some.inj h, hread]
      rfl
    · contradiction

theorem required_of_lookup {read? : Json → Option α} {values : List (String × Json)} {v : Json}
    (hlookup : values.lookup name = some v) : Fields.required ⟨false, values⟩ name read? = read? v := by
  rw [Fields.required, Fields.get?, hlookup, Option.bind_some]

end Member

end Referee.Json

namespace Referee

theorem Verdict.ofJson?_toJson (v : Verdict) : ofJson? v.toJson = some v := by cases v <;> rfl

end Referee
