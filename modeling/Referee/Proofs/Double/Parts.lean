import Mathlib

/-!
# Doubles and their parts

A double is its 64 bits. `parts` takes them apart into a sign, a mantissa and an exponent; an
operation computes with the parts and packs what comes out. Parts that are `Proper` come back as
they were (`unpack_pack`), and numbers are ordered by their `rank`, the bits behind the sign
(`le_iff`).
-/

namespace Referee.Double

open Float.Model Float.Model.UnpackedFloat

/-- The parts of a double, taken out of its bits. -/
def parts (x : Float) : UnpackedFloat := x.toModel.unpack

/-- The mantissa has 53 bits unless the exponent is the least one. -/
structure Placed (m : Nat) (e : Int) : Prop where
  lt : m < 2 ^ 53
  le : -1074 ≤ e
  full : 2 ^ 52 ≤ m ∨ e = -1074

/-- Parts that a double can have. -/
inductive Proper : UnpackedFloat → Prop where
  | notANumber : Proper .notANumber
  | infinity (s : Sign) : Proper (.infinity s)
  | zero (s : Sign) : Proper (.zero s)
  | finite (s : Sign) {m : Nat} {e : Int} (hm : 0 < m) (h : Placed m e) (he : e ≤ 971) :
      Proper (.finite s m e hm)

/-! ## Out of the bits and back -/

theorem ofBitVec_unpackSign (s : Sign) (ev : BitVec 11) (mv : BitVec 52) :
    Sign.ofBitVec (unpackSign (packComponents .binary64 s ev mv)) = s := by
  simp only [unpackSign, packComponents, BitVec.extractLsb]
  rw [BitVec.extractLsb'_append_eq_of_le (by decide), BitVec.extractLsb'_append_eq_of_le (by decide)]
  cases s <;> rfl

theorem toNat_leadingBit (mv : BitVec 52) : (1#1 ++ mv).toNat = 2 ^ 52 + mv.toNat := by
  rw [BitVec.toNat_append, ← Nat.shiftLeft_add_eq_or_of_lt mv.isLt]
  rfl

/-- A biased exponent that is neither the least nor the last. -/
theorem unpack_normal (s : Sign) {ev : BitVec 11} (mv : BitVec 52) (h0 : ev ≠ 0#11)
    (h1 : ev ≠ -1#11) : UnpackedFloat.unpack .binary64 (packComponents .binary64 s ev mv) =
      .finite s (2 ^ 52 + mv.toNat) (ev.toNat - 1075) (by omega) := by
  rw [UnpackedFloat.unpack]
  simp only [unpackMantissa_packComponents, unpackExponent_packComponents, ofBitVec_unpackSign,
    toNat_leadingBit]
  rw [if_neg h1, if_neg h0]
  rfl

theorem unpack_subnormal (s : Sign) {mv : BitVec 52} (h : 0 < mv.toNat) :
    UnpackedFloat.unpack .binary64 (packComponents .binary64 s 0#11 mv) =
      .finite s mv.toNat (-1074) h := by
  have hne : mv ≠ 0#52 := by
    rintro rfl
    exact absurd h (by decide)
  rw [UnpackedFloat.unpack]
  simp only [unpackMantissa_packComponents, unpackExponent_packComponents, ofBitVec_unpackSign]
  rw [if_neg (by decide), if_pos trivial, dif_neg hne]
  rfl

theorem pack_finite (s : Sign) {m : Nat} (e : Int) (hm : 0 < m) :
    UnpackedFloat.pack .binary64 (.finite s m e hm) =
      if 2048 ≤ (e + 1075).toNat + 1 then packedInfinity .binary64 s
      else if m.log2 + 1 = 53 then
        packComponents .binary64 s (BitVec.ofNat 11 (e + 1075).toNat) (BitVec.ofNat 52 m)
      else packComponents .binary64 s 0#11 (BitVec.ofNat 52 m) := by
  have hbias : e + 1023 + 52 = e + 1075 := by omega
  rw [← hbias]
  rfl

theorem log2_lt_of_lt {m : Nat} (h : m < 2 ^ 53) : m.log2 < 53 := by
  rcases Nat.eq_zero_or_pos m with rfl | hm
  · decide
  · exact (Nat.log2_lt (by omega)).mpr h

theorem Placed.log2_eq_iff {m : Nat} {e : Int} (h : Placed m e) (hm : 0 < m) :
    m.log2 + 1 = 53 ↔ 2 ^ 52 ≤ m := by
  have hlt := log2_lt_of_lt h.lt
  rw [← Nat.le_log2 (by omega)]
  omega

/-- **Proper parts are packed without loss.** -/
theorem unpack_pack {u : UnpackedFloat} (h : Proper u) : (Float.Model.pack u).unpack = u := by
  change UnpackedFloat.unpack .binary64 (UnpackedFloat.pack .binary64 u) = u
  cases h with
  | notANumber => rfl
  | infinity s => cases s <;> rfl
  | zero s => cases s <;> rfl
  | @finite s m e hm h he =>
    obtain ⟨hlt, hle, hfull⟩ := id h
    rw [pack_finite, if_neg (by omega)]
    by_cases hbit : 2 ^ 52 ≤ m
    · have hev : (BitVec.ofNat 11 (e + 1075).toNat).toNat = (e + 1075).toNat := by
        rw [BitVec.toNat_ofNat, Nat.mod_eq_of_lt (by omega)]
      have hmv : (BitVec.ofNat 52 m).toNat = m - 2 ^ 52 := by
        rw [BitVec.toNat_ofNat]
        omega
      have h0 : BitVec.ofNat 11 (e + 1075).toNat ≠ 0#11 := by
        rw [ne_eq, ← BitVec.toNat_inj, hev]
        change ¬ (e + 1075).toNat = 0
        omega
      have h1 : BitVec.ofNat 11 (e + 1075).toNat ≠ -1#11 := by
        rw [ne_eq, ← BitVec.toNat_inj, hev]
        change ¬ (e + 1075).toNat = 2047
        omega
      rw [if_pos ((h.log2_eq_iff hm).mpr hbit), unpack_normal s _ h0 h1]
      congr 1
      · rw [hmv]
        omega
      · rw [hev]
        omega
    · have hmv : (BitVec.ofNat 52 m).toNat = m := by
        rw [BitVec.toNat_ofNat, Nat.mod_eq_of_lt (by omega)]
      have hmin : e = -1074 := hfull.resolve_left hbit
      subst hmin
      rw [if_neg (mt (h.log2_eq_iff hm).mp hbit), unpack_subnormal s (by rwa [hmv])]
      congr 1

/-- A number with a greater exponent than any double overflows. -/
theorem unpack_pack_overflow {s : Sign} {m : Nat} {e : Int} (hm : 0 < m) (he : 971 < e) :
    (Float.Model.pack (.finite s m e hm)).unpack = .infinity s := by
  change UnpackedFloat.unpack .binary64 (UnpackedFloat.pack .binary64 _) = _
  rw [pack_finite, if_pos (by omega)]
  cases s <;> rfl

/-- The parts of a double are proper. -/
theorem proper_parts (x : Float) : Proper (parts x) := by
  change Proper (UnpackedFloat.unpack .binary64 x.toModel.toBits.toBitVec)
  generalize x.toModel.toBits.toBitVec = b
  have hb : (Format.binary64.exponentBias : Int) = 1023 := rfl
  have hw : (Format.binary64.mantissaBitsWithoutImplicit : Int) = 52 := rfl
  have hm := (@unpackMantissa .binary64 b).isLt
  have hev := (@unpackExponent .binary64 b).isLt
  change _ < 2 ^ 52 at hm
  change _ < 2048 at hev
  rw [UnpackedFloat.unpack]
  split
  · split
    · exact .infinity _
    · exact .notANumber
  · rename_i hlast
    split
    · rename_i hzero
      have hexp : (@unpackExponent .binary64 b).toNat = 0 := congrArg BitVec.toNat hzero
      split
      · exact .zero _
      · refine .finite _ _ ⟨by omega, ?_, .inr ?_⟩ ?_
        all_goals
          rw [hexp, hb, hw]
          decide
    · rename_i hzero
      have hne0 : (@unpackExponent .binary64 b).toNat ≠ 0 :=
        fun h => hzero (BitVec.eq_of_toNat_eq h)
      have hne1 : (@unpackExponent .binary64 b).toNat ≠ 2047 :=
        fun h => hlast (BitVec.eq_of_toNat_eq h)
      have hbit : (1#1 ++ @unpackMantissa .binary64 b).toNat =
        2 ^ 52 + (@unpackMantissa .binary64 b).toNat := toNat_leadingBit _
      refine .finite _ _ ⟨by rw [hbit]; omega, ?_, .inl (by rw [hbit]; omega)⟩ ?_
      all_goals
        rw [hb, hw]
        omega

/-! ## The order -/

/-- The bits of a positive infinity. -/
def infinityRank : Int := 2047 * 2 ^ 52

/-- Numbers come in the order of their bits behind the sign. -/
def rank : UnpackedFloat → Int
  | .notANumber | .zero _ => 0
  | .infinity s => s.apply infinityRank
  | .finite s m e _ => s.apply ((e + 1074) * 2 ^ 52 + m)

theorem Placed.rank_bounds {m : Nat} {e : Int} (h : Placed m e) (hm : 0 < m) (he : e ≤ 971) :
    0 < (e + 1074) * 2 ^ 52 + (m : Int) ∧ (e + 1074) * 2 ^ 52 + (m : Int) < infinityRank := by
  obtain ⟨hlt, hle, -⟩ := h
  rw [infinityRank]
  omega

theorem compare_of_placed {m n : Nat} {e f : Int} (h : Placed m e) (h' : Placed n f) :
    (compare e f).then (compare m n) =
      compare ((e + 1074) * 2 ^ 52 + (m : Int)) ((f + 1074) * 2 ^ 52 + (n : Int)) := by
  obtain ⟨hm, he, hfull⟩ := h
  obtain ⟨hn, hf, hfull'⟩ := h'
  rcases lt_trichotomy e f with hef | rfl | hef
  · rw [compare_lt_iff_lt.mpr hef]
    exact (compare_lt_iff_lt.mpr (by omega)).symm
  · rw [compare_eq_iff_eq.mpr rfl, Ordering.eq_then]
    rcases lt_trichotomy m n with h | rfl | h
    · rw [compare_lt_iff_lt.mpr h]
      exact (compare_lt_iff_lt.mpr (by omega)).symm
    · rw [compare_eq_iff_eq.mpr rfl, compare_eq_iff_eq.mpr rfl]
    · rw [compare_gt_iff_gt.mpr h]
      exact (compare_gt_iff_gt.mpr (by omega)).symm
  · rw [compare_gt_iff_gt.mpr hef]
    exact (compare_gt_iff_gt.mpr (by omega)).symm

theorem swap_compare (a b : Int) : (compare a b).swap = compare (-a) (-b) := by
  rcases lt_trichotomy a b with h | rfl | h
  · rw [compare_lt_iff_lt.mpr h]
    exact (compare_gt_iff_gt.mpr (by omega)).symm
  · rw [compare_eq_iff_eq.mpr rfl, compare_eq_iff_eq.mpr rfl]
    rfl
  · rw [compare_gt_iff_gt.mpr h]
    exact (compare_lt_iff_lt.mpr (by omega)).symm

/-- **Numbers are compared by their ranks.** -/
theorem compare_eq {u v : UnpackedFloat} (hu : Proper u) (hv : Proper v)
    (hu' : u ≠ .notANumber) (hv' : v ≠ .notANumber) :
    UnpackedFloat.compare u v = some (compare (rank u) (rank v)) := by
  have lt {a b : Int} (h : a < b) : some Ordering.lt = some (compare a b) :=
    congrArg some (compare_lt_iff_lt.mpr h).symm
  have gt {a b : Int} (h : b < a) : some Ordering.gt = some (compare a b) :=
    congrArg some (compare_gt_iff_gt.mpr h).symm
  have hinf : 0 < infinityRank := by decide
  cases hu with
  | notANumber => exact absurd rfl hu'
  | infinity s =>
    cases hv with
    | notANumber => exact absurd rfl hv'
    | infinity t => cases s <;> cases t <;> rfl
    | zero t => cases s <;> rfl
    | finite t hn h' hf =>
      obtain ⟨hpos, hlt⟩ := h'.rank_bounds hn hf
      cases s <;> cases t
      · exact lt (Int.neg_lt_neg hlt)
      · exact lt (by simp only [rank, Sign.apply]; omega)
      · exact gt (by simp only [rank, Sign.apply]; omega)
      · exact gt hlt
  | zero s =>
    cases hv with
    | notANumber => exact absurd rfl hv'
    | infinity t => cases t <;> rfl
    | zero t => rfl
    | finite t hn h' hf =>
      obtain ⟨hpos, -⟩ := h'.rank_bounds hn hf
      cases t
      · exact gt (Int.neg_neg_of_pos hpos)
      · exact lt hpos
  | finite s hm h he =>
    obtain ⟨hpos, hlt⟩ := h.rank_bounds hm he
    cases hv with
    | notANumber => exact absurd rfl hv'
    | infinity t =>
      cases s <;> cases t
      · exact gt (Int.neg_lt_neg hlt)
      · exact lt (by simp only [rank, Sign.apply]; omega)
      · exact gt (by simp only [rank, Sign.apply]; omega)
      · exact lt hlt
    | zero t =>
      cases s
      · exact lt (Int.neg_neg_of_pos hpos)
      · exact gt hpos
    | finite t hn h' hf =>
      obtain ⟨hpos', -⟩ := h'.rank_bounds hn hf
      cases s <;> cases t
      · refine congrArg some ?_
        rw [compare_of_placed h h', swap_compare]
        rfl
      · exact lt (by simp only [rank, Sign.apply]; omega)
      · exact gt (by simp only [rank, Sign.apply]; omega)
      · exact congrArg some (compare_of_placed h h')

/-! ## Doubles and their order -/

section Order

variable {x y : Float}

theorem isNaN_iff : x.isNaN = true ↔ parts x = .notANumber := by
  change (parts x).isNaN = true ↔ _
  cases parts x <;> simp [UnpackedFloat.isNaN]

theorem isNaN_eq_false_iff : x.isNaN = false ↔ parts x ≠ .notANumber := by
  rw [← Bool.not_eq_true, isNaN_iff]

theorem isInf_iff : x.isInf = true ↔ ∃ s, parts x = .infinity s := by
  change (parts x).isInf = true ↔ _
  cases parts x <;> simp [UnpackedFloat.isInf]

/-- A number that is not infinite. -/
theorem zero_or_finite (hx : x.isNaN = false) (hinf : x.isInf = false) :
    (∃ s, parts x = .zero s) ∨
      ∃ s m e hm, parts x = .finite s m e hm ∧ Placed m e ∧ e ≤ 971 := by
  have hproper := proper_parts x
  rw [isNaN_eq_false_iff] at hx
  rw [← Bool.not_eq_true, isInf_iff] at hinf
  generalize parts x = u at *
  cases hproper with
  | notANumber => exact absurd rfl hx
  | infinity s => exact absurd ⟨s, rfl⟩ hinf
  | zero s => exact .inl ⟨s, rfl⟩
  | finite s hm h he => exact .inr ⟨s, _, _, hm, rfl, h, he⟩

/-- A NaN has no place in the order. -/
theorem compare_parts_eq_some_iff {o : Ordering} :
    UnpackedFloat.compare (parts x) (parts y) = some o ↔ x.isNaN = false ∧ y.isNaN = false ∧
      compare (rank (parts x)) (rank (parts y)) = o := by
  rw [isNaN_eq_false_iff, isNaN_eq_false_iff]
  by_cases hx : parts x = .notANumber
  · rw [hx]
    exact iff_of_false nofun fun h => h.1 rfl
  by_cases hy : parts y = .notANumber
  · rw [hy]
    refine iff_of_false ?_ fun h => h.2.1 rfl
    cases parts x <;> nofun
  · rw [compare_eq (proper_parts x) (proper_parts y) hx hy, Option.some.injEq]
    exact ⟨fun h => ⟨hx, hy, h⟩, fun h => h.2.2⟩

/-- **The order of the doubles is that of their ranks.** -/
theorem le_iff : x ≤ y ↔ x.isNaN = false ∧ y.isNaN = false ∧ rank (parts x) ≤ rank (parts y) := by
  change decide (UnpackedFloat.le (parts x) (parts y) = true) = true ↔ _
  rw [decide_eq_true_eq, UnpackedFloat.le, Option.any_eq_true]
  constructor
  · rintro ⟨o, ho, hle⟩
    obtain ⟨hx, hy, rfl⟩ := compare_parts_eq_some_iff.mp ho
    exact ⟨hx, hy, Std.isLE_compare.mp hle⟩
  · rintro ⟨hx, hy, hle⟩
    exact ⟨_, compare_parts_eq_some_iff.mpr ⟨hx, hy, rfl⟩, Std.isLE_compare.mpr hle⟩

theorem lt_iff : x < y ↔ x.isNaN = false ∧ y.isNaN = false ∧ rank (parts x) < rank (parts y) := by
  change decide (UnpackedFloat.lt (parts x) (parts y) = true) = true ↔ _
  rw [decide_eq_true_eq, UnpackedFloat.lt, beq_iff_eq, compare_parts_eq_some_iff, compare_lt_iff_lt]

theorem not_le_of_isNaN (h : x.isNaN = true ∨ y.isNaN = true) : ¬ x ≤ y := by
  rw [le_iff]
  rintro ⟨hx, hy, -⟩
  rw [hx, hy] at h
  exact h.elim nofun nofun

theorem le_of_parts_eq (hx : x.isNaN = false) (h : parts x = parts y) : x ≤ y := by
  rw [le_iff, isNaN_eq_false_iff, isNaN_eq_false_iff, ← h]
  rw [isNaN_eq_false_iff] at hx
  exact ⟨hx, hx, le_rfl⟩

theorem isNaN_of_zero {s : Sign} (h : parts x = .zero s) : x.isNaN = false := by
  rw [isNaN_eq_false_iff, h]
  nofun

theorem isNaN_of_infinity {s : Sign} (h : parts x = .infinity s) : x.isNaN = false := by
  rw [isNaN_eq_false_iff, h]
  nofun

end Order

/-! ## Operations -/

section Operations

variable {x y z : Float}

theorem parts_abs (x : Float) : parts x.abs = (Float.Model.pack (parts x).abs).unpack := rfl

theorem parts_sub (x y : Float) : parts (x - y) =
    (Float.Model.pack (UnpackedFloat.sub .binary64 (parts x) (parts y))).unpack := rfl

theorem parts_mul (x y : Float) : parts (x * y) =
    (Float.Model.pack (UnpackedFloat.mul .binary64 (parts x) (parts y))).unpack := rfl

theorem parts_div (x y : Float) : parts (x / y) =
    (Float.Model.pack (UnpackedFloat.div .binary64 (parts x) (parts y))).unpack := rfl

theorem isNaN_of_packed {u : UnpackedFloat} (h : parts x = (Float.Model.pack u).unpack)
    (hu : u = .notANumber) : x.isNaN = true := by
  rw [isNaN_iff, h, hu]
  exact unpack_pack .notANumber

theorem isNaN_abs (h : x.isNaN = true) : x.abs.isNaN = true := by
  refine isNaN_of_packed (parts_abs x) ?_
  rw [isNaN_iff.mp h]
  rfl

/-- An operation that takes a NaN to a NaN on either side. -/
theorem isNaN_of_operand {f : UnpackedFloat → UnpackedFloat → UnpackedFloat}
    (hz : parts z = (Float.Model.pack (f (parts x) (parts y))).unpack)
    (hleft : ∀ v, f .notANumber v = .notANumber) (hright : ∀ u, f u .notANumber = .notANumber)
    (h : x.isNaN = true ∨ y.isNaN = true) : z.isNaN = true := by
  refine isNaN_of_packed hz ?_
  rcases h with h | h
  · rw [isNaN_iff.mp h, hleft]
  · rw [isNaN_iff.mp h, hright]

theorem isNaN_sub (h : x.isNaN = true ∨ y.isNaN = true) : (x - y).isNaN = true :=
  isNaN_of_operand (parts_sub x y) (fun _ => rfl) (fun u => by cases u <;> rfl) h

theorem isNaN_mul (h : x.isNaN = true ∨ y.isNaN = true) : (x * y).isNaN = true :=
  isNaN_of_operand (parts_mul x y) (fun _ => rfl) (fun u => by cases u <;> rfl) h

theorem isNaN_div (h : x.isNaN = true ∨ y.isNaN = true) : (x / y).isNaN = true :=
  isNaN_of_operand (parts_div x y) (fun _ => rfl) (fun u => by cases u <;> rfl) h

end Operations

/-! ## A double and itself -/

section Self

variable {x : Float} {s : Sign}

theorem sub_self_infinity (h : parts x = .infinity s) : (x - x).isNaN = true := by
  refine isNaN_of_packed (parts_sub x x) ?_
  rw [h]
  cases s <;> rfl

theorem div_self_infinity (h : parts x = .infinity s) : (x / x).isNaN = true := by
  refine isNaN_of_packed (parts_div x x) ?_
  rw [h]
  rfl

theorem parts_sub_self (hx : x.isNaN = false) (hinf : x.isInf = false) :
    parts (x - x) = .zero .positive := by
  rw [parts_sub]
  rcases zero_or_finite hx hinf with ⟨s, hs⟩ | ⟨s, m, e, hm, hs, -, -⟩
  · rw [hs]
    cases s <;> exact unpack_pack (.zero _)
  · have hdiff : UnpackedFloat.sub .binary64 (.finite s m e hm) (.finite s m e hm) =
        normalize .binary64 (s.apply (decreaseExponent m e (min e e)).1 -
          s.apply (decreaseExponent m e (min e e)).1) (min e e) .positive := rfl
    rw [hs, hdiff, Int.sub_self]
    exact unpack_pack (.zero _)

theorem parts_abs_sub_self (hx : x.isNaN = false) (hinf : x.isInf = false) :
    parts (x - x).abs = .zero .positive := by
  rw [parts_abs, parts_sub_self hx hinf]
  exact unpack_pack (.zero _)

end Self

end Referee.Double
