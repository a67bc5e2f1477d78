import Referee.Proofs.Double.Parts

/-!
# What is not a NaN

Packing loses digits, but it makes no NaN of a number (`unpack_pack_ne`), and neither does rounding.
A product or a quotient of two numbers can be a NaN only if one of them is a zero or an infinity,
so the nearest double to a decimal is a number: it comes from one product or quotient by a power of
ten (`isNaN_ofScientific`).
-/

namespace Referee.Double

open Float.Model Float.Model.UnpackedFloat

/-! ## Packing -/

/-- Only the last exponent can mean a NaN. -/
theorem unpack_packComponents_ne (s : Sign) {ev : BitVec 11} (mv : BitVec 52) (h : ev ≠ -1#11) :
    UnpackedFloat.unpack .binary64 (packComponents .binary64 s ev mv) ≠ .notANumber := by
  rw [UnpackedFloat.unpack]
  simp only [unpackExponent_packComponents]
  rw [if_neg h]
  split
  · split <;> nofun
  · nofun

/-- **A number is packed as a number.** -/
theorem unpack_pack_ne {u : UnpackedFloat} (h : u ≠ .notANumber) :
    (Float.Model.pack u).unpack ≠ .notANumber := by
  change UnpackedFloat.unpack .binary64 (UnpackedFloat.pack .binary64 u) ≠ _
  cases u with
  | notANumber => exact absurd rfl h
  | infinity s => cases s <;> nofun
  | zero s => cases s <;> nofun
  | finite s m e hm =>
    rw [pack_finite]
    split
    · cases s <;> nofun
    -- what is left has an exponent below the last one
    rename_i hlt
    split
    · refine unpack_packComponents_ne s _ fun hlast => ?_
      have hexp := congrArg BitVec.toNat hlast
      rw [BitVec.toNat_ofNat, Nat.mod_eq_of_lt (by omega)] at hexp
      change (e + 1075).toNat = 2047 at hexp
      omega
    · exact unpack_packComponents_ne s _ (by decide)

theorem isNaN_of_packed_ne {x : Float} {u : UnpackedFloat}
    (h : parts x = (Float.Model.pack u).unpack) (hu : u ≠ .notANumber) : x.isNaN = false := by
  rw [isNaN_eq_false_iff, h]
  exact unpack_pack_ne hu

theorem isNaN_neg (x : Float) : (-x).isNaN = x.isNaN := by
  have hneg : parts (-x) = (Float.Model.pack (parts x).neg).unpack := rfl
  cases hx : x.isNaN with
  | true =>
    refine isNaN_of_packed hneg ?_
    rw [isNaN_iff.mp hx]
    rfl
  | false =>
    refine isNaN_of_packed_ne hneg ?_
    rw [isNaN_eq_false_iff] at hx
    cases hu : parts x with
    | notANumber => exact absurd hu hx
    | infinity | zero | finite => nofun

/-! ## Rounded products and quotients -/

theorem roundWithAccuracy_ne (s : Sign) (m : Nat) (e : Int) (a : Accuracy) :
    roundWithAccuracy .binary64 s m e a ≠ .notANumber := by
  unfold roundWithAccuracy
  dsimp only
  split <;> nofun

theorem normalize_ne (m e : Int) (s : Sign) : normalize .binary64 m e s ≠ .notANumber := by
  unfold UnpackedFloat.normalize
  split
  · exact roundWithAccuracy_ne _ _ _ _
  · nofun
  · exact roundWithAccuracy_ne _ _ _ _

section Finite

variable {u : UnpackedFloat}

/-- A number times a finite one that is not zero. -/
theorem mul_finite_ne (hu : u ≠ .notANumber) (s : Sign) {m : Nat} (e : Int) (hm : 0 < m) :
    UnpackedFloat.mul .binary64 u (.finite s m e hm) ≠ .notANumber := by
  cases u with
  | notANumber => exact absurd rfl hu
  | infinity => nofun
  | zero => nofun
  | finite => exact roundWithAccuracy_ne _ _ _ _

theorem div_finite_ne (hu : u ≠ .notANumber) (s : Sign) {m : Nat} (e : Int) (hm : 0 < m) :
    UnpackedFloat.div .binary64 u (.finite s m e hm) ≠ .notANumber := by
  cases u with
  | notANumber => exact absurd rfl hu
  | infinity => nofun
  | zero => nofun
  | finite => exact roundWithAccuracy_ne _ _ _ _

end Finite

/-! ## Decimals -/

theorem isNaN_toFloat (n : UInt64) : n.toFloat.isNaN = false :=
  isNaN_of_packed_ne rfl (normalize_ne n.toNat 0 .positive)

theorem parts_of_mem_powersOfTen {p : Float} (h : p ∈ Float.exactlyRepresentablePowersOfTen) :
    ∃ m e hm, parts p = .finite .positive m e hm := by
  have hall : Float.exactlyRepresentablePowersOfTen.all (fun p => match parts p with
      | .finite .positive .. => true
      | _ => false) = true := by decide +kernel
  have hp := Array.all_eq_true_iff_forall_mem.mp hall p h
  split at hp
  · rename_i hparts
    exact ⟨_, _, _, hparts⟩
  · cases hp

theorem ofScientific_ne (m : Nat) (e : Int) :
    UnpackedFloat.ofScientific .binary64 m e ≠ .notANumber := by
  unfold UnpackedFloat.ofScientific
  split
  · nofun
  split
  · nofun
  split
  · nofun
  split
  · refine mul_finite_ne ?_ _ _ _
    nofun
  · refine div_finite_ne ?_ _ _ _
    nofun

/-- **The double nearest to a decimal is a number.** -/
theorem isNaN_ofScientific (m : Nat) (s : Bool) (e : Nat) :
    (Float.ofScientific m s e).isNaN = false := by
  unfold Float.ofScientific
  split
  · -- both operands are doubles, and one of them is a power of ten
    have hnat := isNaN_eq_false_iff.mp (isNaN_toFloat m.toUInt64)
    obtain ⟨n, f, hn, hten⟩ := parts_of_mem_powersOfTen (Array.getElem_mem _)
    cases s with
    | true =>
      refine isNaN_of_packed_ne (parts_div _ _) ?_
      rw [hten]
      exact div_finite_ne hnat _ _ hn
    | false =>
      refine isNaN_of_packed_ne (parts_mul _ _) ?_
      rw [hten]
      exact mul_finite_ne hnat _ _ hn
  · exact isNaN_of_packed_ne rfl (ofScientific_ne _ _)

end Referee.Double
