import Referee.Proofs.Double.Parts

/-!
# Rounding keeps the order

A product is rounded to the `grid` of the doubles of its size. Rounded to a mantissa, a number that
is at most a multiple of the grid stays at most that multiple (`rounded_le`, `le_rounded`), so a
number on one side of a double is not rounded past it (`round_le`, `le_round`): a factor of at most
one brings no number further from zero and a factor of at least one brings none closer
(`within_mul`, `mul_within`).
-/

namespace Referee.Double

open Float.Model Float.Model.UnpackedFloat

/-! ## Mantissas -/

theorem shift_succ (em : ExtendedMantissa) (k : Nat) :
    em >>> (k + 1) = (em >>> k).shiftRightOne := rfl

theorem mantissa_shift (em : ExtendedMantissa) (k : Nat) :
    (em >>> k).mantissa = em.mantissa / 2 ^ k := by
  induction k with
  | zero => exact (Nat.div_one _).symm
  | succ k ih =>
    rw [shift_succ, ExtendedMantissa.shiftRightOne, ih, Nat.div_div_eq_div_mul, Nat.pow_succ]

theorem shift_exact (n k : Nat) :
    (ExtendedMantissa.mk (n * 2 ^ k) false false) >>> k = ⟨n, false, false⟩ := by
  induction k generalizing n with
  | zero => rw [Nat.pow_zero, Nat.mul_one]; rfl
  | succ k ih =>
    rw [Nat.pow_succ', ← Nat.mul_assoc, shift_succ, ih]
    simp [ExtendedMantissa.shiftRightOne]

theorem roundedMantissa_bounds (em : ExtendedMantissa) :
    em.mantissa ≤ em.roundedMantissa ∧ em.roundedMantissa ≤ em.mantissa + 1 := by
  obtain ⟨m, round, sticky⟩ := em
  have hmod := Nat.mod_two_eq_zero_or_one m
  cases round <;> cases sticky <;>
    simp only [ExtendedMantissa.roundedMantissa, ExtendedMantissa.accuracy,
      Accuracy.roundToNearestEven]
  all_goals omega

/-- The mantissa that is nearest to `m · 2 ^ (-k)`. -/
def rounded (m k : Nat) : Nat := (ExtendedMantissa.mk m false false >>> k).roundedMantissa

theorem rounded_le {m k n : Nat} (h : m ≤ n * 2 ^ k) : rounded m k ≤ n := by
  rcases Nat.eq_or_lt_of_le h with rfl | hlt
  · rw [rounded, shift_exact]
    exact le_rfl
  · have hdiv : m / 2 ^ k < n := Nat.div_lt_of_lt_mul (by rwa [Nat.mul_comm])
    have hle := (roundedMantissa_bounds (ExtendedMantissa.mk m false false >>> k)).2
    rw [mantissa_shift] at hle
    exact le_trans hle hdiv

theorem le_rounded {m k n : Nat} (h : n * 2 ^ k ≤ m) : n ≤ rounded m k := by
  have hle := (roundedMantissa_bounds (ExtendedMantissa.mk m false false >>> k)).1
  rw [mantissa_shift] at hle
  exact le_trans ((Nat.le_div_iff_mul_le (Nat.two_pow_pos k)).mpr h) hle

/-- The exponent that a number is rounded to. -/
def grid (m : Nat) (e : Int) : Int := max (m.log2 + e - 52) (-1074)

theorem targetExponent_eq (m : Nat) (e : Int) :
    Format.binary64.targetExponent (totalExponent m e) = grid m e := by
  change max ((m.log2 : Int) + 1 + e - 53) (-1074) = max _ _
  omega

theorem shiftToTargetExponent_eq {m : Nat} {e : Int} :
    shiftToTargetExponent .binary64 m e .exact =
      (ExtendedMantissa.mk m false false >>> (grid m e - e).toNat, e + (grid m e - e).toNat) := by
  rw [shiftToTargetExponent, targetExponent_eq]
  rfl

theorem shift_of_lt {r : Nat} {t : Int} (hr : r < 2 ^ 53) (ht : -1074 ≤ t) :
    shiftToTargetExponent .binary64 r t .exact = (⟨r, false, false⟩, t) := by
  have hlog := log2_lt_of_lt hr
  have hstay : (grid r t - t).toNat = 0 := by
    rw [grid]
    omega
  rw [shiftToTargetExponent_eq, hstay, Int.natCast_zero, Int.add_zero]
  rfl

theorem shift_carry {t : Int} (ht : -1074 ≤ t) :
    shiftToTargetExponent .binary64 (2 ^ 53) t .exact = (⟨2 ^ 52, false, false⟩, t + 1) := by
  have hlog : (2 ^ 53).log2 = 53 := Nat.log2_two_pow
  have hone : (grid (2 ^ 53) t - t).toNat = 1 := by
    rw [grid, hlog]
    omega
  rw [shiftToTargetExponent_eq, hone]
  rfl

theorem rounded_le_carry {m : Nat} (e : Int) : rounded m (grid m e - e).toNat ≤ 2 ^ 53 := by
  refine rounded_le ?_
  rw [← Nat.pow_add]
  refine (Nat.lt_log2_self).le.trans (Nat.pow_le_pow_right (by decide) ?_)
  have hle : (m.log2 : Int) + e - 52 ≤ grid m e := le_max_left _ _
  omega

/-- A mantissa that rounding has brought to 54 bits is halved. -/
theorem roundWithAccuracy_eq (s : Sign) {m : Nat} {e : Int} (he : e ≤ grid m e) :
    let r := rounded m (grid m e - e).toNat
    roundWithAccuracy .binary64 s m e .exact =
      if h : r = 0 then .zero s
      else if r < 2 ^ 53 then .finite s r (grid m e) (Nat.pos_of_ne_zero h)
      else .finite s (2 ^ 52) (grid m e + 1) (by decide) := by
  intro r
  have hexp : e + ((grid m e - e).toNat : Int) = grid m e := by omega
  have hgrid : -1074 ≤ grid m e := le_max_right _ _
  have hr : r ≤ 2 ^ 53 := rounded_le_carry e
  have hround : ExtendedMantissa.roundedMantissa
      (ExtendedMantissa.mk m false false >>> (grid m e - e).toNat) = r := rfl
  rw [roundWithAccuracy, shiftToTargetExponent_eq]
  simp only [hexp, hround]
  by_cases hlt : r < 2 ^ 53
  · simp only [shift_of_lt hlt hgrid, if_pos hlt]
  · obtain hmax : r = 2 ^ 53 := by omega
    simp only [hmax, shift_carry hgrid]
    rfl

/-! ## Ranks -/

/-- No bit is missing in the last place that rounding keeps. -/
def Ample (m : Nat) (e : Int) : Prop := 2 ^ 52 ≤ m ∨ e ≤ -1074

theorem Ample.le_grid {m : Nat} {e : Int} (h : Ample m e) : e ≤ grid m e := by
  rcases h with hm | he
  · have hlog : 52 ≤ m.log2 := (Nat.le_log2 (by omega)).mpr hm
    have hle : (m.log2 : Int) + e - 52 ≤ grid m e := le_max_left _ _
    omega
  · exact he.trans (le_max_right _ _)

/-- A rounded mantissa has 53 bits unless the exponent is the least one. -/
theorem Ample.full {m : Nat} {e : Int} (h : Ample m e) :
    2 ^ 52 ≤ rounded m (grid m e - e).toNat ∨ grid m e = -1074 := by
  by_cases hmin : grid m e = -1074
  · exact .inr hmin
  · refine .inl (le_rounded ?_)
    have hle := h.le_grid
    have hgrid : grid m e = m.log2 + e - 52 := by
      rw [grid] at hmin ⊢
      omega
    have hne : m ≠ 0 := by
      rintro rfl
      rw [Nat.log2_zero] at hgrid
      omega
    have hsum : 52 + (grid m e - e).toNat = m.log2 := by omega
    rw [← Nat.pow_add, hsum]
    exact Nat.log2_self_le hne

/-- **Rounding, by rank.** A mantissa that is carried over and a number that overflows need no case of
their own. -/
theorem rank_round (s : Sign) {m : Nat} {e : Int} (h : Ample m e) :
    let u := (Float.Model.pack (roundWithAccuracy .binary64 s m e .exact)).unpack
    u ≠ .notANumber ∧ rank u = s.apply
      (min ((grid m e + 1074) * 2 ^ 52 + (rounded m (grid m e - e).toNat : Int)) infinityRank) := by
  intro u
  have hgrid : -1074 ≤ grid m e := le_max_right _ _
  have hcarry := rounded_le_carry (m := m) e
  have hfull := h.full
  have hround := roundWithAccuracy_eq s h.le_grid
  have hinf : infinityRank = 2047 * 2 ^ 52 := rfl
  simp only at hround
  generalize rounded m (grid m e - e).toNat = r at *
  generalize grid m e = t at *
  have hu : u = (Float.Model.pack (roundWithAccuracy .binary64 s m e .exact)).unpack := rfl
  rw [hround] at hu
  rw [hu]
  by_cases hzero : r = 0
  · have hmin : t = -1074 := by omega
    rw [dif_pos hzero, unpack_pack (.zero s), hzero, hmin]
    refine ⟨nofun, ?_⟩
    cases s <;> rfl
  rw [dif_neg hzero]
  by_cases hlt : r < 2 ^ 53
  · rw [if_pos hlt]
    by_cases hover : 971 < t
    · rw [unpack_pack_overflow _ hover, min_eq_right (by omega)]
      exact ⟨nofun, rfl⟩
    · rw [unpack_pack (.finite s _ ⟨hlt, hgrid, hfull⟩ (by omega)), min_eq_left (by omega)]
      exact ⟨nofun, rfl⟩
  · rw [if_neg hlt]
    by_cases hover : 971 < t + 1
    · rw [unpack_pack_overflow _ hover, min_eq_right (by omega)]
      exact ⟨nofun, rfl⟩
    · have hplaced : Placed (2 ^ 52) (t + 1) := ⟨by decide, by omega, .inl le_rfl⟩
      rw [unpack_pack (.finite s _ hplaced (by omega)), min_eq_left (by omega)]
      refine ⟨nofun, congrArg s.apply ?_⟩
      omega

/-- A number that is at most a double is rounded to at most that double. -/
theorem round_le {m n d : Nat} {f : Int} (hm : 0 < m) (hn : Placed n f) (h : m ≤ n * 2 ^ d) :
    (grid m (f - d) + 1074) * 2 ^ 52 + (rounded m (grid m (f - d) - (f - d)).toNat : Int) ≤
      (f + 1074) * 2 ^ 52 + n := by
  obtain ⟨hlt, hle, hfull⟩ := hn
  have hcarry := rounded_le_carry (m := m) (f - d)
  have hlog : m.log2 < 53 + d := by
    rw [Nat.log2_lt (by omega), Nat.pow_add]
    exact lt_of_le_of_lt h (Nat.mul_lt_mul_of_pos_right hlt (Nat.two_pow_pos d))
  have hgrid : grid m (f - d) ≤ f := by
    rw [grid]
    omega
  rcases lt_or_eq_of_le hgrid with hbelow | hsame
  · have hmin : -1074 ≤ grid m (f - d) := le_max_right _ _
    omega
  · have hshift : (grid m (f - d) - (f - d)).toNat = d := by omega
    have hr := rounded_le h
    rw [hshift, hsame]
    omega

/-- A number that is at least a double is rounded to at least that double. -/
theorem le_round {m n d : Nat} {f : Int} (hm : 0 < m) (ha : Ample m (f - d)) (hn : Placed n f)
    (h : n * 2 ^ d ≤ m) :
    (f + 1074) * 2 ^ 52 + (n : Int) ≤
      (grid m (f - d) + 1074) * 2 ^ 52 + rounded m (grid m (f - d) - (f - d)).toNat := by
  obtain ⟨hlt, hle, hfull⟩ := hn
  have hmin : -1074 ≤ grid m (f - d) := le_max_right _ _
  have hgrid : f ≤ grid m (f - d) := by
    rcases hfull with hbit | hf
    · have hlog : 52 + d ≤ m.log2 := by
        rw [Nat.le_log2 (by omega), Nat.pow_add]
        exact le_trans (Nat.mul_le_mul_right _ hbit) h
      rw [grid]
      omega
    · omega
  rcases lt_or_eq_of_le hgrid with habove | hsame
  · have hr := ha.full.resolve_right (by omega)
    omega
  · have hshift : (grid m (f - d) - (f - d)).toNat = d := by omega
    have hr := le_rounded h
    rw [hshift, ← hsame]
    omega

/-! ## Factors near one -/

section Product

variable {x c : Float}

theorem rank_zero : rank (parts 0.0) = 0 := by decide +kernel

theorem rank_one : rank (parts 1.0) = 1023 * 2 ^ 52 := by decide +kernel

theorem rank_two : rank (parts 2.0) = 1024 * 2 ^ 52 := by decide +kernel

/-- The product of two doubles has all the bits that rounding keeps. -/
theorem ample_mul {m n : Nat} {e f : Int} (hn : Placed n f) (hm : Placed m e) (hn0 : 0 < n)
    (hm0 : 0 < m) : Ample (n * m) (f + e) := by
  rcases hn.full with hbit | hf
  · exact .inl (hbit.trans (Nat.le_mul_of_pos_right n hm0))
  rcases hm.full with hbit | he
  · exact .inl (hbit.trans (Nat.le_mul_of_pos_left m hn0))
  · exact .inr (by omega)

/-- `a` lies between zero and `b`. -/
def Within (a b : Int) : Prop := min 0 b ≤ a ∧ a ≤ max 0 b

theorem within_apply (s : Sign) {a b : Int} (ha : 0 ≤ a) (h : a ≤ b) :
    Within (s.apply a) (s.apply b) := by
  cases s <;> simp only [Within, Sign.apply] <;> omega

theorem within_zero (b : Int) : Within 0 b := ⟨min_le_left 0 b, le_max_left 0 b⟩

/-- A factor from zero to two is zero, or positive with an exponent that is not. -/
theorem factor_cases (h0 : 0.0 ≤ c) (h2 : c ≤ 2.0) :
    (∃ s, parts c = .zero s) ∨ ∃ (m d : Nat) (hm : 0 < m),
      parts c = .finite .positive m (-d) hm ∧ Placed m (-d) ∧
        rank (parts c) = (-d + 1074) * 2 ^ 52 + m := by
  obtain ⟨-, hnan, hlo⟩ := le_iff.mp h0
  have hhi := (le_iff.mp h2).2.2
  rw [rank_zero] at hlo
  rw [rank_two] at hhi
  have hinf : c.isInf = false := by
    rw [← Bool.not_eq_true, isInf_iff]
    rintro ⟨s, hs⟩
    rw [hs] at hlo hhi
    cases s
    · exact absurd hlo (by decide)
    · exact absurd hhi (by decide)
  rcases zero_or_finite hnan hinf with ⟨s, hs⟩ | ⟨s, m, e, hm, hc, hplaced, he⟩
  · exact .inl ⟨s, hs⟩
  · have hpos := (hplaced.rank_bounds hm he).1
    rw [hc] at hlo hhi
    cases s
    · exact absurd hlo (not_le.mpr (Int.neg_neg_of_pos hpos))
    · simp only [rank, Sign.apply] at hhi
      have hfull := hplaced.full
      have hd : e = -((-e).toNat : Int) := by omega
      rw [hc]
      generalize (-e).toNat = d at hd
      subst hd
      exact .inr ⟨m, d, hm, rfl, hplaced, rfl⟩

theorem Placed.le_two_pow {m d : Nat} (h : Placed m (-d)) (hm : 0 < m)
    (hrank : (-d + 1074) * 2 ^ 52 + (m : Int) ≤ 1023 * 2 ^ 52) : m ≤ 2 ^ d := by
  obtain ⟨hlt, -, -⟩ := h
  rcases Nat.lt_or_ge d 53 with hd | hd
  · obtain rfl : d = 52 := by omega
    omega
  · exact hlt.le.trans (Nat.pow_le_pow_right (by decide) hd)

theorem Placed.two_pow_le {m d : Nat} (h : Placed m (-d))
    (hrank : 1023 * 2 ^ 52 ≤ (-d + 1074) * 2 ^ 52 + (m : Int)) : 2 ^ d ≤ m := by
  obtain ⟨hlt, -, hfull⟩ := h
  have hd : d ≤ 52 := by omega
  exact (Nat.pow_le_pow_right (by decide) hd).trans (hfull.resolve_right (by omega))

theorem le_two_of_le_one (h : c ≤ 1.0) : c ≤ 2.0 := by
  obtain ⟨hnan, -, hle⟩ := le_iff.mp h
  rw [rank_one] at hle
  rw [le_iff, rank_two]
  exact ⟨hnan, by decide +kernel, by omega⟩

/-- A factor from one to two is not zero. -/
theorem factor_of_one_le (h1 : 1.0 ≤ c) (h2 : c ≤ 2.0) : ∃ (m d : Nat) (hm : 0 < m),
    parts c = .finite .positive m (-d) hm ∧ Placed m (-d) ∧
      rank (parts c) = (-d + 1074) * 2 ^ 52 + m := by
  obtain ⟨-, hnan, hone⟩ := le_iff.mp h1
  rw [rank_one] at hone
  have h0 : 0.0 ≤ c := by
    rw [le_iff, rank_zero]
    exact ⟨by decide +kernel, hnan, by omega⟩
  refine (factor_cases h0 h2).resolve_left fun ⟨t, hc⟩ => ?_
  have hnone : ¬ (1023 * 2 ^ 52 : Int) ≤ 0 := by decide
  rw [hc] at hone
  exact hnone hone

/-- A product with a zero. -/
theorem parts_mul_zero (hx : x.isNaN = false) (hinf : x.isInf = false) {t : Sign}
    (hc : parts c = .zero t) : ∃ s, parts (x * c) = .zero s := by
  rcases zero_or_finite hx hinf with ⟨s, hs⟩ | ⟨s, n, f, hn, hs, -, -⟩
  · rw [parts_mul, hs, hc]
    exact ⟨_, unpack_pack (.zero _)⟩
  · rw [parts_mul, hs, hc]
    exact ⟨_, unpack_pack (.zero _)⟩

theorem parts_zero_mul {s : Sign} (hx : parts x = .zero s) {t : Sign} {m : Nat} {e : Int} {hm : 0 < m}
    (hc : parts c = .finite t m e hm) : parts (x * c) = .zero (s * t) := by
  rw [parts_mul, hx, hc]
  exact unpack_pack (.zero _)

theorem rank_mul {s : Sign} {m n d : Nat} {f : Int} {hn : 0 < n} {hm : 0 < m}
    (hx : parts x = .finite s n f hn) (hc : parts c = .finite .positive m (-d) hm)
    (ha : Ample (n * m) (f - d)) : (x * c).isNaN = false ∧ rank (parts (x * c)) = s.apply
      (min ((grid (n * m) (f - d) + 1074) * 2 ^ 52 +
        (rounded (n * m) (grid (n * m) (f - d) - (f - d)).toNat : Int)) infinityRank) := by
  have hmul : parts (x * c) = (Float.Model.pack
      (roundWithAccuracy .binary64 s (n * m) (f - d) .exact)).unpack := by
    rw [parts_mul, hx, hc]
    cases s <;> rfl
  rw [isNaN_eq_false_iff, hmul]
  exact rank_round s ha

/-- **Multiplying by at most one brings a number no further from zero.** -/
theorem within_mul (hx : x.isNaN = false) (hinf : x.isInf = false) (h0 : 0.0 ≤ c) (h1 : c ≤ 1.0) :
    (x * c).isNaN = false ∧ Within (rank (parts (x * c))) (rank (parts x)) := by
  have hone := (le_iff.mp h1).2.2
  rw [rank_one] at hone
  rcases factor_cases h0 (le_two_of_le_one h1) with ⟨t, hc⟩ | ⟨m, d, hm, hc, hm', hrank⟩
  · obtain ⟨s, hs⟩ := parts_mul_zero hx hinf hc
    rw [hs]
    exact ⟨isNaN_of_zero hs, within_zero _⟩
  rcases zero_or_finite hx hinf with ⟨s, hs⟩ | ⟨s, n, f, hn, hs, hn', hf⟩
  · have hz := parts_zero_mul hs hc
    rw [hz]
    exact ⟨isNaN_of_zero hz, within_zero _⟩
  · rw [hrank] at hone
    obtain ⟨hnan, hmul⟩ := rank_mul hs hc (ample_mul hn' hm' hn hm)
    have hround := round_le (Nat.mul_pos hn hm) hn' (Nat.mul_le_mul_left n (hm'.le_two_pow hm hone))
    have hmin : -1074 ≤ grid (n * m) (f - d) := le_max_right _ _
    refine ⟨hnan, ?_⟩
    rw [hmul, hs]
    refine within_apply s ?_ ((min_le_left _ _).trans hround)
    rw [infinityRank]
    omega

/-- **Multiplying by at least one brings a number no closer to zero.** -/
theorem mul_within (hx : x.isNaN = false) (hinf : x.isInf = false) (h1 : 1.0 ≤ c) (h2 : c ≤ 2.0) :
    (x * c).isNaN = false ∧ Within (rank (parts x)) (rank (parts (x * c))) := by
  have hone := (le_iff.mp h1).2.2
  rw [rank_one] at hone
  obtain ⟨m, d, hm, hc, hm', hrank⟩ := factor_of_one_le h1 h2
  rcases zero_or_finite hx hinf with ⟨s, hs⟩ | ⟨s, n, f, hn, hs, hn', hf⟩
  · rw [hs]
    exact ⟨isNaN_of_zero (parts_zero_mul hs hc), within_zero _⟩
  · rw [hrank] at hone
    have ha := ample_mul hn' hm' hn hm
    obtain ⟨hnan, hmul⟩ := rank_mul hs hc ha
    have hround := le_round (Nat.mul_pos hn hm) ha hn' (Nat.mul_le_mul_left n (hm'.two_pow_le hone))
    obtain ⟨hpos, hlt⟩ := hn'.rank_bounds hn hf
    refine ⟨hnan, ?_⟩
    rw [hmul, hs]
    exact within_apply s hpos.le (le_min hround hlt.le)

theorem infinity_mul_zero {s t : Sign} (hx : parts x = .infinity s) (hc : parts c = .zero t) :
    (x * c).isNaN = true := by
  refine isNaN_of_packed (parts_mul x c) ?_
  rw [hx, hc]
  rfl

theorem infinity_mul {s : Sign} {m : Nat} {e : Int} {hm : 0 < m} (hx : parts x = .infinity s)
    (hc : parts c = .finite .positive m e hm) : parts (x * c) = .infinity s := by
  rw [parts_mul, hx, hc]
  cases s <;> exact unpack_pack (.infinity _)

end Product

end Referee.Double
