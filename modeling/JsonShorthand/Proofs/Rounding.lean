import Mathlib
import JsonShorthand.Binary64.Shortest

namespace JsonShorthand

theorem roundDiv_mul_right (n d : Nat) {c : Nat} (hc : 0 < c) :
    roundDiv (n * c) (d * c) = roundDiv n d := by
  have hr : 2 * (n % d * c) = 2 * (n % d) * c := (Nat.mul_assoc ..).symm
  unfold roundDiv
  simp only [Nat.mul_div_mul_right _ _ hc, Nat.mul_mod_mul_right, hr,
    Nat.mul_lt_mul_right hc, Nat.mul_right_cancel_iff hc]

theorem roundDiv_one (n : Nat) : roundDiv n 1 = n := by
  simp [roundDiv, Nat.mod_one]

namespace Decimal

/-- The same number with more zeros at its end. -/
def extend (x : Decimal) (zeros : Nat) : Decimal := ⟨x.digits * 10 ^ zeros, x.exponent - zeros⟩

theorem digitCount_mul_ten {n : Nat} (hn : n ≠ 0) : digitCount (n * 10) = digitCount n + 1 := by
  have hdigits := Nat.toDigits_append_toDigits (b := 10) (n := n) (d := 0) (by decide)
    (by omega) (by decide)
  have hlength := congrArg List.length hdigits
  simp only [List.length_append, Nat.toDigits_zero, List.length_singleton, Nat.add_zero] at hlength
  rw [digitCount, digitCount, Nat.mul_comm n 10, hlength]

theorem digitCount_mul_pow {n : Nat} (hn : n ≠ 0) (zeros : Nat) :
    digitCount (n * 10 ^ zeros) = digitCount n + zeros := by
  induction zeros with
  | zero => simp
  | succ zeros ih =>
    have hne : n * 10 ^ zeros ≠ 0 := Nat.mul_ne_zero hn (by simp)
    rw [Nat.pow_succ, ← Nat.mul_assoc, digitCount_mul_ten hne, ih, Nat.add_assoc]

theorem digitCount_le_iff {n count : Nat} (h : 0 < count) :
    digitCount n ≤ count ↔ n < 10 ^ count := Nat.length_toDigits_le_iff (by decide) h

end Decimal

namespace Binary64

theorem nearestMagnitude_mul_right (n d : Nat) {c : Nat} (hc : 0 < c) :
    nearestMagnitude (n * c) (d * c) = nearestMagnitude n d := by
  unfold nearestMagnitude
  simp only [Nat.mul_div_mul_right _ _ hc, Nat.mul_right_comm d c, roundDiv_mul_right _ _ hc]

/-- The two signs of an exponent under one formula. -/
theorem magnitudeOfDecimal_eq (x : Decimal) :
    magnitudeOfDecimal x =
      if x.digits = 0 ∨ Decimal.digitCount x.digits + x.exponent ≤ -324 then 0
      else if 310 ≤ Decimal.digitCount x.digits + x.exponent then infinityMagnitude
      else nearestMagnitude (x.digits * 10 ^ x.exponent.toNat * 2 ^ 1074)
        (10 ^ (-x.exponent).toNat) := by
  have hpow (b k : Nat) : Nat.pow b k = b ^ k := rfl
  unfold magnitudeOfDecimal
  cases h : x.exponent with
  | ofNat e =>
    have htop : (Int.ofNat e).toNat = e := rfl
    have hbottom : (-Int.ofNat e).toNat = 0 := by
      rw [Int.ofNat_eq_natCast]
      omega
    rw [htop, hbottom, Nat.pow_zero]
    simp only [hpow]
  | negSucc e =>
    have htop : (Int.negSucc e).toNat = 0 := rfl
    have hbottom : (-Int.negSucc e).toNat = e + 1 := rfl
    rw [htop, hbottom, Nat.pow_zero, Nat.mul_one]
    simp only [hpow]

theorem magnitudeOfDecimal_extend (x : Decimal) (zeros : Nat) :
    magnitudeOfDecimal (x.extend zeros) = magnitudeOfDecimal x := by
  rw [magnitudeOfDecimal_eq, magnitudeOfDecimal_eq]
  by_cases hx : x.digits = 0
  · simp [Decimal.extend, hx]
  · have hdigits : x.digits * 10 ^ zeros ≠ 0 := Nat.mul_ne_zero hx (by simp)
    have hplaces : ((Decimal.digitCount x.digits + zeros : Nat) : Int) + (x.exponent - zeros) =
        Decimal.digitCount x.digits + x.exponent := by omega
    -- both are the same fraction, reduced by the power of ten that the exponent has gained below
    let more := (-(x.exponent - zeros)).toNat - (-x.exponent).toNat
    have htop : zeros + (x.exponent - zeros).toNat = x.exponent.toNat + more := by omega
    have hbottom : (-(x.exponent - zeros)).toNat = (-x.exponent).toNat + more := by omega
    have hscale := nearestMagnitude_mul_right (x.digits * 10 ^ x.exponent.toNat * 2 ^ 1074)
      (10 ^ (-x.exponent).toNat) (c := 10 ^ more) (Nat.pow_pos (by decide))
    simp only [Decimal.extend, Decimal.digitCount_mul_pow hx, hplaces, hdigits, hx]
    rw [hbottom, Nat.pow_add, ← hscale, Nat.mul_assoc x.digits, ← Nat.pow_add, htop, Nat.pow_add]
    simp only [Nat.mul_assoc, Nat.mul_comm (10 ^ more)]

theorem significand_lt (magnitude : Nat) : significand magnitude < 2 ^ 53 := by
  have hmod := Nat.mod_lt magnitude (show 0 < 2 ^ 52 by decide)
  simp only [significand, Nat.pow_eq]
  split <;> omega

theorem le_significand {magnitude : Nat} (h : 2 ^ 52 ≤ magnitude) :
    2 ^ 52 ≤ significand magnitude := by
  have hnot : ¬ magnitude < 2 ^ 52 := by omega
  simp only [significand, Nat.pow_eq, if_neg hnot]
  omega

theorem scale_mul_add_significand (magnitude : Nat) :
    scale magnitude * 2 ^ 52 + significand magnitude = magnitude := by
  have hdiv := Nat.div_add_mod magnitude (2 ^ 52)
  simp only [scale, significand, Nat.pow_eq]
  by_cases h : magnitude < 2 ^ 52
  · rw [if_pos h, Nat.div_eq_of_lt h, Nat.zero_sub, Nat.zero_mul, Nat.zero_add]
  · have hpos : 1 ≤ magnitude / 2 ^ 52 := (Nat.le_div_iff_mul_le (by decide)).2 (by omega)
    rw [if_neg h]
    omega

theorem units_pos {magnitude : Nat} (h : magnitude ≠ 0) : 0 < units magnitude := by
  have hsum := scale_mul_add_significand magnitude
  have hsignificand : 0 < significand magnitude := by
    by_cases hsmall : magnitude < 2 ^ 52
    · simp only [significand, Nat.pow_eq, if_pos hsmall]; omega
    · have := le_significand (Nat.le_of_not_lt hsmall); omega
  exact Nat.mul_pos hsignificand (Nat.pow_pos (by decide))

theorem scale_le {magnitude : Nat} (h : magnitude < infinityMagnitude) :
    scale magnitude ≤ 2045 := by
  have hdiv : magnitude / 2 ^ 52 < 2047 := (Nat.div_lt_iff_lt_mul (by decide)).2 h
  simp only [scale, Nat.pow_eq]
  omega

theorem units_lt {magnitude e : Nat} (h : scale magnitude ≤ e) :
    units magnitude < 2 ^ 53 * 2 ^ e := by
  have hscale : 2 ^ scale magnitude ≤ 2 ^ e := Nat.pow_le_pow_right (by decide) h
  have hsignificand := significand_lt magnitude
  unfold units
  exact Nat.mul_lt_mul_of_lt_of_le hsignificand hscale (Nat.pow_pos (by decide))

theorem log2_mul_two_pow {n e k : Nat} (hlow : 2 ^ e ≤ n) (hhigh : n < 2 ^ (e + 1)) :
    (n * 2 ^ k).log2 = e + k := by
  have hpos : 0 < 2 ^ k := Nat.pow_pos (by decide)
  have hn : 0 < n := Nat.lt_of_lt_of_le (Nat.pow_pos (by decide)) hlow
  apply (Nat.log2_eq_iff (Nat.mul_ne_zero (by omega) (by omega))).2
  apply And.intro
  · rw [Nat.pow_add]
    exact Nat.mul_le_mul_right _ hlow
  · rw [Nat.add_right_comm, Nat.pow_add]
    exact Nat.mul_lt_mul_of_pos_right hhigh hpos

/-- Units are rounded back to the magnitude that they are the value of. -/
theorem nearestMagnitude_units {magnitude : Nat} (h : magnitude < infinityMagnitude) :
    nearestMagnitude (units magnitude) 1 = magnitude := by
  have hsum := scale_mul_add_significand magnitude
  have hscale : (if units magnitude < 2 ^ 53 then 0 else (units magnitude).log2 - 52) =
      scale magnitude := by
    by_cases hzero : scale magnitude = 0
    -- small units are their own significand; larger ones have 53 bits and then zeros
    · rw [if_pos, hzero]
      have hlt := significand_lt magnitude
      simpa [units, hzero] using hlt
    · have hlarge : 2 ^ 52 ≤ magnitude := by
        simp only [scale, Nat.pow_eq] at hzero
        omega
      have hlow := le_significand hlarge
      have hlog := log2_mul_two_pow (k := scale magnitude) hlow (significand_lt magnitude)
      have hunits : ¬ units magnitude < 2 ^ 53 := by
        have htwo : 2 ^ 1 ≤ 2 ^ scale magnitude :=
          Nat.pow_le_pow_right (by decide) (Nat.pos_of_ne_zero hzero)
        have hmul := Nat.mul_le_mul hlow htwo
        simp only [units, Nat.pow_eq]
        omega
      rw [if_neg hunits, units, Nat.pow_eq, hlog]
      omega
  have hround : roundDiv (units magnitude) (1 * 2 ^ scale magnitude) = significand magnitude := by
    have hcancel := roundDiv_mul_right (significand magnitude) 1
      (show 0 < 2 ^ scale magnitude from Nat.pow_pos (by decide))
    rw [units, Nat.pow_eq, hcancel, roundDiv_one]
  simp only [nearestMagnitude, Nat.pow_eq, Nat.div_one, hscale, hround, hsum]
  exact Nat.min_eq_left (Nat.le_of_lt h)

/-- The number of places of a decimal that is rounded to a finite magnitude but not to zero. -/
theorem places_of_magnitudeOfDecimal {x : Decimal} (hzero : magnitudeOfDecimal x ≠ 0)
    (hinfinity : magnitudeOfDecimal x < infinityMagnitude) :
    -324 < Decimal.digitCount x.digits + x.exponent ∧
      Decimal.digitCount x.digits + x.exponent < 310 := by
  rw [magnitudeOfDecimal_eq] at hzero hinfinity
  split at hzero
  · contradiction
  · split at hinfinity
    · omega
    · split at hinfinity <;> omega

theorem digitCount_exactDecimal {magnitude : Nat} (hzero : magnitude ≠ 0)
    (h : magnitude < infinityMagnitude) :
    750 < Decimal.digitCount (units magnitude * 5 ^ 1074) ∧
      Decimal.digitCount (units magnitude * 5 ^ 1074) ≤ 1383 := by
  have hpos (k : Nat) : 0 < 5 ^ k := Nat.pow_pos (by decide)
  have hlow : 10 ^ 750 ≤ 5 ^ 1074 := by decide +kernel
  have hhigh : 2 ^ 53 * 2 ^ 2045 * 5 ^ 1074 ≤ 10 ^ 1383 := by decide +kernel
  apply And.intro
  · apply Nat.lt_of_not_le
    rw [Decimal.digitCount_le_iff (by decide)]
    exact Nat.not_lt.2 (Nat.le_trans hlow (Nat.le_mul_of_pos_left _ (units_pos hzero)))
  · rw [Decimal.digitCount_le_iff (by decide)]
    exact Nat.lt_of_lt_of_le (Nat.mul_lt_mul_of_pos_right (units_lt (scale_le h)) (hpos 1074)) hhigh

theorem magnitudeOfDecimal_exactDecimal {magnitude : Nat} (hzero : magnitude ≠ 0)
    (h : magnitude < infinityMagnitude) :
    magnitudeOfDecimal (exactDecimal magnitude) = magnitude := by
  have hpos (k : Nat) : 0 < 5 ^ k := Nat.pow_pos (by decide)
  have hplaces := digitCount_exactDecimal hzero h
  have hdigits := Nat.mul_pos (units_pos hzero) (hpos 1074)
  have hscale (k : Nat) : units magnitude * 5 ^ k * 10 ^ 0 * 2 ^ k = units magnitude * 10 ^ k := by
    rw [Nat.pow_zero, Nat.mul_one, Nat.mul_assoc, ← Nat.mul_pow]
  have hcancel (k : Nat) : nearestMagnitude (units magnitude * 10 ^ k) (10 ^ k) = magnitude := by
    have hreduce := nearestMagnitude_mul_right (units magnitude) 1 (c := 10 ^ k)
      (Nat.pow_pos (by decide))
    rw [Nat.one_mul] at hreduce
    exact hreduce.trans (nearestMagnitude_units h)
  have hpow (k : Nat) : Nat.pow 5 k = 5 ^ k := rfl
  have hexact : (exactDecimal magnitude).digits = units magnitude * 5 ^ 1074 := by
    simp only [exactDecimal, hpow]
  have hexponent : (exactDecimal magnitude).exponent = -1074 := rfl
  have htop : (-1074 : Int).toNat = 0 := rfl
  have hbottom : (-(-1074 : Int)).toNat = 1074 := rfl
  rw [magnitudeOfDecimal_eq, hexact, hexponent, if_neg (by omega), if_neg (by omega), htop, hbottom,
    hscale 1074]
  exact hcancel 1074

theorem magnitudeOfDecimal_of_onGrid? {magnitude grid : Nat} {x : Decimal}
    (h : onGrid? magnitude grid = some x) : magnitudeOfDecimal x = magnitude := by
  unfold onGrid? at h
  generalize units magnitude * Nat.pow 10 gridOffset = n, Nat.pow 2 1074 * Nat.pow 10 grid = d at h
  simp only [Bool.and_eq_true, decide_eq_true_eq] at h
  split at h
  · split at h <;> simp_all
  · split at h
    · simp_all
    · split at h <;> simp_all

/-- The shortest decimal is rounded back to its magnitude. -/
theorem magnitudeOfDecimal_shortestDecimal {magnitude : Nat} (h : magnitude < infinityMagnitude) :
    magnitudeOfDecimal (shortestDecimal magnitude) = magnitude := by
  unfold shortestDecimal
  by_cases hzero : magnitude = 0
  · simp [hzero, magnitudeOfDecimal]
  · simp only [hzero, if_false]
    cases hfind : (List.range 17).findSome? fun i => onGrid? magnitude
        (Decimal.digitCount (units magnitude * Nat.pow 10 gridOffset / Nat.pow 2 1074) - (i + 1)) with
    | none => exact magnitudeOfDecimal_exactDecimal hzero h
    | some x =>
      obtain ⟨i, -, hi⟩ := List.exists_of_findSome?_eq_some hfind
      exact magnitudeOfDecimal_of_onGrid? hi

end Binary64

end JsonShorthand
