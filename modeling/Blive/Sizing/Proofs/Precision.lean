import Mathlib.Algebra.Order.Floor.Ring
import Blive.Misc.AverageCost
import Blive.Sizing.Sizer

/-!
# Truncation at a precision

`quantize` reads the exponent of its argument and not its coefficient, so `quantize_share_qty`
truncates to units of the last place of the precision. They are multiples of the precision when
the precision is one unit; for any other precision the truncated quantity is a multiple of it
only when its number of units is one of the coefficient. The units must not be more than
`quantize` can answer, and the minus of a negative quantity must not have been rounded up to the
next one.
-/

namespace Blive

open AverageCost

/-- `result` is `raw` truncated toward zero to a multiple of the precision. -/
structure TruncatesTo (raw precision result : Decimal) : Prop where
  multiple : ∃ k : ℤ, result = k * precision
  sign : result = 0 ∨ SameSide raw result
  near : |raw| - precision < |result|
  within : |result| ≤ |raw|

/-- The unit of the last place of the precision. -/
def Precision.place (precision : Precision) : Decimal := (10 : Rat) ^ precision.exponent

/-- The whole units of the last place that a quantity holds. -/
def Precision.units (precision : Precision) (raw : Decimal) : Int := ⌊|raw| / precision.place⌋

namespace Precision

variable {precision : Precision} {raw : Decimal}

theorem place_pos (precision : Precision) : 0 < precision.place := zpow_pos (by norm_num) _

theorem value_eq (precision : Precision) :
    precision.value = precision.coefficient * precision.place := rfl

theorem coefficient_pos (h : 0 < precision.value) : 0 < precision.coefficient := by
  rw [value_eq] at h
  have hpos := pos_of_mul_pos_left h precision.place_pos.le
  exact_mod_cast hpos

theorem place_le_value (h : 0 < precision.value) : precision.place ≤ precision.value := by
  have hone : (1 : Decimal) ≤ precision.coefficient := by
    exact_mod_cast Int.add_one_le_iff.mpr (coefficient_pos h)
  rw [value_eq]
  exact le_mul_of_one_le_left precision.place_pos.le hone

theorem units_nonneg (precision : Precision) (raw : Decimal) : 0 ≤ precision.units raw :=
  Int.floor_nonneg.mpr (div_nonneg (abs_nonneg raw) precision.place_pos.le)

/-- The whole units are within the quantity. -/
theorem units_mul_le (precision : Precision) (raw : Decimal) :
    precision.units raw * precision.place ≤ |raw| :=
  (le_div_iff₀ precision.place_pos).mp (Int.floor_le _)

/-- What is left over is less than a unit. -/
theorem lt_units_mul (precision : Precision) (raw : Decimal) :
    |raw| - precision.place < precision.units raw * precision.place := by
  have h := (div_lt_iff₀ precision.place_pos).mp (Int.lt_floor_add_one (|raw| / precision.place))
  rw [add_mul, one_mul] at h
  exact sub_lt_iff_lt_add.mpr h

end Precision

/-- The quantity in whole units of the last place, with the sign of `raw`. -/
def truncated (raw : Decimal) (precision : Precision) : Decimal :=
  if raw < 0 then -(precision.units raw * precision.place)
  else precision.units raw * precision.place

section Truncated

variable {arith : Arithmetic} {raw result : Decimal} {precision : Precision}

theorem quantize_towardZero (hraw : 0 ≤ raw) :
    arith.quantize raw precision.exponent towardZero = .ok result ↔
      arith.Counts (precision.units raw) precision.exponent ∧
        result = precision.units raw * precision.place := by
  have hdown : towardZero (raw / (10 : Rat) ^ precision.exponent) = precision.units raw := by
    rw [towardZero_of_nonneg (div_nonneg hraw (zpow_nonneg (by norm_num) _)), Precision.units,
      abs_of_nonneg hraw]
    rfl
  rw [Arithmetic.quantize_eq_ok_iff, hdown]
  rfl

/-- What `quantize_share_qty` answers: the units of the quantity, or of its magnitude as the minus
has rounded it. -/
theorem quantizeShareQty_eq_ok_iff (h : 0 < precision.value) :
    quantizeShareQty arith raw precision = .ok result ↔
      raw = 0 ∧ result = 0 ∨
      0 < raw ∧ arith.Counts (precision.units raw) precision.exponent ∧
        result = precision.units raw * precision.place ∨
      raw < 0 ∧ ∃ magnitude, arith.fix |raw| = .ok magnitude ∧
        arith.Counts (precision.units magnitude) precision.exponent ∧
        result = -(precision.units magnitude * precision.place) := by
  unfold quantizeShareQty
  rw [require_bind_eq_ok_iff, and_iff_right h]
  rcases lt_trichotomy raw 0 with hraw | rfl | hraw
  · rw [if_neg hraw.ne, if_neg hraw.not_gt]
    simp only [hraw, hraw.ne, hraw.not_gt, false_and, false_or, true_and, abs_of_neg hraw]
    constructor
    · intro h
      obtain ⟨magnitude, hmagnitude, h⟩ := bind_eq_ok_iff.mp h
      obtain ⟨down, hdown, h⟩ := bind_eq_ok_iff.mp h
      obtain ⟨signed, hsigned, h⟩ := bind_eq_ok_iff.mp h
      have hnonneg := Arithmetic.le_fix hmagnitude arith.holds_zero (neg_nonneg.mpr hraw.le)
      rw [quantize_towardZero hnonneg] at hdown
      obtain ⟨hcounts, rfl⟩ := hdown
      obtain ⟨hfix, hquantize⟩ := hcounts.neg_answers
      cases hsigned.symm.trans hfix
      cases h.symm.trans hquantize
      exact ⟨magnitude, hmagnitude, hcounts, rfl⟩
    · rintro ⟨magnitude, hmagnitude, hcounts, rfl⟩
      have hnonneg := Arithmetic.le_fix hmagnitude arith.holds_zero (neg_nonneg.mpr hraw.le)
      obtain ⟨hfix, hquantize⟩ := hcounts.neg_answers
      exact bind_eq_ok_iff.mpr ⟨magnitude, hmagnitude, bind_eq_ok_iff.mpr
        ⟨_, (quantize_towardZero hnonneg).mpr ⟨hcounts, rfl⟩,
          bind_eq_ok_iff.mpr ⟨_, hfix, hquantize⟩⟩⟩
  · simp only [lt_irrefl, false_and, or_false, true_and, if_true, pure, Except.pure,
      Except.ok.injEq, eq_comm]
  · rw [if_neg hraw.ne', if_pos hraw, quantize_towardZero hraw.le]
    simp only [hraw, hraw.ne', hraw.not_gt, false_and, false_or, true_and, or_false]

theorem abs_truncated : |truncated raw precision| = precision.units raw * precision.place := by
  have hnonneg : (0 : Decimal) ≤ precision.units raw * precision.place :=
    mul_nonneg (by exact_mod_cast precision.units_nonneg raw) precision.place_pos.le
  unfold truncated
  split
  · rw [abs_neg, abs_of_nonneg hnonneg]
  · exact abs_of_nonneg hnonneg

/-- Truncation keeps the sign unless nothing is left. -/
theorem truncated_sign : truncated raw precision = 0 ∨ SameSide raw (truncated raw precision) := by
  rcases (precision.units_nonneg raw).eq_or_lt with hzero | hpos
  · left
    simp [truncated, ← hzero]
  · right
    have hunits : (0 : Decimal) < precision.units raw * precision.place :=
      mul_pos (by exact_mod_cast hpos) precision.place_pos
    unfold truncated
    split
    · rename_i hneg
      exact .inr ⟨hneg, neg_lt_zero.mpr hunits⟩
    · rename_i hnonneg
      have hraw : raw ≠ 0 := by
        rintro rfl
        simp [Precision.units] at hpos
      exact .inl ⟨(not_lt.mp hnonneg).lt_of_ne' hraw, hunits⟩

/-- The truncated quantity is a multiple of the precision when its units are one of the
coefficient. -/
theorem truncated_multiple_iff :
    (∃ k : ℤ, truncated raw precision = k * precision.value) ↔
      precision.coefficient ∣ precision.units raw := by
  have hplace := precision.place_pos.ne'
  have hcancel (k : ℤ) : (precision.units raw : Decimal) * precision.place =
      k * precision.value ↔ precision.units raw = precision.coefficient * k := by
    rw [Precision.value_eq, ← mul_assoc, mul_left_inj' hplace, mul_comm (k : Decimal)]
    exact_mod_cast Iff.rfl
  unfold truncated
  split
  · constructor
    · rintro ⟨k, hk⟩
      refine ⟨-k, (hcancel (-k)).mp ?_⟩
      push_cast
      linarith
    · rintro ⟨k, hk⟩
      refine ⟨-k, ?_⟩
      rw [(hcancel k).mpr hk]
      push_cast
      ring
  · constructor
    · rintro ⟨k, hk⟩
      exact ⟨k, (hcancel k).mp hk⟩
    · rintro ⟨k, hk⟩
      exact ⟨k, (hcancel k).mpr hk⟩

/-- A truncated quantity is truncated to the precision when its units are a multiple of the
coefficient. -/
theorem truncatesTo_truncated_iff (h : 0 < precision.value) :
    TruncatesTo raw precision.value (truncated raw precision) ↔
      precision.coefficient ∣ precision.units raw := by
  rw [← truncated_multiple_iff]
  constructor
  · exact TruncatesTo.multiple
  · intro hmultiple
    refine ⟨hmultiple, truncated_sign, ?_, ?_⟩
    · rw [abs_truncated]
      calc |raw| - precision.value ≤ |raw| - precision.place :=
            sub_le_sub_left (Precision.place_le_value h) _
        _ < precision.units raw * precision.place := precision.lt_units_mul raw
    · rw [abs_truncated]
      exact precision.units_mul_le raw

end Truncated

section Negative

variable {arith : Arithmetic} {raw magnitude : Decimal} {precision : Precision}

/-- The minus of a quantity keeps its units as long as it does not reach the next one. -/
theorem units_fix_eq (hmagnitude : arith.fix |raw| = .ok magnitude)
    (hcounts : arith.Counts (precision.units raw) precision.exponent)
    (hbelow : magnitude < (precision.units raw + 1) * precision.place) :
    precision.units magnitude = precision.units raw := by
  have hlower := Arithmetic.le_fix hmagnitude hcounts.holds (precision.units_mul_le raw)
  have hnonneg := Arithmetic.le_fix hmagnitude arith.holds_zero (abs_nonneg raw)
  rw [Precision.units, abs_of_nonneg hnonneg, Int.floor_eq_iff]
  exact ⟨(le_div_iff₀ precision.place_pos).mpr hlower,
    (div_lt_iff₀ precision.place_pos).mpr hbelow⟩

/-- Units of the minus that are within the quantity are its units. -/
theorem units_eq_of_within (hmagnitude : arith.fix |raw| = .ok magnitude)
    (hcounts : arith.Counts (precision.units magnitude) precision.exponent)
    (hwithin : precision.units magnitude * precision.place ≤ |raw|) :
    precision.units raw = precision.units magnitude := by
  have hnonneg := Arithmetic.le_fix hmagnitude arith.holds_zero (abs_nonneg raw)
  have hupper : |raw| < ((precision.units magnitude + 1 : ℤ) : Decimal) * precision.place := by
    by_contra hge
    have hnext := Arithmetic.le_fix hmagnitude
      (hcounts.holds_succ (precision.units_nonneg magnitude)) (not_lt.mp hge)
    have hlast := precision.lt_units_mul magnitude
    rw [abs_of_nonneg hnonneg] at hlast
    have hplace : (10 : Rat) ^ precision.exponent = precision.place := rfl
    rw [hplace] at hnext
    push_cast at hnext
    linarith
  push_cast at hupper
  rw [Precision.units, Int.floor_eq_iff]
  exact ⟨(le_div_iff₀ precision.place_pos).mpr hwithin,
    (div_lt_iff₀ precision.place_pos).mpr hupper⟩

end Negative

/-- `quantize_share_qty` truncates to the precision exactly when the coefficient of the precision
divides the units of its last place that the quantity holds, `quantize` can answer so many units,
and the minus of a negative quantity does not reach the next one. -/
theorem quantizeShareQty_truncatesTo_iff (arith : Arithmetic) {raw : Decimal}
    {precision : Precision} (h : 0 < precision.value) :
    (∃ result, quantizeShareQty arith raw precision = .ok result ∧
        TruncatesTo raw precision.value result) ↔
      raw = 0 ∨
        precision.coefficient ∣ precision.units raw ∧
          arith.Counts (precision.units raw) precision.exponent ∧
          (raw < 0 → ∃ magnitude, arith.fix |raw| = .ok magnitude ∧
            magnitude < (precision.units raw + 1) * precision.place) := by
  constructor
  · rintro ⟨result, hresult, htruncates⟩
    rcases (quantizeShareQty_eq_ok_iff h).mp hresult with ⟨hzero, -⟩ | ⟨hpos, hcounts, rfl⟩ |
      ⟨hneg, magnitude, hmagnitude, hcounts, rfl⟩
    · exact .inl hzero
    · have hdivides : precision.coefficient ∣ precision.units raw := by
        rw [← truncatesTo_truncated_iff h, truncated, if_neg hpos.not_gt]
        exact htruncates
      exact .inr ⟨hdivides, hcounts, fun hneg => absurd hneg hpos.not_gt⟩
    · have hnonneg : (0 : Decimal) ≤ precision.units magnitude * precision.place :=
        mul_nonneg (Int.cast_nonneg (precision.units_nonneg magnitude)) precision.place_pos.le
      have hwithin := htruncates.within
      rw [abs_neg, abs_of_nonneg hnonneg] at hwithin
      have hunits := units_eq_of_within hmagnitude hcounts hwithin
      rw [← hunits] at hcounts htruncates
      have hdivides : precision.coefficient ∣ precision.units raw := by
        rw [← truncatesTo_truncated_iff h, truncated, if_pos hneg]
        exact htruncates
      refine .inr ⟨hdivides, hcounts, fun _ => ⟨magnitude, hmagnitude, ?_⟩⟩
      have hlast := precision.lt_units_mul magnitude
      have hmagnitudeNonneg := Arithmetic.le_fix hmagnitude arith.holds_zero (abs_nonneg raw)
      rw [abs_of_nonneg hmagnitudeNonneg, ← hunits] at hlast
      linarith
  · intro hcondition
    by_cases hzero : raw = 0
    · subst hzero
      refine ⟨0, (quantizeShareQty_eq_ok_iff h).mpr (.inl ⟨rfl, rfl⟩), ⟨0, by simp⟩, .inl rfl, ?_,
        le_rfl⟩
      rw [abs_zero, zero_sub]
      exact neg_lt_zero.mpr h
    · obtain ⟨hdivides, hcounts, hminus⟩ := hcondition.resolve_left hzero
      refine ⟨truncated raw precision, (quantizeShareQty_eq_ok_iff h).mpr (.inr ?_),
        (truncatesTo_truncated_iff h).mpr hdivides⟩
      rcases lt_or_gt_of_ne hzero with hneg | hpos
      · obtain ⟨magnitude, hmagnitude, hbelow⟩ := hminus hneg
        have hunits := units_fix_eq hmagnitude hcounts hbelow
        refine .inr ⟨hneg, magnitude, hmagnitude, hunits.symm ▸ hcounts, ?_⟩
        rw [truncated, if_pos hneg, hunits]
      · refine .inl ⟨hpos, hcounts, ?_⟩
        rw [truncated, if_neg hpos.not_gt]

/-- One and a half, sold, are a multiple of a half: fifteen units of its last place, which five
divides. -/
theorem quantizeShareQty_truncatesTo_half :
    ∃ result, quantizeShareQty .default (-3 / 2) ⟨5, -1⟩ = .ok result ∧
      TruncatesTo (-3 / 2) (Precision.mk 5 (-1)).value result := by
  have hvalue : 0 < (Precision.mk 5 (-1)).value := by norm_num [Precision.value]
  have hunits : (Precision.mk 5 (-1)).units (-3 / 2) = 15 := by decide +kernel
  apply (quantizeShareQty_truncatesTo_iff .default hvalue).mpr
  rw [hunits]
  refine .inr ⟨⟨3, rfl⟩, by decide +kernel, fun _ => ⟨3 / 2, by decide +kernel, ?_⟩⟩
  norm_num [Precision.place]

/-- Seven tenths at a precision of a half stay seven tenths. -/
theorem not_truncatesTo :
    ¬ ∀ (raw : Decimal) (precision : Precision), 0 < precision.value →
      ∃ result, quantizeShareQty .default raw precision = .ok result ∧
        TruncatesTo raw precision.value result := by
  intro h
  have hvalue : (Precision.mk 5 (-1)).value = 1 / 2 := by norm_num [Precision.value]
  obtain ⟨result, hresult, htruncates⟩ := h (7 / 10) ⟨5, -1⟩ (by rw [hvalue]; norm_num)
  have hanswer : quantizeShareQty .default (7 / 10) ⟨5, -1⟩ = .ok (7 / 10) := by decide +kernel
  cases hresult.symm.trans hanswer
  obtain ⟨k, hk⟩ := htruncates.multiple
  rw [hvalue] at hk
  have hfive : (7 : ℚ) = 5 * k := by linarith
  have hdvd : (7 : ℤ) = 5 * k := by exact_mod_cast hfive
  omega

end Blive
