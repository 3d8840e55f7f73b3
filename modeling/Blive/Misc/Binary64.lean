import Blive.Misc.Rounding

/-!
# The order of the floats

Rounding to the nearest `float` keeps the order of numbers that are not negative, and leaves a
number that is one as it is. A number is below its `float` wherever a `float` separates them, so
that bounds by numbers with few binary digits pass through a rounding unchanged.
-/

namespace Blive

theorem roundHalfEven_mono {x y : Decimal} (h : x ≤ y) : roundHalfEven x ≤ roundHalfEven y := by
  have hfloor : x.floor ≤ y.floor := Int.floor_mono h
  rcases hfloor.lt_or_eq with hlt | heq
  · -- A whole number separates the two.
    calc roundHalfEven x ≤ x.floor + 1 := by
          apply roundHalfEven_le
          push_cast
          exact (Int.lt_floor_add_one x).le
      _ ≤ y.floor := hlt
      _ ≤ roundHalfEven y := le_roundHalfEven (Int.floor_le y)
  · unfold roundHalfEven
    rw [heq]
    dsimp only
    split_ifs <;> first | omega | (exfalso; linarith)

/-- A whole number of units `2 ^ e`. -/
def OnBinaryGrid (e : Int) (x : Decimal) : Prop := ∃ z : ℤ, x = z * (2 : Decimal) ^ e

/-- A whole number of units that a `float` can count. -/
def IsBinary64 (x : Decimal) : Prop :=
  ∃ (z : ℤ) (e : ℤ), x = z * (2 : Decimal) ^ e ∧ |z| < 2 ^ 53 ∧ -1074 ≤ e

theorem OnBinaryGrid.mono {e e' : ℤ} {x : Decimal} (h : OnBinaryGrid e x) (hle : e' ≤ e) :
    OnBinaryGrid e' x := by
  obtain ⟨z, rfl⟩ := h
  obtain ⟨k, hk⟩ := Int.eq_ofNat_of_zero_le (sub_nonneg.mpr hle)
  refine ⟨z * 2 ^ k, ?_⟩
  have hsum : e = (k : ℤ) + e' := by omega
  rw [hsum, zpow_add₀ (by norm_num), zpow_natCast]
  push_cast
  ring

/-- A bound on the grid of the last bit passes through the rounding. -/
theorem le_nearestFloat_of_grid {a x : Decimal} (h : a ≤ x) (ha : OnBinaryGrid (lastBit x) a) :
    a ≤ nearestFloat x := by
  obtain ⟨z, rfl⟩ := ha
  have hpos : (0 : Decimal) < 2 ^ lastBit x := zpow_pos (by norm_num) _
  refine mul_le_mul_of_nonneg_right ?_ hpos.le
  exact_mod_cast le_roundHalfEven ((le_div_iff₀ hpos).mpr h)

theorem nearestFloat_le_of_grid {a x : Decimal} (h : x ≤ a) (ha : OnBinaryGrid (lastBit x) a) :
    nearestFloat x ≤ a := by
  obtain ⟨z, rfl⟩ := ha
  have hpos : (0 : Decimal) < 2 ^ lastBit x := zpow_pos (by norm_num) _
  refine mul_le_mul_of_nonneg_right ?_ hpos.le
  exact_mod_cast roundHalfEven_le ((div_le_iff₀ hpos).mpr h)

theorem lastBit_mono {x y : Decimal} (hx : 0 < x) (h : x ≤ y) : lastBit x ≤ lastBit y := by
  have hlog : Int.log 2 |x| ≤ Int.log 2 |y| := by
    rw [abs_of_pos hx, abs_of_pos (hx.trans_le h)]
    exact Int.log_mono_right hx h
  unfold lastBit
  omega

theorem nearestFloat_zero : nearestFloat 0 = 0 := by
  rw [nearestFloat, zero_div]
  have h : roundHalfEven 0 = 0 := by simpa using roundHalfEven_intCast 0
  rw [h]
  simp

/-- The power of two at or below `y` separates it from each smaller number whose last bit is of a
lower place. -/
theorem nearestFloat_mono {x y : Decimal} (hx : 0 ≤ x) (h : x ≤ y) :
    nearestFloat x ≤ nearestFloat y := by
  rcases hx.eq_or_lt with rfl | hpos
  · rw [nearestFloat_zero]
    exact le_nearestFloat_of_grid h ⟨0, by simp⟩
  rcases (lastBit_mono hpos h).lt_or_eq with hlt | heq
  · have hypos : 0 < y := hpos.trans_le h
    have hbit : lastBit y = Int.log 2 y - 52 := by
      have hx : -1074 ≤ lastBit x := le_max_right _ _
      unfold lastBit at hlt ⊢
      rw [abs_of_pos hypos] at hlt ⊢
      omega
    have hle : (2 : Decimal) ^ Int.log 2 y ≤ y := Int.zpow_log_le_self (by norm_num) hypos
    have hxlt : x ≤ (2 : Decimal) ^ Int.log 2 y := by
      by_contra hgt
      have hlog : Int.log 2 y ≤ Int.log 2 x :=
        (Int.zpow_le_iff_le_log (by norm_num) hpos).mp (not_le.mp hgt).le
      have hbits : lastBit y ≤ lastBit x := by
        unfold lastBit
        rw [abs_of_pos hypos, abs_of_pos hpos]
        omega
      omega
    have hgrid : OnBinaryGrid (Int.log 2 y) ((2 : Decimal) ^ Int.log 2 y) := ⟨1, by simp⟩
    calc nearestFloat x ≤ (2 : Decimal) ^ Int.log 2 y :=
          nearestFloat_le_of_grid hxlt (hgrid.mono (by omega))
      _ ≤ nearestFloat y := le_nearestFloat_of_grid hle (hgrid.mono (by omega))
  · unfold nearestFloat
    rw [heq]
    have hbit : (0 : Decimal) < 2 ^ lastBit y := zpow_pos (by norm_num) _
    refine mul_le_mul_of_nonneg_right ?_ hbit.le
    exact_mod_cast roundHalfEven_mono (div_le_div_of_nonneg_right h hbit.le)

/-- A `float` is the one nearest to itself. -/
theorem IsBinary64.nearestFloat_eq {x : Decimal} (h : IsBinary64 x) : nearestFloat x = x := by
  obtain ⟨z, e, rfl, hz, he⟩ := h
  rcases eq_or_ne z 0 with rfl | hne
  · simpa using nearestFloat_zero
  have hpow : (0 : Decimal) < 2 ^ e := zpow_pos (by norm_num) _
  have hne' : (z : Decimal) ≠ 0 := by exact_mod_cast hne
  have hlt : |(z : Decimal) * 2 ^ e| < (2 : Decimal) ^ (53 + e) := by
    rw [abs_mul, abs_of_pos hpow, zpow_add₀ (by norm_num)]
    refine mul_lt_mul_of_pos_right ?_ hpow
    exact_mod_cast hz
  have hlog : Int.log 2 |(z : Decimal) * 2 ^ e| < 53 + e := by
    refine (Int.lt_zpow_iff_log_lt (by norm_num) ?_).mp (by exact_mod_cast hlt)
    exact abs_pos.mpr (mul_ne_zero hne' hpow.ne')
  have hbit : lastBit ((z : Decimal) * 2 ^ e) ≤ e := by
    unfold lastBit
    omega
  have hgrid : OnBinaryGrid (lastBit ((z : Decimal) * 2 ^ e)) ((z : Decimal) * 2 ^ e) :=
    OnBinaryGrid.mono ⟨z, rfl⟩ hbit
  exact le_antisymm (nearestFloat_le_of_grid le_rfl hgrid) (le_nearestFloat_of_grid le_rfl hgrid)

/-- A `float` below a number is below the `float` of the number. -/
theorem IsBinary64.le_nearestFloat {a x : Decimal} (ha : IsBinary64 a) (hnonneg : 0 ≤ a)
    (h : a ≤ x) : a ≤ nearestFloat x := by
  rw [← ha.nearestFloat_eq]
  exact nearestFloat_mono hnonneg h

theorem IsBinary64.nearestFloat_le {a x : Decimal} (ha : IsBinary64 a) (hnonneg : 0 ≤ x)
    (h : x ≤ a) : nearestFloat x ≤ a := by
  rw [← ha.nearestFloat_eq]
  exact nearestFloat_mono hnonneg h

theorem isBinary64_intCast {n : ℤ} (h : |n| < 2 ^ 53) : IsBinary64 n :=
  ⟨n, 0, by simp, h, by omega⟩

end Blive
