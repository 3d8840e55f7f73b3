import Blive.Misc.Binary64

/-!
# The decimals a float is written as

`str` writes a `float` with the fewest digits that lead back to it. Two numbers of at most fifteen
digits never have the same `float`, if they are not too small, so that such a number survives the
way through a `float` and back.
-/

namespace Blive

/-- The number has at most `n` significant digits. -/
def HasDigits (n : Nat) (x : Decimal) : Prop :=
  ∃ (z : ℤ) (e : ℤ), x = z * (10 : Decimal) ^ e ∧ |z| < 10 ^ n

/-- A `float` of this size has all its bits. -/
def IsNormal (x : Decimal) : Prop := (2 : Decimal) ^ (-1022 : ℤ) ≤ x

/-- What `str` may write for the `float` `x`: no decimal of the same `float` has fewer digits, and
none with as few is closer. -/
structure IsShortest (x r : Decimal) : Prop where
  rounds : nearestFloat r = x
  fewest : ∀ n r', HasDigits n r' → nearestFloat r' = x → HasDigits n r
  closest : ∀ r', nearestFloat r' = x → (∀ n, HasDigits n r → HasDigits n r') →
    |r - x| ≤ |r' - x|

theorem HasDigits.mono {m n : Nat} {x : Decimal} (h : HasDigits m x) (hle : m ≤ n) :
    HasDigits n x := by
  obtain ⟨z, e, hx, hz⟩ := h
  exact ⟨z, e, hx, hz.trans_le (pow_le_pow_right₀ (by norm_num) hle)⟩

/-! ## How far a number is from its float -/

theorem abs_nearestFloat_sub_le (x : Decimal) : |nearestFloat x - x| ≤ 2 ^ lastBit x / 2 := by
  have hpos : (0 : Decimal) < 2 ^ lastBit x := zpow_pos (by norm_num) _
  have hdiff : nearestFloat x - x =
      (roundHalfEven (x / 2 ^ lastBit x) - x / 2 ^ lastBit x) * 2 ^ lastBit x := by
    rw [nearestFloat, sub_mul, div_mul_cancel₀ _ hpos.ne']
  rw [hdiff, abs_mul, abs_of_pos hpos]
  have hround := abs_roundHalfEven_sub_le (x / 2 ^ lastBit x)
  calc |(roundHalfEven (x / 2 ^ lastBit x) : Decimal) - x / 2 ^ lastBit x| * 2 ^ lastBit x
      ≤ 1 / 2 * 2 ^ lastBit x := mul_le_mul_of_nonneg_right hround hpos.le
    _ = 2 ^ lastBit x / 2 := by ring

/-- The last of the 53 bits of a number that has them all. -/
theorem two_zpow_lastBit_le {x : Decimal} (h : IsNormal x) :
    (2 : Decimal) ^ lastBit x * 2 ^ 52 ≤ x := by
  have hpos : 0 < x := (zpow_pos (by norm_num) _).trans_le h
  have hlog : (-1022 : ℤ) ≤ Int.log 2 x := by
    refine (Int.zpow_le_iff_le_log (by norm_num) hpos).mp ?_
    exact_mod_cast h
  have hbit : lastBit x = Int.log 2 x - 52 := by
    unfold lastBit
    rw [abs_of_pos hpos]
    omega
  have hpow : (2 : Decimal) ^ (Int.log 2 x - 52) * 2 ^ 52 = 2 ^ Int.log 2 x := by
    rw [← zpow_natCast (2 : Decimal) 52, ← zpow_add₀ (by norm_num)]
    congr 1
    push_cast
    ring
  rw [hbit, hpow]
  exact_mod_cast Int.zpow_log_le_self (b := 2) (by norm_num) hpos

theorem isBinary64_two_zpow {e : ℤ} (h : -1074 ≤ e) : IsBinary64 ((2 : Decimal) ^ e) :=
  ⟨1, e, by simp, by norm_num, h⟩

theorem IsNormal.nearestFloat_pos {x : Decimal} (h : IsNormal x) : 0 < nearestFloat x := by
  have hpos : (0 : Decimal) < 2 ^ (-1022 : ℤ) := zpow_pos (by norm_num) _
  exact hpos.trans_le ((isBinary64_two_zpow (by norm_num)).le_nearestFloat hpos.le h)

/-- Only a positive number has a positive `float`. -/
theorem pos_of_nearestFloat_pos {x : Decimal} (h : 0 < nearestFloat x) : 0 < x := by
  by_contra hx
  have hle : nearestFloat x ≤ 0 := nearestFloat_le_of_grid (not_lt.mp hx) ⟨0, by simp⟩
  exact absurd h (not_lt.mpr hle)

/-- Two numbers with one `float` are closer to each other than the larger one's last bit. -/
theorem abs_sub_mul_le {x y : Decimal} (hx : IsNormal x) (h : nearestFloat y = nearestFloat x) :
    |x - y| * 2 ^ 52 ≤ max x y := by
  have hxpos : 0 < x := (zpow_pos (by norm_num) _).trans_le hx
  have hypos : 0 < y := pos_of_nearestFloat_pos (by rw [h]; exact hx.nearestFloat_pos)
  have hbits {a : Decimal} (ha : 0 < a) (hle : a ≤ max x y) :
      (2 : Decimal) ^ lastBit a ≤ 2 ^ lastBit (max x y) :=
    zpow_le_zpow_right₀ (by norm_num) (lastBit_mono ha hle)
  have hxbit := hbits hxpos (le_max_left x y)
  have hybit := hbits hypos (le_max_right x y)
  have hnormal : IsNormal (max x y) := le_trans hx (le_max_left x y)
  have hxdist := abs_nearestFloat_sub_le x
  have hydist := abs_nearestFloat_sub_le y
  rw [h] at hydist
  have hsum : |x - y| ≤ 2 ^ lastBit (max x y) := by
    calc |x - y| = |(nearestFloat x - y) - (nearestFloat x - x)| := by
          congr 1
          ring
      _ ≤ |nearestFloat x - y| + |nearestFloat x - x| := abs_sub _ _
      _ ≤ 2 ^ lastBit (max x y) := by linarith
  calc |x - y| * 2 ^ 52 ≤ 2 ^ lastBit (max x y) * 2 ^ 52 :=
        mul_le_mul_of_nonneg_right hsum (by norm_num)
    _ ≤ max x y := two_zpow_lastBit_le hnormal

/-! ## Fifteen digits -/

/-- Different numbers of fifteen digits differ by a unit of the smaller last place. -/
theorem min_lt_abs_sub_mul {x y : Decimal} (hx : HasDigits 15 x) (hy : HasDigits 15 y)
    (hxpos : 0 < x) (hypos : 0 < y) (hne : x ≠ y) : min x y < |x - y| * 10 ^ 15 := by
  obtain ⟨z, e, hxe, hz⟩ := hx
  obtain ⟨w, f, hyf, hw⟩ := hy
  have hplace {n : ℤ} {g : ℤ} {a : Decimal} (ha : a = n * (10 : Decimal) ^ g) (hn : |n| < 10 ^ 15)
      (hapos : 0 < a) : a < (10 : Decimal) ^ g * 10 ^ 15 := by
    have hg : (0 : Decimal) < 10 ^ g := zpow_pos (by norm_num) _
    have hlt : (n : Decimal) < 10 ^ 15 := by exact_mod_cast (le_abs_self n).trans_lt hn
    rw [ha, mul_comm]
    exact mul_lt_mul_of_pos_left hlt hg
  -- Both are whole multiples of the unit of the smaller exponent.
  have hgrid {n : ℤ} {g h : ℤ} (hle : h ≤ g) :
      ∃ k : ℤ, (n : Decimal) * 10 ^ g = k * (10 : Decimal) ^ h := by
    obtain ⟨j, hj⟩ := Int.eq_ofNat_of_zero_le (sub_nonneg.mpr hle)
    refine ⟨n * 10 ^ j, ?_⟩
    have hsum : g = (j : ℤ) + h := by omega
    rw [hsum, zpow_add₀ (by norm_num), zpow_natCast]
    push_cast
    ring
  have hunit {h : ℤ} (hxh : ∃ k : ℤ, x = k * (10 : Decimal) ^ h)
      (hyh : ∃ k : ℤ, y = k * (10 : Decimal) ^ h) : (10 : Decimal) ^ h ≤ |x - y| := by
    obtain ⟨k, rfl⟩ := hxh
    obtain ⟨l, rfl⟩ := hyh
    have hpos : (0 : Decimal) < 10 ^ h := zpow_pos (by norm_num) _
    have hkl : k ≠ l := fun heq => hne (by rw [heq])
    have hone : (1 : Decimal) ≤ |(k : Decimal) - l| := by
      have hint : (1 : ℤ) ≤ |k - l| := Int.one_le_abs (sub_ne_zero.mpr hkl)
      exact_mod_cast hint
    calc (10 : Decimal) ^ h = 1 * 10 ^ h := (one_mul _).symm
      _ ≤ |(k : Decimal) - l| * 10 ^ h := mul_le_mul_of_nonneg_right hone hpos.le
      _ = |(k : Decimal) * 10 ^ h - l * 10 ^ h| := by rw [← sub_mul, abs_mul, abs_of_pos hpos]
  rcases le_total e f with hle | hle
  · have hdiff := hunit ⟨z, hxe⟩ (by rw [hyf]; exact hgrid hle)
    calc min x y ≤ x := min_le_left x y
      _ < (10 : Decimal) ^ e * 10 ^ 15 := hplace hxe hz hxpos
      _ ≤ |x - y| * 10 ^ 15 := mul_le_mul_of_nonneg_right hdiff (by norm_num)
  · have hdiff := hunit (by rw [hxe]; exact hgrid hle) ⟨w, hyf⟩
    calc min x y ≤ y := min_le_right x y
      _ < (10 : Decimal) ^ f * 10 ^ 15 := hplace hyf hw hypos
      _ ≤ |x - y| * 10 ^ 15 := mul_le_mul_of_nonneg_right hdiff (by norm_num)

/-- A number of fifteen digits is the only one of its `float`. -/
theorem eq_of_nearestFloat_eq {x y : Decimal} (hx : HasDigits 15 x) (hy : HasDigits 15 y)
    (hnormal : IsNormal x) (h : nearestFloat y = nearestFloat x) : y = x := by
  have hxpos : 0 < x := (zpow_pos (by norm_num) _).trans_le hnormal
  have hypos : 0 < y := pos_of_nearestFloat_pos (by rw [h]; exact hnormal.nearestFloat_pos)
  by_contra hne
  have hbinary := abs_sub_mul_le hnormal h
  have hdecimal := min_lt_abs_sub_mul hx hy hxpos hypos (Ne.symm hne)
  have hgap : max x y = min x y + |x - y| := by
    rw [← max_sub_min_eq_abs']
    ring
  have hpos : 0 < |x - y| := abs_pos.mpr (sub_ne_zero.mpr (Ne.symm hne))
  rw [hgap] at hbinary
  linarith

/-- Fifteen digits come back from a `float`. -/
theorem IsShortest.eq_of_digits {x r : Decimal} (h : IsShortest (nearestFloat x) r)
    (hx : HasDigits 15 x) (hnormal : IsNormal x) : r = x :=
  eq_of_nearestFloat_eq hx (h.fewest 15 x hx rfl) hnormal h.rounds

theorem isShortest_of_digits {x : Decimal} (hx : HasDigits 15 x) (hnormal : IsNormal x) :
    IsShortest (nearestFloat x) x where
  rounds := rfl
  fewest n r' hr' h := by
    rcases Nat.le_total n 15 with hle | hle
    · rw [← eq_of_nearestFloat_eq hx (hr'.mono hle) hnormal h]
      exact hr'
    · exact hx.mono hle
  closest r' h hdigits := by
    rw [eq_of_nearestFloat_eq hx (hdigits 15 hx) hnormal h]

theorem IsShortest.pos {x r : Decimal} (h : IsShortest x r) (hx : 0 < x) : 0 < r :=
  pos_of_nearestFloat_pos (by rw [h.rounds]; exact hx)

end Blive
