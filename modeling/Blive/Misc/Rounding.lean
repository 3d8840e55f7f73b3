import Mathlib.Data.Int.Log
import Mathlib.Data.Rat.Floor
import Mathlib.Tactic.Linarith
import Mathlib.Tactic.Ring
import Blive.Misc.Py

/-!
# Rounding

The ways `decimal` rounds to a last place, and the `float` nearest to a number: what `/` answers
on integers and what `round` answers on a `float`.
-/

namespace Blive

/-- `ROUND_HALF_UP`: ties go away from zero. -/
def roundHalfUp (x : Decimal) : Int :=
  if 0 ≤ x then (x + 1 / 2).floor else -(-x + 1 / 2).floor

/-- `ROUND_DOWN` -/
def towardZero (x : Decimal) : Int := if 0 < x then ⌊x⌋ else -⌊-x⌋

/-- `ROUND_HALF_EVEN` -/
def roundHalfEven (x : Decimal) : Int :=
  let below := x.floor
  if x - below < 1 / 2 then below
  else if 1 / 2 < x - below then below + 1
  else if below % 2 = 0 then below
  else below + 1

/-- `x` rounded half-even to a whole number of units of the last place. -/
def roundToPlace (x : Decimal) (exponent : Int) : Decimal :=
  roundHalfEven (x / (10 : Rat) ^ exponent) * (10 : Rat) ^ exponent

theorem towardZero_of_nonneg {x : Decimal} (h : 0 ≤ x) : towardZero x = ⌊x⌋ := by
  rcases h.eq_or_lt with rfl | hpos
  · simp [towardZero]
  · exact if_pos hpos

theorem towardZero_of_nonpos {x : Decimal} (h : x ≤ 0) : towardZero x = -⌊-x⌋ :=
  if_neg h.not_gt

theorem abs_towardZero (x : Decimal) : |towardZero x| = ⌊|x|⌋ := by
  rcases le_total 0 x with h | h
  · rw [towardZero_of_nonneg h, abs_of_nonneg h, abs_of_nonneg (Int.floor_nonneg.mpr h)]
  · have hnonneg := Int.floor_nonneg.mpr (neg_nonneg.mpr h)
    rw [towardZero_of_nonpos h, abs_of_nonpos h, abs_neg, abs_of_nonneg hnonneg]

theorem towardZero_intCast (n : ℤ) : towardZero n = n := by
  unfold towardZero
  split
  · exact Int.floor_intCast n
  · rw [← Int.cast_neg, Int.floor_intCast, neg_neg]

theorem towardZero_eq_zero_iff {x : Decimal} : towardZero x = 0 ↔ |x| < 1 := by
  rcases le_total 0 x with h | h
  · rw [towardZero_of_nonneg h, abs_of_nonneg h, Int.floor_eq_zero_iff, Set.mem_Ico]
    exact and_iff_right h
  · rw [towardZero_of_nonpos h, abs_of_nonpos h, neg_eq_zero, Int.floor_eq_zero_iff, Set.mem_Ico]
    exact and_iff_right (neg_nonneg.mpr h)

theorem roundHalfEven_intCast (z : ℤ) : roundHalfEven z = z := by
  have hfloor : (z : Decimal).floor = z := Rat.floor_intCast z
  unfold roundHalfEven
  rw [hfloor]
  dsimp only
  rw [sub_self]
  exact if_pos (by norm_num)

theorem le_roundHalfEven {n : ℤ} {x : Decimal} (h : n ≤ x) : n ≤ roundHalfEven x := by
  have hfloor : n ≤ x.floor := Int.le_floor.mpr h
  unfold roundHalfEven
  dsimp only
  split_ifs <;> omega

theorem roundHalfEven_le {n : ℤ} {x : Decimal} (h : x ≤ n) : roundHalfEven x ≤ n := by
  rcases h.eq_or_lt with rfl | hlt
  · exact (roundHalfEven_intCast n).le
  · have hfloor : x.floor < n := Int.floor_lt.mpr hlt
    unfold roundHalfEven
    dsimp only
    split_ifs <;> omega

theorem roundHalfEven_neg (x : Decimal) : roundHalfEven (-x) = -roundHalfEven x := by
  have hle : (x.floor : Decimal) ≤ x := Int.floor_le x
  have hlt : x < x.floor + 1 := Int.lt_floor_add_one x
  rcases hle.eq_or_lt with hwhole | hfraction
  · rw [← hwhole, ← Int.cast_neg, roundHalfEven_intCast, roundHalfEven_intCast]
  · have hceil : ⌊-x⌋ = -x.floor - 1 := by
      rw [Int.floor_eq_iff]
      push_cast
      constructor <;> linarith
    have hfloor : (-x).floor = -x.floor - 1 := hceil
    unfold roundHalfEven
    dsimp only
    rw [hfloor]
    push_cast
    -- A fraction over a half below is one under a half above.
    split_ifs with hbelow habove heven hbelow' habove' heven' <;> first | omega | linarith

theorem abs_roundHalfEven_sub_le (x : Decimal) : |(roundHalfEven x : Decimal) - x| ≤ 1 / 2 := by
  have hle : (x.floor : Decimal) ≤ x := Int.floor_le x
  have hlt : x < x.floor + 1 := Int.lt_floor_add_one x
  unfold roundHalfEven
  dsimp only
  rw [abs_le]
  split_ifs with hbelow habove heven
  · constructor <;> linarith
  · push_cast
    constructor <;> linarith
  · constructor <;> linarith
  · push_cast
    constructor <;> linarith

/-- A whole number of units of the last place. -/
def FitsPlace (exponent : Int) (x : Decimal) : Prop := ∃ z : ℤ, x = z * (10 : Rat) ^ exponent

theorem roundToPlace_of_fits {x : Decimal} {exponent : Int} (h : FitsPlace exponent x) :
    roundToPlace x exponent = x := by
  obtain ⟨z, rfl⟩ := h
  have hplace : (10 : Rat) ^ exponent ≠ 0 := zpow_ne_zero _ (by norm_num)
  rw [roundToPlace, mul_div_cancel_right₀ _ hplace, roundHalfEven_intCast]

/-! ## Floats -/

/-- The exponent of the last bit of a `float` of the size of `x`. -/
def lastBit (x : Decimal) : Int := max (Int.log 2 |x| - 52) (-1074)

/-- The `float` nearest to `x`, as long as that is finite. -/
def nearestFloat (x : Decimal) : Decimal :=
  roundHalfEven (x / 2 ^ lastBit x) * 2 ^ lastBit x

/-- `a / b` on integers. -/
def trueDiv (a b : Int) : Except PyError Decimal :=
  if b = 0 then .error (.other "ZeroDivisionError")
  else if 2 ^ 1024 ≤ |nearestFloat (a / b)| then .error (.other "OverflowError")
  else .ok (nearestFloat (a / b))

/-- `round(x, ndigits)` of a `float`. -/
def roundFloat (x : Decimal) (ndigits : Nat) : Decimal := nearestFloat (roundToPlace x (-ndigits))

/-- Rounding to a place of which one is a multiple does not leave the unit interval. -/
theorem roundHalfEven_mul_mem {x place : Decimal} {n : ℤ} (hplace : 0 < place)
    (hn : n * place = 1) (hx : x ∈ Set.Icc (0 : Decimal) 1) :
    roundHalfEven (x / place) * place ∈ Set.Icc (0 : Decimal) 1 := by
  constructor
  · have hle : (0 : ℤ) ≤ roundHalfEven (x / place) :=
      le_roundHalfEven (by rw [Int.cast_zero]; exact div_nonneg hx.1 hplace.le)
    exact mul_nonneg (Int.cast_nonneg hle) hplace.le
  · have hdiv : x / place ≤ n := by
      rw [div_le_iff₀ hplace, hn]
      exact hx.2
    rw [← hn]
    exact mul_le_mul_of_nonneg_right (Int.cast_le.mpr (roundHalfEven_le hdiv)) hplace.le

theorem exists_mul_zpow_eq_one (base : Nat) (hbase : 0 < base) {e : ℤ} (h : e ≤ 0) :
    ∃ n : ℤ, (n : Decimal) * (base : Decimal) ^ e = 1 := by
  obtain ⟨k, rfl⟩ := Int.exists_eq_neg_ofNat h
  have hne : (base : Decimal) ≠ 0 := Nat.cast_ne_zero.mpr hbase.ne'
  refine ⟨base ^ k, ?_⟩
  rw [zpow_neg, zpow_natCast, Int.cast_pow, Int.cast_natCast, mul_inv_cancel₀ (pow_ne_zero k hne)]

theorem nearestFloat_mem {x : Decimal} (hx : x ∈ Set.Icc (0 : Decimal) 1) :
    nearestFloat x ∈ Set.Icc (0 : Decimal) 1 := by
  have hlog : Int.log 2 |x| ≤ 0 := by
    rw [abs_of_nonneg hx.1, Int.log_of_right_le_one 2 hx.2]
    omega
  have hbit : lastBit x ≤ 0 := by
    unfold lastBit
    omega
  obtain ⟨n, hn⟩ := exists_mul_zpow_eq_one 2 (by omega) hbit
  exact roundHalfEven_mul_mem (zpow_pos (by norm_num) _) hn hx

theorem roundToPlace_mem {x : Decimal} {exponent : ℤ} (h : exponent ≤ 0)
    (hx : x ∈ Set.Icc (0 : Decimal) 1) : roundToPlace x exponent ∈ Set.Icc (0 : Decimal) 1 := by
  obtain ⟨n, hn⟩ := exists_mul_zpow_eq_one 10 (by omega) h
  exact roundHalfEven_mul_mem (zpow_pos (by norm_num) _) hn hx

theorem roundFloat_mem {x : Decimal} (hx : x ∈ Set.Icc (0 : Decimal) 1) (ndigits : Nat) :
    roundFloat x ndigits ∈ Set.Icc (0 : Decimal) 1 :=
  nearestFloat_mem (roundToPlace_mem (by omega) hx)

/-- A part of a whole that is not empty. -/
theorem trueDiv_of_le {a b : Nat} (hab : a ≤ b) (hb : 0 < b) :
    ∃ x ∈ Set.Icc (0 : Decimal) 1, trueDiv a b = .ok x := by
  have hpos : (0 : Decimal) < b := Nat.cast_pos.mpr hb
  have hmem : (a / b : Decimal) ∈ Set.Icc (0 : Decimal) 1 :=
    ⟨div_nonneg (Nat.cast_nonneg a) hpos.le, (div_le_one₀ hpos).mpr (Nat.cast_le.mpr hab)⟩
  have hfloat := nearestFloat_mem hmem
  refine ⟨_, hfloat, ?_⟩
  have hfinite : ¬ 2 ^ 1024 ≤ |nearestFloat (a / b)| := by
    rw [abs_of_nonneg hfloat.1, not_le]
    exact hfloat.2.trans_lt (one_lt_pow₀ (by norm_num) (by norm_num))
  unfold trueDiv
  rw [if_neg (by omega)]
  simp only [Int.cast_natCast, if_neg hfinite]

end Blive
