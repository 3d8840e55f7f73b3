import Mathlib.Algebra.Order.Floor.Ring
import Mathlib.Tactic.Positivity
import Blive.Misc.Rounding

/-!
# Decimal arithmetic in a context

An operation of `decimal` answers its exact result rounded half-even to the digits of the context,
and `quantize` raises where its answer has more digits. Rounding is monotone and keeps the numbers
that have no more digits, and this is all that is used of it below. `Arithmetic.exact` is the
arithmetic without a context, in which nothing is rounded.
-/

namespace Blive

/-- `decimal.InvalidOperation`, an `ArithmeticError`. -/
def invalidOperation : PyError := .other "InvalidOperation"

/-- `decimal.Overflow` -/
def decimalOverflow : PyError := .other "Overflow"

/-- The digits and exponents a context keeps; it has room for the integers of its digits. -/
structure DecimalContext where
  prec : Nat
  emax : Int
  emin : Int
  prec_pos : 0 < prec
  emin_nonpos : emin ≤ 0
  prec_le_emax : prec ≤ emax

namespace DecimalContext

/-- The context of a program that sets none. -/
def default : DecimalContext where
  prec := 28
  emax := 999999
  emin := -999999
  prec_pos := by decide
  emin_nonpos := by decide
  prec_le_emax := by decide

/-- `Etiny()`, the exponent of the last digit of the smallest numbers. -/
def etiny (ctx : DecimalContext) : Int := ctx.emin - ctx.prec + 1

/-- The exponent of the last digit that is kept of a number. -/
def lastPlace (ctx : DecimalContext) (x : Decimal) : Int :=
  max (Int.log 10 |x| - ctx.prec + 1) ctx.etiny

def rounded (ctx : DecimalContext) (x : Decimal) : Decimal := roundToPlace x (ctx.lastPlace x)

/-- The exponent of the first digit is not above `Emax`. -/
def InSize (ctx : DecimalContext) (x : Decimal) : Prop := Int.log 10 |x| ≤ ctx.emax

instance (ctx : DecimalContext) (x : Decimal) : Decidable (ctx.InSize x) :=
  inferInstanceAs (Decidable (_ ≤ _))

/-- `_fix`: the exact result of an operation, rounded. -/
def fix (ctx : DecimalContext) (x : Decimal) : Except PyError Decimal :=
  if ctx.InSize (ctx.rounded x) then .ok (ctx.rounded x) else .error decimalOverflow

/-- A number with no more digits than are kept. -/
def Holds (ctx : DecimalContext) (x : Decimal) : Prop :=
  ∃ n e : ℤ, |n| ≤ 10 ^ ctx.prec ∧ ctx.etiny ≤ e ∧ x = n * (10 : Rat) ^ e

variable {ctx : DecimalContext} {x y r : Decimal}

theorem etiny_le (ctx : DecimalContext) : ctx.etiny ≤ 0 := by
  have hprec := ctx.prec_pos
  have hemin := ctx.emin_nonpos
  unfold etiny
  omega

theorem inSize_iff : ctx.InSize x ↔ |x| < (10 : Rat) ^ (ctx.emax + 1) := by
  have hemax := ctx.prec_le_emax
  rcases (abs_nonneg x).eq_or_lt with hzero | hpos
  · rw [InSize, ← hzero, Int.log_zero_right]
    exact iff_of_true (by omega) (zpow_pos (by norm_num) _)
  · have hlog := Int.lt_zpow_iff_log_lt (b := 10) (by norm_num) (x := ctx.emax + 1) hpos
    rw [Nat.cast_ofNat] at hlog
    rw [hlog, InSize, Int.lt_add_one_iff]

theorem InSize.mono (h : ctx.InSize y) (hle : |x| ≤ |y|) : ctx.InSize x :=
  inSize_iff.mpr (hle.trans_lt (inSize_iff.mp h))

/-! ## Rounding -/

theorem rounded_neg (ctx : DecimalContext) (x : Decimal) : ctx.rounded (-x) = -ctx.rounded x := by
  rw [rounded, rounded, lastPlace, abs_neg, ← lastPlace, roundToPlace, roundToPlace, neg_div,
    roundHalfEven_neg, Int.cast_neg, neg_mul]

/-- Rounding to a place does not go past the units of the place. -/
theorem roundToPlace_le {m e : ℤ} (h : x ≤ m * (10 : Rat) ^ e) :
    roundToPlace x e ≤ m * (10 : Rat) ^ e := by
  have hplace : (0 : Rat) < 10 ^ e := zpow_pos (by norm_num) e
  have hunits : roundHalfEven (x / 10 ^ e) ≤ m := roundHalfEven_le ((div_le_iff₀ hplace).mpr h)
  exact mul_le_mul_of_nonneg_right (Int.cast_le.mpr hunits) hplace.le

/-- Units of a place are units of each smaller one. -/
theorem exists_units {n e e' : ℤ} (h : e' ≤ e) :
    ∃ m : ℤ, (n : Decimal) * (10 : Rat) ^ e = m * (10 : Rat) ^ e' := by
  refine ⟨n * 10 ^ (e - e').toNat, ?_⟩
  have hexponent : e = (e - e').toNat + e' := by omega
  rw [Int.cast_mul, Int.cast_pow, Int.cast_ofNat, mul_assoc, ← zpow_natCast,
    ← zpow_add₀ (by norm_num), ← hexponent]

/-- Where the last place lies above the smallest one, the number has its first digit in the
largest place that is kept. -/
theorem pow_le_of_etiny_lt (hx : x ≠ 0) (h : ctx.etiny < ctx.lastPlace x) :
    (10 : Rat) ^ (ctx.lastPlace x + ctx.prec - 1) ≤ |x| := by
  have hlog : ctx.lastPlace x + ctx.prec - 1 = Int.log 10 |x| := by
    unfold lastPlace at h ⊢
    omega
  rw [hlog]
  exact_mod_cast Int.zpow_log_le_self (b := 10) (by norm_num) (abs_pos.mpr hx)

theorem rounded_le (hr : ctx.Holds r) (h : x ≤ r) : ctx.rounded x ≤ r := by
  obtain ⟨n, e, hn, he, rfl⟩ := hr
  rcases le_or_gt (ctx.lastPlace x) e with hle | hlt
  · obtain ⟨m, hm⟩ := exists_units (n := n) hle
    rw [hm] at h ⊢
    exact roundToPlace_le h
  by_cases hx : x = 0
  · rw [hx] at h
    rwa [hx, rounded, roundToPlace_of_fits ⟨0, by simp⟩]
  · -- The bound has its digits below those that are kept of `x`, so it is no larger.
    have hprec := ctx.prec_pos
    have hfirst := pow_le_of_etiny_lt hx (he.trans_lt hlt)
    have hten : (0 : Rat) < 10 ^ e := zpow_pos (by norm_num) e
    have hbound : |(n : Decimal) * 10 ^ e| ≤ 10 ^ (ctx.lastPlace x + ctx.prec - 1) := by
      have hcast : |(n : Decimal)| ≤ 10 ^ ctx.prec := by exact_mod_cast hn
      calc |(n : Decimal) * 10 ^ e| = |(n : Decimal)| * 10 ^ e := by
            rw [abs_mul, abs_of_pos hten]
        _ ≤ 10 ^ ctx.prec * 10 ^ e := mul_le_mul_of_nonneg_right hcast hten.le
        _ = 10 ^ ((ctx.prec : ℤ) + e) := by rw [zpow_add₀ (by norm_num), zpow_natCast]
        _ ≤ 10 ^ (ctx.lastPlace x + ctx.prec - 1) :=
            zpow_le_zpow_right₀ (by norm_num) (by omega)
    obtain ⟨m, hm⟩ := exists_units (n := 1) (e := ctx.lastPlace x + ctx.prec - 1)
      (show ctx.lastPlace x ≤ _ by omega)
    rw [Int.cast_one, one_mul] at hm
    obtain ⟨hlower, hupper⟩ := abs_le.mp hbound
    rcases le_total 0 x with hnonneg | hneg
    · rw [abs_of_nonneg hnonneg] at hfirst
      have hxm : x ≤ m * 10 ^ ctx.lastPlace x := by linarith
      have hround : ctx.rounded x ≤ m * 10 ^ ctx.lastPlace x := roundToPlace_le hxm
      linarith
    · rw [abs_of_nonpos hneg] at hfirst
      have hxm : x ≤ ((-m : ℤ) : Decimal) * 10 ^ ctx.lastPlace x := by
        push_cast
        linarith
      have hround : ctx.rounded x ≤ ((-m : ℤ) : Decimal) * 10 ^ ctx.lastPlace x :=
        roundToPlace_le hxm
      push_cast at hround
      linarith

theorem Holds.neg (h : ctx.Holds x) : ctx.Holds (-x) := by
  obtain ⟨n, e, hn, he, rfl⟩ := h
  exact ⟨-n, e, by rwa [abs_neg], he, by push_cast; ring⟩

theorem le_rounded (hr : ctx.Holds r) (h : r ≤ x) : r ≤ ctx.rounded x := by
  have hneg := rounded_le hr.neg (neg_le_neg h)
  rw [rounded_neg] at hneg
  exact neg_le_neg_iff.mp hneg

theorem holds_rounded (ctx : DecimalContext) (x : Decimal) : ctx.Holds (ctx.rounded x) := by
  refine ⟨roundHalfEven (x / 10 ^ ctx.lastPlace x), ctx.lastPlace x, ?_, le_max_right _ _, rfl⟩
  have hplace : (0 : Rat) < 10 ^ ctx.lastPlace x := zpow_pos (by norm_num) _
  have hdigits : |x / 10 ^ ctx.lastPlace x| ≤ ((10 ^ ctx.prec : ℤ) : Decimal) := by
    have hlog : |x| < (10 : Rat) ^ (Int.log 10 |x| + 1) := by
      exact_mod_cast Int.lt_zpow_succ_log_self (b := 10) (by norm_num) |x|
    have hlarge : Int.log 10 |x| + 1 ≤ ctx.prec + ctx.lastPlace x := by
      unfold lastPlace
      omega
    rw [abs_div, abs_of_pos hplace, div_le_iff₀ hplace]
    calc |x| ≤ 10 ^ (Int.log 10 |x| + 1) := hlog.le
      _ ≤ (10 : Rat) ^ ((ctx.prec : ℤ) + ctx.lastPlace x) :=
          zpow_le_zpow_right₀ (by norm_num) hlarge
      _ = _ := by
          rw [zpow_add₀ (by norm_num), zpow_natCast]
          push_cast
          rfl
  obtain ⟨hlower, hupper⟩ := abs_le.mp hdigits
  rw [abs_le]
  constructor
  · apply le_roundHalfEven
    push_cast at hlower ⊢
    exact hlower
  · exact roundHalfEven_le hupper

end DecimalContext

/-! ## The arithmetic of a computation -/

/-- Without limit, or within a context. -/
inductive Arithmetic where
  | exact
  | within (ctx : DecimalContext)

namespace Arithmetic

/-- The arithmetic of a program that sets no context. -/
def default : Arithmetic := .within .default

/-- What an operation answers whose exact result is `x`. -/
def fix : Arithmetic → Decimal → Except PyError Decimal
  | .exact, x => .ok x
  | .within ctx, x => ctx.fix x

/-- `n` units of the last place can be the answer of `quantize`. -/
def Counts : Arithmetic → Int → Int → Prop
  | .exact, _, _ => True
  | .within ctx, n, exponent =>
      (ctx.etiny ≤ exponent ∧ exponent ≤ ctx.emax) ∧ |n| < 10 ^ ctx.prec ∧
        ctx.InSize (n * (10 : Rat) ^ exponent)

instance : ∀ (arith : Arithmetic) (n exponent : Int), Decidable (arith.Counts n exponent)
  | .exact, _, _ => isTrue trivial
  | .within _, _, _ => inferInstanceAs (Decidable (_ ∧ _))

/-- `x.quantize(exp, rounding=rounding)`, for an `exp` with the given exponent. -/
def quantize (arith : Arithmetic) (x : Decimal) (exponent : Int) (rounding : Decimal → Int) :
    Except PyError Decimal :=
  let n := rounding (x / (10 : Rat) ^ exponent)
  if arith.Counts n exponent then .ok (n * (10 : Rat) ^ exponent) else .error invalidOperation

/-- A number the arithmetic has no need to round. -/
def Holds : Arithmetic → Decimal → Prop
  | .exact, _ => True
  | .within ctx, x => ctx.Holds x

variable {arith : Arithmetic} {x y r : Decimal} {n m e : ℤ}

@[simp] theorem fix_exact (x : Decimal) : fix .exact x = .ok x := rfl

theorem fix_le (h : arith.fix x = .ok y) (hr : arith.Holds r) (hle : x ≤ r) : y ≤ r := by
  cases arith with
  | exact =>
    cases h
    exact hle
  | within ctx =>
    simp only [fix, DecimalContext.fix] at h
    split at h <;> cases h
    exact DecimalContext.rounded_le hr hle

theorem le_fix (h : arith.fix x = .ok y) (hr : arith.Holds r) (hle : r ≤ x) : r ≤ y := by
  cases arith with
  | exact =>
    cases h
    exact hle
  | within ctx =>
    simp only [fix, DecimalContext.fix] at h
    split at h <;> cases h
    exact DecimalContext.le_rounded hr hle

theorem holds_of_fix (h : arith.fix x = .ok y) : arith.Holds y := by
  cases arith with
  | exact => trivial
  | within ctx =>
    simp only [fix, DecimalContext.fix] at h
    split at h <;> cases h
    exact ctx.holds_rounded x

theorem Holds.neg (h : arith.Holds x) : arith.Holds (-x) := by
  cases arith with
  | exact => trivial
  | within ctx => exact DecimalContext.Holds.neg h

theorem holds_zero (arith : Arithmetic) : arith.Holds 0 := by
  cases arith with
  | exact => trivial
  | within ctx => exact ⟨0, 0, by simp, ctx.etiny_le, by simp⟩

theorem fix_zero (arith : Arithmetic) : arith.fix 0 = .ok 0 := by
  cases arith with
  | exact => rfl
  | within ctx =>
    have hzero : ctx.rounded 0 = 0 := roundToPlace_of_fits ⟨0, by simp⟩
    have hsize : ctx.InSize 0 := by
      rw [DecimalContext.inSize_iff, abs_zero]
      exact zpow_pos (by norm_num) _
    simp only [fix, DecimalContext.fix, hzero, if_pos hsize]

/-- A bound that an operation can answer is one under which it does not overflow. -/
theorem exists_fix (hr : arith.fix r = .ok y) (hx : 0 ≤ x) (hle : x ≤ y) :
    ∃ z, arith.fix x = .ok z := by
  cases arith with
  | exact => exact ⟨x, rfl⟩
  | within ctx =>
    have hy := holds_of_fix hr
    simp only [fix, DecimalContext.fix] at hr ⊢
    split at hr <;> cases hr
    rename_i hsize
    refine ⟨_, if_pos (hsize.mono ?_)⟩
    have hnonneg : 0 ≤ ctx.rounded x := DecimalContext.le_rounded (holds_zero (.within ctx)) hx
    have hround := DecimalContext.rounded_le hy hle
    rwa [abs_of_nonneg hnonneg, abs_of_nonneg (hnonneg.trans hround)]

/-! ### What `quantize` answers -/

theorem quantize_eq_ok_iff {rounding : Decimal → Int} :
    arith.quantize x e rounding = .ok y ↔
      arith.Counts (rounding (x / (10 : Rat) ^ e)) e ∧
        y = rounding (x / (10 : Rat) ^ e) * (10 : Rat) ^ e := by
  unfold quantize
  dsimp only
  split
  · rename_i hcounts
    rw [Except.ok.injEq]
    exact ⟨fun h => ⟨hcounts, h.symm⟩, fun h => h.2.symm⟩
  · rename_i hcounts
    exact ⟨nofun, fun h => absurd h.1 hcounts⟩

theorem Counts.mono (h : arith.Counts n e) (hle : |m| ≤ |n|) : arith.Counts m e := by
  cases arith with
  | exact => trivial
  | within ctx =>
    obtain ⟨hexponent, hdigits, hsize⟩ := h
    refine ⟨hexponent, hle.trans_lt hdigits, hsize.mono ?_⟩
    rw [abs_mul, abs_mul]
    exact mul_le_mul_of_nonneg_right (by exact_mod_cast hle) (abs_nonneg _)

theorem Counts.holds (h : arith.Counts n e) : arith.Holds (n * (10 : Rat) ^ e) := by
  cases arith with
  | exact => trivial
  | within ctx => exact ⟨n, e, h.2.1.le, h.1.1, rfl⟩

/-- The number of units is itself one the arithmetic keeps. -/
theorem Counts.holds_units (h : arith.Counts n e) : arith.Holds n := by
  cases arith with
  | exact => trivial
  | within ctx => exact ⟨n, 0, h.2.1.le, ctx.etiny_le, by simp⟩

theorem fix_of_holds_of_inSize {ctx : DecimalContext} (h : ctx.Holds x) (hsize : ctx.InSize x) :
    fix (.within ctx) x = .ok x := by
  have hrounded : ctx.rounded x = x :=
    le_antisymm (DecimalContext.rounded_le h le_rfl) (DecimalContext.le_rounded h le_rfl)
  simp only [fix, DecimalContext.fix, hrounded, if_pos hsize]

/-- What an operation has answered is not rounded again. -/
theorem fix_abs (h : arith.fix x = .ok y) : arith.fix |y| = .ok |y| := by
  cases arith with
  | exact => rfl
  | within ctx =>
    have hy : ctx.Holds y := holds_of_fix h
    have hholds : ctx.Holds |y| := by
      rcases abs_choice y with habs | habs <;> rw [habs]
      · exact hy
      · exact hy.neg
    simp only [Arithmetic.fix, DecimalContext.fix] at h
    split at h <;> cases h
    rename_i hsize
    exact fix_of_holds_of_inSize hholds (hsize.mono (abs_abs _).le)

theorem Counts.fix (h : arith.Counts n e) :
    arith.fix (n * (10 : Rat) ^ e) = .ok (n * (10 : Rat) ^ e) := by
  cases arith with
  | exact => rfl
  | within ctx => exact fix_of_holds_of_inSize h.holds h.2.2

theorem Counts.fix_units (h : arith.Counts n e) : arith.fix n = .ok (n : Decimal) := by
  cases arith with
  | exact => rfl
  | within ctx =>
    refine fix_of_holds_of_inSize h.holds_units (DecimalContext.inSize_iff.mpr ?_)
    have hroom := ctx.prec_le_emax
    have hdigits : |(n : Decimal)| < 10 ^ ctx.prec := by exact_mod_cast h.2.1
    refine hdigits.trans_le ?_
    rw [← zpow_natCast]
    exact zpow_le_zpow_right₀ (by norm_num) (by omega)

/-- What `quantize` can answer, it answers. -/
theorem Counts.quantize (h : arith.Counts n e) :
    arith.quantize (n * (10 : Rat) ^ e) e roundHalfEven = .ok (n * (10 : Rat) ^ e) := by
  have hplace : (10 : Rat) ^ e ≠ 0 := zpow_ne_zero _ (by norm_num)
  rw [quantize_eq_ok_iff, mul_div_cancel_right₀ _ hplace, roundHalfEven_intCast]
  exact ⟨h, rfl⟩

theorem Counts.neg (h : arith.Counts n e) : arith.Counts (-n) e := h.mono (abs_neg n).le

/-- So it does below zero. -/
theorem Counts.neg_answers (h : arith.Counts n e) :
    arith.fix (-(n * (10 : Rat) ^ e)) = .ok (-(n * (10 : Rat) ^ e)) ∧
      arith.quantize (-(n * (10 : Rat) ^ e)) e roundHalfEven = .ok (-(n * (10 : Rat) ^ e)) := by
  rw [← neg_mul, ← Int.cast_neg]
  exact ⟨h.neg.fix, h.neg.quantize⟩

/-- The next number of units is still one the arithmetic keeps. -/
theorem Counts.holds_succ (h : arith.Counts n e) (hn : 0 ≤ n) :
    arith.Holds (((n + 1 : ℤ) : Decimal) * (10 : Rat) ^ e) := by
  cases arith with
  | exact => trivial
  | within ctx =>
    refine ⟨n + 1, e, ?_, h.1.1, rfl⟩
    have hdigits := h.2.1
    rw [abs_of_nonneg hn] at hdigits
    rw [abs_of_nonneg (by omega)]
    omega

/-- All the units up to `x` are ones `quantize` can answer. -/
def CountsBelow (arith : Arithmetic) (e : ℤ) (x : Decimal) : Prop :=
  ∀ n : ℤ, 0 ≤ n → n * (10 : Rat) ^ e ≤ x → arith.Counts n e

theorem CountsBelow.mono (h : arith.CountsBelow e y) (hle : x ≤ y) : arith.CountsBelow e x :=
  fun n hn hx => h n hn (hx.trans hle)

theorem countsBelow_units_iff (hn : 0 ≤ n) :
    arith.CountsBelow e (n * (10 : Rat) ^ e) ↔ arith.Counts n e := by
  have hplace : (0 : Rat) < 10 ^ e := zpow_pos (by norm_num) e
  constructor
  · intro h
    exact h n hn le_rfl
  · intro h m hm hle
    refine h.mono ?_
    rw [abs_of_nonneg hm, abs_of_nonneg hn]
    exact_mod_cast le_of_mul_le_mul_right hle hplace

theorem CountsBelow.of_quantize (h : arith.quantize x e roundHalfEven = .ok y) :
    arith.CountsBelow e x := by
  obtain ⟨hcounts, -⟩ := quantize_eq_ok_iff.mp h
  intro n hn hle
  have hunits := le_roundHalfEven ((le_div_iff₀ (zpow_pos (by norm_num) e)).mpr hle)
  refine hcounts.mono ?_
  rwa [abs_of_nonneg hn, abs_of_nonneg (hn.trans hunits)]

/-- Rounding does not bring a number under the units that `quantize` can answer. -/
theorem CountsBelow.of_fix (h : arith.fix x = .ok y) (hy : arith.CountsBelow e y) :
    arith.CountsBelow e x := by
  intro n hn hle
  cases arith with
  | exact => trivial
  | within ctx =>
    have hplace : (0 : Rat) < 10 ^ e := zpow_pos (by norm_num) e
    have hnonneg : 0 ≤ x := (mul_nonneg (Int.cast_nonneg hn) hplace.le).trans hle
    have hzero := hy 0 le_rfl (by simpa using le_fix h (holds_zero _) hnonneg)
    by_cases hfew : n ≤ 10 ^ ctx.prec
    · exact hy n hn (le_fix h ⟨n, e, by rwa [abs_of_nonneg hn], hzero.1.1, rfl⟩ hle)
    · -- The first number with too many digits is kept, and would lie below the answer.
      have hpow : (0 : ℤ) ≤ 10 ^ ctx.prec := by positivity
      have hbelow : ((10 ^ ctx.prec : ℤ) : Decimal) * 10 ^ e ≤ x :=
        (mul_le_mul_of_nonneg_right (Int.cast_le.mpr (not_le.mp hfew).le) hplace.le).trans hle
      have hcounts := hy (10 ^ ctx.prec) hpow
        (le_fix h ⟨10 ^ ctx.prec, e, (abs_of_nonneg hpow).le, hzero.1.1, rfl⟩ hbelow)
      exact absurd hcounts.2.1 (abs_of_nonneg hpow).not_lt

/-- Rounding and `quantize` do not take a number below the units below it. -/
theorem le_quantize_fix {z : Decimal} (hy : arith.fix x = .ok y)
    (hz : arith.quantize y e roundHalfEven = .ok z) (hn : 0 ≤ n) (hle : n * (10 : Rat) ^ e ≤ x) :
    n * (10 : Rat) ^ e ≤ z := by
  have hplace : (0 : Rat) < 10 ^ e := zpow_pos (by norm_num) e
  have hcounts := (CountsBelow.of_quantize hz).of_fix hy n hn hle
  obtain ⟨-, rfl⟩ := quantize_eq_ok_iff.mp hz
  have hunits := le_roundHalfEven ((le_div_iff₀ hplace).mpr (le_fix hy hcounts.holds hle))
  exact mul_le_mul_of_nonneg_right (Int.cast_le.mpr hunits) hplace.le

/-- Nor above the next unit above it. -/
theorem quantize_fix_le {z : Decimal} (hy : arith.fix x = .ok y)
    (hz : arith.quantize y e roundHalfEven = .ok z) (hn : 0 ≤ n) (hle : n * (10 : Rat) ^ e ≤ x)
    (hlt : x ≤ ((n + 1 : ℤ) : Decimal) * (10 : Rat) ^ e) :
    z ≤ ((n + 1 : ℤ) : Decimal) * (10 : Rat) ^ e := by
  have hplace : (0 : Rat) < 10 ^ e := zpow_pos (by norm_num) e
  have hcounts := (CountsBelow.of_quantize hz).of_fix hy n hn hle
  obtain ⟨-, rfl⟩ := quantize_eq_ok_iff.mp hz
  have hunits := roundHalfEven_le
    ((div_le_iff₀ hplace).mpr (fix_le hy (hcounts.holds_succ hn) hlt))
  exact mul_le_mul_of_nonneg_right (Int.cast_le.mpr hunits) hplace.le

end Arithmetic

end Blive
