import Blive.Adapters.Shared.Proofs.PriceGrid

/-!
# The answer of `snap_price`

`snap_price` answers where the tick it goes to has no more digits than `quantize` can answer.
Below such a tick no step is rounded away: every tick up to it is a number the arithmetic keeps,
and rounding does not cross one of those.
-/

namespace Blive

/-- `(price - band.low_edge) / band.increment` in the arithmetic: how many increments the price
lies above the edge of its band. -/
def gridSteps (arith : Arithmetic) (band : PriceIncrement) (price : Decimal) :
    Except PyError Decimal := do
  let above ← arith.fix (price - band.val.lowEdge)
  arith.fix (above / band.val.increment)

/-- The tick that lies so many increments above the edge of the band, in whole ones. -/
def tickAt (policy : RoundingPolicy) (side : OrderSide) (band : PriceIncrement)
    (steps : Decimal) : Decimal :=
  band.val.lowEdge + roundSteps policy side steps * band.val.increment

/-- The ticks of the band of the price go beyond it in the digits that `quantize` can answer. -/
def InDigits (arith : Arithmetic) (first : PriceIncrement) (rest : List PriceIncrement)
    (price : Decimal) : Prop :=
  ∃ above, OnGrid (bandFor price first rest) above ∧ price ≤ above ∧
    arith.CountsBelow (bandFor price first rest).val.exponent above

section Units

variable {arith : Arithmetic} {band : PriceIncrement} {n m : ℤ}

theorem mul_increment (band : PriceIncrement) (n : ℤ) :
    (n : Decimal) * band.val.increment =
      ((n * band.val.coefficient : ℤ) : Decimal) * (10 : Rat) ^ band.val.exponent := by
  rw [PriceIncrementFields.increment, ← mul_assoc, Int.cast_mul]

/-- Fewer increments than can be answered can be, and the number of them is kept. -/
theorem counts_increments (h : arith.Counts (n * band.val.coefficient) band.val.exponent)
    (hm : 0 ≤ m) (hle : m ≤ n) : arith.Counts (m * band.val.coefficient) band.val.exponent := by
  have hcoefficient := band.coefficient_pos
  apply h.mono
  rw [abs_of_nonneg (mul_nonneg hm hcoefficient.le),
    abs_of_nonneg (mul_nonneg (hm.trans hle) hcoefficient.le)]
  exact mul_le_mul_of_nonneg_right hle hcoefficient.le

theorem counts_steps (h : arith.Counts (n * band.val.coefficient) band.val.exponent)
    (hn : 0 ≤ n) : arith.Counts n band.val.exponent := by
  have hcoefficient := band.coefficient_pos
  apply h.mono
  rw [abs_of_nonneg hn, abs_of_nonneg (mul_nonneg hn hcoefficient.le)]
  exact le_mul_of_one_le_right hn hcoefficient

/-- Units as far as a number of increments are these increments. -/
theorem counts_of_below (hn : 0 ≤ n)
    (h : arith.CountsBelow band.val.exponent (n * band.val.increment)) :
    arith.Counts (n * band.val.coefficient) band.val.exponent :=
  h _ (mul_nonneg hn band.coefficient_pos.le) (mul_increment band n).ge

theorem Arithmetic.CountsBelow.above_edge {x : Decimal}
    (h : arith.CountsBelow band.val.exponent (band.val.lowEdge + x)) :
    arith.CountsBelow band.val.exponent x :=
  h.mono (le_add_of_nonneg_left band.lowEdge_nonneg)

theorem fix_increments (h : arith.Counts (n * band.val.coefficient) band.val.exponent) :
    arith.fix (n * band.val.increment) = .ok (n * band.val.increment) := by
  rw [mul_increment]
  exact h.fix

end Units

section Steps

variable {arith : Arithmetic} {band : PriceIncrement} {price steps : Decimal} {m : ℤ}

theorem gridSteps_nonneg (hsteps : gridSteps arith band price = .ok steps)
    (hprice : band.val.lowEdge ≤ price) : 0 ≤ steps := by
  obtain ⟨above, habove, hsteps⟩ := bind_eq_ok_iff.mp hsteps
  have hnonneg := Arithmetic.le_fix habove (arith.holds_zero) (sub_nonneg.mpr hprice)
  exact Arithmetic.le_fix hsteps (arith.holds_zero) (div_nonneg hnonneg band.increment_pos.le)

/-- A price not above a tick does not lie more increments above the edge than the tick. -/
theorem gridSteps_le (hsteps : gridSteps arith band price = .ok steps)
    (hm : arith.Counts (m * band.val.coefficient) band.val.exponent) (hnonneg : 0 ≤ m)
    (hle : price ≤ band.val.lowEdge + m * band.val.increment) : steps ≤ m := by
  obtain ⟨above, habove, hsteps⟩ := bind_eq_ok_iff.mp hsteps
  have hholds : arith.Holds (m * band.val.increment) := by
    rw [mul_increment]
    exact hm.holds
  have haboveLe := Arithmetic.fix_le habove hholds (by linarith)
  apply Arithmetic.fix_le hsteps (counts_steps hm hnonneg).holds_units
  exact (div_le_iff₀ band.increment_pos).mpr haboveLe

/-- A price that does not lie above a tick of few enough digits has its steps. -/
theorem exists_gridSteps (hlow : band.val.lowEdge ≤ price)
    (hm : arith.Counts (m * band.val.coefficient) band.val.exponent) (hnonneg : 0 ≤ m)
    (hle : price ≤ band.val.lowEdge + m * band.val.increment) :
    ∃ steps, gridSteps arith band price = .ok steps := by
  have hfix := fix_increments hm
  obtain ⟨above, habove⟩ := Arithmetic.exists_fix hfix (sub_nonneg.mpr hlow)
    (show price - band.val.lowEdge ≤ m * band.val.increment by linarith)
  have haboveNonneg := Arithmetic.le_fix habove (arith.holds_zero) (sub_nonneg.mpr hlow)
  have haboveLe := Arithmetic.fix_le habove (Arithmetic.holds_of_fix hfix) (by linarith)
  obtain ⟨steps, hsteps⟩ := Arithmetic.exists_fix (counts_steps hm hnonneg).fix_units
    (div_nonneg haboveNonneg band.increment_pos.le)
    ((div_le_iff₀ band.increment_pos).mpr haboveLe)
  exact ⟨steps, bind_eq_ok_iff.mpr ⟨above, habove, hsteps⟩⟩

/-- A tick of the band lies as many increments above its edge as it has. -/
theorem gridSteps_tick (hm : m = 0 ∨ arith.Counts (m * band.val.coefficient) band.val.exponent)
    (hnonneg : 0 ≤ m) :
    gridSteps arith band (band.val.lowEdge + m * band.val.increment) = .ok (m : Decimal) := by
  have hfix : arith.fix (m * band.val.increment) = .ok (m * band.val.increment) ∧
      arith.fix m = .ok (m : Decimal) := by
    rcases hm with rfl | hm
    · simpa using arith.fix_zero
    · exact ⟨fix_increments hm, (counts_steps hm hnonneg).fix_units⟩
  refine bind_eq_ok_iff.mpr ⟨m * band.val.increment, ?_, ?_⟩
  · rw [add_sub_cancel_left]
    exact hfix.1
  · rw [mul_div_cancel_right₀ _ band.increment_pos.ne']
    exact hfix.2

end Steps

section Snap

variable {arith : Arithmetic} {policy : RoundingPolicy} {side : OrderSide}
  {first : PriceIncrement} {rest : List PriceIncrement} {price snapped steps : Decimal}

theorem tickAt_natCast (policy : RoundingPolicy) (side : OrderSide) (band : PriceIncrement)
    (k : ℕ) : tickAt policy side band k = band.val.lowEdge + k * band.val.increment := by
  have hnonneg : (0 : Decimal) ≤ k := Nat.cast_nonneg k
  have hle := (roundSteps_bounds policy side hnonneg).2 k (by rw [Int.cast_natCast])
  have hge : (k : ℤ) ≤ roundSteps policy side (k : Decimal) := by
    rw [← reaches_iff policy side hnonneg]
    cases policy <;> cases side <;> simp only [Reaches] <;> linarith
  rw [tickAt, le_antisymm hle hge, Int.cast_natCast]

theorem exists_tickAt (policy : RoundingPolicy) (side : OrderSide) (hsteps : 0 ≤ steps)
    (band : PriceIncrement) : ∃ k : ℕ, roundSteps policy side steps = k ∧
      tickAt policy side band steps = band.val.lowEdge + k * band.val.increment := by
  obtain ⟨k, hk⟩ := Int.eq_ofNat_of_zero_le (roundSteps_bounds policy side hsteps).1
  refine ⟨k, hk, ?_⟩
  rw [tickAt, hk]
  push_cast
  rfl

theorem tickAt_onGrid (hsteps : 0 ≤ steps) (band : PriceIncrement) :
    OnGrid band (tickAt policy side band steps) := by
  obtain ⟨k, -, htick⟩ := exists_tickAt policy side hsteps band
  exact ⟨k, htick⟩

/-- The increments are added to the edge unrounded: more of them than are kept are more than can
be answered. -/
theorem snapPrice_eq_ok_iff (hcovers : CoversZero first rest) (hprice : 0 < price) :
    snapPrice arith price (first :: rest) side policy = .ok snapped ↔
      ∃ steps rounded, gridSteps arith (bandFor price first rest) price = .ok steps ∧
        arith.fix (tickAt policy side (bandFor price first rest) steps) = .ok rounded ∧
        arith.quantize rounded (bandFor price first rest).val.exponent roundHalfEven =
          .ok snapped := by
  have hlow := bandFor_le hcovers hprice.le
  unfold snapPrice
  rw [require_bind_eq_ok_iff]
  dsimp only
  generalize bandFor price first rest = band at hlow ⊢
  constructor
  · rintro ⟨-, h⟩
    obtain ⟨above, habove, h⟩ := bind_eq_ok_iff.mp h
    obtain ⟨steps, hsteps, h⟩ := bind_eq_ok_iff.mp h
    obtain ⟨scaled, hscaled, h⟩ := bind_eq_ok_iff.mp h
    obtain ⟨rounded, hrounded, hquantize⟩ := bind_eq_ok_iff.mp h
    have hgrid : gridSteps arith band price = .ok steps :=
      bind_eq_ok_iff.mpr ⟨above, habove, hsteps⟩
    have hk := (roundSteps_bounds policy side (gridSteps_nonneg hgrid hlow)).1
    have hsum := Arithmetic.CountsBelow.of_fix hrounded (.of_quantize hquantize)
    have hcounts := counts_of_below hk (.of_fix hscaled hsum.above_edge)
    cases hscaled.symm.trans (fix_increments hcounts)
    exact ⟨steps, rounded, hgrid, hrounded, hquantize⟩
  · rintro ⟨steps, rounded, hgrid, hrounded, hquantize⟩
    have hk := (roundSteps_bounds policy side (gridSteps_nonneg hgrid hlow)).1
    have htick := Arithmetic.CountsBelow.of_fix hrounded (.of_quantize hquantize)
    have hcounts := counts_of_below hk htick.above_edge
    obtain ⟨above, habove, hsteps⟩ := bind_eq_ok_iff.mp hgrid
    refine ⟨hprice, bind_eq_ok_iff.mpr ⟨above, habove, bind_eq_ok_iff.mpr ⟨steps, hsteps, ?_⟩⟩⟩
    exact bind_eq_ok_iff.mpr ⟨_, fix_increments hcounts,
      bind_eq_ok_iff.mpr ⟨rounded, hrounded, hquantize⟩⟩

/-- A tick that can be answered is not past one above the price. -/
theorem tickAt_nextTick (hcovers : CoversZero first rest) (hprice : 0 < price)
    (hsteps : gridSteps arith (bandFor price first rest) price = .ok steps)
    (hcounts : arith.CountsBelow (bandFor price first rest).val.exponent
      (tickAt policy side (bandFor price first rest) steps)) :
    NextTick first rest price (tickAt policy side (bandFor price first rest) steps) := by
  have hlow := bandFor_le hcovers hprice.le
  have hnonneg := gridSteps_nonneg hsteps hlow
  refine ⟨tickAt_onGrid hnonneg _, ?_⟩
  rintro _ ⟨m, rfl⟩ hlt
  obtain ⟨hk, hle⟩ := roundSteps_bounds policy side hnonneg
  by_contra hpast
  have hpos := (bandFor price first rest).increment_pos
  have hmk : (m : ℤ) < roundSteps policy side steps := by
    have hcast : (m : Decimal) < roundSteps policy side steps := by
      refine lt_of_mul_lt_mul_right ?_ hpos.le
      unfold tickAt at hpast
      linarith
    exact_mod_cast hcast
  have hm := counts_increments (counts_of_below hk hcounts.above_edge) (Int.natCast_nonneg m)
    hmk.le
  have hstepsLe := gridSteps_le hsteps hm (Int.natCast_nonneg m) (by push_cast; exact hlt.le)
  exact hmk.not_ge (hle m hstepsLe)

/-- A tick in the decimals of the increment stays as it is where it has few enough of them. -/
theorem OnGrid.answers {band : PriceIncrement} {tick : Decimal} (htick : OnGrid band tick)
    (hfits : FitsPlace band.val.exponent band.val.lowEdge)
    (hcounts : arith.CountsBelow band.val.exponent tick) :
    arith.fix tick = .ok tick ∧
      arith.quantize tick band.val.exponent roundHalfEven = .ok tick := by
  obtain ⟨n, rfl⟩ := htick.fits_iff.mpr hfits
  have hn : 0 ≤ n := by
    have hcast := nonneg_of_mul_nonneg_left (band.lowEdge_nonneg.trans htick.lowEdge_le)
      (zpow_pos (by norm_num) band.val.exponent)
    exact_mod_cast hcast
  have hcount := (Arithmetic.countsBelow_units_iff hn).mp hcounts
  exact ⟨hcount.fix, hcount.quantize⟩

/-- Where the low edge fits the decimals of the increment the tick is the answer. -/
theorem snapPrice_eq_ok_iff_of_fits (hcovers : CoversZero first rest) (hprice : 0 < price)
    (hfits : FitsPlace (bandFor price first rest).val.exponent
      (bandFor price first rest).val.lowEdge) :
    snapPrice arith price (first :: rest) side policy = .ok snapped ↔
      ∃ steps, gridSteps arith (bandFor price first rest) price = .ok steps ∧
        arith.CountsBelow (bandFor price first rest).val.exponent
          (tickAt policy side (bandFor price first rest) steps) ∧
        snapped = tickAt policy side (bandFor price first rest) steps := by
  have hlow := bandFor_le hcovers hprice.le
  rw [snapPrice_eq_ok_iff hcovers hprice]
  generalize bandFor price first rest = band at hfits hlow ⊢
  constructor
  · rintro ⟨steps, rounded, hsteps, hrounded, hquantize⟩
    have hcounts := Arithmetic.CountsBelow.of_fix hrounded (.of_quantize hquantize)
    have htick : OnGrid band (tickAt policy side band steps) :=
      tickAt_onGrid (gridSteps_nonneg hsteps hlow) band
    obtain ⟨hfix, hanswer⟩ := htick.answers hfits hcounts
    cases hrounded.symm.trans hfix
    cases hquantize.symm.trans hanswer
    exact ⟨steps, hsteps, hcounts, rfl⟩
  · rintro ⟨steps, hsteps, hcounts, rfl⟩
    have htick : OnGrid band (tickAt policy side band steps) :=
      tickAt_onGrid (gridSteps_nonneg hsteps hlow) band
    obtain ⟨hfix, hanswer⟩ := htick.answers hfits hcounts
    exact ⟨steps, _, hsteps, hfix, hanswer⟩

/-- In digits enough `snap_price` answers. -/
theorem exists_snapPrice (hcovers : CoversZero first rest) (hprice : 0 < price)
    (hfits : FitsPlace (bandFor price first rest).val.exponent
      (bandFor price first rest).val.lowEdge) (hdigits : InDigits arith first rest price) :
    ∃ snapped, snapPrice arith price (first :: rest) side policy = .ok snapped := by
  obtain ⟨_, ⟨m, rfl⟩, hle, hcounts⟩ := hdigits
  have hlow := bandFor_le hcovers hprice.le
  have hcast : ((m : ℤ) : Decimal) = m := Int.cast_natCast m
  rw [← hcast] at hle hcounts
  have hm := counts_of_below (Int.natCast_nonneg m) hcounts.above_edge
  obtain ⟨steps, hsteps⟩ := exists_gridSteps hlow hm (Int.natCast_nonneg m) hle
  have hk := (roundSteps_bounds policy side (gridSteps_nonneg hsteps hlow)).2 m
    (gridSteps_le hsteps hm (Int.natCast_nonneg m) hle)
  refine ⟨_, (snapPrice_eq_ok_iff_of_fits hcovers hprice hfits).mpr ⟨steps, hsteps, ?_, rfl⟩⟩
  apply hcounts.mono
  have hmul := mul_le_mul_of_nonneg_right (Int.cast_le (R := Decimal).mpr hk)
    (bandFor price first rest).increment_pos.le
  unfold tickAt
  linarith

/-- A tick of the band that governs it, with the steps it has there, is its own answer. -/
theorem snapPrice_tick (hcovers : CoversZero first rest) {tick : Decimal} (htick : 0 < tick)
    (hfits : FitsPlace (bandFor tick first rest).val.exponent
      (bandFor tick first rest).val.lowEdge) {k : ℕ}
    (hk : tick = (bandFor tick first rest).val.lowEdge +
      k * (bandFor tick first rest).val.increment)
    (hsteps : gridSteps arith (bandFor tick first rest) tick = .ok (k : Decimal)) :
    snapPrice arith tick (first :: rest) side policy = .ok snapped ↔
      arith.CountsBelow (bandFor tick first rest).val.exponent tick ∧ snapped = tick := by
  rw [snapPrice_eq_ok_iff_of_fits hcovers htick hfits]
  have hanswer : tickAt policy side (bandFor tick first rest) k = tick := by
    rw [tickAt_natCast]
    exact hk.symm
  constructor
  · rintro ⟨steps, hsteps', hcounts, rfl⟩
    cases hsteps.symm.trans hsteps'
    rw [hanswer] at hcounts ⊢
    exact ⟨hcounts, rfl⟩
  · rintro ⟨hcounts, rfl⟩
    exact ⟨k, hsteps, by rwa [hanswer], hanswer.symm⟩

/-- On an aligned table `snap_price` answers, in digits enough, a tick of the band that governs
it; and snapping a positive answer again, under whatever policy, can only answer the same. -/
theorem snapPrice_idempotent (arith : Arithmetic) (policy : RoundingPolicy) (side : OrderSide)
    (htable : AlignedTable first rest) (hprice : 0 < price) :
    (InDigits arith first rest price →
      ∃ snapped, snapPrice arith price (first :: rest) side policy = .ok snapped) ∧
    ∀ snapped, snapPrice arith price (first :: rest) side policy = .ok snapped →
      OnGrid (bandFor snapped first rest) snapped ∧
      (0 < snapped → ∀ policy' side',
        (InDigits arith first rest snapped →
          snapPrice arith snapped (first :: rest) side' policy' = .ok snapped) ∧
        ∀ again, snapPrice arith snapped (first :: rest) side' policy' = .ok again →
          again = snapped) := by
  refine ⟨exists_snapPrice htable.covers hprice (htable.fits_bandFor hprice), ?_⟩
  intro snapped hsnapped
  obtain ⟨steps, hsteps, hcounts, rfl⟩ :=
    (snapPrice_eq_ok_iff_of_fits htable.covers hprice (htable.fits_bandFor hprice)).mp hsnapped
  have hnext := tickAt_nextTick htable.covers hprice hsteps hcounts
  generalize tickAt policy side (bandFor price first rest) steps = tick at hcounts hnext
  have hgoverned := hnext.governed htable.toGridTable hprice
  refine ⟨hgoverned, fun htick policy' side' => ?_⟩
  obtain ⟨k, hk⟩ := hgoverned
  -- On an edge the steps are none; elsewhere they were counted by the first call.
  have hagain : gridSteps arith (bandFor tick first rest) tick = .ok (k : Decimal) := by
    have hknown : (k : ℤ) = 0 ∨ arith.Counts (k * (bandFor tick first rest).val.coefficient)
        (bandFor tick first rest).val.exponent := by
      rcases hnext.cases htable.toGridTable hprice with ⟨band, hband, hedge⟩ | hsame
      · left
        have hlow := bandFor_edge htable.toGridTable hband
        rw [hedge] at hlow
        have hzero : (k : Decimal) * (bandFor tick first rest).val.increment = 0 := by linarith
        have hk0 := (mul_eq_zero.mp hzero).resolve_right
          (bandFor tick first rest).increment_pos.ne'
        exact_mod_cast hk0
      · right
        rw [← bandFor_congr hsame] at hcounts
        have htick' : tick = (bandFor tick first rest).val.lowEdge +
            ((k : ℤ) : Decimal) * (bandFor tick first rest).val.increment := by
          rwa [Int.cast_natCast]
        exact counts_of_below (Int.natCast_nonneg k) (hcounts.mono htick'.ge).above_edge
    have hstepsTick := gridSteps_tick hknown (Int.natCast_nonneg k)
    rwa [Int.cast_natCast, ← hk] at hstepsTick
  have hanswer : ∀ again, snapPrice arith tick (first :: rest) side' policy' = .ok again ↔
      arith.CountsBelow (bandFor tick first rest).val.exponent tick ∧ again = tick :=
    fun again => snapPrice_tick htable.covers htick (htable.fits_bandFor htick) hk hagain
  constructor
  · rintro ⟨above, -, hle, hdigits⟩
    exact (hanswer tick).mpr ⟨hdigits.mono hle, rfl⟩
  · intro again h
    exact ((hanswer again).mp h).2

/-! ## Legal answers -/

/-- The edge, as `quantize` puts it in the decimals of the increment, is a legal price. -/
def EdgeRoundsLegally (arith : Arithmetic) (first : PriceIncrement) (rest : List PriceIncrement)
    (band : PriceIncrement) (edge : Decimal) : Prop :=
  ∃ kept rounded, arith.fix edge = .ok kept ∧
    arith.quantize kept band.val.exponent roundHalfEven = .ok rounded ∧
    LegalPrice first rest rounded

/-- When a price gets a legal answer. Where the low edge of its band fits the decimals of the
increment: it does not go to zero, and goes to no tick that has too many digits. Where it does
not: it goes to the edge of a band, and that edge comes out legal in too few decimals. -/
def SnapsLegally (arith : Arithmetic) (policy : RoundingPolicy) (side : OrderSide)
    (first : PriceIncrement) (rest : List PriceIncrement) (price : Decimal) : Prop :=
  let band := bandFor price first rest
  ∃ steps, gridSteps arith band price = .ok steps ∧
    (FitsPlace band.val.exponent band.val.lowEdge ∧
        (band.val.lowEdge = 0 → Reaches policy side 1 steps) ∧
        (∀ n : ℕ, Reaches policy side n steps →
          arith.CountsBelow band.val.exponent (band.val.lowEdge + n * band.val.increment)) ∨
      ¬ FitsPlace band.val.exponent band.val.lowEdge ∧
        (¬ Reaches policy side 1 steps ∧
            EdgeRoundsLegally arith first rest band band.val.lowEdge ∨
          ∃ next ∈ first :: rest, ∃ m : ℕ, price < next.val.lowEdge ∧
            next.val.lowEdge = band.val.lowEdge + m * band.val.increment ∧
            Reaches policy side m steps ∧
            EdgeRoundsLegally arith first rest band next.val.lowEdge))

/-- A tick above the edge is not answered below it: there are units between the two. -/
theorem lowEdge_le_quantized {band : PriceIncrement} {tick rounded : Decimal}
    (htick : OnGrid band tick) (hlt : band.val.lowEdge < tick)
    (hrounded : arith.fix tick = .ok rounded)
    (hquantize : arith.quantize rounded band.val.exponent roundHalfEven = .ok snapped) :
    band.val.lowEdge ≤ snapped := by
  have hplace : (0 : Rat) < 10 ^ band.val.exponent := zpow_pos (by norm_num) _
  have hceil := Int.le_ceil (band.val.lowEdge / 10 ^ band.val.exponent)
  have hceilLt := Int.ceil_lt_add_one (band.val.lowEdge / 10 ^ band.val.exponent)
  have hceilNonneg := Int.ceil_nonneg (div_nonneg band.lowEdge_nonneg hplace.le)
  generalize ⌈band.val.lowEdge / 10 ^ band.val.exponent⌉ = n at *
  rw [div_le_iff₀ hplace] at hceil
  rw [← sub_lt_iff_lt_add, lt_div_iff₀ hplace] at hceilLt
  have hstep := (OnGrid.lowEdge band).step htick hlt
  have hplaceLe := place_le_increment band
  exact hceil.trans (Arithmetic.le_quantize_fix hrounded hquantize hceilNonneg (by linarith))

/-- A tick that does not fit the last place is answered below the ticks above it. -/
theorem quantized_lt_tick {band : PriceIncrement} {tick next rounded : Decimal}
    (htick : OnGrid band tick) (hnext : OnGrid band next) (hlt : tick < next)
    (hmisfit : ¬ FitsPlace band.val.exponent tick)
    (hrounded : arith.fix tick = .ok rounded)
    (hquantize : arith.quantize rounded band.val.exponent roundHalfEven = .ok snapped) :
    snapped < next := by
  have hplace : (0 : Rat) < 10 ^ band.val.exponent := zpow_pos (by norm_num) _
  have hfloor := Int.floor_le (tick / 10 ^ band.val.exponent)
  have hfloorLt := Int.lt_floor_add_one (tick / 10 ^ band.val.exponent)
  have hfloorNonneg := Int.floor_nonneg.mpr
    (div_nonneg (band.lowEdge_nonneg.trans htick.lowEdge_le) hplace.le)
  generalize ⌊tick / 10 ^ band.val.exponent⌋ = n at *
  rw [le_div_iff₀ hplace] at hfloor
  rw [div_lt_iff₀ hplace] at hfloorLt
  have hne : (n : Decimal) * 10 ^ band.val.exponent ≠ tick := fun heq => hmisfit ⟨n, heq.symm⟩
  have hlast := Arithmetic.quantize_fix_le hrounded hquantize hfloorNonneg hfloor
    (by push_cast; exact hfloorLt.le)
  push_cast at hlast
  have hstep := htick.step hnext hlt
  have hplaceLe := place_le_increment band
  linarith [hfloor.lt_of_ne hne]

/-- A tick between the edges that does not fit the last place is answered off the grid: the answer
stays between the edges, and none of the ticks there fits the last place. -/
theorem not_legal_of_misfit {tick rounded : Decimal} (hgrid : GridTable first rest)
    (hprice : 0 < price) (hnext : NextTick first rest price tick)
    (hinside : ∀ edge ∈ first :: rest, edge.val.lowEdge ≠ tick)
    (hmisfit : ¬ FitsPlace (bandFor price first rest).val.exponent
      (bandFor price first rest).val.lowEdge)
    (hrounded : arith.fix tick = .ok rounded)
    (hquantize : arith.quantize rounded (bandFor price first rest).val.exponent roundHalfEven =
      .ok snapped) :
    ¬ LegalPrice first rest snapped := by
  have hsame := (hnext.cases hgrid hprice).resolve_left
    fun ⟨edge, hedge, heq⟩ => hinside edge hedge heq
  have hband := bandFor_mem hgrid.covers hprice.le
  have habove := lowEdge_le_quantized hnext.onGrid
    (hnext.onGrid.lowEdge_le.lt_of_ne (hinside _ hband)) hrounded hquantize
  have hbelow : ∀ edge ∈ first :: rest, price < edge.val.lowEdge → snapped < edge.val.lowEdge := by
    intro edge hedge hlt
    obtain ⟨next, hmem, hnextLt, hnextLe, hnextGrid⟩ := exists_next_edge hgrid hprice hedge hlt
    have htickLt : tick < next.val.lowEdge := by
      by_contra hle
      exact hnextLt.not_ge ((hsame next hmem).mp (not_lt.mp hle))
    have hmisfitTick := mt hnext.onGrid.fits_iff.mp hmisfit
    exact (quantized_lt_tick hnext.onGrid hnextGrid htickLt hmisfitTick hrounded
      hquantize).trans_le hnextLe
  have hgoverned : bandFor snapped first rest = bandFor price first rest := by
    apply bandFor_congr
    intro edge hedge
    constructor
    · intro hle
      by_contra hgt
      exact (hbelow edge hedge (not_le.mp hgt)).not_ge hle
    · intro hle
      exact (le_bandFor hgrid.covers hprice.le hedge hle).trans habove
  rintro ⟨-, hlegal⟩
  rw [hgoverned] at hlegal
  exact hmisfit (hlegal.fits_iff.mp ⟨_, (Arithmetic.quantize_eq_ok_iff.mp hquantize).2⟩)

/-- A price that goes to no tick above the edge stays on the edge. -/
theorem tickAt_of_not_reaches (hsteps : 0 ≤ steps) (h : ¬ Reaches policy side 1 steps)
    (band : PriceIncrement) : tickAt policy side band steps = band.val.lowEdge := by
  have hnonneg := (roundSteps_bounds policy side hsteps).1
  rw [reaches_iff policy side hsteps] at h
  have hzero : roundSteps policy side steps = 0 := by omega
  rw [tickAt, hzero, Int.cast_zero, zero_mul, add_zero]

/-- A price that goes to a tick is not answered below it. -/
theorem le_tickAt {n : ℕ} (hsteps : 0 ≤ steps) (h : Reaches policy side n steps)
    (band : PriceIncrement) :
    band.val.lowEdge + n * band.val.increment ≤ tickAt policy side band steps := by
  have hcast : (n : Decimal) ≤ roundSteps policy side steps := by
    exact_mod_cast (reaches_iff policy side hsteps n).mp h
  exact add_le_add le_rfl (mul_le_mul_of_nonneg_right hcast band.increment_pos.le)

/-- A price that goes to a tick above it, and not past it, as the tick has few enough digits. -/
theorem tickAt_of_reaches {band : PriceIncrement} {m : ℕ} (hlow : band.val.lowEdge ≤ price)
    (hsteps : gridSteps arith band price = .ok steps) (hreaches : Reaches policy side m steps)
    (hle : price ≤ band.val.lowEdge + m * band.val.increment)
    (hcounts : arith.CountsBelow band.val.exponent
      (band.val.lowEdge + m * band.val.increment)) :
    tickAt policy side band steps = band.val.lowEdge + m * band.val.increment := by
  have hnonneg := gridSteps_nonneg hsteps hlow
  have hcast : ((m : ℤ) : Decimal) = m := Int.cast_natCast m
  rw [← hcast] at hle hcounts ⊢
  have hm := counts_of_below (Int.natCast_nonneg m) hcounts.above_edge
  have hupper := (roundSteps_bounds policy side hnonneg).2 m
    (gridSteps_le hsteps hm (Int.natCast_nonneg m) hle)
  have hlower := (reaches_iff policy side hnonneg m).mp hreaches
  rw [tickAt, le_antisymm hupper hlower]

theorem legal_iff_of_fits (hgrid : GridTable first rest) (hprice : 0 < price)
    (hfits : FitsPlace (bandFor price first rest).val.exponent
      (bandFor price first rest).val.lowEdge) :
    (∃ snapped, snapPrice arith price (first :: rest) side policy = .ok snapped ∧
        LegalPrice first rest snapped) ↔
      ∃ steps, gridSteps arith (bandFor price first rest) price = .ok steps ∧
        ((bandFor price first rest).val.lowEdge = 0 → Reaches policy side 1 steps) ∧
        ∀ n : ℕ, Reaches policy side n steps →
          arith.CountsBelow (bandFor price first rest).val.exponent
            ((bandFor price first rest).val.lowEdge +
              n * (bandFor price first rest).val.increment) := by
  have hlow := bandFor_le hgrid.covers hprice.le
  constructor
  · rintro ⟨snapped, hsnapped, hlegal⟩
    obtain ⟨steps, hsteps, hcounts, rfl⟩ :=
      (snapPrice_eq_ok_iff_of_fits hgrid.covers hprice hfits).mp hsnapped
    have hnonneg := gridSteps_nonneg hsteps hlow
    refine ⟨steps, hsteps, fun hzero => ?_, fun n hn => ?_⟩
    · by_contra hnot
      have htick := hlegal.1
      rw [tickAt_of_not_reaches hnonneg hnot, hzero] at htick
      exact lt_irrefl _ htick
    · exact hcounts.mono (le_tickAt hnonneg hn _)
  · rintro ⟨steps, hsteps, hfirst, hdigits⟩
    have hnonneg := gridSteps_nonneg hsteps hlow
    obtain ⟨k, hk, htick⟩ := exists_tickAt policy side hnonneg (bandFor price first rest)
    have hcounts := hdigits k ((reaches_iff policy side hnonneg k).mpr hk.ge)
    rw [← htick] at hcounts
    have hnext := tickAt_nextTick hgrid.covers hprice hsteps hcounts
    refine ⟨_, (snapPrice_eq_ok_iff_of_fits hgrid.covers hprice hfits).mpr
      ⟨steps, hsteps, hcounts, rfl⟩, ?_, hnext.governed hgrid hprice⟩
    rcases (bandFor price first rest).lowEdge_nonneg.eq_or_lt with hzero | hedge
    · have hpos := (bandFor price first rest).increment_pos
      have hone := le_tickAt hnonneg (hfirst hzero.symm) (bandFor price first rest)
      rw [Nat.cast_one] at hone
      linarith
    · exact hedge.trans_le hnext.onGrid.lowEdge_le

theorem legal_iff_of_misfit (hgrid : GridTable first rest) (hprice : 0 < price)
    (hmisfit : ¬ FitsPlace (bandFor price first rest).val.exponent
      (bandFor price first rest).val.lowEdge) :
    (∃ snapped, snapPrice arith price (first :: rest) side policy = .ok snapped ∧
        LegalPrice first rest snapped) ↔
      ∃ steps, gridSteps arith (bandFor price first rest) price = .ok steps ∧
        (¬ Reaches policy side 1 steps ∧
            EdgeRoundsLegally arith first rest (bandFor price first rest)
              (bandFor price first rest).val.lowEdge ∨
          ∃ next ∈ first :: rest, ∃ m : ℕ, price < next.val.lowEdge ∧
            next.val.lowEdge = (bandFor price first rest).val.lowEdge +
              m * (bandFor price first rest).val.increment ∧
            Reaches policy side m steps ∧
            EdgeRoundsLegally arith first rest (bandFor price first rest) next.val.lowEdge) := by
  have hlow := bandFor_le hgrid.covers hprice.le
  constructor
  · rintro ⟨snapped, hsnapped, hlegal⟩
    obtain ⟨steps, rounded, hsteps, hrounded, hquantize⟩ :=
      (snapPrice_eq_ok_iff hgrid.covers hprice).mp hsnapped
    have hnonneg := gridSteps_nonneg hsteps hlow
    refine ⟨steps, hsteps, ?_⟩
    by_cases hone : Reaches policy side 1 steps
    · right
      have hnext := tickAt_nextTick hgrid.covers hprice hsteps
        (.of_fix hrounded (.of_quantize hquantize))
      obtain ⟨next, hmem, heq⟩ : ∃ edge ∈ first :: rest,
          edge.val.lowEdge = tickAt policy side (bandFor price first rest) steps := by
        by_contra hinside
        exact not_legal_of_misfit hgrid hprice hnext
          (fun edge hedge heq => hinside ⟨edge, hedge, heq⟩) hmisfit hrounded hquantize hlegal
      obtain ⟨k, hk, htick⟩ := exists_tickAt policy side hnonneg (bandFor price first rest)
      refine ⟨next, hmem, k, ?_, heq.trans htick, (reaches_iff policy side hnonneg k).mpr hk.ge,
        rounded, snapped, heq ▸ hrounded, hquantize, hlegal⟩
      -- An edge not above the price is not above the edge of its band, and this one is.
      by_contra hle
      have hbelow := le_bandFor hgrid.covers hprice.le hmem (not_lt.mp hle)
      have hpos := (bandFor price first rest).increment_pos
      have habove := le_tickAt hnonneg hone (bandFor price first rest)
      rw [Nat.cast_one] at habove
      linarith
    · left
      rw [tickAt_of_not_reaches hnonneg hone] at hrounded
      exact ⟨hone, rounded, snapped, hrounded, hquantize, hlegal⟩
  · rintro ⟨steps, hsteps, ⟨hone, rounded, snapped, hrounded, hquantize, hlegal⟩ |
      ⟨next, -, m, hlt, hnext, hreaches, rounded, snapped, hrounded, hquantize, hlegal⟩⟩
    · have htick := tickAt_of_not_reaches (gridSteps_nonneg hsteps hlow) hone
        (bandFor price first rest)
      exact ⟨snapped, (snapPrice_eq_ok_iff hgrid.covers hprice).mpr
        ⟨steps, rounded, hsteps, htick ▸ hrounded, hquantize⟩, hlegal⟩
    · rw [hnext] at hlt hrounded
      have htick := tickAt_of_reaches hlow hsteps hreaches hlt.le
        (.of_fix hrounded (.of_quantize hquantize))
      exact ⟨snapped, (snapPrice_eq_ok_iff hgrid.covers hprice).mpr
        ⟨steps, rounded, hsteps, htick ▸ hrounded, hquantize⟩, hlegal⟩

/-- The answer is legal exactly when the price snaps legally. -/
theorem legal_iff_snapsLegally (hgrid : GridTable first rest) (hprice : 0 < price) :
    (∃ snapped, snapPrice arith price (first :: rest) side policy = .ok snapped ∧
        LegalPrice first rest snapped) ↔
      SnapsLegally arith policy side first rest price := by
  unfold SnapsLegally
  dsimp only
  by_cases hfits : FitsPlace (bandFor price first rest).val.exponent
      (bandFor price first rest).val.lowEdge
  · rw [legal_iff_of_fits hgrid hprice hfits]
    simp only [hfits, true_and, not_true_eq_false, false_and, or_false]
  · rw [legal_iff_of_misfit hgrid hprice hfits]
    simp only [hfits, not_false_eq_true, true_and, false_and, false_or]

end Snap

theorem inDigits_cents : InDigits .default centBand [fiveCentBand] (999 / 1000) ∧
    InDigits .default centBand [fiveCentBand] 1 := by
  have hcent : bandFor (999 / 1000) centBand [fiveCentBand] = centBand := by decide +kernel
  have hfive : bandFor 1 centBand [fiveCentBand] = fiveCentBand := by decide +kernel
  have hbelow : Arithmetic.default.CountsBelow (-2) 1 := by
    have hunits : (1 : Decimal) = ((100 : ℤ) : Decimal) * (10 : Rat) ^ (-2 : ℤ) := by norm_num
    rw [hunits, Arithmetic.countsBelow_units_iff (by norm_num)]
    decide +kernel
  refine ⟨⟨1, ?_, by norm_num, ?_⟩, ⟨1, ?_, le_rfl, ?_⟩⟩
  · rw [hcent]
    exact ⟨100, by norm_num [centBand, PriceIncrementFields.increment]⟩
  · rwa [hcent]
  · rw [hfive]
    exact OnGrid.lowEdge fiveCentBand
  · rwa [hfive]

/-- A price just below one goes to the edge at one, and stays there. -/
theorem snapPrice_idempotent_cents :
    snapPrice .default (999 / 1000) [centBand, fiveCentBand] .buy .nearest = .ok 1 ∧
      OnGrid (bandFor 1 centBand [fiveCentBand]) 1 ∧
      ∀ policy' side',
        snapPrice .default 1 [centBand, fiveCentBand] side' policy' = .ok 1 := by
  have hidempotent := snapPrice_idempotent .default .nearest .buy alignedTable_cents
    (show (0 : Decimal) < 999 / 1000 by norm_num)
  obtain ⟨snapped, hsnapped⟩ := hidempotent.1 inDigits_cents.1
  have hone : snapPrice .default (999 / 1000) [centBand, fiveCentBand] .buy .nearest = .ok 1 := by
    decide +kernel
  cases hsnapped.symm.trans hone
  obtain ⟨hgrid, hagain⟩ := hidempotent.2 1 hone
  exact ⟨hone, hgrid, fun policy' side' => (hagain one_pos policy' side').1 inDigits_cents.2⟩

/-- Ticks of four tenths from zero and of three tenths from one on: the edge at one is no tick of
the lower band. -/
def fourTenthsBand : PriceIncrement := ⟨⟨0, 4, -1⟩, by decide +kernel⟩

def threeTenthsBand : PriceIncrement := ⟨⟨1, 3, -1⟩, by decide +kernel⟩

/-- A price of 0.95 rounded up goes to 1.2, past the edge and off the grid that starts there. -/
theorem not_snapPrice_legal :
    ¬ ∀ (first : PriceIncrement) (rest : List PriceIncrement) (price snapped : Decimal)
        (side : OrderSide) (policy : RoundingPolicy), CoversZero first rest → 0 < price →
      snapPrice .default price (first :: rest) side policy = .ok snapped →
      OnGrid (bandFor snapped first rest) snapped ∧
        (0 < snapped → snapPrice .default snapped (first :: rest) side policy = .ok snapped) := by
  intro h
  have hcovers : CoversZero fourTenthsBand [threeTenthsBand] :=
    ⟨fourTenthsBand, List.mem_cons_self, rfl⟩
  obtain ⟨⟨k, hk⟩, -⟩ := h fourTenthsBand [threeTenthsBand] (19 / 20) (6 / 5) .buy .aggressive
    hcovers (by norm_num) (by decide +kernel)
  have hband : bandFor (6 / 5) fourTenthsBand [threeTenthsBand] = threeTenthsBand := by
    decide +kernel
  rw [hband] at hk
  have hthree : (2 : ℚ) = 3 * k := by
    norm_num [threeTenthsBand, PriceIncrementFields.increment] at hk
    linarith
  have hnat : 2 = 3 * k := by exact_mod_cast hthree
  omega

end Blive
