import Blive.Adapters.Shared.Proofs.SnapPrice

/-!
# How far and which way a price is snapped

On a table whose low edges fit the decimals of their increments the answer of `snap_price` is
the picked tick. It lies less than an increment from the price, on the side the policy and the
side of the order ask for, and a higher price is not snapped to a lower tick.
-/

namespace Blive

/-! ## Rounding the steps -/

/-- A rounding goes less than one step, the nearest one at most half a step and up on a tie. -/
theorem roundSteps_near (policy : RoundingPolicy) (side : OrderSide) {steps : Decimal}
    (hsteps : 0 ≤ steps) :
    |(roundSteps policy side steps : Decimal) - steps| < 1 ∧
      (policy = .nearest → -(1 / 2) < (roundSteps policy side steps : Decimal) - steps ∧
        (roundSteps policy side steps : Decimal) - steps ≤ 1 / 2) := by
  have hfloor := Int.floor_le steps
  have hfloorLt := Int.lt_floor_add_one steps
  have hceil := Int.le_ceil steps
  have hceilLt := Int.ceil_lt_add_one steps
  have hhalf := Int.floor_le (steps + 1 / 2)
  have hhalfLt := Int.lt_floor_add_one (steps + 1 / 2)
  rw [abs_lt]
  rcases roundSteps_cases policy side hsteps with ⟨hz, h⟩ | ⟨hz, h⟩ | ⟨hz, h⟩ <;> rw [h]
  · exact ⟨⟨by linarith, by linarith⟩, fun _ => ⟨by linarith, by linarith⟩⟩
  · refine ⟨⟨by linarith, by linarith⟩, ?_⟩
    rintro rfl
    norm_num [zeroBelow] at hz
  · refine ⟨⟨by linarith, by linarith⟩, ?_⟩
    rintro rfl
    norm_num [zeroBelow] at hz

/-- The directional policies that round down. -/
def RoundsDown (policy : RoundingPolicy) (side : OrderSide) : Prop :=
  policy = .conservative ∧ side = .buy ∨ policy = .aggressive ∧ side = .sell

/-- The directional policies that round up. -/
def RoundsUp (policy : RoundingPolicy) (side : OrderSide) : Prop :=
  policy = .conservative ∧ side = .sell ∨ policy = .aggressive ∧ side = .buy

theorem roundSteps_le_of_down {policy : RoundingPolicy} {side : OrderSide}
    (h : RoundsDown policy side) (steps : Decimal) :
    (roundSteps policy side steps : Decimal) ≤ steps := by
  have hfloor : (steps.floor : Decimal) ≤ steps := Int.floor_le steps
  rcases h with ⟨rfl, rfl⟩ | ⟨rfl, rfl⟩
  · exact hfloor
  · exact hfloor

theorem le_roundSteps_of_up {policy : RoundingPolicy} {side : OrderSide}
    (h : RoundsUp policy side) (steps : Decimal) :
    steps ≤ (roundSteps policy side steps : Decimal) := by
  have hceil : steps ≤ (steps.ceil : Decimal) := by
    rw [Rat.ceil_eq_neg_floor_neg]
    exact Int.le_ceil steps
  rcases h with ⟨rfl, rfl⟩ | ⟨rfl, rfl⟩
  · exact hceil
  · exact hceil

theorem roundSteps_mono (policy : RoundingPolicy) (side : OrderSide) {steps steps' : Decimal}
    (hsteps : 0 ≤ steps) (hle : steps ≤ steps') :
    roundSteps policy side steps ≤ roundSteps policy side steps' := by
  rcases roundSteps_cases policy side hsteps with ⟨hz, h⟩ | ⟨hz, h⟩ | ⟨hz, h⟩ <;>
    rcases roundSteps_cases policy side (hsteps.trans hle)
      with ⟨hz', h'⟩ | ⟨hz', h'⟩ | ⟨hz', h'⟩ <;>
    rw [hz] at hz'
  all_goals first
    | (norm_num at hz'; done)
    | rw [h, h']
  · exact Int.floor_mono (by linarith)
  · exact Int.floor_mono hle
  · exact Int.ceil_mono hle

/-! ## The answer and the price -/

section Table

variable {first : PriceIncrement} {rest : List PriceIncrement} {price price' : Decimal}

/-- The band of the price: the greatest low edge that does not exceed it. -/
structure Governs (first : PriceIncrement) (rest : List PriceIncrement) (price : Decimal)
    (band : PriceIncrement) : Prop where
  mem : band ∈ first :: rest
  le : band.val.lowEdge ≤ price
  greatest : ∀ other ∈ first :: rest, other.val.lowEdge ≤ price →
    other.val.lowEdge ≤ band.val.lowEdge

/-- A table that covers the prices from zero on, with one band for each low edge, whose low edges
fit the decimals of their increments. -/
structure FittingTable (first : PriceIncrement) (rest : List PriceIncrement) : Prop where
  covers : CoversZero first rest
  distinct : ((first :: rest).map fun band => band.val.lowEdge).Nodup
  fits : ∀ band ∈ first :: rest, FitsPlace band.val.exponent band.val.lowEdge

/-- `_band_for` finds the band of the price. -/
theorem governs_iff (htable : FittingTable first rest) (hprice : 0 < price)
    {band : PriceIncrement} : Governs first rest price band ↔ band = bandFor price first rest := by
  have hmem := bandFor_mem htable.covers hprice.le
  have hle := bandFor_le htable.covers hprice.le
  constructor
  · intro hband
    apply List.inj_on_of_nodup_map htable.distinct hband.mem hmem
    apply le_antisymm
    · exact le_bandFor htable.covers hprice.le hband.mem hband.le
    · exact hband.greatest _ hmem hle
  · rintro rfl
    exact ⟨hmem, hle, fun other hother hbelow => le_bandFor htable.covers hprice.le hother hbelow⟩

variable (policy : RoundingPolicy) (side : OrderSide)

/-- `band.low_edge + k * band.increment` in `snap_price`, where nothing is rounded. -/
def pickedTick (policy : RoundingPolicy) (side : OrderSide) (band : PriceIncrement)
    (price : Decimal) : Decimal :=
  tickAt policy side band ((price - band.val.lowEdge) / band.val.increment)

theorem pickedTick_nextTick (hcovers : CoversZero first rest) (hprice : 0 < price) :
    NextTick first rest price (pickedTick policy side (bandFor price first rest) price) := by
  have hsteps : gridSteps .exact (bandFor price first rest) price = .ok
      ((price - (bandFor price first rest).val.lowEdge) /
        (bandFor price first rest).val.increment) := rfl
  exact tickAt_nextTick hcovers hprice hsteps fun _ _ _ => trivial

theorem snapPrice_exact (htable : FittingTable first rest) (hprice : 0 < price) :
    snapPrice .exact price (first :: rest) side policy =
      .ok (pickedTick policy side (bandFor price first rest) price) := by
  have hfits := htable.fits _ (bandFor_mem htable.covers hprice.le)
  exact (snapPrice_eq_ok_iff_of_fits htable.covers hprice hfits).mpr
    ⟨_, rfl, fun _ _ _ => trivial, rfl⟩

theorem pickedTick_sub (band : PriceIncrement) (price : Decimal) :
    pickedTick policy side band price - price =
      (roundSteps policy side ((price - band.val.lowEdge) / band.val.increment) -
        (price - band.val.lowEdge) / band.val.increment) * band.val.increment := by
  rw [sub_mul, div_mul_cancel₀ _ band.increment_pos.ne', pickedTick, tickAt]
  ring

/-- Where the answer for a price of the band lies. -/
structure SnapsNear (policy : RoundingPolicy) (side : OrderSide) (band : PriceIncrement)
    (price snapped : Decimal) : Prop where
  near : |snapped - price| < band.val.increment
  nearest : policy = .nearest → |snapped - price| ≤ band.val.increment / 2
  tiesUp : policy = .nearest → |snapped - price| = band.val.increment / 2 → price < snapped
  down : RoundsDown policy side → snapped ≤ price
  up : RoundsUp policy side → price ≤ snapped

theorem pickedTick_near {band : PriceIncrement} (hle : band.val.lowEdge ≤ price) :
    SnapsNear policy side band price (pickedTick policy side band price) := by
  have hpos := band.increment_pos
  have hsub := pickedTick_sub policy side band price
  have hsteps : 0 ≤ (price - band.val.lowEdge) / band.val.increment :=
    div_nonneg (sub_nonneg.mpr hle) hpos.le
  generalize (price - band.val.lowEdge) / band.val.increment = steps at hsub hsteps
  obtain ⟨hnear, hnearest⟩ := roundSteps_near policy side hsteps
  have habs : |pickedTick policy side band price - price| =
      |(roundSteps policy side steps : Decimal) - steps| * band.val.increment := by
    rw [hsub, abs_mul, abs_of_pos hpos]
  refine ⟨?_, fun hpolicy => ?_, fun hpolicy htie => ?_, fun hdown => ?_, fun hup => ?_⟩
  · rw [habs]
    exact mul_lt_of_lt_one_left hpos hnear
  · obtain ⟨hlower, hupper⟩ := hnearest hpolicy
    have hhalf : |(roundSteps policy side steps : Decimal) - steps| ≤ 1 / 2 :=
      abs_le.mpr ⟨hlower.le, hupper⟩
    rw [habs]
    linarith [mul_le_mul_of_nonneg_right hhalf hpos.le]
  · obtain ⟨hlower, -⟩ := hnearest hpolicy
    have hhalf : |(roundSteps policy side steps : Decimal) - steps| = 1 / 2 := by
      rw [habs] at htie
      apply mul_right_cancel₀ hpos.ne'
      linarith
    have herror : 0 < (roundSteps policy side steps : Decimal) - steps := by
      rcases abs_eq (by norm_num) |>.mp hhalf with h | h
      · rw [h]
        norm_num
      · exact absurd h hlower.ne'
    rw [← sub_pos, hsub]
    exact mul_pos herror hpos
  · have herror := sub_nonpos.mpr (roundSteps_le_of_down hdown steps)
    rw [← sub_nonpos, hsub]
    exact mul_nonpos_of_nonpos_of_nonneg herror hpos.le
  · have herror := sub_nonneg.mpr (le_roundSteps_of_up hup steps)
    rw [← sub_nonneg, hsub]
    exact mul_nonneg herror hpos.le

/-- Within one band a higher price gets no lower tick. -/
theorem pickedTick_mono {band : PriceIncrement} (hle : band.val.lowEdge ≤ price)
    (hprices : price ≤ price') :
    pickedTick policy side band price ≤ pickedTick policy side band price' := by
  have hpos := band.increment_pos
  have hsteps : 0 ≤ (price - band.val.lowEdge) / band.val.increment :=
    div_nonneg (sub_nonneg.mpr hle) hpos.le
  have hstepsLe : (price - band.val.lowEdge) / band.val.increment ≤
      (price' - band.val.lowEdge) / band.val.increment :=
    div_le_div_of_nonneg_right (sub_le_sub_right hprices _) hpos.le
  have hround : (roundSteps policy side ((price - band.val.lowEdge) / band.val.increment) :
      Decimal) ≤ roundSteps policy side ((price' - band.val.lowEdge) / band.val.increment) :=
    Int.cast_le.mpr (roundSteps_mono policy side hsteps hstepsLe)
  have hmul := mul_le_mul_of_nonneg_right hround hpos.le
  unfold pickedTick tickAt
  linarith

/-- A higher price gets no lower tick: where a band edge lies between the two prices, so do the
ticks' bands. -/
theorem pickedTick_bandFor_mono (hgrid : GridTable first rest) (hprice : 0 < price)
    (hprices : price ≤ price') :
    pickedTick policy side (bandFor price first rest) price ≤
      pickedTick policy side (bandFor price' first rest) price' := by
  have hprice' := hprice.trans_le hprices
  by_cases hedge : ∃ band ∈ first :: rest, price < band.val.lowEdge ∧ band.val.lowEdge ≤ price'
  · obtain ⟨band, hband, hlt, hle⟩ := hedge
    obtain ⟨next, hnext, hnextLt, hnextLe, hnextGrid⟩ := exists_next_edge hgrid hprice hband hlt
    calc pickedTick policy side (bandFor price first rest) price
        ≤ next.val.lowEdge :=
          (pickedTick_nextTick policy side hgrid.covers hprice).le _ hnextGrid hnextLt
      _ ≤ (bandFor price' first rest).val.lowEdge :=
          le_bandFor hgrid.covers hprice'.le hnext (hnextLe.trans hle)
      _ ≤ pickedTick policy side (bandFor price' first rest) price' :=
          (pickedTick_nextTick policy side hgrid.covers hprice').onGrid.lowEdge_le
  · have hsame : bandFor price first rest = bandFor price' first rest := by
      apply bandFor_congr
      intro band hband
      constructor
      · intro hle
        exact hle.trans hprices
      · intro hle
        by_contra hgt
        exact hedge ⟨band, hband, not_le.mp hgt, hle⟩
    rw [← hsame]
    exact pickedTick_mono policy side (bandFor_le hgrid.covers hprice.le) hprices

/-- On a fitting table `snap_price` answers near the price, on the side that the policy asks for,
and where the band edges are ticks of the band below them it is monotone in the price. -/
theorem snapPrice_direction (htable : FittingTable first rest) :
    (∀ price, 0 < price → ∃ band snapped,
      (∀ other, Governs first rest price other ↔ other = band) ∧
      snapPrice .exact price (first :: rest) side policy = .ok snapped ∧
      SnapsNear policy side band price snapped) ∧
    (GridTable first rest → ∀ price price' snapped snapped', 0 < price → price ≤ price' →
      snapPrice .exact price (first :: rest) side policy = .ok snapped →
      snapPrice .exact price' (first :: rest) side policy = .ok snapped' → snapped ≤ snapped') := by
  constructor
  · intro price hprice
    rw [snapPrice_exact policy side htable hprice]
    refine ⟨bandFor price first rest, _, fun other => governs_iff htable hprice, rfl, ?_⟩
    exact pickedTick_near policy side (bandFor_le htable.covers hprice.le)
  · intro hgrid price price' snapped snapped' hprice hprices hsnap hsnap'
    have hprice' := hprice.trans_le hprices
    rw [snapPrice_exact policy side htable hprice] at hsnap
    rw [snapPrice_exact policy side htable hprice'] at hsnap'
    cases hsnap
    cases hsnap'
    exact pickedTick_bandFor_mono policy side hgrid hprice hprices

end Table

theorem fittingTable_cents : FittingTable centBand [fiveCentBand] :=
  ⟨alignedTable_cents.covers, by decide +kernel, alignedTable_cents.fits⟩

theorem snapPrice_direction_cents :
    (∀ price, 0 < price → ∃ band snapped,
      (∀ other, Governs centBand [fiveCentBand] price other ↔ other = band) ∧
      snapPrice .exact price [centBand, fiveCentBand] .sell .conservative = .ok snapped ∧
      SnapsNear .conservative .sell band price snapped) ∧
    ∀ price price' snapped snapped', 0 < price → price ≤ price' →
      snapPrice .exact price [centBand, fiveCentBand] .sell .conservative = .ok snapped →
      snapPrice .exact price' [centBand, fiveCentBand] .sell .conservative = .ok snapped' →
      snapped ≤ snapped' :=
  have hdirection := snapPrice_direction .conservative .sell fittingTable_cents
  ⟨hdirection.1, hdirection.2 alignedTable_cents.toGridTable⟩

end Blive
