import Mathlib.Data.Finset.Max
import Mathlib.Data.Rat.Floor
import Mathlib.Tactic.Linarith
import Mathlib.Tactic.Ring
import Blive.Adapters.Shared.PriceGrid

/-!
# Ticks of a price grid

Which band governs a price, and which ticks a rounding policy can take it to. A tick of the band
that is not past a tick above the price is legal whenever it is not zero: it stays in the band of
the price or lands on the edge of the next one.
-/

namespace Blive

/-! ## The governing band -/

section Bands

variable {first : PriceIncrement} {rest : List PriceIncrement}

theorem lowestBand_mem : lowestBand first rest ∈ first :: rest := by
  unfold lowestBand
  induction rest generalizing first with
  | nil => exact List.mem_cons_self
  | cons band rest ih =>
    rw [List.foldl_cons]
    split
    · exact List.mem_cons_of_mem _ ih
    · have htail : lowestBand first rest ∈ first :: rest := ih
      rcases List.mem_cons.mp htail with h | h
      · exact List.mem_cons.mpr (.inl h)
      · exact List.mem_cons_of_mem _ (List.mem_cons_of_mem _ h)

theorem lowestBand_le : ∀ band ∈ first :: rest,
    (lowestBand first rest).val.lowEdge ≤ band.val.lowEdge := by
  unfold lowestBand
  induction rest generalizing first with
  | nil => simp
  | cons next rest ih =>
    intro band hband
    rw [List.foldl_cons]
    split
    · rename_i hlt
      rcases List.mem_cons.mp hband with rfl | hband
      · exact (ih next List.mem_cons_self).trans hlt.le
      · exact ih band hband
    · rename_i hle
      rcases List.mem_cons.mp hband with rfl | hband
      · exact ih band List.mem_cons_self
      rcases List.mem_cons.mp hband with rfl | hband
      · exact (ih first List.mem_cons_self).trans (not_lt.mp hle)
      · exact ih band (List.mem_cons_of_mem _ hband)

/-- The fold of `_band_for` from a band that does not lie above the price. -/
theorem bandFold_spec {price : Decimal} {chosen : PriceIncrement} {bands : List PriceIncrement}
    (hchosen : chosen.val.lowEdge ≤ price) :
    let result := bands.foldl (fun chosen band =>
      if chosen.val.lowEdge ≤ band.val.lowEdge ∧ band.val.lowEdge ≤ price then band else chosen)
      chosen
    (result = chosen ∨ result ∈ bands) ∧ result.val.lowEdge ≤ price ∧
      chosen.val.lowEdge ≤ result.val.lowEdge ∧
      ∀ band ∈ bands, band.val.lowEdge ≤ price → band.val.lowEdge ≤ result.val.lowEdge := by
  induction bands generalizing chosen with
  | nil => simpa using hchosen
  | cons band bands ih =>
    dsimp only [List.foldl_cons]
    split
    · rename_i hband
      obtain ⟨hmem, hle, hge, hall⟩ := ih hband.2
      refine ⟨.inr ?_, hle, hband.1.trans hge, List.forall_mem_cons.mpr ⟨fun _ => hge, hall⟩⟩
      rcases hmem with hmem | hmem
      · rw [hmem]
        exact List.mem_cons_self
      · exact List.mem_cons_of_mem _ hmem
    · rename_i hband
      obtain ⟨hmem, hle, hge, hall⟩ := ih hchosen
      refine ⟨hmem.imp_right (List.mem_cons_of_mem _), hle, hge, ?_⟩
      refine List.forall_mem_cons.mpr ⟨fun hbelow => ?_, hall⟩
      by_contra hgt
      exact hband ⟨(hge.trans (not_le.mp hgt).le), hbelow⟩

/-- The increment table covers the prices from zero on. -/
def CoversZero (first : PriceIncrement) (rest : List PriceIncrement) : Prop :=
  ∃ band ∈ first :: rest, band.val.lowEdge = 0

variable {price : Decimal}

theorem lowestBand_le_price (hcovers : CoversZero first rest) (hprice : 0 ≤ price) :
    (lowestBand first rest).val.lowEdge ≤ price := by
  obtain ⟨band, hband, hzero⟩ := hcovers
  exact (lowestBand_le band hband).trans (hzero.le.trans hprice)

theorem bandFor_mem (hcovers : CoversZero first rest) (hprice : 0 ≤ price) :
    bandFor price first rest ∈ first :: rest := by
  rcases (bandFold_spec (lowestBand_le_price hcovers hprice)).1 with h | h
  · rw [bandFor, h]
    exact lowestBand_mem
  · exact h

theorem bandFor_le (hcovers : CoversZero first rest) (hprice : 0 ≤ price) :
    (bandFor price first rest).val.lowEdge ≤ price :=
  (bandFold_spec (lowestBand_le_price hcovers hprice)).2.1

theorem le_bandFor (hcovers : CoversZero first rest) (hprice : 0 ≤ price) {band : PriceIncrement}
    (hband : band ∈ first :: rest) (hle : band.val.lowEdge ≤ price) :
    band.val.lowEdge ≤ (bandFor price first rest).val.lowEdge :=
  (bandFold_spec (lowestBand_le_price hcovers hprice)).2.2.2 band hband hle

/-- Two prices without a band edge between them have one governing band. -/
theorem bandFor_congr {price' : Decimal}
    (h : ∀ band ∈ first :: rest, band.val.lowEdge ≤ price ↔ band.val.lowEdge ≤ price') :
    bandFor price first rest = bandFor price' first rest := by
  apply List.foldl_ext
  intro chosen band hband
  simp only [h band hband]

end Bands

/-! ## The tick the policy picks -/

/-- The fraction of the first tick below which a price goes to zero. -/
def zeroBelow (policy : RoundingPolicy) (side : OrderSide) : Decimal :=
  match policy, side with
  | .nearest, _ => 1 / 2
  | .conservative, .buy | .aggressive, .sell => 1
  | .conservative, .sell | .aggressive, .buy => 0

theorem roundSteps_cases (policy : RoundingPolicy) (side : OrderSide) {steps : Decimal}
    (hsteps : 0 ≤ steps) :
    (zeroBelow policy side = 1 / 2 ∧ roundSteps policy side steps = ⌊steps + 1 / 2⌋) ∨
      (zeroBelow policy side = 1 ∧ roundSteps policy side steps = ⌊steps⌋) ∨
      (zeroBelow policy side = 0 ∧ roundSteps policy side steps = ⌈steps⌉) := by
  have hhalf : roundHalfUp steps = ⌊steps + 1 / 2⌋ := by
    unfold roundHalfUp
    rw [if_pos hsteps]
    rfl
  cases policy with
  | nearest => exact .inl ⟨rfl, hhalf⟩
  | conservative =>
    cases side with
    | buy => exact .inr (.inl ⟨rfl, rfl⟩)
    | sell => exact .inr (.inr ⟨rfl, Rat.ceil_eq_neg_floor_neg steps⟩)
  | aggressive =>
    cases side with
    | buy => exact .inr (.inr ⟨rfl, Rat.ceil_eq_neg_floor_neg steps⟩)
    | sell => exact .inr (.inl ⟨rfl, rfl⟩)

/-- No policy goes below zero, nor past a tick that does not lie below the price. -/
theorem roundSteps_bounds (policy : RoundingPolicy) (side : OrderSide) {steps : Decimal}
    (hsteps : 0 ≤ steps) :
    0 ≤ roundSteps policy side steps ∧
      ∀ m : ℤ, steps ≤ m → roundSteps policy side steps ≤ m := by
  rcases roundSteps_cases policy side hsteps with ⟨-, h⟩ | ⟨-, h⟩ | ⟨-, h⟩ <;> rw [h]
  · refine ⟨Int.floor_nonneg.mpr (by linarith), fun m hm => ?_⟩
    have hlt : ⌊steps + 1 / 2⌋ < m + 1 := Int.floor_lt.mpr (by push_cast; linarith)
    omega
  · refine ⟨Int.floor_nonneg.mpr hsteps, fun m hm => ?_⟩
    have hlt : ⌊steps⌋ < m + 1 := Int.floor_lt.mpr (by push_cast; linarith)
    omega
  · exact ⟨Int.ceil_nonneg hsteps, fun m hm => Int.ceil_le.mpr hm⟩

/-- A price that lies so many increments above the edge of its band goes to the `n`-th tick of
the band, or past it. -/
def Reaches (policy : RoundingPolicy) (side : OrderSide) (n : ℕ) (steps : Decimal) : Prop :=
  match policy, side with
  | .nearest, _ => n ≤ steps + 1 / 2
  | .conservative, .buy | .aggressive, .sell => n ≤ steps
  | .conservative, .sell | .aggressive, .buy => n < steps + 1

theorem reaches_iff (policy : RoundingPolicy) (side : OrderSide) {steps : Decimal}
    (hsteps : 0 ≤ steps) (n : ℕ) :
    Reaches policy side n steps ↔ n ≤ roundSteps policy side steps := by
  have hcast : ((n : ℤ) : Decimal) = n := Int.cast_natCast n
  have hnearest : (n : ℤ) ≤ roundHalfUp steps ↔ (n : Decimal) ≤ steps + 1 / 2 := by
    have hhalf : roundHalfUp steps = ⌊steps + 1 / 2⌋ := if_pos hsteps
    rw [hhalf, Int.le_floor, hcast]
  have hdown : (n : ℤ) ≤ steps.floor ↔ (n : Decimal) ≤ steps := by
    have hfloor : (n : ℤ) ≤ ⌊steps⌋ ↔ (n : Decimal) ≤ steps := by rw [Int.le_floor, hcast]
    exact hfloor
  have hup : (n : ℤ) ≤ steps.ceil ↔ (n : Decimal) < steps + 1 := by
    rw [Rat.ceil_eq_neg_floor_neg]
    have hceil : (n : ℤ) ≤ ⌈steps⌉ ↔ (n : Decimal) < steps + 1 := by
      rw [← Int.sub_one_lt_iff, Int.lt_ceil]
      push_cast
      exact sub_lt_iff_lt_add
    exact hceil
  cases policy <;> cases side
  · exact hnearest.symm
  · exact hnearest.symm
  · exact hdown.symm
  · exact hup.symm
  · exact hup.symm
  · exact hdown.symm

theorem PriceIncrement.increment_pos (band : PriceIncrement) : 0 < band.val.increment :=
  (require_bind_eq_ok_iff.mp band.valid).1

theorem PriceIncrement.lowEdge_nonneg (band : PriceIncrement) : 0 ≤ band.val.lowEdge :=
  require_eq_ok_iff.mp (require_bind_eq_ok_iff.mp band.valid).2

/-- A tick of the band: its low edge and a whole number of increments. -/
def OnGrid (band : PriceIncrement) (price : Decimal) : Prop :=
  ∃ k : ℕ, price = band.val.lowEdge + k * band.val.increment

/-- A strictly positive tick of the band that governs it. -/
def LegalPrice (first : PriceIncrement) (rest : List PriceIncrement) (price : Decimal) : Prop :=
  0 < price ∧ OnGrid (bandFor price first rest) price

/-- The table covers the prices from zero on, and the edge of a band is a tick of the band just
below it (it is one of its own band by definition). -/
structure GridTable (first : PriceIncrement) (rest : List PriceIncrement) : Prop where
  covers : CoversZero first rest
  edges : ∀ band ∈ first :: rest, ∀ price, 0 ≤ price → price < band.val.lowEdge →
    (∀ other ∈ first :: rest, other.val.lowEdge ≤ price ∨ band.val.lowEdge ≤ other.val.lowEdge) →
    OnGrid (bandFor price first rest) band.val.lowEdge

theorem OnGrid.lowEdge_le {band : PriceIncrement} {tick : Decimal} (h : OnGrid band tick) :
    band.val.lowEdge ≤ tick := by
  obtain ⟨k, rfl⟩ := h
  have hmul : 0 ≤ (k : Decimal) * band.val.increment :=
    mul_nonneg (Nat.cast_nonneg k) band.increment_pos.le
  linarith

/-- A tick above another one of its band lies an increment or more above it. -/
theorem OnGrid.step {band : PriceIncrement} {tick above : Decimal} (h : OnGrid band tick)
    (habove : OnGrid band above) (hlt : tick < above) : tick + band.val.increment ≤ above := by
  obtain ⟨j, rfl⟩ := h
  obtain ⟨k, rfl⟩ := habove
  have hpos := band.increment_pos
  have hjk : (j : Decimal) < k := lt_of_mul_lt_mul_right (lt_of_add_lt_add_left hlt) hpos.le
  have hsucc : ((j + 1 : ℕ) : Decimal) ≤ k := Nat.cast_le.mpr (Nat.cast_lt.mp hjk)
  have hmul := mul_le_mul_of_nonneg_right hsucc hpos.le
  push_cast at hmul
  linarith

theorem OnGrid.lowEdge (band : PriceIncrement) : OnGrid band band.val.lowEdge := ⟨0, by simp⟩

/-- A tick of the band of the price that is not past one above it. -/
structure NextTick (first : PriceIncrement) (rest : List PriceIncrement) (price tick : Decimal) :
    Prop where
  onGrid : OnGrid (bandFor price first rest) tick
  le : ∀ above, OnGrid (bandFor price first rest) above → price < above → tick ≤ above

section Tick

variable {first : PriceIncrement} {rest : List PriceIncrement} {price tick : Decimal}

/-- The edge next above the price is a tick of the band of the price. -/
theorem exists_next_edge (hgrid : GridTable first rest) (hprice : 0 < price)
    {band : PriceIncrement} (hband : band ∈ first :: rest) (hlt : price < band.val.lowEdge) :
    ∃ next ∈ first :: rest, price < next.val.lowEdge ∧ next.val.lowEdge ≤ band.val.lowEdge ∧
      OnGrid (bandFor price first rest) next.val.lowEdge := by
  let above := (first :: rest).toFinset.filter fun other => price < other.val.lowEdge
  have hmem : band ∈ above := Finset.mem_filter.mpr ⟨List.mem_toFinset.mpr hband, hlt⟩
  obtain ⟨next, hnext, hmin⟩ :=
    Finset.exists_min_image above (fun other => other.val.lowEdge) ⟨band, hmem⟩
  obtain ⟨hnextMem, hnextLt⟩ := Finset.mem_filter.mp hnext
  have hnextMem' : next ∈ first :: rest := List.mem_toFinset.mp hnextMem
  refine ⟨next, hnextMem', hnextLt, hmin band hmem, ?_⟩
  apply hgrid.edges next hnextMem' price hprice.le hnextLt
  intro other hother
  rcases le_or_gt other.val.lowEdge price with hle | hgt
  · exact .inl hle
  · exact .inr (hmin other (Finset.mem_filter.mpr ⟨List.mem_toFinset.mpr hother, hgt⟩))

/-- Such a tick is on an edge, or governed by the band of the price. -/
theorem NextTick.cases (h : NextTick first rest price tick) (hgrid : GridTable first rest)
    (hprice : 0 < price) :
    (∃ band ∈ first :: rest, band.val.lowEdge = tick) ∨
      ∀ band ∈ first :: rest, band.val.lowEdge ≤ tick ↔ band.val.lowEdge ≤ price := by
  by_cases hedge : ∃ band ∈ first :: rest, price < band.val.lowEdge ∧ band.val.lowEdge ≤ tick
  · obtain ⟨band, hband, hlt, hle⟩ := hedge
    obtain ⟨next, hnext, hnextLt, hnextLe, hgridNext⟩ :=
      exists_next_edge hgrid hprice hband hlt
    have htick := h.le _ hgridNext hnextLt
    exact .inl ⟨next, hnext, le_antisymm (hnextLe.trans hle) htick⟩
  · right
    intro band hband
    constructor
    · intro hle
      by_contra hgt
      exact hedge ⟨band, hband, not_le.mp hgt, hle⟩
    · intro hle
      exact (le_bandFor hgrid.covers hprice.le hband hle).trans h.onGrid.lowEdge_le

/-- A price on an edge is a tick of the band that starts there. -/
theorem bandFor_edge (hgrid : GridTable first rest) {band : PriceIncrement}
    (hband : band ∈ first :: rest) :
    (bandFor band.val.lowEdge first rest).val.lowEdge = band.val.lowEdge :=
  le_antisymm (bandFor_le hgrid.covers band.lowEdge_nonneg)
    (le_bandFor hgrid.covers band.lowEdge_nonneg hband le_rfl)

/-- Such a tick is one of the band that governs it. -/
theorem NextTick.governed (h : NextTick first rest price tick) (hgrid : GridTable first rest)
    (hprice : 0 < price) : OnGrid (bandFor tick first rest) tick := by
  rcases h.cases hgrid hprice with ⟨band, hband, rfl⟩ | hsame
  · exact ⟨0, by rw [bandFor_edge hgrid hband, Nat.cast_zero, zero_mul, add_zero]⟩
  · rw [bandFor_congr hsame]
    exact h.onGrid

end Tick

/-! ## Ticks in the decimals of the increment -/

/-- A tick fits the last place of the increment when the low edge does. -/
theorem OnGrid.fits_iff {band : PriceIncrement} {tick : Decimal} (h : OnGrid band tick) :
    FitsPlace band.val.exponent tick ↔ FitsPlace band.val.exponent band.val.lowEdge := by
  obtain ⟨k, rfl⟩ := h
  have hinc : band.val.increment = band.val.coefficient * (10 : Rat) ^ band.val.exponent := rfl
  constructor
  · rintro ⟨z, hz⟩
    refine ⟨z - k * band.val.coefficient, ?_⟩
    push_cast
    rw [sub_mul, ← hz, hinc]
    ring
  · rintro ⟨z, hz⟩
    refine ⟨z + k * band.val.coefficient, ?_⟩
    push_cast
    rw [hz, hinc]
    ring

theorem PriceIncrement.coefficient_pos (band : PriceIncrement) : 0 < band.val.coefficient := by
  have hplace : (0 : Rat) < 10 ^ band.val.exponent := zpow_pos (by norm_num) _
  have hcoefficient : (0 : Rat) < band.val.coefficient :=
    pos_of_mul_pos_left band.increment_pos hplace.le
  exact_mod_cast hcoefficient

/-- The increment is a unit of its last place or more. -/
theorem place_le_increment (band : PriceIncrement) :
    (10 : Rat) ^ band.val.exponent ≤ band.val.increment := by
  have hplace : (0 : Rat) < 10 ^ band.val.exponent := zpow_pos (by norm_num) _
  have hone : (1 : Rat) ≤ band.val.coefficient := by exact_mod_cast band.coefficient_pos
  calc (10 : Rat) ^ band.val.exponent = 1 * 10 ^ band.val.exponent := (one_mul _).symm
    _ ≤ band.val.increment := mul_le_mul_of_nonneg_right hone hplace.le

/-- A table on both grids in whose bands every tick fits the decimals of the increment. -/
structure AlignedTable (first : PriceIncrement) (rest : List PriceIncrement) : Prop
    extends GridTable first rest where
  fits : ∀ band ∈ first :: rest, FitsPlace band.val.exponent band.val.lowEdge

theorem AlignedTable.fits_bandFor {first : PriceIncrement} {rest : List PriceIncrement}
    {price : Decimal} (htable : AlignedTable first rest) (hprice : 0 < price) :
    FitsPlace (bandFor price first rest).val.exponent (bandFor price first rest).val.lowEdge :=
  htable.fits _ (bandFor_mem htable.covers hprice.le)

/-- Ticks of a cent from zero and of five cents from one on. -/
def centBand : PriceIncrement := ⟨⟨0, 1, -2⟩, by decide +kernel⟩

def fiveCentBand : PriceIncrement := ⟨⟨1, 5, -2⟩, by decide +kernel⟩

theorem alignedTable_cents : AlignedTable centBand [fiveCentBand] := by
  refine ⟨⟨⟨centBand, List.mem_cons_self, rfl⟩, ?_⟩, ?_⟩
  · intro band hband price hprice hlt _
    rcases List.mem_cons.mp hband with rfl | hband
    · exact absurd hlt hprice.not_gt
    · rw [List.mem_singleton.mp hband] at hlt ⊢
      have hzero : bandFor 0 centBand [fiveCentBand] = centBand := by decide +kernel
      have hband : bandFor price centBand [fiveCentBand] = bandFor 0 centBand [fiveCentBand] := by
        apply bandFor_congr
        simp only [List.forall_mem_cons]
        refine ⟨iff_of_true hprice le_rfl, iff_of_false hlt.not_ge (by decide +kernel), by simp⟩
      rw [hband, hzero]
      exact ⟨100, by norm_num [centBand, fiveCentBand, PriceIncrementFields.increment]⟩
  · simp only [List.forall_mem_cons]
    exact ⟨⟨0, by norm_num [centBand]⟩, ⟨100, by norm_num [fiveCentBand]⟩, by simp⟩

end Blive
