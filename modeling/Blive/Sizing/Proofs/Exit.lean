import Blive.Sizing.Proofs.Convergence

/-!
# Exits

The exit rule sets the desired quantity to zero, but its difference is truncated to whole shares
like any other: the fraction of a share is never closed. An exit needs the other keys to be sized
as well, since one that raises takes the whole list of orders with it.
-/

namespace Blive

open AverageCost

/-- The key gets one order, and when that is filled the key holds nothing. -/
def Flattens (inp : SizerInput) (ids : Nat → UUID) (key : String) : Prop :=
  ∃ orders keyed, sizeOrders .default inp ids = .ok orders ∧
    sizeOrdersByKey .default inp ids = .ok keyed ∧ keyed.filterMap (·.order) = orders ∧
    ∃ k ∈ keyed, k.key = key ∧ (∀ k' ∈ keyed, k'.key = key → k' = k) ∧
      ∃ order, k.order = some order ∧ k.resulting inp = 0 ∧
        ∀ fill now position, FullFill order fill →
          applyFill (inp.currentPositions.get? key) fill inp.strategyId now = .ok position →
            position.val.quantity = 0

/-- The capital is answered, and the difference for each other key has no more digits than a whole
number of shares may have. -/
def OthersInDigits (inp : SizerInput) (key : String) : Prop :=
  ∃ capital, Arithmetic.default.fix (inp.equity * inp.navSlice) = .ok capital ∧
    ∀ item ∈ inp.targetWeights.items, item.1 ≠ key → ∀ price, priceFor inp item.1 = .ok price →
      ∃ delta, sizingDelta .default inp capital item.1 item.2 price = .ok delta ∧
        |delta| < 10 ^ 28

theorem counts_default_iff {n : ℤ} : Arithmetic.default.Counts n 0 ↔ |n| < 10 ^ 28 := by
  constructor
  · intro h
    exact h.2.1
  · intro h
    refine ⟨by decide, h, DecimalContext.inSize_iff.mpr ?_⟩
    have hcast : |(n : Decimal)| < 10 ^ 28 := by exact_mod_cast h
    rw [zpow_zero, mul_one]
    refine hcast.trans_le ?_
    rw [← zpow_natCast]
    exact zpow_le_zpow_right₀ (by norm_num) (by decide)

theorem abs_towardZero_lt {x : Decimal} : |towardZero x| < 10 ^ 28 ↔ |x| < 10 ^ 28 := by
  rw [abs_towardZero, Int.floor_lt]
  push_cast
  exact Iff.rfl

/-- A difference is truncated when it has no more digits than can be answered. -/
theorem quantizeShareQty_default {x delta rounded : Decimal}
    (hdelta : Arithmetic.default.fix x = .ok delta) :
    quantizeShareQty .default delta = .ok rounded ↔
      |delta| < 10 ^ 28 ∧ rounded = towardZero delta := by
  rw [quantizeShareQty_eq hdelta, counts_default_iff, abs_towardZero_lt]
  refine and_congr_left fun _ => ⟨?_, .inr⟩
  rintro (rfl | h)
  · norm_num
  · exact h

theorem exists_fix_of_sizingDelta {arith : Arithmetic} {inp : SizerInput} {capital : Decimal}
    {key : String} {targetWeight price delta : Decimal}
    (h : sizingDelta arith inp capital key targetWeight price = .ok delta) :
    ∃ x, arith.fix x = .ok delta := by
  unfold sizingDelta at h
  split at h
  · exact ⟨_, h⟩
  · obtain ⟨share, -, h⟩ := bind_eq_ok_iff.mp h
    obtain ⟨desired, -, h⟩ := bind_eq_ok_iff.mp h
    exact ⟨_, h⟩

theorem sizingDelta_exit (arith : Arithmetic) (inp : SizerInput) (capital : Decimal)
    (key : String) (price : Decimal) : sizingDelta arith inp capital key 0 price =
      arith.fix (-quantityOf (inp.currentPositions.get? key)) := by
  rw [← zero_sub]
  rfl

section Exit

variable {inp : SizerInput} {capital price rounded : Decimal} {key : String}

/-- An exit from whole shares, and not from too many of them, is for all of them. -/
theorem roundedDelta_exit {n : ℤ} (hn : |n| < 10 ^ 28)
    (hwhole : quantityOf (inp.currentPositions.get? key) = n) :
    roundedDelta .default inp capital key 0 price = .ok (-n : Decimal) := by
  have hfix : Arithmetic.default.fix (-n : Decimal) = .ok (-n : Decimal) := by
    rw [← Int.cast_neg]
    exact (counts_default_iff.mpr hn).neg.fix_units
  have hdigits : |(-n : Decimal)| < 10 ^ 28 := by
    rw [abs_neg]
    exact_mod_cast hn
  refine bind_eq_ok_iff.mpr ⟨-n, ?_, (quantizeShareQty_default hfix).mpr ⟨hdigits, ?_⟩⟩
  · rw [sizingDelta_exit, hwhole]
    exact hfix
  · rw [← Int.cast_neg, towardZero_intCast]

/-- An exit that leaves nothing is one from whole shares. -/
theorem whole_of_exit (hrounded : roundedDelta .default inp capital key 0 price = .ok rounded)
    (hflat : quantityOf (inp.currentPositions.get? key) + rounded = 0) :
    ∃ n : ℤ, |n| < 10 ^ 28 ∧ quantityOf (inp.currentPositions.get? key) = n := by
  obtain ⟨delta, hdelta, hrounded⟩ := bind_eq_ok_iff.mp hrounded
  obtain ⟨x, hx⟩ := exists_fix_of_sizingDelta hdelta
  obtain ⟨hdigits, rfl⟩ := (quantizeShareQty_default hx).mp hrounded
  refine ⟨-towardZero delta, ?_, ?_⟩
  · rw [abs_neg, abs_towardZero_lt]
    exact hdigits
  · push_cast
    linarith

variable {keyed : List KeyedOrder} {k : KeyedOrder}

/-- An input for which an order was built is one that is accepted. -/
theorem Recorded.valid {arith : Arithmetic}
    (h : Recorded arith inp capital inp.targetWeights.items keyed) (hnav : 0 < inp.navSlice)
    (hequity : 0 < inp.equity) {order : Order} (hk : k ∈ keyed) (horder : k.order = some order) :
    inp.Valid := by
  obtain ⟨rounded, -, hfor⟩ := h.order k hk
  rw [horder] at hfor
  obtain ⟨-, instrument, id, -, hval⟩ := hfor
  have horderValid := (Order.valid_iff order.val).mp order.valid
  rw [hval] at horderValid
  refine ⟨hnav, hequity, ?_, ?_, horderValid.1, horderValid.2.2.2.2.2.2.1⟩
  · intro item hitem
    rw [← h.keys] at hitem
    obtain ⟨k', hk', rfl⟩ := List.mem_map.mp hitem
    exact h.weight k' hk'
  · intro item hitem
    rw [← h.keys] at hitem
    obtain ⟨k', hk', rfl⟩ := List.mem_map.mp hitem
    exact ⟨k'.price, h.price k' hk'⟩

/-- Keys that were recorded are within the digits. -/
theorem Recorded.othersInDigits
    (h : Recorded .default inp capital inp.targetWeights.items keyed)
    (hcapital : Arithmetic.default.fix (inp.equity * inp.navSlice) = .ok capital)
    (key : String) : OthersInDigits inp key := by
  refine ⟨capital, hcapital, fun item hitem _ price hprice => ?_⟩
  rw [← h.keys] at hitem
  obtain ⟨k, hk, rfl⟩ := List.mem_map.mp hitem
  obtain ⟨rounded, hrounded, -⟩ := h.order k hk
  cases hprice.symm.trans (h.price k hk).1
  obtain ⟨delta, hdelta, hrounded⟩ := bind_eq_ok_iff.mp hrounded
  obtain ⟨x, hx⟩ := exists_fix_of_sizingDelta hdelta
  exact ⟨delta, hdelta, ((quantizeShareQty_default hx).mp hrounded).1⟩

/-- A weight of zero is the only one of its key. -/
theorem exit_weight_eq {targetWeight : Decimal}
    (hweight : (key, (0 : Decimal)) ∈ inp.targetWeights.items)
    (hitem : (key, targetWeight) ∈ inp.targetWeights.items) : targetWeight = 0 := by
  have hget := Dict.get?_eq_some_iff.mpr hitem
  exact Option.some.inj (hget.symm.trans (Dict.get?_eq_some_iff.mpr hweight))

end Exit

/-- An exit flattens its key exactly when the input is accepted, the other keys are within the
digits of the context, and the key holds whole shares, no more of them than the digits. -/
theorem exit_flattens_iff {inp : SizerInput} {ids : Nat → UUID} {key : String}
    (hweight : (key, (0 : Decimal)) ∈ inp.targetWeights.items)
    (hheld : quantityOf (inp.currentPositions.get? key) ≠ 0) :
    Flattens inp ids key ↔ inp.Valid ∧ OthersInDigits inp key ∧
      ∃ n : ℤ, |n| < 10 ^ 28 ∧ quantityOf (inp.currentPositions.get? key) = n := by
  constructor
  · rintro ⟨-, keyed, -, hkeyed, -, k, hk, rfl, -, order, horder, hflat, -⟩
    obtain ⟨hnav, hequity, capital, hcapital, hfrom⟩ := sizeOrdersByKey_eq_ok_iff.mp hkeyed
    have hrecorded := sizeKeyedFrom_recorded hfrom
    have hzero : k.targetWeight = 0 := by
      refine exit_weight_eq hweight ?_
      rw [← hrecorded.keys]
      exact List.mem_map_of_mem hk
    obtain ⟨rounded, hrounded, hfor⟩ := hrecorded.order k hk
    rw [hzero] at hrounded
    rw [KeyedOrder.resulting, hfor.orderedQty] at hflat
    exact ⟨hrecorded.valid hnav hequity hk horder, hrecorded.othersInDigits hcapital k.key,
      whole_of_exit hrounded hflat⟩
  · rintro ⟨hvalid, ⟨capital, hcapital, hothers⟩, n, hn, hwhole⟩
    have hdeltas : ∀ item ∈ inp.targetWeights.items, ∀ price, priceFor inp item.1 = .ok price →
        ∃ rounded, roundedDelta .default inp capital item.1 item.2 price = .ok rounded := by
      rintro ⟨itemKey, targetWeight⟩ hitem price hprice
      by_cases hkey : itemKey = key
      · subst hkey
        rw [exit_weight_eq hweight hitem]
        exact ⟨_, roundedDelta_exit hn hwhole⟩
      · obtain ⟨delta, hdelta, hdigits⟩ := hothers _ hitem hkey price hprice
        obtain ⟨x, hx⟩ := exists_fix_of_sizingDelta hdelta
        exact ⟨_, bind_eq_ok_iff.mpr
          ⟨delta, hdelta, (quantizeShareQty_default hx).mpr ⟨hdigits, rfl⟩⟩⟩
    obtain ⟨keyed, hkeyed, hrecorded⟩ := sizeOrdersByKey_total hvalid hcapital hdeltas ids
    have hitem : (key, (0 : Decimal)) ∈ keyed.map fun k => (k.key, k.targetWeight) := by
      rw [hrecorded.keys]
      exact hweight
    obtain ⟨k, hk, heq⟩ := List.mem_map.mp hitem
    obtain ⟨rfl, hzero⟩ := Prod.mk.inj heq
    obtain ⟨rounded, hrounded, hfor⟩ := hrecorded.order k hk
    rw [hzero, roundedDelta_exit hn hwhole] at hrounded
    cases hrounded
    have hflat : k.resulting inp = 0 := by
      rw [KeyedOrder.resulting, hfor.orderedQty, hwhole, add_neg_cancel]
    have honly : ∀ k' ∈ keyed, k'.key = k.key → k' = k := fun k' hk' hkey =>
      List.inj_on_of_nodup_map hrecorded.nodup_keys hk' hk hkey
    cases horder : k.order with
    | none =>
      rw [KeyedOrder.resulting, horder] at hflat
      exact absurd ((add_zero _).symm.trans hflat) hheld
    | some order =>
      refine ⟨_, keyed, sizeOrders_of_byKey hkeyed, hkeyed, rfl, k, hk, rfl, honly, order, horder,
        hflat, fun fill now position hfill hposition => ?_⟩
      rw [applyFill_quantity hposition, hfill.signedQty, ← horder]
      exact hflat

/-- The sample input with weight zero. -/
def sampleExit (position : Position) : SizerInput :=
  { sampleSizerInput position with targetWeights := Dict.empty.set "CAC.PA" 0 }

theorem sampleExit_valid (position : Position) : (sampleExit position).Valid := by
  have hitems : (sampleExit position).targetWeights.items = [("CAC.PA", 0)] := rfl
  refine ⟨by norm_num [sampleExit, sampleSizerInput], by norm_num [sampleExit, sampleSizerInput],
    ?_, ?_, (by decide : "trend" ≠ ""), rfl⟩
  · rw [hitems]
    norm_num
  · intro item _
    exact ⟨100, rfl, by norm_num⟩

/-- Ten shares held and none desired: all ten are sold. -/
theorem exit_flattens_iff_long : Flattens (sampleExit sampleLong) (fun _ => 1) "CAC.PA" := by
  have hothers : OthersInDigits (sampleExit sampleLong) "CAC.PA" := by
    have hitems : (sampleExit sampleLong).targetWeights.items = [("CAC.PA", 0)] := rfl
    refine ⟨550, by decide +kernel, fun item hitem hkey => ?_⟩
    rw [hitems] at hitem
    exact absurd (congrArg Prod.fst (List.mem_singleton.mp hitem)) hkey
  exact (exit_flattens_iff (by decide +kernel) (by decide +kernel)).mpr
    ⟨sampleExit_valid sampleLong, hothers, 10, by norm_num, by decide +kernel⟩

/-- Ten shares and a half. -/
def sampleFractional : Position :=
  ⟨⟨sampleInstrument, "trend", 21 / 2, 100, "EUR", some ⟨1, some 0⟩, ⟨2, some 0⟩⟩,
    by decide +kernel⟩

/-- The order of the exit from ten shares and a half. -/
def sampleExitOrder : Order :=
  ⟨deltaOrder (sampleExit sampleFractional) sampleInstrument (-10) 1, by decide +kernel⟩

/-- Ten shares and a half held and none desired: ten are sold and the half stays. -/
theorem not_exit_flattens :
    ¬ ∀ (inp : SizerInput) (ids : Nat → UUID) (key : String), inp.Valid →
      (key, (0 : Decimal)) ∈ inp.targetWeights.items →
      quantityOf (inp.currentPositions.get? key) ≠ 0 → Flattens inp ids key := by
  intro h
  obtain ⟨-, keyed, -, hkeyed, -, k, hk, -, -, -, -, hflat, -⟩ :=
    h (sampleExit sampleFractional) (fun _ => 1) "CAC.PA" (sampleExit_valid _) (by decide +kernel)
      (by decide +kernel)
  have hrun : sizeOrdersByKey .default (sampleExit sampleFractional) (fun _ => 1) =
      .ok [⟨"CAC.PA", 0, 100, some sampleExitOrder⟩] := by decide +kernel
  cases hkeyed.symm.trans hrun
  rw [List.mem_singleton.mp hk] at hflat
  revert hflat
  decide +kernel

end Blive
