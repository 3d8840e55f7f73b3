import Mathlib.Algebra.BigOperators.Ring.List
import Mathlib.Algebra.Order.BigOperators.Group.List
import Mathlib.Algebra.Order.Floor.Ring
import Blive.Domain.Proofs.PositionHistory
import Blive.Sizing.Proofs.Precision

/-!
# The capital cap of the sizer

The sizer truncates the difference between the desired and the current quantity, not the
desired quantity itself. The quantity a key ends with is therefore the desired one less the
fraction that truncation drops from the difference, and it is within the capital of the key
exactly when that fraction is zero, or goes against the desired quantity and is at most twice
as large.
-/

namespace Blive

open AverageCost

/-! ## Truncation toward zero -/

theorem units_one (x : Decimal) : Precision.one.units x = ⌊|x|⌋ := by
  have hplace : Precision.one.place = 1 := zpow_zero 10
  rw [Precision.units, hplace, div_one]

/-- A difference that an operation has answered is truncated to whole shares, if they are not too
many to be answered. -/
theorem quantizeShareQty_eq {arith : Arithmetic} {x delta rounded : Decimal}
    (hdelta : arith.fix x = .ok delta) :
    quantizeShareQty arith delta = .ok rounded ↔
      (delta = 0 ∨ arith.Counts (towardZero delta) 0) ∧ rounded = towardZero delta := by
  have hprecision : (0 : Decimal) < Precision.one.value := by decide +kernel
  have hplace : Precision.one.place = 1 := zpow_zero 10
  have hexponent : Precision.one.exponent = 0 := rfl
  rw [quantizeShareQty_eq_ok_iff hprecision, Arithmetic.fix_abs hdelta]
  simp only [units_one, hplace, hexponent, mul_one, Except.ok.injEq, exists_eq_left', abs_abs]
  rcases lt_trichotomy delta 0 with hneg | rfl | hpos
  · have hcounts : arith.Counts (-⌊-delta⌋) 0 ↔ arith.Counts ⌊-delta⌋ 0 :=
      ⟨fun h => h.mono (abs_neg _).ge, fun h => h.neg⟩
    rw [towardZero_of_nonpos hneg.le, abs_of_neg hneg, hcounts]
    push_cast
    simp only [hneg, hneg.ne, hneg.not_gt, false_and, false_or, true_and]
  · rw [towardZero_of_nonneg le_rfl, Int.floor_zero]
    simp
  · rw [towardZero_of_nonneg hpos.le, abs_of_pos hpos]
    simp only [hpos, hpos.ne', hpos.not_gt, false_and, false_or, true_and, or_false]

theorem quantizeShareQty_exact (x : Decimal) :
    quantizeShareQty .exact x = .ok (towardZero x : Decimal) :=
  (quantizeShareQty_eq (Arithmetic.fix_exact x)).mpr ⟨.inr trivial, rfl⟩

/-- What truncation drops has the sign of `x`. -/
theorem sub_towardZero (x : Decimal) :
    x - towardZero x = if 0 < x then Int.fract |x| else -Int.fract |x| := by
  unfold towardZero
  split
  · rename_i h
    rw [abs_of_pos h]
    rfl
  · rename_i h
    rw [abs_of_nonpos (not_lt.mp h), ← Int.self_sub_floor]
    push_cast
    ring

theorem abs_sub_le_abs_iff {d f : Decimal} (hf : 0 ≤ f) :
    |d - f| ≤ |d| ↔ f = 0 ∨ 0 < d ∧ f ≤ 2 * d := by
  rcases lt_or_ge 0 d with hd | hd
  · rw [abs_of_pos hd, abs_le]
    constructor
    · intro h
      exact .inr ⟨hd, by linarith [h.1]⟩
    · rintro (rfl | ⟨-, h⟩)
      · constructor <;> linarith
      · constructor <;> linarith
  · rw [abs_of_nonpos hd, abs_of_nonpos (by linarith)]
    constructor
    · intro h
      exact .inl (by linarith)
    · rintro (rfl | ⟨h, -⟩)
      · linarith
      · exact absurd h hd.not_gt

/-- The order for the difference keeps the quantity within the desired one: the difference is
whole, or it goes to the side of the desired quantity and its fraction is no more than twice
that quantity. -/
def StaysWithin (desired current : Decimal) : Prop :=
  Int.fract |desired - current| = 0 ∨
    SameSide (desired - current) desired ∧ Int.fract |desired - current| ≤ 2 * |desired|

theorem staysWithin_iff (desired current : Decimal) :
    |current + towardZero (desired - current)| ≤ |desired| ↔ StaysWithin desired current := by
  have hdrop := sub_towardZero (desired - current)
  have hfract : 0 ≤ Int.fract |desired - current| := Int.fract_nonneg _
  unfold StaysWithin
  split at hdrop
  · rename_i hpos
    have hresult : current + towardZero (desired - current) =
        desired - Int.fract |desired - current| := by linarith
    have hside : SameSide (desired - current) desired ↔ 0 < desired := by
      simp [SameSide, hpos, hpos.not_gt]
    rw [hresult, abs_sub_le_abs_iff hfract, hside]
    apply or_congr_right
    apply and_congr_right
    intro hd
    rw [abs_of_pos hd]
  · rename_i hnonpos
    have hresult : current + towardZero (desired - current) =
        -(-desired - Int.fract |desired - current|) := by linarith
    rw [hresult, abs_neg, ← abs_neg desired, abs_sub_le_abs_iff hfract]
    rcases (not_lt.mp hnonpos).lt_or_eq with hneg | hzero
    · have hside : SameSide (desired - current) desired ↔ desired < 0 := by
        simp [SameSide, hneg, hneg.not_gt]
      rw [hside, neg_pos]
      apply or_congr_right
      apply and_congr_right
      intro hd
      rw [abs_of_pos (neg_pos.mpr hd)]
    · simp [hzero]

/-! ## The orders by key -/

/-- An iteration of the loop of `size_orders`: the key, the price it is sized at, and the order
it appends. -/
structure KeyedOrder where
  key : String
  targetWeight : Decimal
  price : Decimal
  order : Option Order
  deriving DecidableEq

/-- The signed quantity the key holds more once its order is filled. -/
def orderedQty : Option Order → Decimal
  | none => 0
  | some order => order.val.side.sign * order.val.quantity

/-- The quantity of the key when its order is fully filled. -/
def KeyedOrder.resulting (inp : SizerInput) (keyed : KeyedOrder) : Decimal :=
  quantityOf (inp.currentPositions.get? keyed.key) + orderedQty keyed.order

/-- `price_lookup(instrument_resolver(key))` -/
def priceFor (inp : SizerInput) (key : String) : Except PyError Decimal := do
  inp.priceLookup (← inp.instrumentResolver key)

/-- `effective_capital * target_weight / price` -/
def desiredQty (inp : SizerInput) (targetWeight price : Decimal) : Decimal :=
  inp.equity * inp.navSlice * targetWeight / price

def sizeKeyed (arith : Arithmetic) (inp : SizerInput) (effectiveCapital : Decimal) (key : String)
    (targetWeight : Decimal) (id : UUID) : Except PyError KeyedOrder := do
  let order ← sizeOrder arith inp effectiveCapital key targetWeight id
  let price ← priceFor inp key
  return ⟨key, targetWeight, price, order⟩

/-- The loop of `size_orders` that also records what it does for the keys without an order. -/
def sizeKeyedFrom (arith : Arithmetic) (inp : SizerInput) (effectiveCapital : Decimal) :
    List (String × Decimal) → (Nat → UUID) → Except PyError (List KeyedOrder)
  | [], _ => .ok []
  | (key, targetWeight) :: rest, ids => do
      let keyed ← sizeKeyed arith inp effectiveCapital key targetWeight (ids 0)
      let others ← sizeKeyedFrom arith inp effectiveCapital rest
        (if keyed.order.isSome then fun n => ids (n + 1) else ids)
      return keyed :: others

/-- `size_orders`, with its orders by key. -/
def sizeOrdersByKey (arith : Arithmetic) (inp : SizerInput) (ids : Nat → UUID) :
    Except PyError (List KeyedOrder) := do
  require (0 < inp.navSlice) (.valueError "nav_slice must be > 0, got ")
  require (0 < inp.equity) (.valueError "equity must be > 0, got ")
  let effectiveCapital ← arith.fix (inp.equity * inp.navSlice)
  sizeKeyedFrom arith inp effectiveCapital inp.targetWeights.items ids

theorem sign_mul_abs (x : Decimal) : (if x > 0 then OrderSide.buy else .sell).sign * |x| = x := by
  split
  · rename_i h
    rw [abs_of_pos h]
    exact one_mul x
  · rename_i h
    rw [abs_of_nonpos (not_lt.mp h)]
    simp [OrderSide.sign]

/-- `quantize_share_qty(delta)` of the loop body for one key. -/
def roundedDelta (arith : Arithmetic) (inp : SizerInput) (effectiveCapital : Decimal)
    (key : String) (targetWeight price : Decimal) : Except PyError Decimal := do
  quantizeShareQty arith (← sizingDelta arith inp effectiveCapital key targetWeight price)

/-- An order of the key for the rounded difference, when that is not zero. -/
def OrderFor (inp : SizerInput) (key : String) (rounded : Decimal) : Option Order → Prop
  | none => rounded = 0
  | some order => rounded ≠ 0 ∧ ∃ instrument id, inp.instrumentResolver key = .ok instrument ∧
      order.val = deltaOrder inp instrument rounded id

/-- The order of a key holds the whole difference. -/
theorem OrderFor.orderedQty {inp : SizerInput} {key : String} {rounded : Decimal}
    {order : Option Order} (h : OrderFor inp key rounded order) : orderedQty order = rounded := by
  cases order with
  | none => exact h.symm
  | some order =>
    obtain ⟨-, instrument, id, -, hval⟩ := h
    rw [Blive.orderedQty, hval]
    exact sign_mul_abs _

section Recorded

variable {arith : Arithmetic} {inp : SizerInput} {capital : Decimal}

/-- What the loop body accepts and what it makes of it. -/
theorem sizeOrder_spec {key : String} {targetWeight : Decimal} {id : UUID}
    {order : Option Order} (h : sizeOrder arith inp capital key targetWeight id = .ok order) :
    (-1 ≤ targetWeight ∧ targetWeight ≤ 1) ∧ ∃ price, priceFor inp key = .ok price ∧ 0 < price ∧
      ∃ rounded, roundedDelta arith inp capital key targetWeight price = .ok rounded ∧
        OrderFor inp key rounded order := by
  obtain ⟨hweight, h⟩ := require_bind_eq_ok_iff.mp h
  obtain ⟨instrument, hinstrument, h⟩ := bind_eq_ok_iff.mp h
  obtain ⟨price, hprice, h⟩ := bind_eq_ok_iff.mp h
  obtain ⟨hpositive, h⟩ := require_bind_eq_ok_iff.mp h
  obtain ⟨delta, hdelta, h⟩ := bind_eq_ok_iff.mp h
  obtain ⟨rounded, hrounded, h⟩ := bind_eq_ok_iff.mp h
  refine ⟨hweight, price, bind_eq_ok_iff.mpr ⟨instrument, hinstrument, hprice⟩, hpositive,
    rounded, bind_eq_ok_iff.mpr ⟨delta, hdelta, hrounded⟩, ?_⟩
  split at h
  · rename_i hzero
    cases h
    exact hzero
  · rename_i hzero
    obtain ⟨placed, hmake, rfl⟩ := map_eq_ok_iff.mp h
    exact ⟨hzero, instrument, id, hinstrument, Frozen.make_eq_ok_iff.mp hmake⟩

theorem sizeKeyed_spec {key : String} {targetWeight : Decimal} {id : UUID} {keyed : KeyedOrder}
    (h : sizeKeyed arith inp capital key targetWeight id = .ok keyed) :
    sizeOrder arith inp capital key targetWeight id = .ok keyed.order ∧ keyed.key = key ∧
      keyed.targetWeight = targetWeight ∧ priceFor inp key = .ok keyed.price := by
  obtain ⟨order, horder, h⟩ := bind_eq_ok_iff.mp h
  obtain ⟨price, hprice, h⟩ := bind_eq_ok_iff.mp h
  cases h
  exact ⟨horder, rfl, rfl, hprice⟩

/-- Recording the price makes no iteration raise that did not. -/
theorem sizeKeyed_of_sizeOrder {key : String} {targetWeight : Decimal} {id : UUID}
    {order : Option Order} (h : sizeOrder arith inp capital key targetWeight id = .ok order) :
    ∃ keyed, sizeKeyed arith inp capital key targetWeight id = .ok keyed ∧
      keyed.order = order := by
  obtain ⟨-, price, hprice, -⟩ := sizeOrder_spec h
  exact ⟨⟨key, targetWeight, price, order⟩, by rw [sizeKeyed, h, hprice]; rfl, rfl⟩

/-- With their keys, the orders are the ones `size_orders` returns. -/
theorem sizeKeyedFrom_of_sizeOrdersFrom {weights : List (String × Decimal)} {ids : Nat → UUID}
    {orders : List Order} (h : sizeOrdersFrom arith inp capital weights ids = .ok orders) :
    ∃ keyed, sizeKeyedFrom arith inp capital weights ids = .ok keyed ∧
      keyed.filterMap (·.order) = orders := by
  induction weights generalizing ids orders with
  | nil =>
    cases h
    exact ⟨[], rfl, rfl⟩
  | cons weight rest ih =>
    obtain ⟨key, targetWeight⟩ := weight
    obtain ⟨sized, hsized, h⟩ := bind_eq_ok_iff.mp h
    obtain ⟨first, hfirst, rfl⟩ := sizeKeyed_of_sizeOrder hsized
    cases horder : first.order with
    | none =>
      rw [horder] at h
      obtain ⟨others, hothers, hrest⟩ := ih h
      refine ⟨first :: others, ?_, by rw [List.filterMap_cons_none horder, hrest]⟩
      simp [sizeKeyedFrom, hfirst, horder, hothers, bind, Except.bind, pure, Except.pure]
    | some order =>
      rw [horder] at h
      obtain ⟨orders', horders, rfl⟩ := map_eq_ok_iff.mp h
      obtain ⟨others, hothers, hrest⟩ := ih horders
      refine ⟨first :: others, ?_, by rw [List.filterMap_cons_some horder, hrest]⟩
      simp [sizeKeyedFrom, hfirst, horder, hothers, bind, Except.bind, pure, Except.pure]

/-- The recorded iterations of a list of weights, in order. -/
structure Recorded (arith : Arithmetic) (inp : SizerInput) (capital : Decimal)
    (weights : List (String × Decimal)) (keyed : List KeyedOrder) : Prop where
  keys : keyed.map (fun k => (k.key, k.targetWeight)) = weights
  weight : ∀ k ∈ keyed, -1 ≤ k.targetWeight ∧ k.targetWeight ≤ 1
  price : ∀ k ∈ keyed, priceFor inp k.key = .ok k.price ∧ 0 < k.price
  order : ∀ k ∈ keyed, ∃ rounded,
    roundedDelta arith inp capital k.key k.targetWeight k.price = .ok rounded ∧
      OrderFor inp k.key rounded k.order

theorem sizeKeyedFrom_recorded {weights : List (String × Decimal)} {ids : Nat → UUID}
    {keyed : List KeyedOrder} (h : sizeKeyedFrom arith inp capital weights ids = .ok keyed) :
    Recorded arith inp capital weights keyed := by
  induction weights generalizing ids keyed with
  | nil =>
    cases h
    exact ⟨rfl, by simp, by simp, by simp⟩
  | cons weight rest ih =>
    obtain ⟨key, targetWeight⟩ := weight
    obtain ⟨first, hfirst, h⟩ := bind_eq_ok_iff.mp h
    obtain ⟨others, hothers, h⟩ := bind_eq_ok_iff.mp h
    cases h
    obtain ⟨hkeys, hweights, hprices, horders⟩ := ih hothers
    obtain ⟨horder, rfl, rfl, hprice⟩ := sizeKeyed_spec hfirst
    obtain ⟨hweight, price, hprice', hpositive, hfor⟩ := sizeOrder_spec horder
    cases hprice.symm.trans hprice'
    exact ⟨by rw [List.map_cons, hkeys], List.forall_mem_cons.mpr ⟨hweight, hweights⟩,
      List.forall_mem_cons.mpr ⟨⟨hprice, hpositive⟩, hprices⟩,
      List.forall_mem_cons.mpr ⟨hfor, horders⟩⟩

theorem sizeOrdersByKey_eq_ok_iff {ids : Nat → UUID} {keyed : List KeyedOrder} :
    sizeOrdersByKey arith inp ids = .ok keyed ↔ 0 < inp.navSlice ∧ 0 < inp.equity ∧
      ∃ capital, arith.fix (inp.equity * inp.navSlice) = .ok capital ∧
        sizeKeyedFrom arith inp capital inp.targetWeights.items ids = .ok keyed := by
  rw [sizeOrdersByKey, require_bind_eq_ok_iff, require_bind_eq_ok_iff, bind_eq_ok_iff]

end Recorded

/-- Where nothing is rounded, the difference is truncated to whole shares. -/
theorem roundedDelta_exact (inp : SizerInput) (key : String) (targetWeight price : Decimal) :
    roundedDelta .exact inp (inp.equity * inp.navSlice) key targetWeight price =
      .ok (towardZero (desiredQty inp targetWeight price -
        quantityOf (inp.currentPositions.get? key)) : Decimal) := by
  have hdelta : sizingDelta .exact inp (inp.equity * inp.navSlice) key targetWeight price =
      .ok (desiredQty inp targetWeight price - quantityOf (inp.currentPositions.get? key)) := by
    unfold sizingDelta desiredQty
    by_cases hzero : targetWeight = 0
    · simp [hzero, bind, Except.bind, pure, Except.pure]
    · simp [hzero, bind, Except.bind]
  rw [roundedDelta, hdelta]
  exact quantizeShareQty_exact _

theorem Recorded.resulting {inp : SizerInput} {weights : List (String × Decimal)}
    {keyed : List KeyedOrder}
    (h : Recorded .exact inp (inp.equity * inp.navSlice) weights keyed) {k : KeyedOrder}
    (hk : k ∈ keyed) :
    k.resulting inp = quantityOf (inp.currentPositions.get? k.key) +
      towardZero (desiredQty inp k.targetWeight k.price -
        quantityOf (inp.currentPositions.get? k.key)) := by
  obtain ⟨rounded, hrounded, hfor⟩ := h.order k hk
  rw [roundedDelta_exact] at hrounded
  cases hrounded
  rw [KeyedOrder.resulting, hfor.orderedQty]

/-- No key holds more than its share of the capital, and all of them together no more than the
whole of it. -/
structure CapitalCap (inp : SizerInput) (keyed : List KeyedOrder) : Prop where
  quantity : ∀ k ∈ keyed, |k.resulting inp| ≤ |desiredQty inp k.targetWeight k.price|
  gross : (keyed.map fun k => |k.resulting inp| * k.price).sum ≤ inp.equity * inp.navSlice

/-- The notional of a key within its cap is within its share of the capital. -/
theorem notional_le {inp : SizerInput} {k : KeyedOrder} (hcapital : 0 < inp.equity * inp.navSlice)
    (hprice : 0 < k.price) (hcap : |k.resulting inp| ≤ |desiredQty inp k.targetWeight k.price|) :
    |k.resulting inp| * k.price ≤ inp.equity * inp.navSlice * |k.targetWeight| := by
  calc |k.resulting inp| * k.price
      ≤ |desiredQty inp k.targetWeight k.price| * k.price :=
        mul_le_mul_of_nonneg_right hcap hprice.le
    _ = inp.equity * inp.navSlice * |k.targetWeight| := by
        rw [desiredQty, abs_div, abs_mul, abs_of_pos hcapital, abs_of_pos hprice,
          div_mul_cancel₀ _ hprice.ne']

/-- When every key is within its cap, the gross notional is within the capital. -/
theorem gross_le {inp : SizerInput} {keyed : List KeyedOrder}
    (hcapital : 0 < inp.equity * inp.navSlice) (hprice : ∀ k ∈ keyed, 0 < k.price)
    (hweights : (keyed.map fun k => |k.targetWeight|).sum ≤ 1)
    (hcap : ∀ k ∈ keyed, |k.resulting inp| ≤ |desiredQty inp k.targetWeight k.price|) :
    (keyed.map fun k => |k.resulting inp| * k.price).sum ≤ inp.equity * inp.navSlice := by
  calc (keyed.map fun k => |k.resulting inp| * k.price).sum
      ≤ (keyed.map fun k => inp.equity * inp.navSlice * |k.targetWeight|).sum :=
        List.sum_le_sum fun k hk => notional_le hcapital (hprice k hk) (hcap k hk)
    _ = inp.equity * inp.navSlice * (keyed.map fun k => |k.targetWeight|).sum :=
        List.sum_map_mul_left ..
    _ ≤ inp.equity * inp.navSlice := mul_le_of_le_one_right hcapital.le hweights

/-- The orders of a rebalance, when they are filled, keep to the capital exactly when every key
has a difference whose truncation stays within the desired quantity. -/
theorem capitalCap_iff {inp : SizerInput} {ids : Nat → UUID} {orders : List Order}
    (hsized : sizeOrders .exact inp ids = .ok orders)
    (hweights : (inp.targetWeights.items.map fun item => |item.2|).sum ≤ 1) :
    ∃ keyed, sizeOrdersByKey .exact inp ids = .ok keyed ∧ keyed.filterMap (·.order) = orders ∧
      keyed.map (fun k => (k.key, k.targetWeight)) = inp.targetWeights.items ∧
      (CapitalCap inp keyed ↔ ∀ item ∈ inp.targetWeights.items, ∀ price,
        priceFor inp item.1 = .ok price → StaysWithin (desiredQty inp item.2 price)
          (quantityOf (inp.currentPositions.get? item.1))) := by
  obtain ⟨hnav, hsized⟩ := require_bind_eq_ok_iff.mp hsized
  obtain ⟨hequity, hsized⟩ := require_bind_eq_ok_iff.mp hsized
  obtain ⟨capital, hfix, hsized⟩ := bind_eq_ok_iff.mp hsized
  cases hfix
  obtain ⟨keyed, hkeyed, horders⟩ := sizeKeyedFrom_of_sizeOrdersFrom hsized
  have hrecorded := sizeKeyedFrom_recorded hkeyed
  have hitems := hrecorded.keys
  refine ⟨keyed, sizeOrdersByKey_eq_ok_iff.mpr ⟨hnav, hequity, _, rfl, hkeyed⟩, horders, hitems,
    ?_⟩
  have hcapital : 0 < inp.equity * inp.navSlice := mul_pos hequity hnav
  have hiff : ∀ k ∈ keyed, |k.resulting inp| ≤ |desiredQty inp k.targetWeight k.price| ↔
      StaysWithin (desiredQty inp k.targetWeight k.price)
        (quantityOf (inp.currentPositions.get? k.key)) := by
    intro k hk
    rw [hrecorded.resulting hk]
    exact staysWithin_iff ..
  constructor
  · intro hcap item hitem price hprice
    rw [← hitems] at hitem
    obtain ⟨k, hk, rfl⟩ := List.mem_map.mp hitem
    cases hprice.symm.trans (hrecorded.price k hk).1
    exact (hiff k hk).mp (hcap.quantity k hk)
  · intro hstays
    have hcap : ∀ k ∈ keyed, |k.resulting inp| ≤ |desiredQty inp k.targetWeight k.price| := by
      intro k hk
      apply (hiff k hk).mpr
      have hitem : (k.key, k.targetWeight) ∈ inp.targetWeights.items := by
        rw [← hitems]
        exact List.mem_map_of_mem hk
      exact hstays _ hitem _ (hrecorded.price k hk).1
    refine ⟨hcap, gross_le hcapital (fun k hk => (hrecorded.price k hk).2) ?_ hcap⟩
    rw [← hitems, List.map_map] at hweights
    exact hweights

/-- One key with the whole weight, a capital of 550 and a price of 100. -/
def sampleSizerInput (position : Position) : SizerInput where
  targetWeights := Dict.empty.set "CAC.PA" 1
  equity := 5500
  navSlice := 1 / 10
  currentPositions := Dict.empty.set "CAC.PA" position
  instrumentResolver _ := .ok sampleInstrument
  priceLookup _ := .ok 100
  strategyId := "trend"
  now := ⟨0, some 0⟩

def sampleLong : Position :=
  ⟨⟨sampleInstrument, "trend", 10, 100, "EUR", some ⟨1, some 0⟩, ⟨2, some 0⟩⟩, by decide +kernel⟩

/-- The order that covers a short of four shares and goes five and a half long, in whole shares. -/
def sampleCover : Order :=
  ⟨deltaOrder (sampleSizerInput sampleShort) sampleInstrument 9 1, by decide +kernel⟩

theorem capitalCap_iff_cover :
    ∃ keyed, sizeOrdersByKey .exact (sampleSizerInput sampleShort) (fun _ => 1) = .ok keyed ∧
      keyed.filterMap (·.order) = [sampleCover] ∧
      keyed.map (fun k => (k.key, k.targetWeight)) =
        (sampleSizerInput sampleShort).targetWeights.items ∧
      (CapitalCap (sampleSizerInput sampleShort) keyed ↔
        ∀ item ∈ (sampleSizerInput sampleShort).targetWeights.items, ∀ price,
          priceFor (sampleSizerInput sampleShort) item.1 = .ok price →
            StaysWithin (desiredQty (sampleSizerInput sampleShort) item.2 price)
              (quantityOf ((sampleSizerInput sampleShort).currentPositions.get? item.1))) :=
  capitalCap_iff (by decide +kernel) (by decide +kernel)

/-- The order that takes ten shares towards five and a half, in whole shares. -/
def sampleTrim : Order :=
  ⟨deltaOrder (sampleSizerInput sampleLong) sampleInstrument (-4) 1, by decide +kernel⟩

/-- Ten shares held and five and a half desired: the difference of four and a half is truncated
to four, and six shares stay, worth 600. -/
theorem not_capitalCap :
    ¬ ∀ (inp : SizerInput) (ids : Nat → UUID) (orders : List Order),
      sizeOrders .exact inp ids = .ok orders →
      (inp.targetWeights.items.map fun item => |item.2|).sum ≤ 1 →
      ∀ keyed, sizeOrdersByKey .exact inp ids = .ok keyed → CapitalCap inp keyed := by
  intro h
  have hcap := h (sampleSizerInput sampleLong) (fun _ => 1) [sampleTrim] (by decide +kernel)
    (by decide +kernel) [⟨"CAC.PA", 1, 100, some sampleTrim⟩] (by decide +kernel)
  have hquantity := hcap.quantity _ List.mem_cons_self
  revert hquantity
  decide +kernel

end Blive
