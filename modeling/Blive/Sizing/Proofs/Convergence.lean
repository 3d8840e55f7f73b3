import Blive.Sizing.Proofs.CapitalCap

/-!
# Where the orders of a rebalance lead

Every order of `size_orders` takes its key to less than a share from the desired quantity and
never past it, so that a second rebalance at the same weights and prices orders nothing.
-/

namespace Blive

open AverageCost

/-! ## Truncation toward zero, between the quantities -/

/-- `resulting` lies between the two quantities, less than a share from the desired one. -/
structure Converges (current desired resulting : Decimal) : Prop where
  lower : min current desired ≤ resulting
  upper : resulting ≤ max current desired
  near : |resulting - desired| < 1

/-- A quantity moved by the truncated difference converges. -/
theorem converges_towardZero (current desired : Decimal) :
    Converges current desired (current + towardZero (desired - current)) := by
  rcases le_total current desired with h | h
  · have hdiff : 0 ≤ desired - current := sub_nonneg.mpr h
    have hfloor := Int.floor_le (desired - current)
    have hlt := Int.lt_floor_add_one (desired - current)
    have hnonneg : (0 : Decimal) ≤ ⌊desired - current⌋ := by
      exact_mod_cast Int.floor_nonneg.mpr hdiff
    rw [towardZero_of_nonneg hdiff]
    refine ⟨?_, ?_, ?_⟩
    · rw [min_eq_left h]
      linarith
    · rw [max_eq_right h]
      linarith
    · rw [abs_lt]
      constructor <;> linarith
  · have hdiff : desired - current ≤ 0 := sub_nonpos.mpr h
    have hfloor := Int.floor_le (-(desired - current))
    have hlt := Int.lt_floor_add_one (-(desired - current))
    have hnonneg : (0 : Decimal) ≤ ⌊-(desired - current)⌋ := by
      exact_mod_cast Int.floor_nonneg.mpr (neg_nonneg.mpr hdiff)
    rw [towardZero_of_nonpos hdiff]
    push_cast
    refine ⟨?_, ?_, ?_⟩
    · rw [min_eq_right h]
      linarith
    · rw [max_eq_left h]
      linarith
    · rw [abs_lt]
      constructor <;> linarith

/-! ## Inputs that are accepted -/

/-- What `size_orders` and the orders it builds ask of the input. -/
structure SizerInput.Valid (inp : SizerInput) : Prop where
  navSlice : 0 < inp.navSlice
  equity : 0 < inp.equity
  weights : ∀ item ∈ inp.targetWeights.items, -1 ≤ item.2 ∧ item.2 ≤ 1
  prices : ∀ item ∈ inp.targetWeights.items, ∃ price, priceFor inp item.1 = .ok price ∧ 0 < price
  strategyId : inp.strategyId ≠ ""
  now : inp.now.utcOffset = some 0

section Total

variable {arith : Arithmetic} {inp : SizerInput} {capital : Decimal}

/-- The order for a difference is one the order type accepts. -/
theorem deltaOrder_valid (hvalid : inp.Valid) (instrument : Instrument) {rounded : Decimal}
    (hrounded : rounded ≠ 0) (id : UUID) :
    postInit (deltaOrder inp instrument rounded id) = .ok () :=
  (Order.valid_iff _).mpr ⟨hvalid.strategyId, abs_pos.mpr hrounded,
    by simp [deltaOrder, OrderType.needsLimit], fun _ => rfl,
    by simp [deltaOrder, OrderType.needsStop], fun _ => rfl, hvalid.now, by simp [deltaOrder]⟩

/-- On an accepted input the loop body does not raise for a key whose difference is answered. -/
theorem sizeOrder_total (hvalid : inp.Valid) {item : String × Decimal}
    (hitem : item ∈ inp.targetWeights.items)
    (hdelta : ∀ price, priceFor inp item.1 = .ok price →
      ∃ rounded, roundedDelta arith inp capital item.1 item.2 price = .ok rounded) (id : UUID) :
    ∃ order, sizeOrder arith inp capital item.1 item.2 id = .ok order := by
  obtain ⟨price, hprice, hpositive⟩ := hvalid.prices item hitem
  obtain ⟨rounded, hrounded⟩ := hdelta price hprice
  obtain ⟨instrument, hinstrument, hlookup⟩ := bind_eq_ok_iff.mp hprice
  obtain ⟨delta, hdelta, hrounded⟩ := bind_eq_ok_iff.mp hrounded
  unfold sizeOrder
  simp only [require, hvalid.weights item hitem, hinstrument, hlookup, hpositive, hdelta,
    hrounded, bind, Except.bind, if_true, and_self]
  split
  · exact ⟨none, rfl⟩
  · rename_i hzero
    rw [Frozen.make_of_valid (deltaOrder_valid hvalid instrument hzero id)]
    exact ⟨_, rfl⟩

theorem sizeKeyedFrom_total (hvalid : inp.Valid) {weights : List (String × Decimal)}
    (hweights : ∀ item ∈ weights, item ∈ inp.targetWeights.items)
    (hdeltas : ∀ item ∈ weights, ∀ price, priceFor inp item.1 = .ok price →
      ∃ rounded, roundedDelta arith inp capital item.1 item.2 price = .ok rounded)
    (ids : Nat → UUID) : ∃ keyed, sizeKeyedFrom arith inp capital weights ids = .ok keyed := by
  induction weights generalizing ids with
  | nil => exact ⟨[], rfl⟩
  | cons weight rest ih =>
    obtain ⟨hweight, hrest⟩ := List.forall_mem_cons.mp hweights
    obtain ⟨hdelta, hdeltas⟩ := List.forall_mem_cons.mp hdeltas
    obtain ⟨order, horder⟩ := sizeOrder_total hvalid hweight hdelta (ids 0)
    obtain ⟨first, hfirst, -⟩ := sizeKeyed_of_sizeOrder horder
    obtain ⟨others, hothers⟩ := ih hrest hdeltas
      (if first.order.isSome then fun n => ids (n + 1) else ids)
    refine ⟨first :: others, ?_⟩
    exact bind_eq_ok_iff.mpr ⟨first, hfirst, bind_eq_ok_iff.mpr ⟨others, hothers, rfl⟩⟩

/-- The loop that records the keys returns the orders of the one that does not. -/
theorem sizeOrdersFrom_of_sizeKeyedFrom {weights : List (String × Decimal)}
    {ids : Nat → UUID} {keyed : List KeyedOrder}
    (h : sizeKeyedFrom arith inp capital weights ids = .ok keyed) :
    sizeOrdersFrom arith inp capital weights ids = .ok (keyed.filterMap (·.order)) := by
  induction weights generalizing ids keyed with
  | nil =>
    cases h
    rfl
  | cons weight rest ih =>
    obtain ⟨key, targetWeight⟩ := weight
    obtain ⟨first, hfirst, h⟩ := bind_eq_ok_iff.mp h
    obtain ⟨others, hothers, h⟩ := bind_eq_ok_iff.mp h
    cases h
    have hrest := ih hothers
    rw [sizeOrdersFrom, (sizeKeyed_spec hfirst).1]
    cases horder : first.order with
    | none =>
      rw [horder] at hrest
      rw [List.filterMap_cons_none horder]
      exact hrest
    | some order =>
      rw [horder] at hrest
      rw [List.filterMap_cons_some horder]
      exact map_eq_ok_iff.mpr ⟨_, hrest, rfl⟩

theorem sizeOrders_of_byKey {ids : Nat → UUID} {keyed : List KeyedOrder}
    (h : sizeOrdersByKey arith inp ids = .ok keyed) :
    sizeOrders arith inp ids = .ok (keyed.filterMap (·.order)) := by
  obtain ⟨hnav, hequity, capital, hfix, hkeyed⟩ := sizeOrdersByKey_eq_ok_iff.mp h
  exact require_bind_eq_ok_iff.mpr ⟨hnav, require_bind_eq_ok_iff.mpr
    ⟨hequity, bind_eq_ok_iff.mpr ⟨capital, hfix, sizeOrdersFrom_of_sizeKeyedFrom hkeyed⟩⟩⟩

theorem sizeOrdersByKey_total (hvalid : inp.Valid)
    (hcapital : arith.fix (inp.equity * inp.navSlice) = .ok capital)
    (hdeltas : ∀ item ∈ inp.targetWeights.items, ∀ price, priceFor inp item.1 = .ok price →
      ∃ rounded, roundedDelta arith inp capital item.1 item.2 price = .ok rounded)
    (ids : Nat → UUID) : ∃ keyed, sizeOrdersByKey arith inp ids = .ok keyed ∧
      Recorded arith inp capital inp.targetWeights.items keyed := by
  obtain ⟨keyed, hkeyed⟩ := sizeKeyedFrom_total hvalid (fun _ h => h) hdeltas ids
  exact ⟨keyed, sizeOrdersByKey_eq_ok_iff.mpr
    ⟨hvalid.navSlice, hvalid.equity, capital, hcapital, hkeyed⟩, sizeKeyedFrom_recorded hkeyed⟩

end Total

/-- Each key is recorded once. -/
theorem Recorded.nodup_keys {arith : Arithmetic} {inp : SizerInput} {capital : Decimal}
    {keyed : List KeyedOrder} (h : Recorded arith inp capital inp.targetWeights.items keyed) :
    (keyed.map KeyedOrder.key).Nodup := by
  have hkeys : keyed.map KeyedOrder.key = inp.targetWeights.items.map Prod.fst := by
    rw [← h.keys, List.map_map]
    rfl
  rw [hkeys]
  exact inp.targetWeights.nodup

/-! ## Filling the orders -/

/-- A fill of the whole order. -/
structure FullFill (order : Order) (fill : Fill) : Prop where
  clientOrderId : fill.val.clientOrderId = order.val.clientOrderId
  instrument : fill.val.instrument = order.val.instrument
  side : fill.val.side = order.val.side
  quantity : fill.val.quantity = order.val.quantity

/-- The positions after `apply_fill` on the fill that `fillOf` gives for each order. -/
def fillOrders (strategyId : String) (fillOf : Order → Fill) (now : Datetime) :
    List KeyedOrder → Dict String Position → Except PyError (Dict String Position)
  | [], positions => .ok positions
  | keyed :: rest, positions =>
      match keyed.order with
      | none => fillOrders strategyId fillOf now rest positions
      | some order => do
          let position ← applyFill (positions.get? keyed.key) (fillOf order) strategyId now
          fillOrders strategyId fillOf now rest (positions.set keyed.key position)

theorem FullFill.signedQty {order : Order} {fill : Fill} (h : FullFill order fill) :
    fill.signedQty = orderedQty (some order) := by
  rw [Fill.signedQty_eq, h.side, h.quantity]
  rfl

/-- With distinct keys, none of the later ones is the first. -/
theorem nodup_keys_cons {first : KeyedOrder} {rest : List KeyedOrder}
    (h : ((first :: rest).map KeyedOrder.key).Nodup) :
    (∀ k ∈ rest, k.key ≠ first.key) ∧ (rest.map KeyedOrder.key).Nodup := by
  obtain ⟨hfresh, hrest⟩ := List.nodup_cons.mp h
  refine ⟨fun k hk hkey => ?_, hrest⟩
  rw [← hkey] at hfresh
  exact hfresh (List.mem_map_of_mem hk)

section Filled

variable {strategyId : String} {fillOf : Order → Fill} {now : Datetime}

/-- Filling the orders of other keys leaves a key alone. -/
theorem fillOrders_other {keyed : List KeyedOrder} {positions filled : Dict String Position}
    (h : fillOrders strategyId fillOf now keyed positions = .ok filled) {key : String}
    (hkey : ∀ k ∈ keyed, k.key ≠ key) : filled.get? key = positions.get? key := by
  induction keyed generalizing positions with
  | nil =>
    cases h
    rfl
  | cons first rest ih =>
    obtain ⟨hfirst, hrest⟩ := List.forall_mem_cons.mp hkey
    cases horder : first.order with
    | none =>
      rw [fillOrders, horder] at h
      exact ih h hrest
    | some order =>
      rw [fillOrders, horder] at h
      obtain ⟨position, -, h⟩ := bind_eq_ok_iff.mp h
      rw [ih h hrest, Dict.get?_set, if_neg hfirst.symm]

/-- Each key holds what it held and what its order is for. -/
theorem fillOrders_quantity {keyed : List KeyedOrder} {positions filled : Dict String Position}
    (h : fillOrders strategyId fillOf now keyed positions = .ok filled)
    (hfills : ∀ order ∈ keyed.filterMap (·.order), FullFill order (fillOf order))
    (hkeys : (keyed.map KeyedOrder.key).Nodup) :
    ∀ k ∈ keyed, quantityOf (filled.get? k.key) =
      quantityOf (positions.get? k.key) + orderedQty k.order := by
  induction keyed generalizing positions with
  | nil => simp
  | cons first rest ih =>
    obtain ⟨hothers, hrest⟩ := nodup_keys_cons hkeys
    cases horder : first.order with
    | none =>
      rw [fillOrders, horder] at h
      rw [List.filterMap_cons_none horder] at hfills
      refine List.forall_mem_cons.mpr ⟨?_, ih h hfills hrest⟩
      rw [fillOrders_other h hothers, horder]
      exact (add_zero _).symm
    | some order =>
      rw [fillOrders, horder] at h
      rw [List.filterMap_cons_some horder] at hfills
      obtain ⟨hfill, hfills⟩ := List.forall_mem_cons.mp hfills
      obtain ⟨position, hposition, h⟩ := bind_eq_ok_iff.mp h
      refine List.forall_mem_cons.mpr ⟨?_, fun k hk => ?_⟩
      · rw [fillOrders_other h hothers, Dict.get?_set, if_pos rfl, horder, ← hfill.signedQty]
        exact applyFill_quantity hposition
      · rw [ih h hfills hrest k hk, Dict.get?_set, if_neg (hothers k hk)]

end Filled

/-- What the key holds, if anything, is a position of the strategy in the instrument the key is
sized for. -/
def HeldBy (inp : SizerInput) (key : String) : Prop :=
  ∀ position, inp.currentPositions.get? key = some position → position.val.quantity ≠ 0 →
    position.val.strategyId = inp.strategyId ∧
      inp.instrumentResolver key = .ok position.val.instrument

/-- Such a position takes a fill of the order of its key. -/
theorem HeldBy.checkFill {inp : SizerInput} {key : String} (hheld : HeldBy inp key)
    (hstrategy : inp.strategyId ≠ "") {fill : Fill}
    (hinstrument : inp.instrumentResolver key = .ok fill.val.instrument) :
    checkFill (inp.currentPositions.get? key) fill inp.strategyId = .ok () := by
  apply checkFill_eq_ok_iff.mpr
  cases hposition : inp.currentPositions.get? key with
  | none => exact ⟨require_eq_ok_iff.mpr hstrategy, rfl⟩
  | some position =>
    unfold checkStrategy checkInstrument
    dsimp only
    split
    · exact ⟨require_eq_ok_iff.mpr hstrategy, rfl⟩
    · rename_i hopen
      obtain ⟨hsame, hresolved⟩ := hheld position hposition hopen
      have heq := Except.ok.inj (hresolved.symm.trans hinstrument)
      exact ⟨require_eq_ok_iff.mpr hsame, require_eq_ok_iff.mpr heq⟩

/-- The fills of the orders of a rebalance are all accepted. -/
theorem fillOrders_total {inp : SizerInput} {fillOf : Order → Fill} {now : Datetime}
    (hstrategy : inp.strategyId ≠ "") (hnow : now.utcOffset = some 0) {keyed : List KeyedOrder}
    {positions : Dict String Position}
    (hsame : ∀ k ∈ keyed, positions.get? k.key = inp.currentPositions.get? k.key)
    (hheld : ∀ k ∈ keyed, HeldBy inp k.key)
    (horders : ∀ k ∈ keyed, ∃ rounded, OrderFor inp k.key rounded k.order)
    (hfills : ∀ order ∈ keyed.filterMap (·.order), FullFill order (fillOf order))
    (hkeys : (keyed.map KeyedOrder.key).Nodup) :
    ∃ filled, fillOrders inp.strategyId fillOf now keyed positions = .ok filled := by
  induction keyed generalizing positions with
  | nil => exact ⟨positions, rfl⟩
  | cons first rest ih =>
    obtain ⟨hsameFirst, hsame⟩ := List.forall_mem_cons.mp hsame
    obtain ⟨hheldFirst, hheld⟩ := List.forall_mem_cons.mp hheld
    obtain ⟨⟨delta, hfor⟩, horders⟩ := List.forall_mem_cons.mp horders
    obtain ⟨hfresh, hrest⟩ := nodup_keys_cons hkeys
    cases horder : first.order with
    | none =>
      rw [List.filterMap_cons_none horder] at hfills
      rw [fillOrders, horder]
      exact ih hsame hheld horders hfills hrest
    | some order =>
      rw [List.filterMap_cons_some horder] at hfills
      obtain ⟨hfill, hfills⟩ := List.forall_mem_cons.mp hfills
      rw [horder] at hfor
      obtain ⟨-, instrument, id, hresolved, hval⟩ := hfor
      have hinstrument : (fillOf order).val.instrument = instrument := by
        rw [hfill.instrument, hval]
        rfl
      rw [← hinstrument] at hresolved
      obtain ⟨position, hposition, -⟩ :=
        applyFill_ok (hheldFirst.checkFill hstrategy hresolved) hnow
      rw [← hsameFirst] at hposition
      have hothers : ∀ k ∈ rest,
          (positions.set first.key position).get? k.key = inp.currentPositions.get? k.key := by
        intro k hk
        rw [Dict.get?_set, if_neg (hfresh k hk), hsame k hk]
      obtain ⟨filled, hfilled⟩ := ih hothers hheld horders hfills hrest
      rw [fillOrders, horder]
      exact ⟨filled, bind_eq_ok_iff.mpr ⟨position, hposition, hfilled⟩⟩

/-! ## Convergence -/

/-- What the orders of a rebalance do to their keys when they are filled. -/
structure SizesTowards (inp : SizerInput) (keyed : List KeyedOrder) : Prop where
  keys : keyed.map (fun k => (k.key, k.targetWeight)) = inp.targetWeights.items
  price : ∀ k ∈ keyed, priceFor inp k.key = .ok k.price
  whole : ∀ k ∈ keyed, ∀ order ∈ k.order, ∃ n : ℕ, 0 < n ∧ order.val.quantity = n
  converges : ∀ k ∈ keyed, Converges (quantityOf (inp.currentPositions.get? k.key))
    (desiredQty inp k.targetWeight k.price) (k.resulting inp)

theorem OrderFor.whole {inp : SizerInput} {key : String} {delta : Int} {order : Order}
    (h : OrderFor inp key delta (some order)) : ∃ n : ℕ, 0 < n ∧ order.val.quantity = n := by
  obtain ⟨hdelta, instrument, id, -, hval⟩ := h
  refine ⟨delta.natAbs, Int.natAbs_pos.mpr (by exact_mod_cast hdelta), ?_⟩
  rw [hval, Nat.cast_natAbs, Int.cast_abs]
  rfl

theorem Recorded.sizesTowards {inp : SizerInput} {keyed : List KeyedOrder}
    (h : Recorded .exact inp (inp.equity * inp.navSlice) inp.targetWeights.items keyed) :
    SizesTowards inp keyed where
  keys := h.keys
  price k hk := (h.price k hk).1
  whole k hk order horder := by
    obtain ⟨rounded, hrounded, hfor⟩ := h.order k hk
    rw [roundedDelta_exact] at hrounded
    cases hrounded
    rw [horder] at hfor
    exact hfor.whole
  converges k hk := by
    rw [h.resulting hk]
    exact converges_towardZero _ _

/-- A key whose quantity is less than a share from the desired one needs no order. -/
theorem sizeOrder_settled {inp : SizerInput} {key : String} {targetWeight price : Decimal}
    (hweight : -1 ≤ targetWeight ∧ targetWeight ≤ 1) (hprice : priceFor inp key = .ok price)
    (hpositive : 0 < price) (hnear : |quantityOf (inp.currentPositions.get? key) -
      desiredQty inp targetWeight price| < 1) (id : UUID) :
    sizeOrder .exact inp (inp.equity * inp.navSlice) key targetWeight id = .ok none := by
  obtain ⟨instrument, hinstrument, hlookup⟩ := bind_eq_ok_iff.mp hprice
  have hrounded := roundedDelta_exact inp key targetWeight price
  rw [abs_sub_comm] at hnear
  rw [towardZero_eq_zero_iff.mpr hnear, Int.cast_zero] at hrounded
  obtain ⟨delta, hdelta, hrounded⟩ := bind_eq_ok_iff.mp hrounded
  unfold sizeOrder
  simp only [require, hweight, hinstrument, hlookup, hpositive, hdelta, hrounded, bind,
    Except.bind, if_true, and_self]
  rfl

/-- When no key needs an order, none is returned. -/
theorem sizeOrdersFrom_eq_nil {arith : Arithmetic} {inp : SizerInput} {capital : Decimal}
    {weights : List (String × Decimal)}
    (h : ∀ item ∈ weights, ∀ id, sizeOrder arith inp capital item.1 item.2 id = .ok none)
    (ids : Nat → UUID) : sizeOrdersFrom arith inp capital weights ids = .ok [] := by
  induction weights with
  | nil => rfl
  | cons weight rest ih =>
    obtain ⟨hweight, hrest⟩ := List.forall_mem_cons.mp h
    rw [sizeOrdersFrom, hweight]
    exact ih hrest

/-- Once every key has moved by its order, a second rebalance at the same weights, equity and
prices orders nothing. -/
theorem sizeOrders_again {inp : SizerInput} {keyed : List KeyedOrder} (hnav : 0 < inp.navSlice)
    (hequity : 0 < inp.equity)
    (h : Recorded .exact inp (inp.equity * inp.navSlice) inp.targetWeights.items keyed)
    {filled : Dict String Position}
    (hfilled : ∀ k ∈ keyed, quantityOf (filled.get? k.key) = k.resulting inp) (later : Datetime)
    (ids : Nat → UUID) :
    sizeOrders .exact { inp with currentPositions := filled, now := later } ids = .ok [] := by
  refine require_bind_eq_ok_iff.mpr ⟨hnav, require_bind_eq_ok_iff.mpr ⟨hequity, ?_⟩⟩
  refine bind_eq_ok_iff.mpr ⟨inp.equity * inp.navSlice, rfl, ?_⟩
  apply sizeOrdersFrom_eq_nil
  intro item hitem id
  have hitem' : item ∈ keyed.map fun k => (k.key, k.targetWeight) := h.keys ▸ hitem
  obtain ⟨k, hk, rfl⟩ := List.mem_map.mp hitem'
  obtain ⟨hprice, hpositive⟩ := h.price k hk
  have hprice : priceFor { inp with currentPositions := filled, now := later } k.key =
      .ok k.price := hprice
  refine sizeOrder_settled (h.weight k hk) hprice hpositive ?_ id
  rw [hfilled k hk]
  exact (h.sizesTowards.converges k hk).near

/-- The orders of a rebalance take every key to less than a share from its desired quantity and
never past it, and after their fills there is nothing more to order. -/
theorem sizeOrders_converges {inp : SizerInput} (hvalid : inp.Valid) (ids : Nat → UUID) :
    ∃ orders keyed, sizeOrders .exact inp ids = .ok orders ∧
      sizeOrdersByKey .exact inp ids = .ok keyed ∧
      keyed.filterMap (·.order) = orders ∧ SizesTowards inp keyed ∧
      ∀ fillOf now, (∀ order ∈ orders, FullFill order (fillOf order)) →
        ((∀ k ∈ keyed, HeldBy inp k.key) → now.utcOffset = some 0 →
          ∃ filled, fillOrders inp.strategyId fillOf now keyed inp.currentPositions =
            .ok filled) ∧
        ∀ filled, fillOrders inp.strategyId fillOf now keyed inp.currentPositions = .ok filled →
          (∀ k ∈ keyed, quantityOf (filled.get? k.key) = k.resulting inp) ∧
            ∀ later ids', sizeOrders .exact
              { inp with currentPositions := filled, now := later } ids' = .ok [] := by
  obtain ⟨keyed, hkeyed, hrecorded⟩ := sizeOrdersByKey_total hvalid
    (Arithmetic.fix_exact (inp.equity * inp.navSlice))
    (fun item _ price _ => ⟨_, roundedDelta_exact inp item.1 item.2 price⟩) ids
  have hkeys := hrecorded.nodup_keys
  refine ⟨_, keyed, sizeOrders_of_byKey hkeyed, hkeyed, rfl, hrecorded.sizesTowards, ?_⟩
  intro fillOf now hfills
  refine ⟨fun hheld hnow => ?_, fun filled hfilled => ?_⟩
  · exact fillOrders_total hvalid.strategyId hnow (fun _ _ => rfl) hheld
      (fun k hk => (hrecorded.order k hk).imp fun _ h => h.2) hfills hkeys
  · have hquantity := fillOrders_quantity hfilled hfills hkeys
    exact ⟨hquantity, sizeOrders_again hvalid.navSlice hvalid.equity hrecorded hquantity⟩

/-- The fill of the whole order at a price of 100, free of commission. -/
def sampleFullFill (order : Order) : Fill :=
  ⟨⟨order.val.clientOrderId, "", "0001", order.val.instrument, order.val.side, order.val.quantity,
    100, 0, "EUR", ⟨0, some 0⟩⟩,
    (Fill.valid_iff _).mpr ⟨(by decide : "0001" ≠ ""), ⟨order.quantity_pos, by norm_num⟩,
      le_rfl, (by decide +kernel : requireIsoCurrency "EUR" "Fill.currency" = .ok ()), rfl⟩⟩

theorem sampleSizerInput_valid (position : Position) : (sampleSizerInput position).Valid := by
  have hitems : (sampleSizerInput position).targetWeights.items = [("CAC.PA", 1)] := rfl
  refine ⟨by norm_num [sampleSizerInput], by norm_num [sampleSizerInput], ?_, ?_,
    (by decide : "trend" ≠ ""), rfl⟩
  · rw [hitems]
    norm_num
  · intro item _
    exact ⟨100, rfl, by norm_num⟩

/-- Ten shares held and five and a half desired: four are sold and six stay, and the second
rebalance sells nothing. -/
theorem sizeOrders_converges_long : ∃ filled : Dict String Position,
    ∀ later ids, sizeOrders .exact { sampleSizerInput sampleLong with
      currentPositions := filled, now := later } ids = .ok [] := by
  obtain ⟨orders, keyed, -, -, rfl, -, hfilled⟩ :=
    sizeOrders_converges (sampleSizerInput_valid sampleLong) fun _ => 1
  obtain ⟨htotal, hagain⟩ := hfilled sampleFullFill ⟨0, some 0⟩ fun _ _ => ⟨rfl, rfl, rfl, rfl⟩
  have hheld : ∀ k ∈ keyed, HeldBy (sampleSizerInput sampleLong) k.key := by
    intro k _ position hposition _
    have hmem := Dict.get?_eq_some_iff.mp hposition
    obtain ⟨-, rfl⟩ := Prod.mk.inj (List.mem_singleton.mp hmem)
    exact ⟨rfl, rfl⟩
  obtain ⟨filled, hrun⟩ := htotal hheld rfl
  exact ⟨filled, (hagain filled hrun).2⟩

end Blive
