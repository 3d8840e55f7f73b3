import Mathlib.Data.Rat.Floor
import Blive.Domain.Positions
import Blive.Misc.DecimalContext

/-!
# The sizer

`sizing/sizer.py`: target weights become the market orders that move the current positions
there. What `uuid4()` returns is a parameter, one id for each order built. A precision is held
as coefficient and exponent, since `quantize` reads nothing but the exponent. What the operations
on the quantities round to is a parameter too.
-/

namespace Blive

structure SizerInput where
  targetWeights : Dict String Decimal
  equity : Decimal
  navSlice : Decimal
  currentPositions : Dict String Position
  instrumentResolver : String → Except PyError Instrument
  priceLookup : Instrument → Except PyError Decimal
  strategyId : String
  now : Datetime

structure Precision where
  coefficient : Int
  exponent : Int

def Precision.value (precision : Precision) : Decimal :=
  precision.coefficient * (10 : Rat) ^ precision.exponent

/-- `Decimal("1")`, the default precision. -/
def Precision.one : Precision := ⟨1, 0⟩

/-- `quantize_share_qty` -/
def quantizeShareQty (arith : Arithmetic) (raw : Decimal) (precision : Precision := .one) :
    Except PyError Decimal := do
  require (0 < precision.value) (.valueError "precision must be positive, got ")
  if raw = 0 then return 0
  else if raw > 0 then arith.quantize raw precision.exponent towardZero
  else
    let magnitude ← arith.fix (-raw)
    let down ← arith.quantize magnitude precision.exponent towardZero
    let signed ← arith.fix (-down)
    arith.quantize signed precision.exponent roundHalfEven

/-- The order for a rounded delta that is not zero. -/
def deltaOrder (inp : SizerInput) (instrument : Instrument) (rounded : Decimal) (id : UUID) :
    OrderFields where
  clientOrderId := id
  strategyId := inp.strategyId
  instrument := instrument
  side := if rounded > 0 then .buy else .sell
  quantity := |rounded|
  orderType := .mkt
  timeInForce := .day
  limitPrice := none
  stopPrice := none
  parentId := none
  tags := [("rebalance_at", inp.now.isoformat)]
  createdAt := inp.now

/-- `delta` of the loop body for one key. -/
def sizingDelta (arith : Arithmetic) (inp : SizerInput) (effectiveCapital : Decimal) (key : String)
    (targetWeight price : Decimal) : Except PyError Decimal := do
  let desiredSignedQty ←
    if targetWeight = 0 then pure 0
    else
      let share ← arith.fix (effectiveCapital * targetWeight)
      arith.fix (share / price)
  let currentQty := quantityOf (inp.currentPositions.get? key)
  arith.fix (desiredSignedQty - currentQty)

/-- The body of the loop of `size_orders`: the order of one key, if it needs one. -/
def sizeOrder (arith : Arithmetic) (inp : SizerInput) (effectiveCapital : Decimal) (key : String)
    (targetWeight : Decimal) (id : UUID) : Except PyError (Option Order) := do
  require (-1 ≤ targetWeight ∧ targetWeight ≤ 1) (.valueError "target_weight for ")
  let instrument ← inp.instrumentResolver key
  let price ← inp.priceLookup instrument
  require (0 < price) (.valueError "price for ")
  let delta ← sizingDelta arith inp effectiveCapital key targetWeight price
  let rounded ← quantizeShareQty arith delta
  if rounded = 0 then return none
  else some <$> Frozen.make (deltaOrder inp instrument rounded id)

/-- The loop of `size_orders`. -/
def sizeOrdersFrom (arith : Arithmetic) (inp : SizerInput) (effectiveCapital : Decimal) :
    List (String × Decimal) → (Nat → UUID) → Except PyError (List Order)
  | [], _ => .ok []
  | (key, targetWeight) :: rest, ids => do
      match ← sizeOrder arith inp effectiveCapital key targetWeight (ids 0) with
      | none => sizeOrdersFrom arith inp effectiveCapital rest ids
      | some order =>
          (order :: ·) <$> sizeOrdersFrom arith inp effectiveCapital rest fun n => ids (n + 1)

def sizeOrders (arith : Arithmetic) (inp : SizerInput) (ids : Nat → UUID) :
    Except PyError (List Order) := do
  require (0 < inp.navSlice) (.valueError "nav_slice must be > 0, got ")
  require (0 < inp.equity) (.valueError "equity must be > 0, got ")
  let effectiveCapital ← arith.fix (inp.equity * inp.navSlice)
  sizeOrdersFrom arith inp effectiveCapital inp.targetWeights.items ids

/-- What the sizer promises of an order: a market order for the day, on an instrument the
resolver knows, stamped with the time of the rebalance. -/
structure SizedOrder (inp : SizerInput) (order : Order) : Prop where
  resolved : ∃ key, inp.instrumentResolver key = .ok order.val.instrument
  orderType : order.val.orderType = .mkt
  timeInForce : order.val.timeInForce = .day
  createdAt : order.val.createdAt = inp.now

section Sized

variable {arith : Arithmetic} {inp : SizerInput} {capital : Decimal}

theorem sizeOrder_sized {key : String} {targetWeight : Decimal} {id : UUID} {order : Order}
    (h : sizeOrder arith inp capital key targetWeight id = .ok (some order)) :
    SizedOrder inp order := by
  obtain ⟨-, h⟩ := require_bind_eq_ok_iff.mp h
  obtain ⟨instrument, hinstrument, h⟩ := bind_eq_ok_iff.mp h
  obtain ⟨price, -, h⟩ := bind_eq_ok_iff.mp h
  obtain ⟨-, h⟩ := require_bind_eq_ok_iff.mp h
  obtain ⟨delta, -, h⟩ := bind_eq_ok_iff.mp h
  obtain ⟨rounded, -, h⟩ := bind_eq_ok_iff.mp h
  split at h
  · cases h
  · obtain ⟨_, hmake, hsome⟩ := map_eq_ok_iff.mp h
    cases hsome
    have hfields := Frozen.make_eq_ok_iff.mp hmake
    have hresolved : inp.instrumentResolver key = .ok order.val.instrument := by
      rw [hfields]
      exact hinstrument
    exact ⟨⟨key, hresolved⟩, by rw [hfields]; rfl, by rw [hfields]; rfl, by rw [hfields]; rfl⟩

theorem sizeOrdersFrom_sized {weights : List (String × Decimal)} {ids : Nat → UUID}
    {orders : List Order} (h : sizeOrdersFrom arith inp capital weights ids = .ok orders) :
    ∀ order ∈ orders, SizedOrder inp order := by
  induction weights generalizing ids orders with
  | nil =>
    cases h
    simp
  | cons weight rest ih =>
    obtain ⟨key, targetWeight⟩ := weight
    obtain ⟨sized, hsized, h⟩ := bind_eq_ok_iff.mp h
    cases sized with
    | none => exact ih h
    | some first =>
      dsimp only at h
      cases hrest : sizeOrdersFrom arith inp capital rest fun n => ids (n + 1) with
      | error e =>
        rw [hrest] at h
        cases h
      | ok others =>
        rw [hrest] at h
        cases h
        exact List.forall_mem_cons.mpr ⟨sizeOrder_sized hsized, ih hrest⟩

theorem sizeOrders_sized {ids : Nat → UUID} {orders : List Order}
    (h : sizeOrders arith inp ids = .ok orders) : ∀ order ∈ orders, SizedOrder inp order := by
  obtain ⟨-, h⟩ := require_bind_eq_ok_iff.mp h
  obtain ⟨-, h⟩ := require_bind_eq_ok_iff.mp h
  obtain ⟨_, -, h⟩ := bind_eq_ok_iff.mp h
  exact sizeOrdersFrom_sized h

end Sized

end Blive
