import Blive.Adapters.Ib.OpenOrders
import Blive.Adapters.Ib.Proofs.ReadBack
import Blive.Adapters.Ib.Proofs.Step
import Blive.Adapters.Ib.Proofs.WirePrices

/-!
# Reading a placed order back

What the parser of trades makes of the trade of an order that `submit` placed. The order's numbers
go out as `float` and come back as the decimal a `float` is written as, its prices are those of the
grid, and its id is a new one: the id that was submitted stays in `orderRef`.
-/

namespace Blive

/-! ## Numbers that went through a float -/

/-- What `Decimal(str(float(d)))` is, for a positive `d`. -/
structure ComesBack (d : Decimal) (v : DecimalValue) : Prop where
  shortest : |nearestFloat d| < 2 ^ 1024 → ∃ q, v = .finite q ∧ IsShortest (nearestFloat d) q
  overflow : 2 ^ 1024 ≤ |nearestFloat d| → v = .infinity false
  exact : |nearestFloat d| < 2 ^ 1024 → HasDigits 15 d → IsNormal d → v = .finite d

theorem nearestFloat_nonneg {d : Decimal} (h : 0 < d) : 0 ≤ nearestFloat d := by
  have hmono := nearestFloat_mono le_rfl h.le
  rwa [nearestFloat_zero] at hmono

/-- Zero is written with no significant digit. -/
theorem IsShortest.eq_zero {q : Decimal} (h : IsShortest 0 q) : q = 0 := by
  obtain ⟨z, e, hq, hz⟩ := h.fewest 0 0 ⟨0, 0, by simp, by simp⟩ nearestFloat_zero
  have hzero : z = 0 := by
    rw [pow_zero] at hz
    exact Int.abs_lt_one_iff.mp hz
  rw [hq, hzero]
  simp

theorem ComesBack.of_text {d : Decimal} {text : String} (hpos : 0 < d) (h : IsFloatText d text) :
    ∃ v, DecimalValue.ofString text = .ok v ∧ ComesBack d v := by
  unfold IsFloatText at h
  split at h
  · rename_i hrange
    obtain ⟨q, hread, hshortest⟩ := h
    refine ⟨.finite q, hread, fun _ => ⟨q, rfl, hshortest⟩, ?_, ?_⟩
    · intro hover
      exact absurd hrange (not_lt.mpr hover)
    · intro _ hdigits hnormal
      rw [hshortest.eq_of_digits hdigits hnormal]
  · rename_i hrange
    rw [decide_eq_false (not_lt.mpr hpos.le)] at h
    exact ⟨_, h, fun hlt => absurd hlt hrange, fun _ => rfl, fun hlt => absurd hlt hrange⟩

/-- A positive number comes back positive, or as zero where its `float` is zero. -/
theorem ComesBack.sign {d : Decimal} {v : DecimalValue} (hpos : 0 < d) (h : ComesBack d v) :
    (nearestFloat d = 0 ∧ v = .finite 0) ∨ (nearestFloat d ≠ 0 ∧ Positive v) := by
  rcases lt_or_ge |nearestFloat d| (2 ^ 1024) with hrange | hover
  · obtain ⟨q, rfl, hshortest⟩ := h.shortest hrange
    rcases (nearestFloat_nonneg hpos).eq_or_lt with hzero | hfloat
    · rw [← hzero] at hshortest
      exact .inl ⟨hzero.symm, by rw [hshortest.eq_zero]⟩
    · exact .inr ⟨hfloat.ne', hshortest.pos hfloat⟩
  · have hne : nearestFloat d ≠ 0 := by
      intro hzero
      rw [hzero, abs_zero] at hover
      exact absurd hover (by norm_num)
    rw [h.overflow hover]
    exact .inr ⟨hne, rfl⟩

theorem ComesBack.eq_zero {d : Decimal} {v : DecimalValue} (hpos : 0 < d) (h : ComesBack d v) :
    v.eq (.finite 0) = .ok (decide (nearestFloat d = 0)) := by
  rcases h.sign hpos with ⟨hzero, rfl⟩ | ⟨hne, hv⟩
  · simp [hzero]
  · rw [decide_eq_false hne, DecimalValue.eq_zero_eq_ok_iff]
    cases v with
    | finite q => simpa [DecimalValue.isSignaling] using (show 0 < q from hv).ne'
    | infinity negative => simp [DecimalValue.isSignaling]
    | nan signaling => exact absurd hv id

theorem ComesBack.le_zero_iff {d : Decimal} {v : DecimalValue} (hpos : 0 < d)
    (h : ComesBack d v) : v.le (.finite 0) = .ok false ↔ nearestFloat d ≠ 0 := by
  rw [← DecimalValue.lt_eq_ok_not_iff, Bool.not_false, positive_iff]
  rcases h.sign hpos with ⟨hzero, rfl⟩ | ⟨hne, hv⟩
  · simp [hzero, Positive]
  · simp [hne, hv]

/-! ## The attributes that are read -/

theorem IbAttr.HoldsFloat.toDecimal {attr : IbAttr} {d : Decimal} (hpos : 0 < d)
    (h : attr.HoldsFloat ⟨d⟩) : ∃ v, attr.toDecimal = .ok v ∧ ComesBack d v := by
  obtain ⟨text, rfl, htext⟩ := h
  exact ComesBack.of_text hpos htext

theorem totalQuantityOf_eq {attrs : IbOrderAttrs} {d : Decimal} (hpos : 0 < d)
    (h : attrs.totalQuantity.HoldsFloat ⟨d⟩) :
    ∃ v, totalQuantityOf attrs = .ok v ∧ ComesBack d v := by
  obtain ⟨v, hread, hback⟩ := h.toDecimal hpos
  obtain ⟨text, hattr, -⟩ := h
  refine ⟨v, ?_, hback⟩
  unfold totalQuantityOf
  rw [if_neg (by rw [hattr]; simp), hread]

/-- The price a `float` is read as: none where it is zero. -/
theorem decimalOrNone_eq {attr : IbAttr} {d : Decimal} (hpos : 0 < d)
    (h : attr.HoldsFloat ⟨d⟩) : ∃ v, ComesBack d v ∧
      decimalOrNone attr = .ok (if nearestFloat d = 0 then none else some v) := by
  obtain ⟨v, hread, hback⟩ := h.toDecimal hpos
  obtain ⟨text, rfl, -⟩ := h
  have hsafe : safeDecimal (.number text) = some v := by
    simp [safeDecimal, hread, Except.toOption]
  refine ⟨v, hback, ?_⟩
  unfold decimalOrNone
  rw [hsafe]
  dsimp only
  rw [hback.eq_zero hpos]
  by_cases hzero : nearestFloat d = 0 <;> simp [hzero, bind, Except.bind, pure, Except.pure]

theorem decimalOrNone_unset {attr : IbAttr} (h : attr.HoldsUnset) :
    ∃ v, decimalOrNone attr = .ok v := by
  rw [IbAttr.HoldsUnset] at h
  have hread : ∃ q, DecimalValue.ofString "1.7976931348623157e+308" = .ok (.finite q) ∧ q ≠ 0 := by
    refine ⟨17976931348623157 * 10 ^ 292, ?_, by positivity⟩
    decide +kernel
  obtain ⟨q, hread, hne⟩ := hread
  have hdecimal : attr.toDecimal = .ok (.finite q) := by rw [h]; exact hread
  have hsafe : safeDecimal attr = some (.finite q) := by
    rw [safeDecimal, hdecimal, h]
    simp [Except.toOption]
  refine ⟨some (.finite q), ?_⟩
  simp [decimalOrNone, hsafe, hne, bind, Except.bind, pure, Except.pure]

/-! ## What the IB order carries -/

/-- The order type an IB order type is read back as: an adaptive market order is a market order with
an algorithm. -/
def OrderType.readBack : OrderType → OrderType
  | .adaptiveMkt => .mkt
  | orderType => orderType

/-- What an IB order says of the order it was built from. -/
structure CarriesOver (order : Order) (ibOrder : IbOrder) : Prop where
  action : ibOrder.action = order.val.side.value
  tif : ibOrder.tif = order.val.timeInForce.value
  totalQuantity : ibOrder.totalQuantity = ⟨order.val.quantity⟩
  orderType : ibOrderTypeMap.lookup ibOrder.kind.orderType = some order.val.orderType.readBack
  lmtPrice : ibOrder.kind.limitAndStop.1 = order.val.limitPrice.map PyFloat.mk
  stopPrice : ibOrder.kind.limitAndStop.2 = order.val.stopPrice.map PyFloat.mk

theorem bliveToIbOrder_carriesOver {order : Order} {ibOrder : IbOrder}
    (h : bliveToIbOrder order = .ok ibOrder) : CarriesOver order ibOrder := by
  unfold bliveToIbOrder at h
  cases order.pricedAs with
  | unpriced hlimit hstop =>
    rw [hlimit, hstop] at h
    cases htype : order.val.orderType <;> rw [htype] at h <;> cases h
    all_goals exact ⟨rfl, rfl, rfl, by rw [htype]; rfl, by rw [hlimit]; rfl, by rw [hstop]; rfl⟩
  | lmt htype hlimit hstop =>
    rw [htype, hlimit] at h
    cases h
    exact ⟨rfl, rfl, rfl, by rw [htype]; rfl, by rw [hlimit]; rfl, by rw [hstop]; rfl⟩
  | stp htype hlimit hstop =>
    rw [htype, hstop] at h
    cases h
    exact ⟨rfl, rfl, rfl, by rw [htype]; rfl, by rw [hlimit]; rfl, by rw [hstop]; rfl⟩
  | stpLmt htype hlimit hstop =>
    rw [htype, hlimit, hstop] at h
    cases h
    exact ⟨rfl, rfl, rfl, by rw [htype]; rfl, by rw [hlimit]; rfl, by rw [hstop]; rfl⟩

theorem prepareOrder_eq_ok {order : Order} {contract : Contract} {ibOrder : IbOrder}
    (h : IBBroker.prepareOrder order = .ok ⟨order, .token contract ibOrder⟩) :
    toContract order.val.instrument = .ok contract ∧ CarriesOver order ibOrder ∧
      ibOrder.orderRef = some order.val.clientOrderId := by
  obtain ⟨contract', hcontract, h⟩ := bind_eq_ok_iff.mp h
  obtain ⟨ibOrder', hibOrder, h⟩ := bind_eq_ok_iff.mp h
  cases h
  obtain ⟨haction, htif, hquantity, htype, hlimit, hstop⟩ := bliveToIbOrder_carriesOver hibOrder
  exact ⟨hcontract, ⟨haction, htif, hquantity, htype, hlimit, hstop⟩, rfl⟩

/-- What a whole `submit` call placed: the snapped order, prepared. -/
theorem submitToEnd_placed_eq {policy : RoundingPolicy} {b : IBBroker} {order : Order}
    {increments : List PriceIncrement} {rulesAt placedAt : Utc} {orderId : Int}
    {placed : PlacedOrder}
    (h : (b.submitToEnd policy order (.ok increments) rulesAt orderId placedAt).placed =
      [placed]) :
    IBBroker.snapOrderPrices policy order increments = .ok placed.order ∧
      IBBroker.prepareOrder placed.order =
        .ok ⟨placed.order, .token placed.contract placed.ibOrder⟩ := by
  unfold IBBroker.submitToEnd at h
  cases hsubmit : b.submit order with
  | error e =>
    rw [hsubmit] at h
    cases h
  | ok call =>
    rw [hsubmit] at h
    obtain ⟨-, ⟨hunpriced, hprepared⟩ | rfl⟩ := IBBroker.submit_cases hsubmit
    · obtain ⟨contract, ibOrder, rfl⟩ := IBBroker.prepareOrder_call hprepared
      cases h
      exact ⟨IBBroker.snapOrderPrices_unpriced hunpriced, hprepared⟩
    · dsimp only [IBBroker.afterPriceRules] at h
      cases hsnapped : IBBroker.snapOrderPrices policy order increments with
      | error e =>
        rw [hsnapped] at h
        cases h
      | ok snapped =>
        cases hprepared : IBBroker.prepareOrder snapped with
        | error e =>
          simp only [hsnapped, bind, Except.bind, hprepared] at h
          cases h
        | ok call =>
          obtain ⟨contract, ibOrder, rfl⟩ := IBBroker.prepareOrder_call hprepared
          simp only [hsnapped, bind, Except.bind, hprepared] at h
          cases h
          exact ⟨rfl, hprepared⟩

/-! ## The parser -/

/-- The order the parser of trades builds. -/
def parsedFields (accountId : String) (uuid : UUID) (now : Utc) (attrs : IbOrderAttrs)
    (instrument : Wire.Instrument) (side : OrderSide) (orderType : OrderType)
    (timeInForce : TimeInForce) (limitPrice stopPrice : Option DecimalValue)
    (quantity : DecimalValue) : Wire.OrderFields where
  clientOrderId := uuid
  strategyId := "ib_" ++ accountId
  instrument := instrument
  side := side
  quantity := quantity
  orderType := orderType
  timeInForce := timeInForce
  limitPrice := if orderType ∉ [.lmt, .stpLmt] then none else limitPrice
  stopPrice := if orderType ∉ [.stp, .stpLmt] then none else stopPrice
  parentId := none
  tags := idTag "ib_order_id" attrs.orderId ++ idTag "ib_perm_id" attrs.permId
  createdAt := now.toDatetime

theorem idTag_key {key : String} {value : IbAttr} {tag : String × String}
    (h : tag ∈ idTag key value) : tag.1 = key := by
  unfold idTag at h
  split at h
  · rw [List.mem_singleton.mp h]
  · rw [List.mem_singleton.mp h]
  · cases h

theorem notMem_limitTypes (orderType : OrderType) :
    orderType ∉ [OrderType.lmt, .stpLmt] ↔ ¬ orderType.needsLimit := by
  simp [OrderType.needsLimit]

theorem notMem_stopTypes (orderType : OrderType) :
    orderType ∉ [OrderType.stp, .stpLmt] ↔ ¬ orderType.needsStop := by
  simp [OrderType.needsStop]

/-- The parsed order is valid where its quantity and the prices its type needs are positive. -/
theorem parsedFields_valid_iff {accountId : String} {uuid : UUID} {now : Utc}
    {attrs : IbOrderAttrs} {instrument : Wire.Instrument} {side : OrderSide}
    {orderType : OrderType} {timeInForce : TimeInForce}
    {limitPrice stopPrice : Option DecimalValue} {quantity : DecimalValue} :
    postInit (parsedFields accountId uuid now attrs instrument side orderType timeInForce
        limitPrice stopPrice quantity) = .ok () ↔
      quantity.le (.finite 0) = .ok false ∧
        (orderType.needsLimit → Wire.notPositive limitPrice = .ok false) ∧
        (orderType.needsStop → Wire.notPositive stopPrice = .ok false) := by
  have hstrategy : "ib_" ++ accountId ≠ "" := by simp
  have htags : ∀ tag ∈ idTag "ib_order_id" attrs.orderId ++ idTag "ib_perm_id" attrs.permId,
      tag.1 ≠ "" := by
    intro tag htag
    rcases List.mem_append.mp htag with htag | htag
    · rw [idTag_key htag]
      decide
    · rw [idTag_key htag]
      decide
  simp only [postInit, parsedFields, notMem_limitTypes, notMem_stopTypes, bind_eq_ok_iff,
    exists_const_unit, requireNot_eq_ok_iff, require_eq_ok_iff, andThen_decide_eq_ok_false_iff,
    requireUtc]
  have hutc : now.toDatetime.utcOffset = some 0 := rfl
  simp only [eq_true hstrategy, eq_true hutc, eq_true htags, true_and, and_true]
  by_cases hneedsLimit : orderType.needsLimit <;> by_cases hneedsStop : orderType.needsStop <;>
    simp [hneedsLimit, hneedsStop]

/-- What the parser of trades needs, and what it answers. -/
theorem parseIbTradeToOrder_eq_ok_iff {accountId : String} {uuid : UUID} {now : Utc}
    {attrs : IbOrderAttrs} {contract : IbContract} {read : Wire.Order} :
    parseIbTradeToOrder accountId uuid now ⟨some attrs, some contract⟩ = .ok read ↔
      ∃ instrument, instrumentFromContract contract = .ok instrument ∧
        ∃ side, parseOrderSide attrs.action = .ok side ∧
        ∃ orderType, parseOrderType attrs.orderType = .ok orderType ∧
        ∃ timeInForce, parseTimeInForce attrs.tif = .ok timeInForce ∧
        ∃ limitPrice, decimalOrNone attrs.lmtPrice = .ok limitPrice ∧
        ∃ stopPrice, decimalOrNone attrs.auxPrice = .ok stopPrice ∧
        ∃ quantity, totalQuantityOf attrs = .ok quantity ∧
          read.val = parsedFields accountId uuid now attrs instrument side orderType timeInForce
            limitPrice stopPrice quantity := by
  simp only [parseIbTradeToOrder, bind_eq_ok_iff, orRaise_eq_ok_iff, Option.some.injEq,
    exists_eq_left', exists_const_unit, requireNot_eq_ok_iff, Frozen.make_eq_ok_iff]
  constructor
  · rintro ⟨instrument, hinstrument, side, hside, orderType, htype, tif, htif, limit, hlimit, stop,
      hstop, quantity, hquantity, -, hread⟩
    exact ⟨instrument, hinstrument, side, hside, orderType, htype, tif, htif, limit, hlimit, stop,
      hstop, quantity, hquantity, hread⟩
  · rintro ⟨instrument, hinstrument, side, hside, orderType, htype, tif, htif, limit, hlimit, stop,
      hstop, quantity, hquantity, hread⟩
    have hvalid := read.valid
    rw [hread, parsedFields_valid_iff] at hvalid
    exact ⟨instrument, hinstrument, side, hside, orderType, htype, tif, htif, limit, hlimit, stop,
      hstop, quantity, hquantity, hvalid.1, hread⟩

theorem parseOrderSide_value (side : OrderSide) : parseOrderSide (.text side.value) = .ok side := by
  cases side <;> rfl

theorem parseTimeInForce_value (timeInForce : TimeInForce) :
    parseTimeInForce (.text timeInForce.value) = .ok timeInForce := by
  cases timeInForce <;> rfl

/-- The price an attribute is read as, where it holds one. -/
theorem decimalOrNone_holdsPrice {attr : IbAttr} {price : Option Decimal}
    (hpos : ∀ p ∈ price, 0 < p) (h : attr.HoldsPrice (price.map PyFloat.mk)) :
    ∃ read, decimalOrNone attr = .ok read ∧
      ∀ p ∈ price, ∃ v, ComesBack p v ∧ read = if nearestFloat p = 0 then none else some v := by
  cases price with
  | none =>
    obtain ⟨read, hread⟩ := decimalOrNone_unset h
    exact ⟨read, hread, fun p hp => nomatch hp⟩
  | some p =>
    obtain ⟨v, hback, hread⟩ := decimalOrNone_eq (hpos p rfl) h
    refine ⟨_, hread, ?_⟩
    intro p' hp'
    cases hp'
    exact ⟨v, hback, rfl⟩

theorem notPositive_eq_ok_false_iff {p : Decimal} {v : DecimalValue} (hpos : 0 < p)
    (h : ComesBack p v) :
    Wire.notPositive (if nearestFloat p = 0 then none else some v) = .ok false ↔
      nearestFloat p ≠ 0 := by
  by_cases hzero : nearestFloat p = 0
  · simp [hzero, Wire.notPositive]
  · rw [if_neg hzero]
    exact h.le_zero_iff hpos

/-! ## The placed order -/

/-- A placed order can be read back: what is left of its symbol is a symbol, and no number of it is
so small that its `float` is zero. -/
@[mk_iff] structure Readable (order : Order) : Prop where
  symbol : ibSymbol order.val.instrument ≠ "" ∧ PyStr.isStripped (ibSymbol order.val.instrument)
  quantity : nearestFloat order.val.quantity ≠ 0
  prices : ∀ p ∈ order.prices, nearestFloat p ≠ 0

theorem Order.mem_prices_iff {order : Order} {p : Decimal} :
    p ∈ order.prices ↔ p ∈ order.val.limitPrice ∨ p ∈ order.val.stopPrice := by
  rw [Order.prices, List.mem_append, Option.mem_toList, Option.mem_toList, Option.mem_def,
    Option.mem_def]

/-- The symbol decides whether the contract of a placed order is read. -/
theorem exists_instrumentFromContract_iff {instrument : Instrument} {contract : Contract}
    {text : String} (h : toContract instrument = .ok contract)
    (htext : ∀ d ∈ contract.multiplier, DecimalValue.ofString text = .ok (.finite d)) :
    (∃ read, instrumentFromContract (contract.attrs text) = .ok read) ↔
      ibSymbol instrument ≠ "" ∧ PyStr.isStripped (ibSymbol instrument) := by
  rw [instrumentFromContract_attrs h htext]
  simp only [require_bind_eq_ok_iff, Frozen.make_eq_ok_iff]
  constructor
  · rintro ⟨read, -, hread⟩
    have hvalid := read.valid
    rw [hread, Wire.InstrumentFields.valid_embed] at hvalid
    exact readBackFields_valid_iff.mp hvalid
  · intro hsymbol
    have hvalid := readBackFields_valid_iff.mpr hsymbol
    exact ⟨⟨.embed (readBackFields instrument), (Wire.InstrumentFields.valid_embed _).mpr hvalid⟩,
      hsymbol.1, rfl⟩

theorem Order.needsLimit_iff (order : Order) :
    order.val.orderType.needsLimit ↔ ∃ p, order.val.limitPrice = some p := by
  obtain ⟨-, -, hlimit, hnoLimit, -⟩ := (Order.valid_iff order.val).mp order.valid
  constructor
  · intro hneeds
    obtain ⟨p, hp, -⟩ := positivePrice_iff.mp (hlimit hneeds)
    exact ⟨p, hp⟩
  · rintro ⟨p, hp⟩
    by_contra hneeds
    rw [hnoLimit hneeds] at hp
    cases hp

theorem Order.needsStop_iff (order : Order) :
    order.val.orderType.needsStop ↔ ∃ p, order.val.stopPrice = some p := by
  obtain ⟨-, -, -, -, hstop, hnoStop, -⟩ := (Order.valid_iff order.val).mp order.valid
  constructor
  · intro hneeds
    obtain ⟨p, hp, -⟩ := positivePrice_iff.mp (hstop hneeds)
    exact ⟨p, hp⟩
  · rintro ⟨p, hp⟩
    by_contra hneeds
    rw [hnoStop hneeds] at hp
    cases hp

/-! ### A price that an order needs -/

section Needed

variable {needs : Prop} {price : Option Decimal} {read : Option DecimalValue}
  (hneeds : needs ↔ ∃ p, price = some p)
  (hback : ∀ p ∈ price, ∃ v, ComesBack p v ∧
    read = if nearestFloat p = 0 then none else some v)

include hneeds hback

/-- It is read as positive where its `float` is not zero. -/
theorem needed_positive_iff (hpos : ∀ p ∈ price, 0 < p) :
    (needs → Wire.notPositive read = .ok false) ↔ ∀ p ∈ price, nearestFloat p ≠ 0 := by
  rw [hneeds]
  constructor
  · intro h p hp
    obtain ⟨v, hv, rfl⟩ := hback p hp
    exact (notPositive_eq_ok_false_iff (hpos p hp) hv).mp (h ⟨p, hp⟩)
  · rintro h ⟨p, hp⟩
    obtain ⟨v, hv, rfl⟩ := hback p hp
    exact (notPositive_eq_ok_false_iff (hpos p hp) hv).mpr (h p hp)

/-- And then it comes back. -/
theorem needed_comesBack [Decidable needs] (hnonzero : ∀ p ∈ price, nearestFloat p ≠ 0) :
    Option.Rel ComesBack price (if ¬ needs then none else read) := by
  cases price with
  | none =>
    rw [if_pos (by rw [hneeds]; simp)]
    exact .none
  | some p =>
    obtain ⟨v, hv, rfl⟩ := hback p rfl
    rw [if_neg (by rw [hneeds]; simp), if_neg (hnonzero p rfl)]
    exact .some hv

end Needed

/-- What an order of IB's is read back as: the order that was placed, under a new id, with the
numbers its `float`s are written as. -/
structure ReadBackOf (accountId : String) (uuid : UUID) (placed : Order) (read : Wire.Order) :
    Prop where
  clientOrderId : read.val.clientOrderId = uuid
  strategyId : read.val.strategyId = "ib_" ++ accountId
  instrument : read.val.instrument.val = .embed (readBackFields placed.val.instrument)
  side : read.val.side = placed.val.side
  orderType : read.val.orderType = placed.val.orderType.readBack
  timeInForce : read.val.timeInForce = placed.val.timeInForce
  quantity : ComesBack placed.val.quantity read.val.quantity
  limitPrice : Option.Rel ComesBack placed.val.limitPrice read.val.limitPrice
  stopPrice : Option.Rel ComesBack placed.val.stopPrice read.val.stopPrice

section Placed

variable {order : Order} {contract : Contract} {ibOrder : IbOrder} {text cid accountId : String}
  {attrs : IbOrderAttrs} {uuid : UUID} {now : Utc} {read : Wire.Order}

theorem needsLimit_readBack (orderType : OrderType) :
    orderType.readBack.needsLimit ↔ orderType.needsLimit := by
  cases orderType <;> simp [OrderType.readBack, OrderType.needsLimit]

theorem needsStop_readBack (orderType : OrderType) :
    orderType.readBack.needsStop ↔ orderType.needsStop := by
  cases orderType <;> simp [OrderType.readBack, OrderType.needsStop]

/-- The trade of an order that was prepared, as the parser reads it: everything but the contract
has a value. -/
theorem parseIbTradeToOrder_prepared (accountId : String) (uuid : UUID) (now : Utc)
    (hcarries : CarriesOver order ibOrder) (hshow : attrs.Show ibOrder cid) :
    ∃ limitPrice stopPrice quantity, ComesBack order.val.quantity quantity ∧
      (∀ p ∈ order.val.limitPrice, ∃ v, ComesBack p v ∧
        limitPrice = if nearestFloat p = 0 then none else some v) ∧
      (∀ p ∈ order.val.stopPrice, ∃ v, ComesBack p v ∧
        stopPrice = if nearestFloat p = 0 then none else some v) ∧
      ∀ (contract : IbContract) (read : Wire.Order),
        parseIbTradeToOrder accountId uuid now ⟨some attrs, some contract⟩ = .ok read ↔
          ∃ instrument, instrumentFromContract contract = .ok instrument ∧
            read.val = parsedFields accountId uuid now attrs instrument order.val.side
              order.val.orderType.readBack order.val.timeInForce limitPrice stopPrice
              quantity := by
  have hlimitPos : ∀ p ∈ order.val.limitPrice, 0 < p := fun p hp =>
    order.prices_pos p (Order.mem_prices_iff.mpr (.inl hp))
  have hstopPos : ∀ p ∈ order.val.stopPrice, 0 < p := fun p hp =>
    order.prices_pos p (Order.mem_prices_iff.mpr (.inr hp))
  have hlmt := hshow.lmtPrice
  have haux := hshow.auxPrice
  have htotal := hshow.totalQuantity
  rw [hcarries.lmtPrice] at hlmt
  rw [hcarries.stopPrice] at haux
  rw [hcarries.totalQuantity] at htotal
  obtain ⟨limitPrice, hlimit, hlimitBack⟩ := decimalOrNone_holdsPrice hlimitPos hlmt
  obtain ⟨stopPrice, hstop, hstopBack⟩ := decimalOrNone_holdsPrice hstopPos haux
  obtain ⟨quantity, hquantity, hquantityBack⟩ := totalQuantityOf_eq order.quantity_pos htotal
  have hside : parseOrderSide attrs.action = .ok order.val.side := by
    rw [hshow.action, hcarries.action]
    exact parseOrderSide_value _
  have htif : parseTimeInForce attrs.tif = .ok order.val.timeInForce := by
    rw [hshow.tif, hcarries.tif]
    exact parseTimeInForce_value _
  have htype : parseOrderType attrs.orderType = .ok order.val.orderType.readBack := by
    rw [hshow.orderType, parseOrderType, IbAttr.lookupIn, hcarries.orderType]
    rfl
  refine ⟨limitPrice, stopPrice, quantity, hquantityBack, hlimitBack, hstopBack, ?_⟩
  intro contract read
  rw [parseIbTradeToOrder_eq_ok_iff]
  simp only [hside, htype, htif, hlimit, hstop, hquantity, Except.ok.injEq, exists_eq_left']

/-- The trade of a prepared order: when it is read, and what it is read as. -/
theorem readBack_of_prepared
    (h : IBBroker.prepareOrder order = .ok ⟨order, .token contract ibOrder⟩)
    (htext : ∀ d ∈ contract.multiplier, DecimalValue.ofString text = .ok (.finite d))
    (hshow : attrs.Show ibOrder cid) :
    ((∃ read, parseIbTradeToOrder accountId uuid now
        ⟨some attrs, some (contract.attrs text)⟩ = .ok read) ↔ Readable order) ∧
      ∀ read, parseIbTradeToOrder accountId uuid now
        ⟨some attrs, some (contract.attrs text)⟩ = .ok read →
          ReadBackOf accountId uuid order read := by
  obtain ⟨hcontract, hcarries, -⟩ := prepareOrder_eq_ok h
  obtain ⟨limitPrice, stopPrice, quantity, hquantity, hlimit, hstop, hparse⟩ :=
    parseIbTradeToOrder_prepared accountId uuid now hcarries hshow
  have hlimitPos : ∀ p ∈ order.val.limitPrice, 0 < p := fun p hp =>
    order.prices_pos p (Order.mem_prices_iff.mpr (.inl hp))
  have hstopPos : ∀ p ∈ order.val.stopPrice, 0 < p := fun p hp =>
    order.prices_pos p (Order.mem_prices_iff.mpr (.inr hp))
  have hvalid : ∀ instrument, postInit (parsedFields accountId uuid now attrs instrument
      order.val.side order.val.orderType.readBack order.val.timeInForce limitPrice stopPrice
      quantity) = .ok () ↔ nearestFloat order.val.quantity ≠ 0 ∧
        ∀ p ∈ order.prices, nearestFloat p ≠ 0 := by
    intro instrument
    rw [parsedFields_valid_iff, needsLimit_readBack, needsStop_readBack,
      needed_positive_iff order.needsLimit_iff hlimit hlimitPos,
      needed_positive_iff order.needsStop_iff hstop hstopPos, hquantity.le_zero_iff
        order.quantity_pos]
    simp only [Order.mem_prices_iff, or_imp, forall_and]
  constructor
  · rw [readable_iff, ← exists_instrumentFromContract_iff hcontract htext]
    constructor
    · rintro ⟨read, hread⟩
      obtain ⟨instrument, hinstrument, hfields⟩ := (hparse _ read).mp hread
      have hnonzero := read.valid
      rw [hfields, hvalid] at hnonzero
      exact ⟨⟨instrument, hinstrument⟩, hnonzero⟩
    · rintro ⟨⟨instrument, hinstrument⟩, hnonzero⟩
      exact ⟨⟨_, (hvalid instrument).mpr hnonzero⟩, (hparse _ _).mpr ⟨instrument, hinstrument, rfl⟩⟩
  · intro read hread
    obtain ⟨instrument, hinstrument, hfields⟩ := (hparse _ read).mp hread
    have hnonzero := read.valid
    rw [hfields, hvalid] at hnonzero
    rw [instrumentFromContract_attrs hcontract htext, require_bind_eq_ok_iff,
      Frozen.make_eq_ok_iff] at hinstrument
    have hlimitRel := needed_comesBack order.needsLimit_iff hlimit fun p hp =>
      hnonzero.2 p (Order.mem_prices_iff.mpr (.inl hp))
    have hstopRel := needed_comesBack order.needsStop_iff hstop fun p hp =>
      hnonzero.2 p (Order.mem_prices_iff.mpr (.inr hp))
    refine ⟨?_, ?_, ?_, ?_, ?_, ?_, ?_, ?_, ?_⟩ <;> rw [hfields]
    · rfl
    · rfl
    · exact hinstrument.2
    · rfl
    · rfl
    · rfl
    · exact hquantity
    · simpa only [parsedFields, notMem_limitTypes, needsLimit_readBack] using hlimitRel
    · simpa only [parsedFields, notMem_stopTypes, needsStop_readBack] using hstopRel

/-- The trades that are read are listed. -/
theorem mem_ibOpenOrders {connected : Bool} {trade : IbTrade}
    {response : List (Option (IbTrade × UUID × Utc))} {orders : List Wire.Order}
    (hlisted : ibOpenOrders connected accountId response = .ok orders)
    (htrade : some (trade, uuid, now) ∈ response)
    (hread : parseIbTradeToOrder accountId uuid now trade = .ok read) : read ∈ orders := by
  obtain ⟨-, hcollect⟩ := require_bind_eq_ok_iff.mp hlisted
  have hmem : (trade, uuid, now) ∈ response.filterMap id :=
    List.mem_filterMap.mpr ⟨_, htrade, rfl⟩
  exact mem_collect hcollect hmem hread

end Placed

/-! ## Submission and back -/

/-- The snapped order: each price is snapped, and nothing else changes. -/
structure SnapsTo (policy : RoundingPolicy) (increments : List PriceIncrement)
    (order snapped : Order) : Prop where
  limitPrice :
    (order.val.limitPrice.mapM fun p => snapPrice .default p increments order.val.side policy) =
      .ok snapped.val.limitPrice
  stopPrice :
    (order.val.stopPrice.mapM fun p => snapPrice .default p increments order.val.side policy) =
      .ok snapped.val.stopPrice
  rest : snapped.val = { order.val with
    limitPrice := snapped.val.limitPrice, stopPrice := snapped.val.stopPrice }

section Submitted

variable {policy : RoundingPolicy} {b : IBBroker} {order : Order} {increments : List PriceIncrement}
  {rulesAt placedAt now : Utc} {orderId : Int} {placed : PlacedOrder}
  {text cid accountId : String} {attrs : IbOrderAttrs} {uuid : UUID}

/-- The trade of an order that was submitted carries its id in `orderRef`. It is read unless its
symbol or a number of it does not survive; what is read is the snapped order, its numbers as their
`float`s are written, under an id of its own. -/
theorem placedOrder_readBack
    (hplaced : (b.submitToEnd policy order (.ok increments) rulesAt orderId placedAt).placed =
      [placed])
    (htext : ∀ d ∈ placed.contract.multiplier, DecimalValue.ofString text = .ok (.finite d))
    (hshow : attrs.Show placed.ibOrder cid) :
    placed.ibOrder.orderRef = some order.val.clientOrderId ∧
      SnapsTo policy increments order placed.order ∧
      ((∃ read, parseIbTradeToOrder accountId uuid now
          ⟨some attrs, some (placed.contract.attrs text)⟩ = .ok read) ↔ Readable placed.order) ∧
      ∀ read, parseIbTradeToOrder accountId uuid now
          ⟨some attrs, some (placed.contract.attrs text)⟩ = .ok read →
        ReadBackOf accountId uuid placed.order read ∧
        ∀ connected response orders,
          some (⟨some attrs, some (placed.contract.attrs text)⟩, uuid, now) ∈ response →
          ibOpenOrders connected accountId response = .ok orders → read ∈ orders := by
  obtain ⟨hsnapped, hprepared⟩ := submitToEnd_placed_eq hplaced
  obtain ⟨hlimit, hstop, hrest⟩ := IBBroker.snapOrderPrices_fields hsnapped
  obtain ⟨-, -, href⟩ := prepareOrder_eq_ok hprepared
  obtain ⟨hreadable, hback⟩ := readBack_of_prepared hprepared htext hshow
  refine ⟨?_, ⟨hlimit, hstop, hrest⟩, hreadable, ?_⟩
  · rw [href, hrest]
  · intro read hread
    refine ⟨hback read hread, ?_⟩
    intro connected response orders htrade hlisted
    exact mem_ibOpenOrders hlisted htrade hread

end Submitted

/-! ### An order that comes back under another id -/

theorem isFloatText_of_digits {d : Decimal} {text : String} (hnormal : IsNormal d)
    (hmax : d ≤ 2 ^ 1023) (hdigits : HasDigits 15 d)
    (hread : DecimalValue.ofString text = .ok (.finite d)) : IsFloatText d text := by
  have hpow : IsBinary64 ((2 : Decimal) ^ 1023) := by
    exact_mod_cast isBinary64_two_zpow (e := 1023) (by norm_num)
  have hnonneg : 0 ≤ d := (zpow_pos (by norm_num) _).le.trans hnormal
  have hrange : |nearestFloat d| < 2 ^ 1024 := by
    rw [abs_of_pos hnormal.nearestFloat_pos]
    calc nearestFloat d ≤ 2 ^ 1023 := hpow.nearestFloat_le hnonneg hmax
      _ < 2 ^ 1024 := pow_lt_pow_right₀ (by norm_num) (by norm_num)
  unfold IsFloatText
  rw [if_pos hrange]
  exact ⟨d, hread, isShortest_of_digits hdigits hnormal⟩

/-- `samplePennyOrder`, at the price of one cent that it is snapped to. -/
def sampleCentOrder : Order :=
  ⟨{ samplePennyOrder.val with limitPrice := some (1 / 100) }, by decide +kernel⟩

/-- The trade of `samplePennyOrder`. -/
def samplePlaced : PlacedOrder :=
  ⟨sampleCentOrder, ⟨"CAC", "STK", "EUR", "SBF", "", none⟩,
    ⟨.limitOrder ⟨1 / 100⟩, "BUY", ⟨1⟩, "DAY", "", [], some 1⟩, 7⟩

def sampleOrderAttrs : IbOrderAttrs where
  action := .text "BUY"
  orderType := .text "LMT"
  tif := .text "DAY"
  orderId := .number "7"
  permId := .number "0"
  lmtPrice := .number "0.01"
  auxPrice := .number "1.7976931348623157e+308"
  totalQuantity := .number "1.0"
  orderRef := .text "00000000-0000-0000-0000-000000000001"

/-- A price between a cent and a unit is well inside the range of a `float`. -/
theorem isFloatText_of_small {d : Decimal} {text : String} (hmin : 1 / 100 ≤ d) (hmax : d ≤ 1)
    (hdigits : HasDigits 15 d) (hread : DecimalValue.ofString text = .ok (.finite d)) :
    IsFloatText d text := by
  have hnormal : IsNormal d := by
    calc (2 : Decimal) ^ (-1022 : ℤ) ≤ 2 ^ (-7 : ℤ) :=
          zpow_le_zpow_right₀ (by norm_num) (by norm_num)
      _ ≤ 1 / 100 := by norm_num
      _ ≤ d := hmin
  exact isFloatText_of_digits hnormal (hmax.trans (one_le_pow₀ (by norm_num))) hdigits hread

theorem sampleOrderAttrs_show :
    sampleOrderAttrs.Show samplePlaced.ibOrder "00000000-0000-0000-0000-000000000001" := by
  have hquantity : IsFloatText 1 "1.0" := isFloatText_of_small (by norm_num) le_rfl
    ⟨1, 0, by simp, by norm_num⟩ (by decide +kernel)
  have hlimit : IsFloatText (1 / 100) "0.01" := isFloatText_of_small le_rfl (by norm_num)
    ⟨1, -2, by norm_num, by norm_num⟩ (by decide +kernel)
  exact ⟨rfl, rfl, rfl, ⟨"1.0", rfl, hquantity⟩, ⟨"0.01", rfl, hlimit⟩, rfl, fun _ => rfl⟩

theorem samplePlaced_submitted :
    ((IBBroker.init.connect ⟨0⟩).submitToEnd .aggressive samplePennyOrder (.ok [centTick]) ⟨1⟩ 7
      ⟨2⟩).placed = [samplePlaced] := by
  decide +kernel

theorem placedOrder_readBack_sample :
    samplePlaced.ibOrder.orderRef = some samplePennyOrder.val.clientOrderId ∧
      SnapsTo .aggressive [centTick] samplePennyOrder samplePlaced.order ∧
      ((∃ read, parseIbTradeToOrder "DU1" 0x40008000000000000002 ⟨3⟩
          ⟨some sampleOrderAttrs, some (samplePlaced.contract.attrs "")⟩ = .ok read) ↔
        Readable samplePlaced.order) ∧
      ∀ read, parseIbTradeToOrder "DU1" 0x40008000000000000002 ⟨3⟩
          ⟨some sampleOrderAttrs, some (samplePlaced.contract.attrs "")⟩ = .ok read →
        ReadBackOf "DU1" 0x40008000000000000002 samplePlaced.order read ∧
        ∀ connected response orders,
          some (⟨some sampleOrderAttrs, some (samplePlaced.contract.attrs "")⟩,
            0x40008000000000000002, ⟨3⟩) ∈ response →
          ibOpenOrders connected "DU1" response = .ok orders → read ∈ orders :=
  placedOrder_readBack samplePlaced_submitted (by simp [samplePlaced]) sampleOrderAttrs_show

/-- The order is read back as it was submitted. -/
structure RoundTrips (order : Order) (read : Wire.Order) : Prop where
  clientOrderId : read.val.clientOrderId = order.val.clientOrderId
  side : read.val.side = order.val.side
  orderType : read.val.orderType = order.val.orderType
  timeInForce : read.val.timeInForce = order.val.timeInForce
  quantity : read.val.quantity = .finite order.val.quantity
  limitPrice : read.val.limitPrice = order.val.limitPrice.map .finite
  stopPrice : read.val.stopPrice = order.val.stopPrice.map .finite

theorem not_roundTrips :
    ¬ ∀ (policy : RoundingPolicy) (b : IBBroker) (order : Order) (increments : List PriceIncrement)
      (rulesAt placedAt now : Utc) (orderId : Int) (placed : PlacedOrder)
      (text cid accountId : String) (attrs : IbOrderAttrs) (uuid : UUID),
      (b.submitToEnd policy order (.ok increments) rulesAt orderId placedAt).placed = [placed] →
      (∀ d ∈ placed.contract.multiplier, DecimalValue.ofString text = .ok (.finite d)) →
      attrs.Show placed.ibOrder cid →
      ∃ read, parseIbTradeToOrder accountId uuid now
          ⟨some attrs, some (placed.contract.attrs text)⟩ = .ok read ∧ RoundTrips order read := by
  intro h
  obtain ⟨read, hread, htrip⟩ := h .aggressive (IBBroker.init.connect ⟨0⟩) samplePennyOrder
    [centTick] ⟨1⟩ ⟨2⟩ ⟨3⟩ 7 samplePlaced "" _ "DU1" sampleOrderAttrs 0x40008000000000000002
    samplePlaced_submitted (by simp [samplePlaced]) sampleOrderAttrs_show
  obtain ⟨-, hprepared⟩ := submitToEnd_placed_eq samplePlaced_submitted
  have hback := (readBack_of_prepared hprepared (by simp [samplePlaced])
    sampleOrderAttrs_show).2 read hread
  have hid : (0x40008000000000000002 : UUID) = 1 :=
    hback.clientOrderId.symm.trans htrip.clientOrderId
  exact absurd hid (by decide)

end Blive
