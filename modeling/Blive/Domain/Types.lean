import Mathlib.Data.Rat.Defs
import Mathlib.Algebra.Order.Ring.Rat
import Blive.Misc.Dict
import Blive.Misc.Py

/-!
# Domain value types

The enumerations and frozen dataclasses of `domain/types.py`. Each dataclass is a record of
fields with the `postInit` its `__post_init__` runs, check by check in the source's order;
its instances are the `Frozen` records, so that no invalid order, fill or position exists.
-/

namespace Blive

abbrev ClientOrderId := UUID

inductive Tradability where
  | spot | cfd | spreadBet
  deriving DecidableEq, Repr

inductive OrderSide where
  | buy | sell
  deriving DecidableEq, Repr

inductive OrderType where
  | mkt | lmt | moc | loc | stp | stpLmt | adaptiveMkt
  deriving DecidableEq, Repr

inductive TimeInForce where
  | day | gtc | ioc | fok | opg
  deriving DecidableEq, Repr

inductive OrderState where
  | initialized | submitPending | submitted | accepted | partiallyFilled
  | filled | canceled | rejected | expired
  deriving DecidableEq, Repr

/-- The sign a quantity on the side has in a position. -/
def OrderSide.sign : OrderSide → Decimal
  | .buy => 1
  | .sell => -1

/-- `TERMINAL_ORDER_STATES` -/
def terminalOrderStates : List OrderState := [.filled, .canceled, .rejected, .expired]

inductive OrderEventKind where
  | submitted | accepted | partialFill | filled | canceled | rejected | expired
  deriving DecidableEq, Repr

inductive AssetClass where
  | equity | etf | index | fx | future | option
  deriving DecidableEq, Repr

/-- `_require_utc` -/
def requireUtc (value : Datetime) (fieldName : String) : Except PyError Unit :=
  require (value.utcOffset = some 0) (.valueError (fieldName ++ " must be timezone-aware UTC"))

/-- `_require_iso_currency` -/
def requireIsoCurrency (value fieldName : String) : Except PyError Unit :=
  require (value.toList.length = 3 ∧ value.toList.all PyStr.isUpperChar)
    (.valueError (fieldName ++ " must be a 3-letter uppercase ISO 4217 code"))

structure InstrumentFields where
  symbol : String
  venue : String
  currency : String
  assetClass : AssetClass
  multiplier : Decimal := 1
  tradability : Tradability := .spot
  deriving DecidableEq

instance : PostInit InstrumentFields where
  postInit i := do
    require (i.symbol ≠ "" ∧ PyStr.isStripped i.symbol ∧ ' ' ∉ i.symbol.toList)
      (.valueError "Instrument.symbol must be non-empty and whitespace-free")
    require (i.venue ≠ "" ∧ PyStr.isUpper i.venue)
      (.valueError "Instrument.venue must be uppercase non-empty")
    requireIsoCurrency i.currency "Instrument.currency"
    require (0 < i.multiplier) (.valueError "Instrument.multiplier must be positive")

abbrev Instrument := Frozen InstrumentFields

/-- `BarFreq` -/
inductive BarFreq where
  | oneMinute | fiveMinutes | fifteenMinutes | oneHour | oneDay
  deriving DecidableEq, Repr

structure BarFields where
  instrument : Instrument
  openTimeUtc : Datetime
  closeTimeUtc : Datetime
  openPrice : Decimal
  high : Decimal
  low : Decimal
  close : Decimal
  volume : Decimal
  vwap : Option Decimal := none
  deriving DecidableEq

instance : PostInit BarFields where
  postInit b := do
    requireUtc b.openTimeUtc "Bar.open_time_utc"
    requireUtc b.closeTimeUtc "Bar.close_time_utc"
    require (b.openTimeUtc.micros < b.closeTimeUtc.micros)
      (.valueError "Bar.close_time_utc must be > open_time_utc")
    require (0 < b.openPrice ∧ 0 < b.close)
      (.valueError "Bar prices must be strictly positive")
    require (b.low ≤ b.openPrice ∧ b.openPrice ≤ b.high ∧ b.low ≤ b.close ∧ b.close ≤ b.high)
      (.valueError "Bar OHLC ordering invariant violated (low ≤ open/close ≤ high)")
    require (0 ≤ b.volume) (.valueError "Bar.volume must be non-negative")
    require (∀ v ∈ b.vwap, b.low ≤ v ∧ v ≤ b.high)
      (.valueError "Bar.vwap, when set, must lie in [low, high]")

abbrev Bar := Frozen BarFields

structure OrderFields where
  clientOrderId : ClientOrderId
  strategyId : String
  instrument : Instrument
  side : OrderSide
  quantity : Decimal
  orderType : OrderType
  timeInForce : TimeInForce
  limitPrice : Option Decimal
  stopPrice : Option Decimal
  parentId : Option UUID
  tags : List (String × String)
  createdAt : Datetime
  deriving DecidableEq

/-- `needs_limit` of `Order.__post_init__` -/
def OrderType.needsLimit (t : OrderType) : Prop := t = .lmt ∨ t = .stpLmt

/-- `needs_stop` of `Order.__post_init__` -/
def OrderType.needsStop (t : OrderType) : Prop := t = .stp ∨ t = .stpLmt

instance (t : OrderType) : Decidable t.needsLimit := inferInstanceAs (Decidable (_ ∨ _))

instance (t : OrderType) : Decidable t.needsStop := inferInstanceAs (Decidable (_ ∨ _))

/-- A price that is set and strictly positive. -/
def positivePrice (p : Option Decimal) : Prop := p.any (0 < ·)

instance (p : Option Decimal) : Decidable (positivePrice p) := inferInstanceAs (Decidable (_ = _))

instance : PostInit OrderFields where
  postInit o := do
    require (o.strategyId ≠ "") (.valueError "Order.strategy_id must be non-empty")
    require (0 < o.quantity) (.valueError "Order.quantity must be strictly positive")
    require (o.orderType.needsLimit → positivePrice o.limitPrice)
      (.valueError "Order.limit_price required and positive for order_type=")
    require (¬ o.orderType.needsLimit → o.limitPrice = none)
      (.valueError "Order.limit_price must be None for order_type=")
    require (o.orderType.needsStop → positivePrice o.stopPrice)
      (.valueError "Order.stop_price required and positive for order_type=")
    require (¬ o.orderType.needsStop → o.stopPrice = none)
      (.valueError "Order.stop_price must be None for order_type=")
    requireUtc o.createdAt "Order.created_at"
    require (∀ tag ∈ o.tags, tag.1 ≠ "") (.valueError "Order.tags keys must be non-empty")

abbrev Order := Frozen OrderFields

structure FillFields where
  clientOrderId : ClientOrderId
  venueOrderId : String
  venueExecId : String
  instrument : Instrument
  side : OrderSide
  quantity : Decimal
  price : Decimal
  commission : Decimal
  currency : String
  timeUtc : Datetime
  deriving DecidableEq

instance : PostInit FillFields where
  postInit f := do
    require (f.venueExecId ≠ "")
      (.valueError "Fill.venue_exec_id must be non-empty (idempotency key)")
    require (0 < f.quantity ∧ 0 < f.price)
      (.valueError "Fill.quantity and price must be strictly positive")
    require (0 ≤ f.commission) (.valueError "Fill.commission must be non-negative")
    requireIsoCurrency f.currency "Fill.currency"
    requireUtc f.timeUtc "Fill.time_utc"

abbrev Fill := Frozen FillFields

/-- `fill.quantity if fill.side == OrderSide.BUY else -fill.quantity` -/
def Fill.signedQty (fill : Fill) : Decimal :=
  if fill.val.side = .buy then fill.val.quantity else -fill.val.quantity

structure PositionFields where
  instrument : Instrument
  strategyId : String
  quantity : Decimal
  avgCost : Decimal
  currency : String
  openedAt : Option Datetime
  updatedAt : Datetime
  deriving DecidableEq

instance : PostInit PositionFields where
  postInit p := do
    require (p.strategyId ≠ "") (.valueError "Position.strategy_id must be non-empty")
    requireIsoCurrency p.currency "Position.currency"
    require (p.currency = p.instrument.val.currency) (.valueError "Position.currency (")
    if p.quantity = 0 then
      require (p.openedAt = none)
        (.valueError "Position.opened_at must be None when quantity == 0")
    else
      match p.openedAt with
      | none => .error (.valueError "Position.opened_at required when quantity != 0")
      | some openedAt =>
          requireUtc openedAt "Position.opened_at"
          require (0 < p.avgCost)
            (.valueError "Position.avg_cost must be positive when quantity != 0")
    requireUtc p.updatedAt "Position.updated_at"

abbrev Position := Frozen PositionFields

structure OrderUpdateFields where
  quantity : Option Decimal := none
  limitPrice : Option Decimal := none
  stopPrice : Option Decimal := none
  deriving DecidableEq

instance : PostInit OrderUpdateFields where
  postInit u := do
    require (¬ (u.quantity = none ∧ u.limitPrice = none ∧ u.stopPrice = none))
      (.valueError "OrderUpdate must change at least one field")
    require (∀ v ∈ u.quantity, 0 < v)
      (.valueError "OrderUpdate.quantity, when set, must be strictly positive")
    require (∀ v ∈ u.limitPrice, 0 < v)
      (.valueError "OrderUpdate.limit_price, when set, must be strictly positive")
    require (∀ v ∈ u.stopPrice, 0 < v)
      (.valueError "OrderUpdate.stop_price, when set, must be strictly positive")

abbrev OrderUpdate := Frozen OrderUpdateFields

/-! ## What the validators guarantee -/

/-- The check of a currency does not depend on the field it is reported under. -/
theorem requireIsoCurrency_eq_ok_iff {c n : String} :
    requireIsoCurrency c n = .ok () ↔
      c.toList.length = 3 ∧ c.toList.all PyStr.isUpperChar := require_eq_ok_iff

theorem Instrument.iso_currency (i : Instrument) (n : String) :
    requireIsoCurrency i.val.currency n = .ok () := by
  have h := i.valid
  simp only [postInit, require_bind_eq_ok_iff, requireIsoCurrency] at h
  exact requireIsoCurrency_eq_ok_iff.mpr h.2.2.1

theorem Bar.valid_iff (b : BarFields) : postInit b = .ok () ↔
    b.openTimeUtc.utcOffset = some 0 ∧ b.closeTimeUtc.utcOffset = some 0 ∧
      b.openTimeUtc.micros < b.closeTimeUtc.micros ∧ (0 < b.openPrice ∧ 0 < b.close) ∧
      (b.low ≤ b.openPrice ∧ b.openPrice ≤ b.high ∧ b.low ≤ b.close ∧ b.close ≤ b.high) ∧
      0 ≤ b.volume ∧ ∀ v ∈ b.vwap, b.low ≤ v ∧ v ≤ b.high := by
  simp only [postInit, requireUtc, require_bind_eq_ok_iff, require_eq_ok_iff]

theorem Bar.closeTimeUtc_utc (b : Bar) : b.val.closeTimeUtc.utcOffset = some 0 :=
  ((Bar.valid_iff b.val).mp b.valid).2.1

theorem Bar.close_pos (b : Bar) : 0 < b.val.close :=
  ((Bar.valid_iff b.val).mp b.valid).2.2.2.1.2

theorem Order.valid_iff (o : OrderFields) : postInit o = .ok () ↔
    o.strategyId ≠ "" ∧ 0 < o.quantity ∧
      (o.orderType.needsLimit → positivePrice o.limitPrice) ∧
      (¬ o.orderType.needsLimit → o.limitPrice = none) ∧
      (o.orderType.needsStop → positivePrice o.stopPrice) ∧
      (¬ o.orderType.needsStop → o.stopPrice = none) ∧
      o.createdAt.utcOffset = some 0 ∧ ∀ tag ∈ o.tags, tag.1 ≠ "" := by
  simp only [postInit, requireUtc, require_bind_eq_ok_iff, require_eq_ok_iff]

theorem Order.quantity_pos (o : Order) : 0 < o.val.quantity :=
  ((Order.valid_iff o.val).mp o.valid).2.1

theorem Fill.valid_iff (f : FillFields) : postInit f = .ok () ↔
    f.venueExecId ≠ "" ∧ (0 < f.quantity ∧ 0 < f.price) ∧ 0 ≤ f.commission ∧
      requireIsoCurrency f.currency "Fill.currency" = .ok () ∧ f.timeUtc.utcOffset = some 0 := by
  simp only [postInit, requireUtc, requireIsoCurrency, require_bind_eq_ok_iff, require_eq_ok_iff]

theorem Fill.quantity_pos (f : Fill) : 0 < f.val.quantity :=
  ((Fill.valid_iff f.val).mp f.valid).2.1.1

theorem Fill.price_pos (f : Fill) : 0 < f.val.price :=
  ((Fill.valid_iff f.val).mp f.valid).2.1.2

theorem Fill.time_utc (f : Fill) : f.val.timeUtc.utcOffset = some 0 :=
  ((Fill.valid_iff f.val).mp f.valid).2.2.2.2

theorem Position.valid_iff (p : PositionFields) : postInit p = .ok () ↔
    p.strategyId ≠ "" ∧ requireIsoCurrency p.currency "Position.currency" = .ok () ∧
      p.currency = p.instrument.val.currency ∧ (p.quantity = 0 → p.openedAt = none) ∧
      (p.quantity ≠ 0 → 0 < p.avgCost ∧ ∃ t, p.openedAt = some t ∧ t.utcOffset = some 0) ∧
      p.updatedAt.utcOffset = some 0 := by
  simp only [postInit, requireUtc, requireIsoCurrency, require_bind_eq_ok_iff, require_eq_ok_iff]
  by_cases hq : p.quantity = 0
  · simp [hq, require_bind_eq_ok_iff, require_eq_ok_iff]
  · cases hopened : p.openedAt with
    | none => simp [hq, bind, Except.bind]
    | some t =>
      simp only [hq, if_false, require_bind_eq_ok_iff, require_eq_ok_iff]
      simp
      tauto

/-! ## A concrete instrument and a market order for it, for runs on fixed values -/

def sampleInstrument : Instrument :=
  ⟨{ symbol := "CAC.PA", venue := "XPAR", currency := "EUR", assetClass := .etf },
    by decide +kernel⟩

/-- A day market order to buy ten shares of `sampleInstrument`. -/
def sampleOrder (cid : ClientOrderId) : Order :=
  ⟨⟨cid, "trend", sampleInstrument, .buy, 10, .mkt, .day, none, none, none, [], ⟨0, some 0⟩⟩,
    (Order.valid_iff _).mpr ⟨by simp, (by decide +kernel : (0 : Decimal) < 10),
      by simp [OrderType.needsLimit], fun _ => rfl, by simp [OrderType.needsStop], fun _ => rfl,
      rfl, by simp⟩⟩

end Blive
