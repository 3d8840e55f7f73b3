import Blive.Domain.Events
import Blive.Misc.DecimalValue

/-!
# Domain records of what comes off the wire

The records of `domain/types.py` over decimals that may be infinite or NaN, for the parsers
that build them from texts a venue sent. The checks are those of `Types.lean`, and can raise
`InvalidOperation` besides `ValueError`. `embed` takes a record over numbers to the record it
is on the wire; the two validators agree on it.
-/

namespace Blive.Wire

open DecimalValue

structure InstrumentFields where
  symbol : String
  venue : String
  currency : String
  assetClass : AssetClass
  multiplier : DecimalValue := .finite 1
  tradability : Tradability := .spot
  deriving DecidableEq

instance : PostInit InstrumentFields where
  postInit i := do
    require (i.symbol ≠ "" ∧ PyStr.isStripped i.symbol ∧ ' ' ∉ i.symbol.toList)
      (.valueError "Instrument.symbol must be non-empty and whitespace-free")
    require (i.venue ≠ "" ∧ PyStr.isUpper i.venue)
      (.valueError "Instrument.venue must be uppercase non-empty")
    requireIsoCurrency i.currency "Instrument.currency"
    requireNot (i.multiplier.le (.finite 0)) (.valueError "Instrument.multiplier must be positive")

abbrev Instrument := Frozen InstrumentFields

structure BarFields where
  instrument : Blive.Instrument
  openTimeUtc : Datetime
  closeTimeUtc : Datetime
  openPrice : DecimalValue
  high : DecimalValue
  low : DecimalValue
  close : DecimalValue
  volume : DecimalValue
  vwap : Option DecimalValue := none
  deriving DecidableEq

instance : PostInit BarFields where
  postInit b := do
    requireUtc b.openTimeUtc "Bar.open_time_utc"
    requireUtc b.closeTimeUtc "Bar.close_time_utc"
    require (b.openTimeUtc.micros < b.closeTimeUtc.micros)
      (.valueError "Bar.close_time_utc must be > open_time_utc")
    requireNot (orElse (b.openPrice.le (.finite 0)) (b.close.le (.finite 0)))
      (.valueError "Bar prices must be strictly positive")
    requireThat
      (andThen (andThen (b.low.le b.openPrice) (b.openPrice.le b.high))
        (andThen (b.low.le b.close) (b.close.le b.high)))
      (.valueError "Bar OHLC ordering invariant violated (low ≤ open/close ≤ high)")
    requireNot (b.volume.lt (.finite 0)) (.valueError "Bar.volume must be non-negative")
    match b.vwap with
    | none => .ok ()
    | some vwap =>
        requireThat (andThen (b.low.le vwap) (vwap.le b.high))
          (.valueError "Bar.vwap, when set, must lie in [low, high]")

abbrev Bar := Frozen BarFields

structure OrderFields where
  clientOrderId : ClientOrderId
  strategyId : String
  instrument : Instrument
  side : OrderSide
  quantity : DecimalValue
  orderType : OrderType
  timeInForce : TimeInForce
  limitPrice : Option DecimalValue
  stopPrice : Option DecimalValue
  parentId : Option UUID
  tags : List (String × String)
  createdAt : Datetime
  deriving DecidableEq

/-- `price is None or price <= 0` -/
def notPositive : Option DecimalValue → Except PyError Bool
  | none => .ok true
  | some price => price.le (.finite 0)

instance : PostInit OrderFields where
  postInit o := do
    require (o.strategyId ≠ "") (.valueError "Order.strategy_id must be non-empty")
    requireNot (o.quantity.le (.finite 0)) (.valueError "Order.quantity must be strictly positive")
    requireNot (andThen (.ok (decide o.orderType.needsLimit)) (notPositive o.limitPrice))
      (.valueError "Order.limit_price required and positive for order_type=")
    require (¬ o.orderType.needsLimit → o.limitPrice = none)
      (.valueError "Order.limit_price must be None for order_type=")
    requireNot (andThen (.ok (decide o.orderType.needsStop)) (notPositive o.stopPrice))
      (.valueError "Order.stop_price required and positive for order_type=")
    require (¬ o.orderType.needsStop → o.stopPrice = none)
      (.valueError "Order.stop_price must be None for order_type=")
    requireUtc o.createdAt "Order.created_at"
    require (∀ tag ∈ o.tags, tag.1 ≠ "") (.valueError "Order.tags keys must be non-empty")

abbrev Order := Frozen OrderFields

structure FillFields where
  clientOrderId : ClientOrderId
  venueOrderId : String
  venueExecId : String
  instrument : Blive.Instrument
  side : OrderSide
  quantity : DecimalValue
  price : DecimalValue
  commission : DecimalValue
  currency : String
  timeUtc : Datetime
  deriving DecidableEq

instance : PostInit FillFields where
  postInit f := do
    require (f.venueExecId ≠ "")
      (.valueError "Fill.venue_exec_id must be non-empty (idempotency key)")
    requireNot (orElse (f.quantity.le (.finite 0)) (f.price.le (.finite 0)))
      (.valueError "Fill.quantity and price must be strictly positive")
    requireNot (f.commission.lt (.finite 0)) (.valueError "Fill.commission must be non-negative")
    requireIsoCurrency f.currency "Fill.currency"
    requireUtc f.timeUtc "Fill.time_utc"

abbrev Fill := Frozen FillFields

structure PositionFields where
  instrument : Instrument
  strategyId : String
  quantity : DecimalValue
  avgCost : DecimalValue
  currency : String
  openedAt : Option Datetime
  updatedAt : Datetime
  deriving DecidableEq

/-- The checks of `opened_at` and `avg_cost` in `Position.__post_init__`, which depend on whether
the quantity is zero. -/
def checkOpened (quantity avgCost : DecimalValue) (openedAt : Option Datetime) :
    Except PyError Unit := do
  if ← quantity.eq (.finite 0) then
    require (openedAt = none) (.valueError "Position.opened_at must be None when quantity == 0")
  else
    let openedAt ← orRaise openedAt
      (.valueError "Position.opened_at required when quantity != 0")
    requireUtc openedAt "Position.opened_at"
    requireNot (avgCost.le (.finite 0))
      (.valueError "Position.avg_cost must be positive when quantity != 0")

instance : PostInit PositionFields where
  postInit p := do
    require (p.strategyId ≠ "") (.valueError "Position.strategy_id must be non-empty")
    requireIsoCurrency p.currency "Position.currency"
    require (p.currency = p.instrument.val.currency) (.valueError "Position.currency (")
    checkOpened p.quantity p.avgCost p.openedAt
    requireUtc p.updatedAt "Position.updated_at"

abbrev Position := Frozen PositionFields

structure OrderEventFields where
  clientOrderId : ClientOrderId
  venueOrderId : Option String
  kind : OrderEventKind
  reason : Option String
  timeUtc : Datetime
  fill : Option Fill := none
  deriving DecidableEq

instance : PostInit OrderEventFields where
  postInit e := do
    requireUtc e.timeUtc "OrderEvent.time_utc"
    require (e.kind = .rejected → truthy e.reason)
      (.valueError "OrderEvent.reason required for REJECTED")
    require (e.kind = .canceled → truthy e.reason)
      (.valueError "OrderEvent.reason required for CANCELED")
    require (e.kind.needsFill → e.fill ≠ none) (.valueError "OrderEvent.fill required for ")
    require (¬ e.kind.needsFill → e.fill = none) (.valueError "OrderEvent.fill must be None for ")

abbrev OrderEvent := Frozen OrderEventFields

structure AccountSnapshotFields where
  equity : DecimalValue
  cashByCcy : Dict String DecimalValue
  buyingPower : DecimalValue
  grossExposure : DecimalValue
  netExposure : DecimalValue
  leverage : DecimalValue
  marginUsed : DecimalValue
  baseCurrency : String
  takenAt : Datetime

/-- The amounts of a snapshot that may not be negative. -/
def AccountSnapshotFields.amounts (a : AccountSnapshotFields) : List (DecimalValue × String) :=
  [(a.buyingPower, "buying_power"), (a.grossExposure, "gross_exposure"),
    (a.marginUsed, "margin_used"), (a.leverage, "leverage")]

instance : PostInit AccountSnapshotFields where
  postInit a := do
    requireIsoCurrency a.baseCurrency "AccountSnapshot.base_currency"
    forEach a.cashByCcy.keys fun ccy => requireIsoCurrency ccy "AccountSnapshot.cash_by_ccy key"
    forEach a.amounts fun amount => requireNot (amount.1.lt (.finite 0))
      (.valueError ("AccountSnapshot." ++ amount.2 ++ " must be non-negative, got "))
    requireUtc a.takenAt "AccountSnapshot.taken_at"

abbrev AccountSnapshot := Frozen AccountSnapshotFields

structure AccountUpdateFields where
  snapshot : AccountSnapshot
  timeUtc : Datetime

instance : PostInit AccountUpdateFields where
  postInit u := do
    requireUtc u.timeUtc "AccountUpdate.time_utc"
    require (u.snapshot.val.takenAt.micros ≤ u.timeUtc.micros)
      (.valueError "AccountUpdate.time_utc (")

abbrev AccountUpdate := Frozen AccountUpdateFields

/-! ## What the validators guarantee -/

theorem requireNot_bind_eq_ok_iff {α : Type} {condition : Except PyError Bool} {e : PyError}
    {k : Unit → Except PyError α} {a : α} :
    (requireNot condition e >>= k) = .ok a ↔ condition = .ok false ∧ k () = .ok a := by
  rw [bind_eq_ok_iff]
  simp only [exists_const_unit, requireNot_eq_ok_iff]

theorem requireThat_bind_eq_ok_iff {α : Type} {condition : Except PyError Bool} {e : PyError}
    {k : Unit → Except PyError α} {a : α} :
    (requireThat condition e >>= k) = .ok a ↔ condition = .ok true ∧ k () = .ok a := by
  rw [bind_eq_ok_iff]
  simp only [exists_const_unit, requireThat_eq_ok_iff]

theorem Instrument.valid_iff (i : InstrumentFields) : postInit i = .ok () ↔
    (i.symbol ≠ "" ∧ PyStr.isStripped i.symbol ∧ ' ' ∉ i.symbol.toList) ∧
      (i.venue ≠ "" ∧ PyStr.isUpper i.venue) ∧
      requireIsoCurrency i.currency "Instrument.currency" = .ok () ∧
      i.multiplier.le (.finite 0) = .ok false := by
  simp only [postInit, requireIsoCurrency, require_bind_eq_ok_iff, require_eq_ok_iff,
    requireNot_eq_ok_iff]

theorem Bar.valid_iff (b : BarFields) : postInit b = .ok () ↔
    b.openTimeUtc.utcOffset = some 0 ∧ b.closeTimeUtc.utcOffset = some 0 ∧
      b.openTimeUtc.micros < b.closeTimeUtc.micros ∧
      (b.openPrice.le (.finite 0) = .ok false ∧ b.close.le (.finite 0) = .ok false) ∧
      ((b.low.le b.openPrice = .ok true ∧ b.openPrice.le b.high = .ok true) ∧
        b.low.le b.close = .ok true ∧ b.close.le b.high = .ok true) ∧
      b.volume.lt (.finite 0) = .ok false ∧
      ∀ vwap ∈ b.vwap, b.low.le vwap = .ok true ∧ vwap.le b.high = .ok true := by
  cases hvwap : b.vwap <;>
    simp only [postInit, requireUtc, require_bind_eq_ok_iff, requireNot_bind_eq_ok_iff,
      requireThat_bind_eq_ok_iff, requireThat_eq_ok_iff,
      orElse_eq_ok_false_iff, andThen_eq_ok_true_iff, hvwap, Option.mem_def] <;>
    simp

theorem Order.valid_iff (o : OrderFields) : postInit o = .ok () ↔
    o.strategyId ≠ "" ∧ o.quantity.le (.finite 0) = .ok false ∧
      (o.orderType.needsLimit → notPositive o.limitPrice = .ok false) ∧
      (¬ o.orderType.needsLimit → o.limitPrice = none) ∧
      (o.orderType.needsStop → notPositive o.stopPrice = .ok false) ∧
      (¬ o.orderType.needsStop → o.stopPrice = none) ∧
      o.createdAt.utcOffset = some 0 ∧ ∀ tag ∈ o.tags, tag.1 ≠ "" := by
  simp only [postInit, requireUtc, require_bind_eq_ok_iff, requireNot_bind_eq_ok_iff,
    andThen_decide_eq_ok_false_iff, require_eq_ok_iff]

theorem Fill.valid_iff (f : FillFields) : postInit f = .ok () ↔
    f.venueExecId ≠ "" ∧
      (f.quantity.le (.finite 0) = .ok false ∧ f.price.le (.finite 0) = .ok false) ∧
      f.commission.lt (.finite 0) = .ok false ∧
      requireIsoCurrency f.currency "Fill.currency" = .ok () ∧ f.timeUtc.utcOffset = some 0 := by
  simp only [postInit, requireUtc, requireIsoCurrency, require_bind_eq_ok_iff,
    requireNot_bind_eq_ok_iff, orElse_eq_ok_false_iff, require_eq_ok_iff]

theorem checkOpened_eq_ok_iff {quantity avgCost : DecimalValue} {openedAt : Option Datetime} :
    checkOpened quantity avgCost openedAt = .ok () ↔
      quantity.eq (.finite 0) = .ok true ∧ openedAt = none ∨
        quantity.eq (.finite 0) = .ok false ∧
          ∃ t, openedAt = some t ∧ t.utcOffset = some 0 ∧ avgCost.le (.finite 0) = .ok false := by
  unfold checkOpened
  rw [bind_eq_ok_iff]
  constructor
  · rintro ⟨zero, hzero, hrest⟩
    cases zero with
    | true => exact .inl ⟨hzero, require_eq_ok_iff.mp hrest⟩
    | false =>
      obtain ⟨t, ht, hrest⟩ := bind_eq_ok_iff.mp hrest
      obtain ⟨hutc, hrest⟩ := require_bind_eq_ok_iff.mp hrest
      exact .inr ⟨hzero, t, orRaise_eq_ok_iff.mp ht, hutc, requireNot_eq_ok_iff.mp hrest⟩
  · rintro (⟨hzero, hnone⟩ | ⟨hzero, t, ht, hutc, hpos⟩)
    · exact ⟨true, hzero, require_eq_ok_iff.mpr hnone⟩
    · refine ⟨false, hzero, bind_eq_ok_iff.mpr ⟨t, orRaise_eq_ok_iff.mpr ht, ?_⟩⟩
      exact require_bind_eq_ok_iff.mpr ⟨hutc, requireNot_eq_ok_iff.mpr hpos⟩

theorem Position.valid_iff (p : PositionFields) : postInit p = .ok () ↔
    p.strategyId ≠ "" ∧ requireIsoCurrency p.currency "Position.currency" = .ok () ∧
      p.currency = p.instrument.val.currency ∧
      checkOpened p.quantity p.avgCost p.openedAt = .ok () ∧ p.updatedAt.utcOffset = some 0 := by
  simp only [postInit, requireUtc, requireIsoCurrency, require_eq_ok_iff, bind_eq_ok_iff,
    exists_const_unit]

/-- A three-letter code in upper case. -/
def IsoCurrency (code : String) : Prop :=
  code.toList.length = 3 ∧ code.toList.all PyStr.isUpperChar

instance (code : String) : Decidable (IsoCurrency code) := inferInstanceAs (Decidable (_ ∧ _))

theorem AccountSnapshot.valid_iff (a : AccountSnapshotFields) : postInit a = .ok () ↔
    IsoCurrency a.baseCurrency ∧ (∀ ccy ∈ a.cashByCcy, IsoCurrency ccy) ∧
      (∀ amount ∈ a.amounts, amount.1.lt (.finite 0) = .ok false) ∧
      a.takenAt.utcOffset = some 0 := by
  simp only [postInit, requireIsoCurrency, requireUtc, require_bind_eq_ok_iff, require_eq_ok_iff,
    forEach_bind_eq_ok_iff, requireNot_eq_ok_iff]
  exact Iff.rfl

theorem AccountUpdate.valid_iff (u : AccountUpdateFields) : postInit u = .ok () ↔
    u.timeUtc.utcOffset = some 0 ∧ u.snapshot.val.takenAt.micros ≤ u.timeUtc.micros := by
  simp only [postInit, requireUtc, require_bind_eq_ok_iff, require_eq_ok_iff]

theorem OrderEvent.valid_iff (e : OrderEventFields) : postInit e = .ok () ↔
    e.timeUtc.utcOffset = some 0 ∧ (e.kind = .rejected → truthy e.reason) ∧
      (e.kind = .canceled → truthy e.reason) ∧ (e.kind.needsFill → e.fill ≠ none) ∧
      (¬ e.kind.needsFill → e.fill = none) := by
  simp only [postInit, requireUtc, require_bind_eq_ok_iff, require_eq_ok_iff]

/-! ## Records over numbers -/

def InstrumentFields.embed (i : Blive.InstrumentFields) : InstrumentFields :=
  ⟨i.symbol, i.venue, i.currency, i.assetClass, .finite i.multiplier, i.tradability⟩

def BarFields.embed (b : Blive.BarFields) : BarFields :=
  ⟨b.instrument, b.openTimeUtc, b.closeTimeUtc, .finite b.openPrice, .finite b.high,
    .finite b.low, .finite b.close, .finite b.volume, b.vwap.map .finite⟩

def FillFields.embed (f : Blive.FillFields) : FillFields :=
  ⟨f.clientOrderId, f.venueOrderId, f.venueExecId, f.instrument, f.side, .finite f.quantity,
    .finite f.price, .finite f.commission, f.currency, f.timeUtc⟩

/-- The validator of an instrument on the wire accepts the instruments over numbers. -/
theorem InstrumentFields.valid_embed (i : Blive.InstrumentFields) :
    postInit (embed i) = .ok () ↔ postInit i = .ok () := by
  rw [Instrument.valid_iff]
  simp only [postInit, requireIsoCurrency, require_bind_eq_ok_iff, require_eq_ok_iff]
  simp [embed]

theorem InstrumentFields.embed_injective {i j : Blive.InstrumentFields} (h : embed i = embed j) :
    i = j := by
  cases i
  cases j
  simpa [embed] using h

/-- An instrument, as the wire gives it. -/
def Instrument.embed (i : Blive.Instrument) : Instrument :=
  ⟨.embed i.val, (InstrumentFields.valid_embed i.val).mpr i.valid⟩

def OrderFields.embed (o : Blive.OrderFields) : OrderFields :=
  ⟨o.clientOrderId, o.strategyId, .embed o.instrument, o.side, .finite o.quantity, o.orderType,
    o.timeInForce, o.limitPrice.map .finite, o.stopPrice.map .finite, o.parentId, o.tags,
    o.createdAt⟩

def PositionFields.embed (p : Blive.PositionFields) : PositionFields :=
  ⟨.embed p.instrument, p.strategyId, .finite p.quantity, .finite p.avgCost, p.currency,
    p.openedAt, p.updatedAt⟩

theorem BarFields.valid_embed (b : Blive.BarFields) :
    postInit (embed b) = .ok () ↔ postInit b = .ok () := by
  rw [Bar.valid_iff, Blive.Bar.valid_iff]
  cases hvwap : b.vwap <;> simp [embed, hvwap, and_assoc]

theorem FillFields.valid_embed (f : Blive.FillFields) :
    postInit (embed f) = .ok () ↔ postInit f = .ok () := by
  rw [Fill.valid_iff, Blive.Fill.valid_iff]
  simp [embed]

/-- A fill, as the wire gives it. -/
def Fill.embed (f : Blive.Fill) : Fill :=
  ⟨.embed f.val, (FillFields.valid_embed f.val).mpr f.valid⟩

def OrderEventFields.embed (e : Blive.OrderEventFields) : OrderEventFields :=
  ⟨e.clientOrderId, e.venueOrderId, e.kind, e.reason, e.timeUtc, e.fill.map Fill.embed⟩

theorem OrderEventFields.valid_embed (e : Blive.OrderEventFields) :
    postInit (embed e) = .ok () ↔ postInit e = .ok () := by
  rw [OrderEvent.valid_iff, Blive.OrderEvent.valid_iff]
  simp [embed]

/-- A price that must be positive, on the wire and off it. -/
theorem notPositive_embed (price : Option Decimal) :
    notPositive (price.map .finite) = .ok false ↔ positivePrice price := by
  cases price <;> simp [notPositive, positivePrice]

theorem OrderFields.valid_embed (o : Blive.OrderFields) :
    postInit (embed o) = .ok () ↔ postInit o = .ok () := by
  rw [Order.valid_iff, Blive.Order.valid_iff]
  simp [embed, notPositive_embed]

theorem PositionFields.valid_embed (p : Blive.PositionFields) :
    postInit (embed p) = .ok () ↔ postInit p = .ok () := by
  have hcurrency : (Instrument.embed p.instrument).val.currency = p.instrument.val.currency := rfl
  rw [Position.valid_iff, Blive.Position.valid_iff, checkOpened_eq_ok_iff]
  simp only [embed, hcurrency, eq_finite, le_finite]
  by_cases hq : p.quantity = 0
  · simp [hq]
  · simp [hq, and_assoc, and_comm, and_left_comm]

end Blive.Wire
