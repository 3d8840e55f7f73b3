import Blive.Domain.WireTypes
import Blive.Misc.Dict

/-!
# The account of the IB broker

The cache of `AccountValue` pushes of `adapters/ib/broker.py`, the snapshot that is built from it
and the timer that emits `AccountUpdate` events. A session runs from one `connect` to the next
`disconnect`, which clears the cache and the last emitted snapshot; the values `connect` seeds
the cache with are its first pushes.
-/

namespace Blive

open Wire

/-- `ib_async.AccountValue` -/
structure AccountValue where
  account : String
  tag : String
  value : String
  currency : String
  deriving DecidableEq

/-- The raw value last pushed for each currency and tag. -/
abbrev AccountValues := Dict (String × String) String

/-- An item of the cache. -/
abbrev AccountRow := (String × String) × String

namespace AccountRow

abbrev ccy (row : AccountRow) : String := row.1.1

abbrev tag (row : AccountRow) : String := row.1.2

abbrev value (row : AccountRow) : String := row.2

/-- `ccy and ccy != "BASE"` -/
def isSleeve (row : AccountRow) : Prop := row.ccy ≠ "" ∧ row.ccy ≠ "BASE"

instance (row : AccountRow) : Decidable row.isSleeve := inferInstanceAs (Decidable (_ ∧ _))

end AccountRow

/-- `_TAG_NET_LIQUIDATION` -/
def tagNetLiquidation : String := "NetLiquidationByCurrency"

/-- `_TAG_TOTAL_CASH` -/
def tagTotalCash : String := "TotalCashBalance"

/-- `_TAG_BUYING_POWER` -/
def tagBuyingPower : String := "BuyingPower"

/-- `_TAG_GROSS_POSITION` -/
def tagGrossPosition : String := "GrossPositionValue"

/-- `_TAG_MAINT_MARGIN` -/
def tagMaintMargin : String := "MaintMarginReq"

/-- `_TAG_EXCHANGE_RATE` -/
def tagExchangeRate : String := "ExchangeRate"

/-- The tag of an explicit base currency. -/
def tagAccountCurrency : String := "AccountCurrency"

/-- `except (ValueError, ArithmeticError)` -/
def isNotDecimal : PyError → Bool
  | .valueError _ => true
  | .other name => name = "InvalidOperation" ∨ name = "DivisionByZero" ∨ name = "Overflow"
  | _ => false

/-- `except IBShapeError` -/
def isIbShapeError : PyError → Bool
  | .ibShapeError _ => true
  | _ => false

namespace AccountValues

/-- `_on_account_value` -/
def onAccountValue (accountId : String) (values : AccountValues) (accountValue : AccountValue) :
    AccountValues :=
  if accountValue.tag = "" then values
  else if accountValue.account ≠ "" ∧ accountValue.account ≠ accountId then values
  else values.set (accountValue.currency, accountValue.tag) accountValue.value

/-! ## The base currency -/

/-- The value of the first `AccountCurrency` row that is not empty. -/
def accountCurrency : List AccountRow → Option String
  | [] => none
  | row :: rest =>
      if row.tag = tagAccountCurrency ∧ row.value ≠ "" then some row.value
      else accountCurrency rest

/-- `Decimal(value) == Decimal("1")` -/
def isUnitRate (value : String) : Except PyError Bool := do
  let rate ← DecimalValue.ofString value
  rate.eq (.finite 1)

/-- The first currency with a unit exchange rate. -/
def unitRateCurrency : List AccountRow → Except PyError (Option String)
  | [] => .ok none
  | row :: rest => do
      if row.tag ≠ tagExchangeRate ∨ ¬ row.isSleeve then unitRateCurrency rest
      else if (← attempt isNotDecimal (isUnitRate row.value)) = some true then .ok (some row.ccy)
      else unitRateCurrency rest

/-- One turn of the search for the largest net liquidation value. The comparison is outside the
handler of the conversion. -/
def largerNetLiquidation (best : String × DecimalValue) (row : AccountRow) :
    Except PyError (String × DecimalValue) := do
  if row.tag ≠ tagNetLiquidation ∨ ¬ row.isSleeve then .ok best
  else
    match ← attempt isNotDecimal (DecimalValue.ofString row.value) with
    | none => .ok best
    | some equity => if ← best.2.lt equity then .ok (row.ccy, equity) else .ok best

/-- `_infer_base_currency` -/
def inferBaseCurrency (values : AccountValues) : Except PyError String := do
  match accountCurrency values.items with
  | some value => .ok value
  | none =>
      match ← unitRateCurrency values.items with
      | some ccy => .ok ccy
      | none =>
          let best ← values.items.foldlM largerNetLiquidation ("", .infinity true)
          if best.1 ≠ "" then .ok best.1 else .ok "USD"

/-! ## The snapshot -/

/-- `_account_value_decimal`, given the candidates in order. -/
def accountValueDecimal (values : AccountValues) :
    List (String × String) → Except PyError DecimalValue
  | [] => .ok (.finite 0)
  | key :: rest =>
      match values.get? key with
      | none => accountValueDecimal values rest
      | some value => do
          match ← attempt isNotDecimal (DecimalValue.ofString value) with
          | some d => .ok d
          | none => accountValueDecimal values rest

/-- The cash of one more row. -/
def addCash (cash : Dict String DecimalValue) (row : AccountRow) :
    Except PyError (Dict String DecimalValue) := do
  if row.tag = tagTotalCash ∧ row.isSleeve then
    match ← attempt isNotDecimal (DecimalValue.ofString row.value) with
    | some d => .ok (cash.set row.ccy d)
    | none => .ok cash
  else .ok cash

/-- The loop that collects `cash_by_ccy`. -/
def cashByCcy (values : AccountValues) : Except PyError (Dict String DecimalValue) :=
  values.items.foldlM addCash Dict.empty

/-- `(gross_exposure / equity) if equity and equity > 0 else Decimal("0")` -/
def leverageOf (grossExposure equity : DecimalValue) : Except PyError DecimalValue := do
  if ← andThen (.ok equity.truthy) ((DecimalValue.finite 0).lt equity) then
    grossExposure.div equity
  else .ok (.finite 0)

/-- `_build_account_snapshot` -/
def buildAccountSnapshot (values : AccountValues) (takenAt : Datetime) :
    Except PyError AccountSnapshot := do
  let baseCurrency ← values.inferBaseCurrency
  let equity ← values.accountValueDecimal
    [("BASE", tagNetLiquidation), (baseCurrency, tagNetLiquidation)]
  let buyingPower ← values.accountValueDecimal
    [("BASE", tagBuyingPower), (baseCurrency, tagBuyingPower)]
  let grossExposure ← values.accountValueDecimal
    [("BASE", tagGrossPosition), (baseCurrency, tagGrossPosition)]
  let marginUsed ← values.accountValueDecimal
    [("BASE", tagMaintMargin), (baseCurrency, tagMaintMargin)]
  let cashByCcy ← values.cashByCcy
  let leverage ← leverageOf grossExposure equity
  Frozen.make {
    equity
    cashByCcy
    buyingPower
    grossExposure
    netExposure := grossExposure
    leverage
    marginUsed
    baseCurrency
    takenAt }

end AccountValues

/-! ## The timer -/

/-- The order in which a `set` of currencies is iterated. -/
structure SetOrder where
  order : List String → List String
  perm : ∀ ccys, (order ccys).Perm ccys

/-- `_ACCOUNT_VALUE_THRESHOLD` -/
def accountValueThreshold : Decimal := 1 / 100

/-- `_LEVERAGE_THRESHOLD` -/
def leverageThreshold : Decimal := 1 / 1000

/-- `abs(current - last) >= threshold` -/
def moved (threshold : Decimal) (current last : DecimalValue) : Except PyError Bool := do
  let delta ← current.sub last
  let distance ← delta.abs
  (DecimalValue.finite threshold).le distance

/-- One comparison of a tick. -/
structure Comparison where
  threshold : Decimal
  current : DecimalValue
  last : DecimalValue

/-- Whether one of the values moved; the comparisons after it are not made. -/
def anyMoved : List Comparison → Except PyError Bool
  | [] => .ok false
  | c :: rest => orElse (moved c.threshold c.current c.last) (anyMoved rest)

/-- `cash_by_ccy.get(ccy, Decimal("0"))` -/
def cashOf (snapshot : AccountSnapshotFields) (ccy : String) : DecimalValue :=
  (snapshot.cashByCcy.get? ccy).getD (.finite 0)

/-- `set(current.cash_by_ccy) | set(last.cash_by_ccy)` -/
def allCcys (current last : AccountSnapshotFields) : List String :=
  (current.cashByCcy.keys ++ last.cashByCcy.keys).dedup

/-- The comparisons of `_should_emit_account_update`, in the order of the source. -/
def comparisons (setOrder : SetOrder) (current last : AccountSnapshotFields) : List Comparison :=
  [⟨accountValueThreshold, current.equity, last.equity⟩,
    ⟨accountValueThreshold, current.buyingPower, last.buyingPower⟩,
    ⟨accountValueThreshold, current.grossExposure, last.grossExposure⟩,
    ⟨accountValueThreshold, current.netExposure, last.netExposure⟩,
    ⟨accountValueThreshold, current.marginUsed, last.marginUsed⟩,
    ⟨leverageThreshold, current.leverage, last.leverage⟩] ++
  (setOrder.order (allCcys current last)).map fun ccy =>
    ⟨accountValueThreshold, cashOf current ccy, cashOf last ccy⟩

/-- `_should_emit_account_update` -/
def shouldEmitAccountUpdate (setOrder : SetOrder) (last : Option AccountSnapshot)
    (current : AccountSnapshot) : Except PyError Bool :=
  match last with
  | none => .ok true
  | some last => anyMoved (comparisons setOrder current.val last.val)

/-- The account part of a connected broker with the updates on its queue, its clock and the
exception that ended the timer. -/
structure AccountFeed where
  accountValues : AccountValues
  lastEmittedSnapshot : Option AccountSnapshot
  events : List Wire.AccountUpdate
  clock : Utc
  raised : Option PyError

namespace AccountFeed

/-- A session that `connect` starts. -/
def init (clock : Utc) : AccountFeed := ⟨Dict.empty, none, [], clock, none⟩

/-- `_account_update_tick`, given its two readings of the clock. -/
def accountUpdateTick (setOrder : SetOrder) (feed : AccountFeed) (takenAt now : Utc) :
    Except PyError AccountFeed := do
  if feed.accountValues.items = [] then .ok feed
  else
    match ← attempt isIbShapeError
        (feed.accountValues.buildAccountSnapshot takenAt.toDatetime) with
    | none => .ok feed
    | some current =>
        if ← shouldEmitAccountUpdate setOrder feed.lastEmittedSnapshot current then
          let update ← Frozen.make (⟨current, now.toDatetime⟩ : AccountUpdateFields)
          .ok { feed with events := feed.events ++ [update], lastEmittedSnapshot := some current }
        else .ok feed

/-- What can happen in a session. A tick comes with its readings of the clock and the order in
which it iterates a set. -/
inductive Action where
  | push (accountValue : AccountValue)
  | tick (takenAt now : Utc) (setOrder : SetOrder)

/-- A push reaches the cache at any time; the timer ticks until a tick raises. -/
def step (accountId : String) (feed : AccountFeed) : Action → Option AccountFeed
  | .push accountValue =>
      some { feed with
        accountValues := feed.accountValues.onAccountValue accountId accountValue }
  | .tick takenAt now setOrder =>
      if feed.raised = none ∧ feed.clock.micros ≤ takenAt.micros ∧
          takenAt.micros ≤ now.micros then
        match feed.accountUpdateTick setOrder takenAt now with
        | .ok feed => some { feed with clock := now }
        | .error e => some { feed with clock := now, raised := some e }
      else none

end AccountFeed

end Blive
