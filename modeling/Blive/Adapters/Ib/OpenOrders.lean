import Blive.Adapters.Ib.Broker
import Blive.Adapters.Ib.Positions
import Blive.Adapters.Ib.PriceRules
import Blive.Misc.FloatDigits

/-!
# The open orders IB reports

`IBBroker.open_orders` of `adapters/ib/broker.py` and the parser of a trade, with what IB reports
of a contract and of an order that were placed.
-/

namespace Blive

/-- The attributes of a contract that was built from an instrument, with the text `str` renders
its multiplier by. -/
def Contract.attrs (contract : Contract) (multiplierText : String) : IbContract where
  symbol := .text contract.symbol
  secType := .text contract.secType
  exchange := .text contract.exchange
  primaryExchange := .text contract.primaryExchange
  currency := .text contract.currency
  multiplier := .text (if contract.multiplier = none then "" else multiplierText)

/-! ## The attributes of an order -/

/-- What is read of an `ib_async.Order`. -/
structure IbOrderAttrs where
  action : IbAttr
  orderType : IbAttr
  tif : IbAttr
  orderId : IbAttr
  permId : IbAttr
  lmtPrice : IbAttr
  auxPrice : IbAttr
  totalQuantity : IbAttr
  orderRef : IbAttr

/-- `str` of the `float` nearest to `d`, which is infinite where it overflows. -/
def IsFloatText (d : Decimal) (text : String) : Prop :=
  if |nearestFloat d| < 2 ^ 1024 then
    ∃ q, DecimalValue.ofString text = .ok (.finite q) ∧ IsShortest (nearestFloat d) q
  else DecimalValue.ofString text = .ok (.infinity (decide (d < 0)))

/-- The attribute holds `float(d)`. -/
def IbAttr.HoldsFloat (attr : IbAttr) (x : PyFloat) : Prop :=
  ∃ text, attr = .number text ∧ IsFloatText x.source text

/-- The attribute holds the `float` that stands for a price that is not set. -/
def IbAttr.HoldsUnset (attr : IbAttr) : Prop := attr = .number "1.7976931348623157e+308"

/-- The `orderType` the constructors of `ib_async` set. -/
def IbOrderKind.orderType : IbOrderKind → String
  | .marketOrder => "MKT"
  | .limitOrder _ => "LMT"
  | .stopOrder _ => "STP"
  | .stopLimitOrder _ _ => "STP LMT"

/-- The limit and the stop price among the arguments of a constructor. -/
def IbOrderKind.limitAndStop : IbOrderKind → Option PyFloat × Option PyFloat
  | .marketOrder => (none, none)
  | .limitOrder lmtPrice => (some lmtPrice, none)
  | .stopOrder stopPrice => (none, some stopPrice)
  | .stopLimitOrder lmtPrice stopPrice => (some lmtPrice, some stopPrice)

/-- The attribute holds the price, if there is one. -/
def IbAttr.HoldsPrice (attr : IbAttr) : Option PyFloat → Prop
  | .some price => attr.HoldsFloat price
  | .none => attr.HoldsUnset

/-- The attributes are those of the order: its constructor puts a stop price into `auxPrice`. `cid`
is how `str` writes the order's id. -/
structure IbOrderAttrs.Show (attrs : IbOrderAttrs) (ibOrder : IbOrder) (cid : String) : Prop where
  action : attrs.action = .text ibOrder.action
  orderType : attrs.orderType = .text ibOrder.kind.orderType
  tif : attrs.tif = .text ibOrder.tif
  totalQuantity : attrs.totalQuantity.HoldsFloat ibOrder.totalQuantity
  lmtPrice : attrs.lmtPrice.HoldsPrice ibOrder.kind.limitAndStop.1
  auxPrice : attrs.auxPrice.HoldsPrice ibOrder.kind.limitAndStop.2
  orderRef : ibOrder.orderRef ≠ none → attrs.orderRef = .text cid

/-! ## The parser -/

/-- An `ib_async.Trade`, with `None` for a missing part. -/
structure IbTrade where
  order : Option IbOrderAttrs
  contract : Option IbContract

/-- `_parse_order_side` -/
def parseOrderSide (action : IbAttr) : Except PyError OrderSide :=
  if action = .text "BUY" then .ok .buy
  else if action = .text "SELL" then .ok .sell
  else .error (.ibShapeError "Unknown IB order action ")

/-- `_IB_ORDER_TYPE_MAP` -/
def ibOrderTypeMap : List (String × OrderType) :=
  [("MKT", .mkt), ("LMT", .lmt), ("MOC", .moc), ("LOC", .loc), ("STP", .stp), ("STP LMT", .stpLmt),
    ("STP_LMT", .stpLmt)]

/-- `_IB_TIF_MAP` -/
def ibTifMap : List (String × TimeInForce) :=
  [("DAY", .day), ("GTC", .gtc), ("IOC", .ioc), ("FOK", .fok), ("OPG", .opg)]

/-- `map.get(value)`, for a map with keys that are strings. -/
def IbAttr.lookupIn {α : Type} (map : List (String × α)) : IbAttr → Option α
  | .text key => map.lookup key
  | _ => .none

/-- `_parse_order_type` -/
def parseOrderType (orderType : IbAttr) : Except PyError OrderType :=
  orRaise (orderType.lookupIn ibOrderTypeMap) (.ibShapeError "Unsupported IB orderType ")

/-- `_parse_time_in_force` -/
def parseTimeInForce (tif : IbAttr) : Except PyError TimeInForce :=
  orRaise (tif.lookupIn ibTifMap) (.ibShapeError "Unsupported IB tif ")

/-- `_decimal_or_none`, which compares with zero outside its handler. -/
def decimalOrNone (value : IbAttr) : Except PyError (Option DecimalValue) :=
  match safeDecimal value with
  | none => .ok none
  | some d => do
      if ← d.eq (.finite 0) then return none
      return some d

/-- The tag of an id that is set. -/
def idTag (key : String) (value : IbAttr) : List (String × String) :=
  match value with
  | .text text => [(key, text)]
  | .number repr => [(key, repr)]
  | _ => []

/-- `Decimal(str(getattr(ib_order, "totalQuantity", "0")))` -/
def totalQuantityOf (ibOrder : IbOrderAttrs) : Except PyError DecimalValue :=
  if ibOrder.totalQuantity = .missing then .ok (.finite 0) else ibOrder.totalQuantity.toDecimal

/-- `_parse_ib_trade_to_order`, given what `uuid4` draws. -/
def parseIbTradeToOrder (accountId : String) (uuid : UUID) (now : Utc) (trade : IbTrade) :
    Except PyError Wire.Order := do
  let ibOrder ← orRaise trade.order (.ibShapeError "IB Trade missing order or contract")
  let contract ← orRaise trade.contract (.ibShapeError "IB Trade missing order or contract")
  let instrument ← instrumentFromContract contract
  let side ← parseOrderSide ibOrder.action
  let orderType ← parseOrderType ibOrder.orderType
  let timeInForce ← parseTimeInForce ibOrder.tif
  let limitPrice ← decimalOrNone ibOrder.lmtPrice
  let stopPrice ← decimalOrNone ibOrder.auxPrice
  let quantity ← totalQuantityOf ibOrder
  requireNot (quantity.le (.finite 0)) (.ibShapeError "IB order has non-positive totalQuantity ")
  Frozen.make {
    clientOrderId := uuid
    strategyId := "ib_" ++ accountId
    instrument
    side
    quantity
    orderType
    timeInForce
    limitPrice := if orderType ∉ [.lmt, .stpLmt] then none else limitPrice
    stopPrice := if orderType ∉ [.stp, .stpLmt] then none else stopPrice
    parentId := none
    tags := idTag "ib_order_id" ibOrder.orderId ++ idTag "ib_perm_id" ibOrder.permId
    createdAt := now.toDatetime }

/-- `IBBroker.open_orders`, given what the client answers; each trade comes with what `uuid4` and
the clock answer when it is parsed. A trade can be `None`. -/
def ibOpenOrders (connected : Bool) (accountId : String)
    (response : List (Option (IbTrade × UUID × Utc))) : Except PyError (List Wire.Order) := do
  require (connected = true)
    (.runtimeError "IBBroker.connect() must be called before read / write methods")
  collect isIbParseFailure
    (fun (trade, uuid, now) => parseIbTradeToOrder accountId uuid now trade)
    (response.filterMap id)

end Blive
