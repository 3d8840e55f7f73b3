import Mathlib.Data.Finset.Insert
import Blive.Adapters.Ib.InstrumentResolver
import Blive.Adapters.Shared.PriceGrid
import Blive.Domain.Events
import Blive.Misc.Transition

/-!
# The IB broker

The order path of `adapters/ib/broker.py`. `submit` suspends twice, in the price-rule lookup
and in the rate limiter; between its suspensions it runs without interruption, and so do the
handlers of IB's pushes. What a handler hands to `asyncio.create_task` is queued in `ready`,
which the event loop runs first in, first out. An action of the step function is one
uninterrupted stretch; what `ib_async`, the limiter and the clock answer is part of it.

`ib_async` itself is outside the repository: a trade appears as the fields the handlers read
from it at the time they run.
-/

namespace Blive

/-! ## The `ib_async` records the broker reads and builds -/

structure TradeLogEntry where
  errorCode : Int
  message : String
  deriving DecidableEq

/-- What the handlers read from an `ib_async.Trade`: `order.orderId`, `orderStatus.status`,
`orderStatus.whyHeld` and `log`. -/
structure Trade where
  orderId : Int
  status : String
  whyHeld : String := ""
  log : List TradeLogEntry := []
  deriving DecidableEq

/-- `time` is `none` when the attribute is no `datetime`. -/
structure Execution where
  execId : String
  shares : Decimal
  price : Decimal
  time : Option Datetime
  deriving DecidableEq

structure CommissionReport where
  commission : Decimal
  currency : String
  deriving DecidableEq

/-- `ib_async.Fill` -/
structure IbFill where
  execution : Option Execution
  commissionReport : Option CommissionReport
  deriving DecidableEq

/-- `float(d)`, kept as the decimal it is converted from. -/
structure PyFloat where
  source : Decimal
  deriving DecidableEq

/-- Which `ib_async` order constructor was called. -/
inductive IbOrderKind where
  | marketOrder
  | limitOrder (lmtPrice : PyFloat)
  | stopOrder (stopPrice : PyFloat)
  | stopLimitOrder (lmtPrice stopPrice : PyFloat)
  deriving DecidableEq

/-- The `ib_async.Order` a submission builds; `orderRef` is set by `submit` afterwards. -/
structure IbOrder where
  kind : IbOrderKind
  action : String
  totalQuantity : PyFloat
  tif : String
  algoStrategy : String := ""
  algoParams : List (String × String) := []
  orderRef : Option ClientOrderId := none
  deriving DecidableEq

/-- `order.side.value` -/
def OrderSide.value : OrderSide → String
  | .buy => "BUY"
  | .sell => "SELL"

/-- `order.time_in_force.value` -/
def TimeInForce.value : TimeInForce → String
  | .day => "DAY"
  | .gtc => "GTC"
  | .ioc => "IOC"
  | .fok => "FOK"
  | .opg => "OPG"

/-- `_blive_to_ib_order` -/
def bliveToIbOrder (order : Order) : Except PyError IbOrder :=
  let base (kind : IbOrderKind) : IbOrder :=
    { kind, action := order.val.side.value, totalQuantity := ⟨order.val.quantity⟩,
      tif := order.val.timeInForce.value }
  match order.val.orderType with
  | .mkt => .ok (base .marketOrder)
  | .adaptiveMkt => .ok { base .marketOrder with
      algoStrategy := "Adaptive", algoParams := [("adaptivePriority", "Normal")] }
  | .lmt => do
      let limitPrice ← orRaise order.val.limitPrice (.valueError "LMT order requires limit_price")
      return base (.limitOrder ⟨limitPrice⟩)
  | .stp => do
      let stopPrice ← orRaise order.val.stopPrice (.valueError "STP order requires stop_price")
      return base (.stopOrder ⟨stopPrice⟩)
  | .stpLmt => do
      let limitPrice ← orRaise order.val.limitPrice
        (.valueError "STP_LMT order requires both limit_price and stop_price")
      let stopPrice ← orRaise order.val.stopPrice
        (.valueError "STP_LMT order requires both limit_price and stop_price")
      return base (.stopLimitOrder ⟨limitPrice⟩ ⟨stopPrice⟩)
  | .moc | .loc =>
      .error (.notImplementedError "IBBroker.submit does not support order_type=")

/-- One call of `ib.placeOrder(contract, ib_order)`, for the order it was built from, and the
`orderId` of the trade it returned. -/
structure PlacedOrder where
  order : Order
  contract : Contract
  ibOrder : IbOrder
  orderId : Int
  deriving DecidableEq

/-- The key of the order in the broker's dictionaries. -/
abbrev PlacedOrder.cid (p : PlacedOrder) : ClientOrderId := p.order.val.clientOrderId

/-! ## Broker state -/

/-- `_OrderTrackingState` -/
structure OrderTrackingState where
  clientOrderId : ClientOrderId
  totalQuantity : Decimal
  instrument : Instrument
  side : OrderSide
  acceptedEmitted : Bool := false
  terminalEmitted : Bool := false
  seenExecIds : Finset String := ∅
  cumulativeFilled : Decimal := 0

/-- A task a handler started: the `put` of an event, or `_emit_rejected_via_inactive` with
the `sleep(0)` yields it has left. -/
inductive Job where
  | put (event : OrderEvent)
  | emitRejectedViaInactive (yields : Nat) (cid : ClientOrderId) (orderId : Int)
  deriving DecidableEq

structure IBBroker where
  connected : Bool
  events : List BrokerEvent
  ready : List Job
  tradesByClientId : Dict ClientOrderId PlacedOrder
  orderTracking : Dict ClientOrderId OrderTrackingState
  errorByOrderId : Dict Int (Int × String)
  observedErrorCodes : Dict Int Nat

namespace IBBroker

/-- A newly constructed broker. -/
def init : IBBroker where
  connected := false
  events := []
  ready := []
  tradesByClientId := Dict.empty
  orderTracking := Dict.empty
  errorByOrderId := Dict.empty
  observedErrorCodes := Dict.empty

/-- `self._events.put(event)` -/
def put (b : IBBroker) (event : BrokerEvent) : IBBroker := { b with events := b.events ++ [event] }

/-- `asyncio.create_task` -/
def createTask (b : IBBroker) (job : Job) : IBBroker := { b with ready := b.ready ++ [job] }

def setTracking (b : IBBroker) (cid : ClientOrderId) (tracking : OrderTrackingState) : IBBroker :=
  { b with orderTracking := b.orderTracking.set cid tracking }

/-- `self._error_by_order_id.pop(order_id, None)` -/
def popError (b : IBBroker) (orderId : Int) : IBBroker :=
  { b with errorByOrderId := b.errorByOrderId.erase orderId }

/-- The part of `connect` that follows the handshake. -/
def connect (b : IBBroker) (now : Utc) : IBBroker :=
  { b with connected := true }.put (.connection ⟨true, "IB broker connected", now⟩)

/-- The part of `disconnect` that follows the closing of the client. -/
def disconnect (b : IBBroker) (now : Utc) : IBBroker :=
  { b with connected := false, errorByOrderId := Dict.empty }.put
    (.connection ⟨false, "IB broker disconnected", now⟩)

/-- `str(order_id) if order_id else None` -/
def venueOrderIdOf (orderId : Int) : Option String :=
  if orderId ≠ 0 then some (toString orderId) else none

/-! ## Submission -/

/-- `_snap_order_prices`, once the increments of a priced order are known. -/
def snapOrderPrices (policy : RoundingPolicy) (order : Order) (increments : List PriceIncrement) :
    Except PyError Order := do
  let newLimit ←
    order.val.limitPrice.mapM fun p => snapPrice .default p increments order.val.side policy
  let newStop ←
    order.val.stopPrice.mapM fun p => snapPrice .default p increments order.val.side policy
  if newLimit = order.val.limitPrice ∧ newStop = order.val.stopPrice then
    return order
  else
    Frozen.make { order.val with limitPrice := newLimit, stopPrice := newStop }

/-- Where a `submit` call is suspended: in the price-rule lookup, or in the rate limiter with
the contract and the IB order it is about to place. -/
inductive SubmitPoint where
  | priceRules
  | token (contract : Contract) (ibOrder : IbOrder)
  deriving DecidableEq

structure SubmitCall where
  order : Order
  point : SubmitPoint
  deriving DecidableEq

/-- The id the call submits. -/
abbrev SubmitCall.cid (call : SubmitCall) : ClientOrderId := call.order.val.clientOrderId

/-- How an uninterrupted stretch of `submit` ends. -/
inductive SubmitResult where
  | suspended (call : SubmitCall)
  | returned
  | raised (e : PyError)
  deriving DecidableEq

def SubmitResult.ofExcept : Except PyError SubmitCall → SubmitResult
  | .ok call => .suspended call
  | .error e => .raised e

/-- From the snapped order to the rate limiter. -/
def prepareOrder (order : Order) : Except PyError SubmitCall := do
  let contract ← toContract order.val.instrument
  let ibOrder ← bliveToIbOrder order
  return ⟨order, .token contract { ibOrder with orderRef := some order.val.clientOrderId }⟩

/-- `submit` up to its first suspension. An order without prices skips the price rules. -/
def submit (b : IBBroker) (order : Order) : Except PyError SubmitCall := do
  require (b.connected = true)
    (.runtimeError "IBBroker.connect() must be called before read / write methods")
  require (order.val.clientOrderId ∉ b.tradesByClientId)
    (.runtimeError "client_order_id ")
  if order.val.limitPrice = none ∧ order.val.stopPrice = none then
    prepareOrder order
  else
    return ⟨order, .priceRules⟩

/-- The REJECTED event of an order whose price grid is unavailable. -/
def priceRuleRejection (order : Order) (text : String) (now : Utc) : OrderEvent :=
  .withReason order.val.clientOrderId none .rejected ("blive:price-rule-unavailable " ++ text) now
    (.inl rfl) (by simp)

/-- `submit` from the answer of the price rules to the rate limiter. -/
def afterPriceRules (policy : RoundingPolicy) (b : IBBroker) (order : Order)
    (result : Except PyError (List PriceIncrement)) (now : Utc) : IBBroker × SubmitResult :=
  match result with
  | .error (.priceRuleUnavailable text) =>
      (b.put (.order (priceRuleRejection order text now)), .returned)
  | .error e => (b, .raised e)
  | .ok increments =>
      (b, .ofExcept (snapOrderPrices policy order increments >>= prepareOrder))

/-- The tracking record `submit` registers. -/
def newTracking (placed : PlacedOrder) : OrderTrackingState where
  clientOrderId := placed.cid
  totalQuantity := placed.order.val.quantity
  instrument := placed.order.val.instrument
  side := placed.order.val.side

/-- `submit` from `placeOrder` to its end. -/
def afterPlaceOrder (b : IBBroker) (placed : PlacedOrder) (now : Utc) : IBBroker :=
  { b with
    tradesByClientId := b.tradesByClientId.set placed.cid placed
    orderTracking := b.orderTracking.set placed.cid (newTracking placed) }.put
    (.order (.plain placed.cid (venueOrderIdOf placed.orderId) .submitted now submitted_plain))

/-- `cancel` up to the rate limiter: the trade whose order it is about to cancel. -/
def cancel (b : IBBroker) (cid : ClientOrderId) : Except PyError PlacedOrder := do
  require (b.connected = true)
    (.runtimeError "IBBroker.connect() must be called before read / write methods")
  orRaise (b.tradesByClientId.get? cid) (.keyError "client_order_id ")

/-! ## Reasons -/

/-- The text of a cancel or reject reason: never empty. -/
abbrev Reason := { reason : String // reason ≠ "" }

/-- `_cancel_reason_from_status`: both branches of the source give the same text. -/
def cancelReasonFromStatus (_status : String) : Reason := ⟨"engine", engine_ne_empty⟩

/-- `_last_error_log_entry` -/
def lastErrorLogEntry (trade : Trade) : Option TradeLogEntry :=
  trade.log.reverse.find? fun entry => entry.errorCode ≠ 0

/-- `ib:{errorCode} {message}`, without the blank when there is no message. -/
def ibReason (errorCode : Int) (message : String) : Reason :=
  ⟨"ib:" ++ (toString errorCode ++ if message ≠ "" then " " ++ message else ""), by simp⟩

/-- `_rejected_reason_from_log_entry` -/
def rejectedReasonFromLogEntry (entry : TradeLogEntry) : Reason :=
  ibReason entry.errorCode entry.message

/-- `text` as a reason, unless it is empty. -/
def reason? (text : String) : Option Reason := if h : text ≠ "" then some ⟨text, h⟩ else none

/-- `_rejected_reason_from_trade` -/
def rejectedReasonFromTrade (log : List TradeLogEntry) (whyHeld : String) : Option Reason :=
  (log.getLast?.bind fun last => reason? last.message).or (reason? whyHeld)

/-- `_reason_from_error_stash` -/
def reasonFromErrorStash (b : IBBroker) (orderId : Int) : Option Reason :=
  (b.errorByOrderId.get? orderId).map fun entry => ibReason entry.1 entry.2

/-- The last stretch of `_emit_rejected_via_inactive`. -/
def emitRejected (b : IBBroker) (cid : ClientOrderId) (orderId : Int) (log : List TradeLogEntry)
    (whyHeld : String) (now : Utc) : IBBroker :=
  let reason := ((rejectedReasonFromTrade log whyHeld).or (b.reasonFromErrorStash orderId)).getD
    ⟨"rejected", by decide⟩
  (b.popError orderId).put
    (.order (.withReason cid (venueOrderIdOf orderId) .rejected reason.val now rejected_needsReason
      reason.property))

/-! ## Handlers of IB's pushes -/

/-- `_ACCEPTED_STATUSES` -/
def acceptedStatuses : List String := ["Submitted", "PreSubmitted"]

/-- `_CANCELLED_STATUSES` -/
def cancelledStatuses : List String := ["Cancelled", "ApiCancelled"]

/-- `_REJECTED_STATUS` -/
def rejectedStatus : String := "Inactive"

/-- The ACCEPTED event of a status or fill push. -/
def acceptedEvent (cid : ClientOrderId) (trade : Trade) (now : Utc) : OrderEvent :=
  .plain cid (venueOrderIdOf trade.orderId) .accepted now accepted_plain

/-- The event of a cancelled status: REJECTED when an error code in the log of an order that
was never accepted says so, otherwise CANCELED. -/
def cancelledEvent (cid : ClientOrderId) (acceptedEmitted : Bool) (trade : Trade) (now : Utc) :
    OrderEvent :=
  match if acceptedEmitted then none else lastErrorLogEntry trade with
  | some entry =>
      let reason := rejectedReasonFromLogEntry entry
      .withReason cid (venueOrderIdOf trade.orderId) .rejected reason.val now rejected_needsReason
        reason.property
  | none =>
      let reason := cancelReasonFromStatus trade.status
      .withReason cid (venueOrderIdOf trade.orderId) .canceled reason.val now canceled_needsReason
        reason.property

/-- `_on_order_status` -/
def onOrderStatus (b : IBBroker) (cid : ClientOrderId) (trade : Trade) (now : Utc) : IBBroker :=
  match b.orderTracking.get? cid with
  | none => b
  | some tracking =>
    if tracking.terminalEmitted then b
    else if trade.status ∈ acceptedStatuses ∧ tracking.acceptedEmitted = false then
      (b.setTracking cid { tracking with acceptedEmitted := true }).createTask
        (.put (acceptedEvent cid trade now))
    else if trade.status ∈ cancelledStatuses then
      ((b.setTracking cid { tracking with terminalEmitted := true }).popError
        trade.orderId).createTask
        (.put (cancelledEvent cid tracking.acceptedEmitted trade now))
    else if trade.status = rejectedStatus then
      (b.setTracking cid { tracking with terminalEmitted := true }).createTask
        (.emitRejectedViaInactive 3 cid trade.orderId)
    else b

/-- The commission of a fill, zero while its report has not arrived. -/
def commissionOf (fill : IbFill) : Decimal := (fill.commissionReport.map (·.commission)).getD 0

/-- The currency of the commission report, when it has one, otherwise the instrument's. -/
def currencyOf (fill : IbFill) (instrument : Instrument) : String :=
  match fill.commissionReport with
  | some report => if report.currency ≠ "" then report.currency else instrument.val.currency
  | none => instrument.val.currency

/-- The `Fill(...)` call of `_on_order_fill`. -/
def fillFields (tracking : OrderTrackingState) (cid : ClientOrderId) (trade : Trade)
    (execution : Execution) (fill : IbFill) (now : Utc) : FillFields where
  clientOrderId := cid
  venueOrderId := (venueOrderIdOf trade.orderId).getD ""
  venueExecId := execution.execId
  instrument := tracking.instrument
  side := tracking.side
  quantity := execution.shares
  price := execution.price
  commission := commissionOf fill
  currency := currencyOf fill tracking.instrument
  timeUtc := execution.time.getD now.toDatetime

/-- The ACCEPTED event a first fill implies when no status push came before it. -/
def acceptFirstFill (b : IBBroker) (cid : ClientOrderId) (tracking : OrderTrackingState)
    (trade : Trade) (now : Utc) : IBBroker × OrderTrackingState :=
  if tracking.acceptedEmitted then (b, tracking)
  else
    let tracking := { tracking with acceptedEmitted := true }
    ((b.setTracking cid tracking).createTask (.put (acceptedEvent cid trade now)), tracking)

/-- `_on_order_fill` from a validated fill on. -/
def emitFill (b : IBBroker) (cid : ClientOrderId) (tracking : OrderTrackingState) (trade : Trade)
    (fill : Fill) (now : Utc) : IBBroker :=
  let cumulativeFilled := tracking.cumulativeFilled + fill.val.quantity
  if cumulativeFilled ≥ tracking.totalQuantity then
    ((b.setTracking cid { tracking with
      cumulativeFilled := cumulativeFilled, terminalEmitted := true }).popError
        trade.orderId).createTask
      (.put (.withFill cid (venueOrderIdOf trade.orderId) .filled fill now filled_needsFill))
  else
    (b.setTracking cid { tracking with cumulativeFilled := cumulativeFilled }).createTask
      (.put
        (.withFill cid (venueOrderIdOf trade.orderId) .partialFill fill now partialFill_needsFill))

/-- `_on_order_fill`: the broker afterwards, and the exception if the handler raised. What the
handler changed before it raised stays changed. -/
def onOrderFill (b : IBBroker) (cid : ClientOrderId) (trade : Trade) (fill : IbFill) (now : Utc) :
    IBBroker × Option PyError :=
  match b.orderTracking.get? cid with
  | none => (b, none)
  | some tracking =>
    if tracking.terminalEmitted then (b, none)
    else
      match fill.execution with
      | none => (b, none)
      | some execution =>
        if execution.execId = "" then (b, none)
        else if execution.execId ∈ tracking.seenExecIds then (b, none)
        else
          let tracking := { tracking with
            seenExecIds := insert execution.execId tracking.seenExecIds }
          let (b, tracking) := (b.setTracking cid tracking).acceptFirstFill cid tracking trade now
          match Frozen.make (fillFields tracking cid trade execution fill now) with
          | .error e => (b, some e)
          | .ok bliveFill => (b.emitFill cid tracking trade bliveFill now, none)

/-- `_on_ib_error` -/
def onIbError (b : IBBroker) (reqId errorCode : Int) (errorString : String) : IBBroker :=
  if reqId ≤ 0 then b
  else
    { b with
      observedErrorCodes := b.observedErrorCodes.set errorCode
        ((b.observedErrorCodes.get? errorCode).getD 0 + 1)
      errorByOrderId := b.errorByOrderId.set reqId (errorCode, errorString) }

/-- The event loop runs the next ready task; `log` and `whyHeld` are what the trade of a
deferred rejection holds by now. -/
def tick (b : IBBroker) (log : List TradeLogEntry) (whyHeld : String) (now : Utc) :
    Option IBBroker :=
  match b.ready with
  | [] => none
  | .put event :: rest => some ({ b with ready := rest }.put (.order event))
  | .emitRejectedViaInactive (yields + 1) cid orderId :: rest =>
      some ({ b with ready := rest }.createTask (.emitRejectedViaInactive yields cid orderId))
  | .emitRejectedViaInactive 0 cid orderId :: rest =>
      some ({ b with ready := rest }.emitRejected cid orderId log whyHeld now)

end IBBroker

/-! ## The system: the broker, its suspended submissions and the wire -/

structure IBSystem where
  broker : IBBroker
  submits : List IBBroker.SubmitCall
  placed : List PlacedOrder

namespace IBSystem

open IBBroker

def init : IBSystem := ⟨IBBroker.init, [], []⟩

/-- What can happen next. `priceRules i` and `acquired i` resume the `i`-th suspended `submit`
call; the answer of `acquired` is the `orderId` of the placed trade, unless the limiter or
`placeOrder` raised. -/
inductive Action where
  | connect (now : Utc)
  | disconnect (now : Utc)
  | submit (order : Order)
  | priceRules (i : Nat) (result : Except PyError (List PriceIncrement)) (now : Utc)
  | acquired (i : Nat) (result : Except PyError Int) (now : Utc)
  | statusEvent (cid : ClientOrderId) (trade : Trade) (now : Utc)
  | fillEvent (cid : ClientOrderId) (trade : Trade) (fill : IbFill) (now : Utc)
  | errorEvent (reqId errorCode : Int) (errorString : String)
  | tick (log : List TradeLogEntry) (whyHeld : String) (now : Utc)

/-- The calls that are suspended after a stretch ended with `result`. -/
def suspend (submits : List SubmitCall) : SubmitResult → List SubmitCall
  | .suspended call => submits ++ [call]
  | .returned => submits
  | .raised _ => submits

def step (policy : RoundingPolicy) (s : IBSystem) : Action → Option IBSystem
  | .connect now => some { s with broker := s.broker.connect now }
  | .disconnect now => some { s with broker := s.broker.disconnect now }
  | .submit order =>
      some { s with submits := suspend s.submits (.ofExcept (s.broker.submit order)) }
  | .priceRules i result now =>
      match s.submits[i]? with
      | some ⟨order, .priceRules⟩ =>
          let (broker, ended) := s.broker.afterPriceRules policy order result now
          some { s with broker, submits := suspend (s.submits.eraseIdx i) ended }
      | _ => none
  | .acquired i result now =>
      match s.submits[i]? with
      | some ⟨order, .token contract ibOrder⟩ =>
          match result with
          | .error _ => some { s with submits := s.submits.eraseIdx i }
          | .ok orderId =>
              let placed : PlacedOrder := ⟨order, contract, ibOrder, orderId⟩
              some {
                broker := s.broker.afterPlaceOrder placed now
                submits := s.submits.eraseIdx i
                placed := s.placed ++ [placed] }
      | _ => none
  | .statusEvent cid trade now => some { s with broker := s.broker.onOrderStatus cid trade now }
  | .fillEvent cid trade fill now =>
      some { s with broker := (s.broker.onOrderFill cid trade fill now).1 }
  | .errorEvent reqId errorCode errorString =>
      some { s with broker := s.broker.onIbError reqId errorCode errorString }
  | .tick log whyHeld now =>
      (s.broker.tick log whyHeld now).map fun broker => { s with broker }

end IBSystem

end Blive
