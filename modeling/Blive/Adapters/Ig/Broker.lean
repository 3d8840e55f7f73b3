import Blive.Adapters.Ig.Payload
import Blive.Domain.WireTypes

/-!
# The broker of IG

`adapters/ig/broker.py`: the parsers of positions and working orders, and the submission of a
market order. A response of the client is a JSON value or the exception of the request; what
the resolver, the server and the clock answer are arguments.
-/

namespace Blive

/-! ## Helpers -/

/-- `_epic_to_symbol` -/
def epicToSymbol (epic : String) : String :=
  match epic.toList.splitOn '.' with
  | _ :: _ :: symbol :: _ :: _ :: _ => String.ofList symbol
  | _ => epic

/-- `_epic_to_asset_class` -/
def epicToAssetClass (epic : String) : AssetClass :=
  let family := String.ofList (epic.toList.takeWhile (· ≠ '.'))
  if family = "IX" then .index
  else if family ∈ ["KC", "KX"] then .equity
  else if family = "CS" then .fx
  else if family = "CC" then .future
  else if family = "IR" then .future
  else if family ∈ ["KA", "KB"] then .option
  else .index

/-- `_ig_order_type_to_blive`: the type, and whether the level is a limit and a stop price. -/
def igOrderTypeToBlive (igOrderType : String) : OrderType × Bool × Bool :=
  if igOrderType = "LIMIT" then (.lmt, true, false)
  else if igOrderType = "STOP" then (.stp, false, true)
  else if igOrderType = "MARKET" then (.mkt, false, false)
  else (.lmt, true, false)

/-- `_ig_tif_to_blive` -/
def igTifToBlive (igTif : String) : TimeInForce :=
  if igTif = "GOOD_TILL_CANCELLED" then .gtc
  else if igTif = "EXECUTE_AND_ELIMINATE" then .ioc
  else if igTif = "FILL_OR_KILL" then .fok
  else .gtc

/-- `_parse_ig_timestamp` -/
def parseIgTimestamp (parsers : DatetimeParsers) (text : String) : Except PyError Datetime :=
  parseTimestamp parsers text "unrecognised IG timestamp: "

/-- `createdDate` or `createdDateUTC`, where it is a timestamp. -/
def createdAt? (parsers : DatetimeParsers) (items : List (String × Json)) : Option Datetime :=
  match ((Json.field items "createdDate").orElse (Json.field items "createdDateUTC")).str? with
  | some created => if created = "" then none else (parseIgTimestamp parsers created).toOption
  | none => none

/-- `UUID(int=int(deal_id, 16) & ((1 << 128) - 1))` where the id is a hex string, a fresh one
elsewhere. -/
def orderIdOf (dealId : String) (fresh : UUID) : ClientOrderId :=
  match intOfHexString dealId with
  | some value => BitVec.ofInt 128 value
  | none => fresh

/-! ## Parsers -/

/-- The instrument an entry is about. -/
def entryInstrument (epic currency : String) : Wire.InstrumentFields where
  symbol := epicToSymbol epic
  venue := "IG"
  currency := currency
  assetClass := epicToAssetClass epic
  tradability := .cfd

/-- `opened_at` of a position: the time of the snapshot stands in for a missing one. -/
def openedAtOf (created : Option Datetime) (signedQty : DecimalValue) (updatedAt : Datetime) :
    Except PyError (Option Datetime) :=
  match created with
  | some openedAt => .ok (some openedAt)
  | none => do
      if ← signedQty.eq (.finite 0) then .ok none else .ok (some updatedAt)

/-- `size if direction == "BUY" else -size` -/
def signedSize (direction : String) (size : DecimalValue) : Except PyError DecimalValue :=
  if direction = "BUY" then .ok size else size.neg

/-- `_parse_position` from the signed quantity on. -/
def positionWith (parsers : DatetimeParsers) (positionObj marketObj : List (String × Json))
    (strategyId : String) (updatedAt : Datetime) (signedQty : DecimalValue) :
    Except PyError Wire.Position := do
  let levelRaw ← orRaise (Json.present? positionObj "level")
    (.valueError "IG position missing 'level'")
  let avgCost ← DecimalValue.ofString levelRaw.toStr
  let currency := Json.textOf positionObj "currency"
  require (currency ≠ "") (.valueError "IG position missing 'currency'")
  let openedAt ← openedAtOf (createdAt? parsers positionObj) signedQty updatedAt
  let instrument ← Frozen.make (entryInstrument (Json.textOf marketObj "epic") currency)
  Frozen.make ⟨instrument, strategyId, signedQty, avgCost, currency, openedAt, updatedAt⟩

/-- `_parse_position` -/
def parsePosition (parsers : DatetimeParsers) (positionObj marketObj : List (String × Json))
    (strategyId : String) (updatedAt : Datetime) : Except PyError Wire.Position := do
  require (Json.textOf marketObj "epic" ≠ "")
    (.valueError "IG position market entry missing 'epic'")
  let direction := Json.textOf positionObj "direction"
  require (direction = "BUY" ∨ direction = "SELL")
    (.valueError "IG position direction must be BUY/SELL, got ")
  let sizeRaw ← orRaise (Json.present? positionObj "size")
    (.valueError "IG position missing 'size'")
  let size ← DecimalValue.ofString sizeRaw.toStr
  let signedQty ← signedSize direction size
  positionWith parsers positionObj marketObj strategyId updatedAt signedQty

/-- The currency of a working order's market: the code of the first of its `currencies`. -/
def marketCurrency (marketObj : List (String × Json)) : Except PyError String :=
  match Json.field marketObj "currencies" with
  | .list (.dict first :: _) => .ok ((Json.field? first "code").getD (.str "EUR")).toStr
  | .list (_ :: _) => .error (.other "AttributeError")
  | _ => .ok "EUR"

/-- `_parse_working_order`. The clock and the supply of fresh ids are read at most once. -/
def parseWorkingOrder (parsers : DatetimeParsers) (orderObj marketObj : List (String × Json))
    (strategyId : String) (now : Utc) (fresh : UUID) : Except PyError Wire.Order := do
  let epic := Json.textOf marketObj "epic"
  require (epic ≠ "") (.valueError "IG working order market entry missing 'epic'")
  let direction := Json.textOf orderObj "direction"
  require (direction = "BUY" ∨ direction = "SELL")
    (.valueError "IG working order direction must be BUY/SELL, got ")
  let sizeRaw ← orRaise (Json.present? orderObj "orderSize")
    (.valueError "IG working order missing 'orderSize'")
  let quantity ← DecimalValue.ofString sizeRaw.toStr
  let levelRaw ← orRaise (Json.present? orderObj "orderLevel")
    (.valueError "IG working order missing 'orderLevel'")
  let limitPrice ← DecimalValue.ofString levelRaw.toStr
  let orderTypeRaw := Json.textOf orderObj "orderType"
  let kind := igOrderTypeToBlive orderTypeRaw
  let tifRaw := ((Json.field? orderObj "timeInForce").getD (.str "GOOD_TILL_CANCELLED")).toStr
  let createdAt := (createdAt? parsers orderObj).getD now.toDatetime
  let dealId := Json.textOf orderObj "dealId"
  let dealReference := Json.textOf orderObj "dealReference"
  let currency ← marketCurrency marketObj
  let instrument ← Frozen.make (entryInstrument epic currency)
  Frozen.make {
    clientOrderId := orderIdOf dealId fresh
    strategyId
    instrument
    side := if direction = "BUY" then .buy else .sell
    quantity
    orderType := kind.1
    timeInForce := igTifToBlive tifRaw
    limitPrice := if kind.2.1 then some limitPrice else none
    stopPrice := if kind.2.2 then some limitPrice else none
    parentId := none
    tags := [("ig_deal_id", dealId), ("ig_deal_reference", dealReference),
      ("ig_order_type_raw", orderTypeRaw)]
    createdAt }

/-- `_parse_fill_from_confirm` -/
def parseFillFromConfirm (order : Order) (dealId : String) (confirm : List (String × Json))
    (timeUtc : Datetime) : Except PyError Wire.Fill := do
  let sizeRaw ← orRaise (Json.present? confirm "size")
    (.valueError "IG /confirms missing 'size' for FILLED event")
  let quantity ← DecimalValue.ofString sizeRaw.toStr
  requireNot (quantity.le (.finite 0)) (.valueError "IG /confirms 'size' must be > 0; got ")
  let levelRaw ← orRaise (Json.present? confirm "level")
    (.valueError "IG /confirms missing 'level' for FILLED event")
  let price ← DecimalValue.ofString levelRaw.toStr
  requireNot (price.le (.finite 0)) (.valueError "IG /confirms 'level' must be > 0; got ")
  Frozen.make {
    clientOrderId := order.val.clientOrderId
    venueOrderId := dealId
    venueExecId := dealId
    instrument := order.val.instrument
    side := order.val.side
    quantity
    price
    commission := .finite 0
    currency := order.val.instrument.val.currency
    timeUtc }

/-! ## The broker -/

structure IGBroker where
  accountId : String
  confirmPollMaxAttempts : Nat
  connected : Bool
  /-- The order events put on the queue. -/
  events : List Wire.OrderEvent
  dealRefToClientId : Dict String ClientOrderId

namespace IGBroker

/-- `_require_connected` -/
def requireConnected (b : IGBroker) : Except CallError Unit :=
  if b.connected then .ok ()
  else .error (.py (.runtimeError "IGBroker.<read> called before connect()"))

/-- `_broker_strategy_id` -/
def brokerStrategyId (b : IGBroker) : String := "ig_" ++ b.accountId

/-- The position of an entry, given the time of the snapshot. -/
def positionOf (b : IGBroker) (parsers : DatetimeParsers) (now : Utc)
    (objects : List (String × Json) × List (String × Json)) : Except PyError Wire.Position :=
  parsePosition parsers objects.1 objects.2 b.brokerStrategyId now.toDatetime

/-- The entries of a `/positions` response that are parsed. -/
def positionEntries (body : Json) : List (List (String × Json) × List (String × Json)) :=
  (entriesOf body "positions").filterMap (entryObjects? "position" "market")

/-- `positions` -/
def positions (b : IGBroker) (parsers : DatetimeParsers) (response : Except RequestError Json)
    (now : Utc) : Except CallError (List Wire.Position) := do
  b.requireConnected
  let body ← response.mapError .request
  (collect isParseFailure (b.positionOf parsers now) (positionEntries body)).mapError .py

/-- The order of an entry, given the readings of the clock and of the supply of ids there. -/
def orderOf (b : IGBroker) (parsers : DatetimeParsers) (now : Nat → Utc) (fresh : Nat → UUID)
    (entry : (List (String × Json) × List (String × Json)) × Nat) : Except PyError Wire.Order :=
  parseWorkingOrder parsers entry.1.1 entry.1.2 b.brokerStrategyId (now entry.2) (fresh entry.2)

/-- The entries of a `/workingorders` response that are parsed, numbered. -/
def orderEntries (body : Json) : List ((List (String × Json) × List (String × Json)) × Nat) :=
  ((entriesOf body "workingOrders").filterMap
    (entryObjects? "workingOrderData" "marketData")).zipIdx

/-- `open_orders` -/
def openOrders (b : IGBroker) (parsers : DatetimeParsers) (response : Except RequestError Json)
    (now : Nat → Utc) (fresh : Nat → UUID) : Except CallError (List Wire.Order) := do
  b.requireConnected
  let body ← response.mapError .request
  (collect isParseFailure (b.orderOf parsers now fresh) (orderEntries body)).mapError .py

/-! ## Submission -/

/-- What a submission is answered: the epic of the resolver, the response to
`POST /positions/otc`, the response to each poll of `/confirms`, and two readings of the clock. -/
structure SubmitAnswers where
  epic : Except CallError String
  post : Except RequestError Json
  confirm : Nat → Except RequestError Json
  submittedAt : Utc
  confirmedAt : Utc

/-- `self._events.put(OrderEvent(...))` -/
def put (b : IGBroker) (event : Wire.OrderEventFields) : Except PyError IGBroker :=
  (Frozen.make event).map fun e => { b with events := b.events ++ [e] }

/-- The deal reference of the response, if it carries one. -/
def dealReferenceOf (response : Json) : Except PyError String := do
  let items ← orRaise response.dict? (.valueError "IG /positions/otc returned non-dict body: ")
  let dealReference ← orRaise (Json.field items "dealReference").str?
    (.valueError "IG /positions/otc response missing dealReference: ")
  require (dealReference ≠ "")
    (.valueError "IG /positions/otc response missing dealReference: ")
  .ok dealReference

/-- `submit` up to the deal reference. -/
def placeDeal (b : IGBroker) (order : Order) (answers : SubmitAnswers) :
    Except CallError String := do
  b.requireConnected
  if order.val.orderType ≠ .mkt then
    .error (.py (.notImplementedError "IGBroker.submit currently supports OrderType.MKT only; "))
  else
    let _epic ← answers.epic
    let response ← answers.post.mapError .request
    (dealReferenceOf response).mapError .py

/-- The payload of a poll, `None` where the server does not know the deal yet. -/
def pollPayload (response : Except RequestError Json) : Except RequestError Json :=
  match response with
  | .error (.ig e) => if e.kind = .requestInvalid then .ok .null else .error (.ig e)
  | response => response

/-- A payload with a final status. -/
def finalConfirm? (payload : Json) : Option (List (String × Json)) :=
  match payload.dict? with
  | none => none
  | some items =>
      match (Json.field items "dealStatus").str? with
      | some status => if status = "ACCEPTED" ∨ status = "REJECTED" then some items else none
      | none => none

/-- `_poll_confirm`, from an attempt on, with so many attempts left. -/
def pollFrom (confirm : Nat → Except RequestError Json) :
    Nat → Nat → Except CallError (List (String × Json))
  | _, 0 => .error (.py (.runtimeError "IG /confirms/"))
  | attempt, left + 1 =>
      match pollPayload (confirm attempt) with
      | .error e => .error (.request e)
      | .ok payload =>
          match finalConfirm? payload with
          | some items => .ok items
          | none => pollFrom confirm (attempt + 1) left

/-- `_poll_confirm`. Without an attempt there is no last payload for the text of the error. -/
def pollConfirm (b : IGBroker) (confirm : Nat → Except RequestError Json) :
    Except CallError (List (String × Json)) :=
  if b.confirmPollMaxAttempts = 0 then .error (.py (.other "UnboundLocalError"))
  else pollFrom confirm 0 b.confirmPollMaxAttempts

/-- The id of a deal, the reference where the confirm names none. -/
def dealIdOf (dealReference : String) (confirm : List (String × Json)) : String :=
  if Json.textOf confirm "dealId" ≠ "" then Json.textOf confirm "dealId" else dealReference

/-- The reason of a rejection. -/
def rejectReasonOf (confirm : List (String × Json)) : String :=
  (((Json.field confirm "reason").orElse (Json.field confirm "reasonCode")).orElse
    (.str "REJECTED_NO_REASON")).toStr

/-- The ACCEPTED branch of `_emit_terminal_events_from_confirm`, after ACCEPTED. -/
def emitFill (b : IGBroker) (order : Order) (dealId : String) (confirm : List (String × Json))
    (now : Utc) : IGBroker × Except PyError Unit :=
  match parseFillFromConfirm order dealId confirm now.toDatetime with
  | .error e => if isParseFailure e then (b, .ok ()) else (b, .error e)
  | .ok fill =>
      match b.put ⟨order.val.clientOrderId, some dealId, .filled, none, now.toDatetime, some fill⟩
      with
      | .error e => (b, .error e)
      | .ok b => (b, .ok ())

/-- `_emit_terminal_events_from_confirm` -/
def emitTerminalEvents (b : IGBroker) (order : Order) (dealReference : String)
    (confirm : List (String × Json)) (now : Utc) : IGBroker × Except PyError Unit :=
  let dealId := dealIdOf dealReference confirm
  if (Json.field confirm "dealStatus").str? = some "REJECTED" then
    match b.put ⟨order.val.clientOrderId, some dealId, .rejected, some (rejectReasonOf confirm),
      now.toDatetime, none⟩ with
    | .error e => (b, .error e)
    | .ok b => (b, .ok ())
  else
    match b.put ⟨order.val.clientOrderId, some dealId, .accepted, none, now.toDatetime, none⟩ with
    | .error e => (b, .error e)
    | .ok b => b.emitFill order dealId confirm now

/-- `submit` from the deal reference on. -/
def confirmDeal (b : IGBroker) (order : Order) (dealReference : String)
    (answers : SubmitAnswers) : IGBroker × Except CallError ClientOrderId :=
  let tracked := { b with
    dealRefToClientId := b.dealRefToClientId.set dealReference order.val.clientOrderId }
  match tracked.put ⟨order.val.clientOrderId, some dealReference, .submitted, none,
    answers.submittedAt.toDatetime, none⟩ with
  | .error e => (tracked, .error (.py e))
  | .ok acknowledged =>
      match acknowledged.pollConfirm answers.confirm with
      | .error e => (acknowledged, .error e)
      | .ok confirm =>
          let (settled, outcome) :=
            acknowledged.emitTerminalEvents order dealReference confirm answers.confirmedAt
          (settled, (outcome.map fun _ => order.val.clientOrderId).mapError .py)

/-- `submit`: the broker afterwards, and what the call returns or raises. -/
def submit (b : IGBroker) (order : Order) (answers : SubmitAnswers) :
    IGBroker × Except CallError ClientOrderId :=
  match b.placeDeal order answers with
  | .error e => (b, .error e)
  | .ok dealReference => b.confirmDeal order dealReference answers

end IGBroker

end Blive
