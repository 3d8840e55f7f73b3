import Blive.Domain.WireTypes

/-!
# The positions IB reports

`IBBroker.positions` of `adapters/ib/broker.py` and the parser of an entry. The objects of
`ib_async` are read by their attributes; the client's response is an argument.
-/

namespace Blive

/-- An attribute of an object of `ib_async`: it is missing, `None`, a string, or a number given
by its `repr`. -/
inductive IbAttr where
  | missing
  | none
  | text (value : String)
  | number (repr : String)
  deriving DecidableEq

namespace IbAttr

/-- `getattr(obj, name, "") or ""` -/
def orEmpty : IbAttr → IbAttr
  | .text value => .text value
  | .number repr => if repr ∈ ["0", "0.0", "-0.0"] then .text "" else .number repr
  | _ => .text ""

/-- `str(obj.name)` -/
def toStr : IbAttr → Except PyError String
  | .missing => .error (.other "AttributeError")
  | .none => .ok "None"
  | .text value => .ok value
  | .number repr => .ok repr

/-- A value that has to be a string, and what using another as one raises. -/
def asText (attr : IbAttr) (e : PyError) : Except PyError String :=
  match attr with
  | .text value => .ok value
  | _ => .error e

/-- The text `Decimal(value)` reads, for a string or a number. -/
def decimalText : IbAttr → String
  | .text value => value
  | .number repr => repr
  | _ => ""

end IbAttr

structure IbContract where
  symbol : IbAttr
  secType : IbAttr
  exchange : IbAttr
  primaryExchange : IbAttr
  currency : IbAttr
  multiplier : IbAttr

/-- `ib_async.Position`, with `None` for a missing contract. -/
structure IbPosition where
  contract : Option IbContract
  position : IbAttr
  avgCost : IbAttr

/-- `_SEC_TYPE_TO_ASSET_CLASS`, with the default of its lookup. -/
def secTypeToAssetClass (secType : IbAttr) : AssetClass :=
  if secType = .text "IND" then .index
  else if secType = .text "CASH" then .fx
  else if secType = .text "FUT" then .future
  else if secType = .text "OPT" then .option
  else .equity

/-- `_IB_EXCHANGE_TO_MIC`; an exchange that is not in the table stands for itself. -/
def ibExchangeToMic (exchange : IbAttr) : IbAttr :=
  match exchange with
  | .text name =>
      .text (([("SBF", "XPAR"), ("NASDAQ", "XNAS"), ("ISLAND", "XNAS"), ("NYSE", "XNYS"),
        ("ARCA", "ARCX"), ("BATS", "BATS"), ("LSE", "XLON"), ("IBIS", "XETR")].lookup name).getD
        name)
  | other => other

/-- `except (IBShapeError, ValueError, AttributeError, TypeError)` -/
def isIbParseFailure : PyError → Bool
  | .ibShapeError _ => true
  | .valueError _ => true
  | .other name => name = "AttributeError" ∨ name = "TypeError"
  | _ => false

/-- The venue of a contract: the primary exchange, or else the routing exchange. -/
def IbContract.venue (contract : IbContract) : IbAttr :=
  ibExchangeToMic (if contract.primaryExchange.orEmpty ≠ .text "" then
    contract.primaryExchange.orEmpty else contract.exchange.orEmpty)

/-- `Decimal(multiplier_str) if multiplier_str else Decimal("1")` -/
def IbContract.multiplierOf (contract : IbContract) : Except PyError DecimalValue :=
  if contract.multiplier.orEmpty = .text "" then .ok (.finite 1)
  else DecimalValue.ofString contract.multiplier.orEmpty.decimalText

/-- `Instrument(...)` from values that need not be strings. Which of several exceptions comes
first is not kept: the handler names them all. -/
def ibInstrument (symbol venue currency : IbAttr) (assetClass : AssetClass)
    (multiplier : DecimalValue) : Except PyError Wire.Instrument := do
  let symbol ← symbol.asText (.other "AttributeError")
  let venue ← venue.asText (.other "AttributeError")
  let currency ← currency.asText (.other "TypeError")
  Frozen.make ⟨symbol, venue, currency, assetClass, multiplier, .spot⟩

/-- `_instrument_from_contract` -/
def instrumentFromContract (contract : IbContract) : Except PyError Wire.Instrument := do
  require (contract.symbol.orEmpty ≠ .text "") (.ibShapeError "IB Contract has empty symbol")
  require (contract.currency.orEmpty ≠ .text "") (.ibShapeError "IB Contract has empty currency")
  let multiplier ← contract.multiplierOf
  ibInstrument contract.symbol.orEmpty contract.venue contract.currency.orEmpty
    (secTypeToAssetClass contract.secType.orEmpty) multiplier

/-- `_parse_ib_position` -/
def parseIbPosition (strategyId : String) (updatedAt : Datetime) (ibPos : IbPosition) :
    Except PyError Wire.Position := do
  let contract ← orRaise ibPos.contract (.ibShapeError "IB Position has no contract")
  let instrument ← instrumentFromContract contract
  let quantity ← ibPos.position.toStr >>= DecimalValue.ofString
  let avgCost ← ibPos.avgCost.toStr >>= DecimalValue.ofString
  let isZero ← quantity.eq (.finite 0)
  Frozen.make {
    instrument
    strategyId
    quantity
    avgCost := if isZero then .finite 0 else avgCost
    currency := instrument.val.currency
    openedAt := if isZero then none else some updatedAt
    updatedAt }

/-- `IBBroker.positions`, given what the client answers. An entry can be `None`. -/
def ibPositions (connected : Bool) (accountId : String) (response : List (Option IbPosition))
    (now : Utc) : Except PyError (List Wire.Position) := do
  require (connected = true)
    (.runtimeError "IBBroker.connect() must be called before read / write methods")
  collect isIbParseFailure (parseIbPosition ("ib_" ++ accountId) now.toDatetime)
    (response.filterMap id)

end Blive
