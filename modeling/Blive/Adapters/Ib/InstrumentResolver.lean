import Blive.Domain.Types

/-!
# The IB instrument resolver

`to_contract` of `adapters/ib/instrument_resolver.py`: the field map from an instrument to the
contract that goes to the wire. It is synchronous and looks nothing up at the venue.
-/

namespace Blive

/-- The fields of the `ib_async.Contract` that `to_contract` fills in. `multiplier` is `none`
for the empty string, otherwise the decimal that `str` renders. -/
structure Contract where
  symbol : String
  secType : String
  currency : String
  exchange : String
  primaryExchange : String
  multiplier : Option Decimal
  deriving DecidableEq

/-- `_ASSET_CLASS_TO_SEC_TYPE` -/
def assetClassToSecType : AssetClass → Option String
  | .equity => some "STK"
  | .etf => some "STK"
  | .index => some "IND"
  | .fx => some "CASH"
  | .future => some "FUT"
  | .option => some "OPT"

/-- `_MIC_TO_IB_EXCHANGE` -/
def micToIbExchange (venue : String) : Option String :=
  [("XPAR", "SBF"), ("XNAS", "NASDAQ"), ("XNYS", "NYSE"), ("ARCX", "ARCA"), ("BATS", "BATS"),
    ("XLON", "LSE"), ("XETR", "IBIS")].lookup venue

/-- `_US_SMART_VENUES` -/
def usSmartVenues : List String := ["XNAS", "XNYS", "ARCX", "BATS"]

/-- `_LSE_ETF_SMART_PRIMARY` -/
def lseEtfSmartPrimary : String := "LSEETF"

/-- `_SMART_ELIGIBLE_ASSET_CLASSES` -/
def smartEligibleAssetClasses : List AssetClass := [.equity, .etf]

/-- `_YAHOO_SUFFIX_BY_MIC` -/
def yahooSuffixByMic (venue : String) : Option String :=
  [("XPAR", ".PA"), ("XLON", ".L"), ("XETR", ".DE"), ("XAMS", ".AS")].lookup venue

/-- `_ib_symbol` -/
def ibSymbol (instrument : Instrument) : String :=
  let symbol := instrument.val.symbol
  match yahooSuffixByMic instrument.val.venue with
  | some suffix =>
      if suffix.toList <:+ symbol.toList then
        String.ofList (symbol.toList.take (symbol.toList.length - suffix.toList.length))
      else symbol
  | none => symbol

/-- The routing exchange and the `primaryExchange` hint. -/
def routeOf (instrument : Instrument) (ibExchangeValue : String) : String × String :=
  if instrument.val.venue ∈ usSmartVenues ∧
      instrument.val.assetClass ∈ smartEligibleAssetClasses then
    ("SMART", ibExchangeValue)
  else if instrument.val.venue = "XLON" ∧ instrument.val.assetClass = .etf then
    ("SMART", lseEtfSmartPrimary)
  else (ibExchangeValue, "")

def toContract (instrument : Instrument) : Except PyError Contract := do
  require (instrument.val.tradability = .spot)
    (.instrumentNotResolvable "IB resolver does not support tradability=")
  let secType ← orRaise (assetClassToSecType instrument.val.assetClass)
    (.instrumentNotResolvable "IB resolver has no secType mapping for asset_class=")
  let ibExchangeValue ← orRaise (micToIbExchange instrument.val.venue)
    (.instrumentNotResolvable "IB resolver has no exchange mapping for MIC venue=")
  let (exchange, primaryExchange) := routeOf instrument ibExchangeValue
  return {
    symbol := ibSymbol instrument
    secType := secType
    currency := instrument.val.currency
    exchange := exchange
    primaryExchange := primaryExchange
    multiplier := if instrument.val.multiplier = 1 then none else some instrument.val.multiplier }

example : toContract sampleInstrument = .ok ⟨"CAC", "STK", "EUR", "SBF", "", none⟩ := by
  decide +kernel

end Blive
