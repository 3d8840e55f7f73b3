import Mathlib.Data.List.Sort
import Blive.Adapters.Ib.MarketData
import Blive.Misc.Transition

/-!
# The IB price rules

`IBPriceRuleService` of `adapters/ib/price_rules.py`: the increment table of an instrument comes
from the market rule of its contract, or else from the minimum tick of the contract details, and is
cached. What the client answers, with the limiter before it, is an argument; an exception among the
answers is one that `except Exception` catches.
-/

namespace Blive

namespace Wire

/-- `PriceIncrement` of `adapters/shared/price_grid.py`, over values that may be infinite or NaN. -/
structure PriceIncrementFields where
  lowEdge : DecimalValue
  increment : DecimalValue
  deriving DecidableEq

instance : PostInit PriceIncrementFields where
  postInit band := do
    requireNot (band.increment.le (.finite 0))
      (.valueError "PriceIncrement.increment must be > 0, got ")
    requireNot (band.lowEdge.lt (.finite 0))
      (.valueError "PriceIncrement.low_edge must be >= 0, got ")

abbrev PriceIncrement := Frozen PriceIncrementFields

end Wire

/-- What is read of an `ib_async.ContractDetails`; `none` for `None` and for a missing attribute. -/
structure ContractDetails where
  contract : Option IbContract
  marketRuleIds : Option String
  validExchanges : Option String
  minTick : IbAttr

/-- A row of the response to `reqMarketRule`. -/
structure MarketRuleRow where
  lowEdge : IbAttr
  increment : IbAttr
  deriving DecidableEq

/-- `_safe_decimal` -/
def safeDecimal (value : IbAttr) : Option DecimalValue :=
  if value = .missing ∨ value = .none ∨ value = .text "" then none else value.toDecimal.toOption

/-- `[part.strip() for part in (text or "").split(",")]` -/
def commaList (text : Option String) : List String :=
  ((text.getD "").toList.splitOn ',').map fun part => String.ofList (PyStr.strip part)

/-! ## The market rule -/

/-- The exchange whose rule governs: the primary exchange, or else the routing exchange. -/
def ContractDetails.target (details : ContractDetails) : IbAttr :=
  match details.contract with
  | none => .text ""
  | some contract =>
      if contract.primaryExchange.orEmpty ≠ .text "" then contract.primaryExchange.orEmpty
      else contract.exchange.orEmpty

/-- The rule id at the place of the governing exchange, where the two lists align. -/
def ContractDetails.governingEntry (details : ContractDetails) : Option String :=
  let ruleIds := commaList details.marketRuleIds
  let validExch := commaList details.validExchanges
  if details.target ≠ .text "" ∧ ruleIds.length = validExch.length then
    ((validExch.zip ruleIds).find? fun (exch, rid) => .text exch = details.target ∧ rid ≠ "").map
      Prod.snd
  else none

/-- `_governing_rule_id` -/
def governingRuleId (details : ContractDetails) : Option Int :=
  match details.governingEntry with
  | some rid => intOfString rid
  | none => ((commaList details.marketRuleIds).find? (· ≠ "")).bind intOfString

/-- A row of the loop of `_fetch_market_rule`, `none` where it goes on to the next one. -/
def readRow (row : MarketRuleRow) : Except PyError (Option Wire.PriceIncrement) :=
  match safeDecimal row.lowEdge, safeDecimal row.increment with
  | some low, some step => do
      if ← step.le (.finite 0) then return none
      some <$> Frozen.make ⟨low, step⟩
  | _, _ => .ok none

/-- The order of the bands of a table. -/
abbrev Below (a b : Wire.PriceIncrement) : Prop := a.val.lowEdge.le b.val.lowEdge = .ok true

/-- `out.sort(key=lambda band: band.low_edge)` -/
def sortBands (bands : List Wire.PriceIncrement) : List Wire.PriceIncrement :=
  bands.insertionSort Below

/-- `_fetch_market_rule` -/
def fetchMarketRule (rule : Except PyError (Option (List MarketRuleRow))) :
    Except PyError (List Wire.PriceIncrement) := do
  let rows ← rule
  let out ← (rows.getD []).mapM readRow
  return sortBands (out.filterMap id)

/-! ## The service -/

/-- What `reqMarketRule` answers for an id. -/
abbrev MarketRules := Int → Except PyError (Option (List MarketRuleRow))

/-- `_fetch_details`: the details of the primary exchange, or else the first. -/
def chooseDetails (contract : Contract) (candidates : List ContractDetails) :
    Option ContractDetails :=
  (if contract.primaryExchange ≠ "" then
    candidates.find? fun details =>
      details.contract.any fun c => c.primaryExchange = .text contract.primaryExchange
  else none).or candidates.head?

/-- A single band from the minimum tick. -/
def minTickBand (details : ContractDetails) : Except PyError (List Wire.PriceIncrement) :=
  let unavailable := .error (.priceRuleUnavailable "IB contract details for ")
  match safeDecimal details.minTick with
  | none => unavailable
  | some minTick => do
      if ← DecimalValue.lt (.finite 0) minTick then
        return [← Frozen.make ⟨.finite 0, minTick⟩]
      unavailable

/-- `_increments_from_details` -/
def incrementsFromDetails (details : ContractDetails) (rules : MarketRules) :
    Except PyError (List Wire.PriceIncrement) :=
  let banded :=
    match governingRuleId details with
    | none => []
    | some ruleId =>
        match fetchMarketRule (rules ruleId) with
        | .ok banded => banded
        | .error _ => []
  if banded ≠ [] then .ok banded else minTickBand details

/-- The tables by instrument. -/
abbrev PriceRuleCache := Dict Instrument (List Wire.PriceIncrement)

/-- `increments_for` without the cache. -/
def fetchIncrements (instrument : Instrument) (details : Except PyError (List ContractDetails))
    (rules : MarketRules) : Except PyError (List Wire.PriceIncrement) := do
  let contract ← toContract instrument
  let candidates ← details
  let chosen ← orRaise (chooseDetails contract candidates)
    (.priceRuleUnavailable "reqContractDetails returned no details for ")
  incrementsFromDetails chosen rules

/-- `increments_for`: how the call ends, and the cache afterwards. -/
def incrementsFor (cache : PriceRuleCache) (instrument : Instrument)
    (details : Except PyError (List ContractDetails)) (rules : MarketRules) :
    Except PyError (List Wire.PriceIncrement) × PriceRuleCache :=
  match cache.get? instrument with
  | some cached => (.ok cached, cache)
  | none =>
      match fetchIncrements instrument details rules with
      | .ok increments => (.ok increments, cache.set instrument increments)
      | .error e => (.error e, cache)

/-- `clear_cache` -/
def clearCache (cache : PriceRuleCache) : Option Instrument → PriceRuleCache
  | none => Dict.empty
  | some instrument => cache.erase instrument

/-- A call of the service; the client answers a call of `increments_for` with a list of details. -/
inductive PriceRuleCall where
  | incrementsFor (instrument : Instrument) (details : List ContractDetails) (rules : MarketRules)
  | clearCache (instrument : Option Instrument)

namespace PriceRuleCache

/-- The service takes a call. -/
def step (cache : PriceRuleCache) : PriceRuleCall → Option PriceRuleCache
  | .incrementsFor instrument details rules =>
      some (incrementsFor cache instrument (.ok details) rules).2
  | .clearCache instrument => some (clearCache cache instrument)

end PriceRuleCache

/-- Two exchanges, the second of which is the primary one and has rule 32. -/
def sampleDetails : ContractDetails :=
  ⟨some ⟨.text "CAC", .text "STK", .text "SBF", .text "SBF", .text "EUR", .text ""⟩,
    some "26, 32", some "SMART, SBF", .number "0.01"⟩

example : governingRuleId sampleDetails = some 32 := by decide +kernel

example : ((incrementsFromDetails sampleDetails fun _ =>
      .ok (some [⟨.number "10", .number "0.05"⟩, ⟨.missing, .number "1"⟩,
        ⟨.number "0", .number "0.01"⟩])).map (List.map (·.val))) =
    .ok [⟨.finite 0, .finite (1 / 100)⟩, ⟨.finite 10, .finite (1 / 20)⟩] := by
  decide +kernel

end Blive
