import Blive.Adapters.Ib.PriceRules
import Blive.Misc.Tasks

/-!
# The cached services of the IB adapter

`resolve` of `adapters/ib/instrument_resolver.py` and `increments_for` of
`adapters/ib/price_rules.py` as the coroutines they are: between the look at the cache and the
entry into it they wait for the rate limiter and for the venue, and other calls, also for the same
instrument or to clear the cache, come between. An answer is an exception when the call it answers
raises one.
-/

namespace Blive

/-- The contract of `sampleInstrument`. -/
def sampleContract : Contract := ⟨"CAC", "STK", "EUR", "SBF", "", none⟩

example : toContract sampleInstrument = .ok sampleContract := by decide +kernel

/-- What the services wait for: `rate_limiter.acquire`, and the calls of `ib_async`. -/
inductive IbRequest where
  | acquire (bucket : String)
  | qualifyContracts (contract : Contract)
  | contractDetails (contract : Contract)
  | marketRule (ruleId : Int)
  deriving DecidableEq

/-- What the resolver reads of a qualified `ib_async.Contract`. -/
structure QualifiedContract where
  conId : Int
  primaryExchange : String
  currency : String
  deriving DecidableEq

/-- An element of the response to `qualifyContractsAsync`; `other` for `None` and for a nested
list. -/
inductive QualifyElement where
  | contract (contract : QualifiedContract)
  | other
  deriving DecidableEq

abbrev IbRequest.Answer : IbRequest → Type
  | .acquire _ => Except PyError Unit
  | .qualifyContracts _ => Except PyError (List QualifyElement)
  | .contractDetails _ => Except PyError (List ContractDetails)
  | .marketRule _ => Except PyError (Option (List MarketRuleRow))

open Coroutine (await)

/-! ## The instrument resolver -/

namespace IBInstrumentResolver

/-- `_conid_cache` -/
abbrev Cache := Dict Instrument Int

/-- What `resolve` raises: an exception of its own or of Python, or `InstrumentAmbiguous`. -/
inductive Error where
  | py (error : PyError)
  | ambiguous (instrument : Instrument) (candidates : List QualifiedContract)
  deriving DecidableEq

/-- `[c for c in result if isinstance(c, ib_async.Contract)]` -/
def candidates (result : List QualifyElement) : List QualifiedContract :=
  result.filterMap fun
    | .contract c => some c
    | .other => none

/-- The `conId` that a response leads to. -/
def conIdOf (instrument : Instrument) (result : List QualifyElement) : Except Error Int :=
  match candidates result with
  | [] => .error (.py (.instrumentNotResolvable
      "IB qualifyContractsAsync returned zero candidates for "))
  | [candidate] =>
      if candidate.conId = 0 then
        .error (.py (.instrumentNotResolvable
          "IB qualifyContractsAsync returned a Contract with conId=0 for "))
      else .ok candidate.conId
  | candidates => .error (.ambiguous instrument candidates)

abbrev Async := Coroutine Cache IbRequest.Answer Error

/-- A value, or the Python exception its computation raises. -/
def pyResult {ν : Type} (result : Except PyError ν) : Async ν := ofExcept (result.mapError .py)

/-- `resolve` -/
def resolve (instrument : Instrument) : Async Int := do
  match (← get).get? instrument with
  | some conId => return conId
  | none =>
      let contract ← pyResult (toContract instrument)
      pyResult (← await (.acquire "global"))
      let result ← pyResult (← await (.qualifyContracts contract))
      let conId ← ofExcept (conIdOf instrument result)
      modify fun cache => cache.set instrument conId
      return conId

/-- `clear_cache` -/
def clearCache (instrument : Option Instrument) : Async Unit :=
  modify fun cache =>
    match instrument with
    | none => .empty
    | some instrument => cache.erase instrument

inductive Method where
  | resolve (instrument : Instrument)
  | clearCache (instrument : Option Instrument)
  deriving DecidableEq

abbrev Method.Result : Method → Type
  | .resolve _ => Int
  | .clearCache _ => Unit

instance : ∀ method : Method, DecidableEq method.Result
  | .resolve _ => inferInstanceAs (DecidableEq Int)
  | .clearCache _ => inferInstanceAs (DecidableEq Unit)

def body : (method : Method) → Async method.Result
  | .resolve instrument => resolve instrument
  | .clearCache instrument => clearCache instrument

end IBInstrumentResolver

/-! ## The price rules -/

namespace IBPriceRuleService

abbrev Async := Coroutine PriceRuleCache IbRequest.Answer PyError

/-- `_fetch_details` -/
def fetchDetails (contract : Contract) : Async ContractDetails := do
  ofExcept (← await (.acquire "global"))
  let candidates ← ofExcept (← await (.contractDetails contract))
  ofExcept (orRaise (chooseDetails contract candidates)
    (.priceRuleUnavailable "reqContractDetails returned no details for "))

/-- `_fetch_market_rule` -/
def fetchMarketRule (ruleId : Int) : Async (List Wire.PriceIncrement) := do
  ofExcept (← await (.acquire "global"))
  let rule ← await (.marketRule ruleId)
  ofExcept (Blive.fetchMarketRule rule)

/-- `_increments_from_details` -/
def incrementsFromDetails (details : ContractDetails) : Async (List Wire.PriceIncrement) := do
  let banded ←
    match governingRuleId details with
    | none => pure []
    | some ruleId => tryCatch (fetchMarketRule ruleId) fun _ => pure []
  if banded ≠ [] then return banded else ofExcept (minTickBand details)

/-- `increments_for` -/
def incrementsFor (instrument : Instrument) : Async (List Wire.PriceIncrement) := do
  match (← get).get? instrument with
  | some cached => return cached
  | none =>
      let contract ← ofExcept (toContract instrument)
      let details ← fetchDetails contract
      let increments ← incrementsFromDetails details
      modify fun cache => cache.set instrument increments
      return increments

/-- `clear_cache` -/
def clearCache (instrument : Option Instrument) : Async Unit :=
  modify fun cache => Blive.clearCache cache instrument

inductive Method where
  | incrementsFor (instrument : Instrument)
  | clearCache (instrument : Option Instrument)
  deriving DecidableEq

abbrev Method.Result : Method → Type
  | .incrementsFor _ => List Wire.PriceIncrement
  | .clearCache _ => Unit

instance : ∀ method : Method, DecidableEq method.Result
  | .incrementsFor _ => inferInstanceAs (DecidableEq (List Wire.PriceIncrement))
  | .clearCache _ => inferInstanceAs (DecidableEq Unit)

def body : (method : Method) → Async method.Result
  | .incrementsFor instrument => incrementsFor instrument
  | .clearCache instrument => clearCache instrument

end IBPriceRuleService

end Blive
