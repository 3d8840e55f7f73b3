import Blive.Adapters.Ig.InstrumentResolver
import Blive.Misc.Tasks

/-!
# The IG instrument resolver in tasks

The methods of `IGInstrumentResolver` as the coroutines they are: each waits for IG wherever it
makes a request, and the two caches may be filled and cleared by other calls meanwhile. What the
methods do with an answer is the same as in one call after the other.
-/

namespace Blive

/-- What `IGClient.get` returns or raises. -/
abbrev MarketAnswer : MarketRequest → Type := fun _ => Except RequestError Json

namespace IGInstrumentResolver

open Coroutine (await)

abbrev Async := Coroutine IGInstrumentResolver MarketAnswer ResolveError

namespace Async

/-- `_fetch_and_cache_metadata` -/
def fetchAndCacheMetadata (epic : String) : Async Unit := do
  let response ← await (.market epic)
  let metadata ← ofExcept (fetchMetadata epic response)
  modify fun r => { r with metadataCache := r.metadataCache.set epic metadata }

/-- `_resolve_via_search` -/
def resolveViaSearch (instrument : Instrument) : Async String := do
  let family ← ofExcept
    ((epicFamily instrument.val.assetClass instrument.val.tradability).mapError .py)
  let response ← await (.search instrument.val.symbol)
  let epic ← ofExcept (searchedEpic instrument family response)
  fetchAndCacheMetadata epic
  return epic

/-- `_try_resolve_via_guess_then_search` -/
def tryResolveViaGuessThenSearch (instrument : Instrument) (epicGuess : String) : Async String :=
  tryCatch (do fetchAndCacheMetadata epicGuess; return epicGuess) fun e =>
    if isInvalidInstrument e then resolveViaSearch instrument else throw e

/-- `resolve` -/
def resolve (instrument : Instrument) : Async String := do
  match (← get).epicCache.get? instrument with
  | some epic => return epic
  | none =>
      let epicGuess ← ofExcept ((guessEpic instrument).mapError .py)
      let epic ← tryResolveViaGuessThenSearch instrument epicGuess
      modify fun r => { r with epicCache := r.epicCache.set instrument epic }
      return epic

/-- `self._metadata_cache[epic]` -/
def metadataOf (epic : String) : Async IGMarketMetadata := do
  match (← get).metadataCache.get? epic with
  | some metadata => return metadata
  | none => throw (.py (.keyError epic))

/-- `market_metadata` -/
def marketMetadata (instrument : Instrument) : Async IGMarketMetadata := do
  let epic ← resolve instrument
  if epic ∉ (← get).metadataCache then
    fetchAndCacheMetadata epic
  metadataOf epic

/-- `precision_for` -/
def precisionFor (instrument : Instrument) : Async DecimalValue := do
  if instrument.val.tradability = .spot then return .finite 1
  else
    let metadata ← marketMetadata instrument
    return metadata.minDealSize

/-- `clear_cache` -/
def clearCache (instrument : Option Instrument) : Async Unit :=
  modify fun r => r.clearCache instrument

end Async

/-- The methods of the resolver. -/
inductive Method where
  | resolve (instrument : Instrument)
  | marketMetadata (instrument : Instrument)
  | precisionFor (instrument : Instrument)
  | clearCache (instrument : Option Instrument)
  deriving DecidableEq

abbrev Method.Result : Method → Type
  | .resolve _ => String
  | .marketMetadata _ => IGMarketMetadata
  | .precisionFor _ => DecimalValue
  | .clearCache _ => Unit

def body : (method : Method) → Async method.Result
  | .resolve instrument => Async.resolve instrument
  | .marketMetadata instrument => Async.marketMetadata instrument
  | .precisionFor instrument => Async.precisionFor instrument
  | .clearCache instrument => Async.clearCache instrument

end IGInstrumentResolver

end Blive
