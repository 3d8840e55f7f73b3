import Blive.Adapters.Ig.Payload
import Blive.Domain.WireTypes

/-!
# The IG instrument resolver

`adapters/ig/instrument_resolver.py`: the epic of an instrument is guessed from its asset class
and symbol and looked up; where IG does not know it, the instrument is searched for. What was
resolved is kept until the cache is cleared. The answers of the server are arguments of a call,
and a call answers the requests it made besides its result.
-/

namespace Blive

/-- What the resolver raises: an exception of its own or of Python, one of the client, or
`InstrumentAmbiguous` with the candidates. -/
inductive ResolveError where
  | py (error : PyError)
  | request (error : RequestError)
  | ambiguous (instrument : Instrument) (candidates : List (List (String × Json)))

/-! ## The epic family table -/

/-- `_epic_family` -/
def epicFamily (assetClass : AssetClass) (tradability : Tradability) : Except PyError String :=
  if tradability = .spot then
    .error (.instrumentNotResolvable
      "IG resolver does not support tradability='spot' instruments; got asset_class=")
  else
    match assetClass with
    | .index => .ok "IX.D"
    | .equity | .etf => .ok "KC.D"
    | .fx => .ok "CS.D"
    | .future => .ok "IX.D"
    | .option =>
        .error (.instrumentNotResolvable
          ("IG OPTION resolution not yet supported (M2-IG bridge runs on CAC 40 CFD); " ++
            "got asset_class="))

/-- `_epic_settlement_segment` -/
def epicSettlementSegment (tradability : Tradability) : Except PyError String :=
  match tradability with
  | .cfd => .ok "CASH.IP"
  | .spreadBet => .ok "CASH.IP"
  | .spot =>
      .error (.instrumentNotResolvable "_epic_settlement_segment unreachable for tradability=")

/-- `_guess_epic` -/
def guessEpic (instrument : Instrument) : Except PyError String := do
  let family ← epicFamily instrument.val.assetClass instrument.val.tradability
  let settlement ← epicSettlementSegment instrument.val.tradability
  return family ++ "." ++ instrument.val.symbol ++ "." ++ settlement

/-! ## Market metadata -/

structure IGMarketMetadata where
  epic : String
  name : String
  currency : String
  lotSize : DecimalValue
  minDealSize : DecimalValue

def required {α : Type} (x : Option α) (e : ResolveError) : Except ResolveError α :=
  match x with
  | some a => .ok a
  | none => .error e

/-- `raise IGRequestInvalid(...)` in the resolver, which carries no error code. -/
def requestInvalid (message : String) : ResolveError :=
  .request (.ig ⟨.requestInvalid, message, none, none⟩)

/-- `Decimal(str(value))` -/
def decimalField (value : Json) : Except ResolveError DecimalValue :=
  (DecimalValue.ofString value.toStr).mapError .py

/-- The code of the first of an instrument's `currencies`. -/
def firstCurrencyCode (instrument : List (String × Json)) : Except ResolveError String :=
  match Json.field instrument "currencies" with
  | .list (first :: _) =>
      match first.dict?.bind fun items => (Json.field items "code").str? with
      | some code => .ok code
      | none => .error (requestInvalid "IG /markets/")
  | _ => .error (requestInvalid "IG /markets/")

/-- `_parse_market_metadata` -/
def parseMarketMetadata (epic : String) (body : List (String × Json)) :
    Except ResolveError IGMarketMetadata := do
  let instrument ← required (Json.field body "instrument").dict? (requestInvalid "IG /markets/")
  let dealingRules ← required (Json.field body "dealingRules").dict?
    (requestInvalid "IG /markets/")
  let name := Json.textOf instrument "name"
  if name = "" then .error (requestInvalid "IG /markets/")
  else
    let currency ← firstCurrencyCode instrument
    let lotSize ← decimalField ((Json.field? instrument "lotSize").getD (.int 1))
    let minDealSizeObj ← required (Json.field dealingRules "minDealSize").dict?
      (requestInvalid "IG /markets/")
    let value ← required (Json.field? minDealSizeObj "value") (requestInvalid "IG /markets/")
    let minDealSize ← decimalField value
    return ⟨epic, name, currency, lotSize, minDealSize⟩

/-! ## The resolver -/

structure IGInstrumentResolver where
  epicCache : Dict Instrument String
  metadataCache : Dict String IGMarketMetadata

/-- A request to the server: `GET /markets/{epic}`, or `GET /markets?searchTerm=…`. -/
inductive MarketRequest where
  | market (epic : String)
  | search (term : String)
  deriving DecidableEq, Repr

/-- What the server answers to the requests a resolution can make: for the guess, to the search,
and for what the search found. -/
structure ResolveAnswers where
  guess : Except RequestError Json
  search : Except RequestError Json
  found : Except RequestError Json

namespace IGInstrumentResolver

def empty : IGInstrumentResolver := ⟨.empty, .empty⟩

/-- The metadata in the answer to `GET /markets/{epic}`. -/
def fetchMetadata (epic : String) (response : Except RequestError Json) :
    Except ResolveError IGMarketMetadata := do
  let body ← response.mapError .request
  let items ← required body.dict? (requestInvalid "IG /markets/")
  parseMarketMetadata epic items

/-- `_fetch_and_cache_metadata` -/
def fetchAndCacheMetadata (r : IGInstrumentResolver) (epic : String)
    (response : Except RequestError Json) : Except ResolveError IGInstrumentResolver :=
  (fetchMetadata epic response).map fun metadata =>
    { r with metadataCache := r.metadataCache.set epic metadata }

/-- What the loop over `body.get("markets", [])` runs through. The keys of an object and the
characters of a text are no candidates. -/
def candidatesRaw (body : Json) : Except PyError (List Json) :=
  match body with
  | .dict items =>
      match (Json.field? items "markets").getD (.list []) with
      | .list entries => .ok entries
      | .dict _ | .str _ => .ok []
      | _ => .error (.other "TypeError")
  | _ => .ok []

/-- An entry of a search whose epic starts with the family. -/
def candidate? (family : String) (entry : Json) : Option (List (String × Json)) :=
  match entry.dict? with
  | none => none
  | some items =>
      match (Json.field items "epic").str? with
      | some epic => if (family ++ ".").toList <+: epic.toList then some items else none
      | none => none

/-- The epic a search leads to: that of its only candidate in the family. -/
def searchedEpic (instrument : Instrument) (family : String)
    (response : Except RequestError Json) : Except ResolveError String := do
  let body ← response.mapError .request
  let raw ← (candidatesRaw body).mapError .py
  match raw.filterMap (candidate? family) with
  | [] => .error (.py (.instrumentNotResolvable "IG search for symbol="))
  | [candidate] => .ok (Json.textOf candidate "epic")
  | candidates => .error (.ambiguous instrument candidates)

/-- `_resolve_via_search`, with the requests it makes. -/
def resolveViaSearch (r : IGInstrumentResolver) (instrument : Instrument)
    (answers : ResolveAnswers) :
    List MarketRequest × Except ResolveError (IGInstrumentResolver × String) :=
  match epicFamily instrument.val.assetClass instrument.val.tradability with
  | .error e => ([], .error (.py e))
  | .ok family =>
      match searchedEpic instrument family answers.search with
      | .error e => ([.search instrument.val.symbol], .error e)
      | .ok epic =>
          ([.search instrument.val.symbol, .market epic],
            (r.fetchAndCacheMetadata epic answers.found).map fun r => (r, epic))

/-- `exc.error_code != "error.invalid.instrument"` lets everything else through. -/
def isInvalidInstrument : ResolveError → Bool
  | .request (.ig e) =>
      e.kind = .requestInvalid && e.errorCode = some "error.invalid.instrument"
  | _ => false

/-- `_try_resolve_via_guess_then_search` -/
def tryResolveViaGuessThenSearch (r : IGInstrumentResolver) (instrument : Instrument)
    (epicGuess : String) (answers : ResolveAnswers) :
    List MarketRequest × Except ResolveError (IGInstrumentResolver × String) :=
  match r.fetchAndCacheMetadata epicGuess answers.guess with
  | .ok r => ([.market epicGuess], .ok (r, epicGuess))
  | .error e =>
      if isInvalidInstrument e then
        let (requests, outcome) := r.resolveViaSearch instrument answers
        (.market epicGuess :: requests, outcome)
      else ([.market epicGuess], .error e)

/-- What a call leaves: the resolver, the requests it made, and what it returns or raises. -/
structure Outcome (α : Type) where
  resolver : IGInstrumentResolver
  requests : List MarketRequest
  result : Except ResolveError α

/-- `resolve` -/
def resolve (r : IGInstrumentResolver) (instrument : Instrument) (answers : ResolveAnswers) :
    Outcome String :=
  match r.epicCache.get? instrument with
  | some epic => ⟨r, [], .ok epic⟩
  | none =>
      match guessEpic instrument with
      | .error e => ⟨r, [], .error (.py e)⟩
      | .ok epicGuess =>
          match r.tryResolveViaGuessThenSearch instrument epicGuess answers with
          | (requests, .error e) => ⟨r, requests, .error e⟩
          | (requests, .ok (r, epic)) =>
              ⟨{ r with epicCache := r.epicCache.set instrument epic }, requests, .ok epic⟩

/-- `market_metadata`; `metadata` is what the server answers to its own request. -/
def marketMetadata (r : IGInstrumentResolver) (instrument : Instrument)
    (answers : ResolveAnswers) (metadata : Except RequestError Json) : Outcome IGMarketMetadata :=
  let resolved := r.resolve instrument answers
  match resolved.result with
  | .error e => ⟨resolved.resolver, resolved.requests, .error e⟩
  | .ok epic =>
      match resolved.resolver.metadataCache.get? epic with
      | some known => ⟨resolved.resolver, resolved.requests, .ok known⟩
      | none =>
          match fetchMetadata epic metadata with
          | .error e => ⟨resolved.resolver, resolved.requests ++ [.market epic], .error e⟩
          | .ok fetched =>
              ⟨{ resolved.resolver with
                  metadataCache := resolved.resolver.metadataCache.set epic fetched },
                resolved.requests ++ [.market epic], .ok fetched⟩

/-- `precision_for` -/
def precisionFor (r : IGInstrumentResolver) (instrument : Instrument) (answers : ResolveAnswers)
    (metadata : Except RequestError Json) : Outcome DecimalValue :=
  if instrument.val.tradability = .spot then ⟨r, [], .ok (.finite 1)⟩
  else
    let described := r.marketMetadata instrument answers metadata
    ⟨described.resolver, described.requests, described.result.map (·.minDealSize)⟩

/-- `clear_cache` -/
def clearCache (r : IGInstrumentResolver) : Option Instrument → IGInstrumentResolver
  | none => empty
  | some instrument =>
      match r.epicCache.get? instrument with
      | none => r
      | some epic => ⟨r.epicCache.erase instrument, r.metadataCache.erase epic⟩

/-- A call of the resolver, and what the server answers during it. -/
inductive Call where
  | resolve (instrument : Instrument) (answers : ResolveAnswers)
  | marketMetadata (instrument : Instrument) (answers : ResolveAnswers)
      (metadata : Except RequestError Json)
  | precisionFor (instrument : Instrument) (answers : ResolveAnswers)
      (metadata : Except RequestError Json)
  | clearCache (instrument : Option Instrument)

/-- One call after the other. -/
def step (r : IGInstrumentResolver) : Call → Option IGInstrumentResolver
  | .resolve instrument answers => some (r.resolve instrument answers).resolver
  | .marketMetadata instrument answers metadata =>
      some (r.marketMetadata instrument answers metadata).resolver
  | .precisionFor instrument answers metadata =>
      some (r.precisionFor instrument answers metadata).resolver
  | .clearCache instrument => some (r.clearCache instrument)

end IGInstrumentResolver

end Blive
