import Blive.Misc.Semaphore
import Blive.Adapters.Ig.Payload
import Blive.Domain.WireTypes

/-!
# The market data of IG

`adapters/ig/market_data.py`: the decoder of a chart subscription, and the book of the live
subscriptions. An update of a chart carries the fields that changed since the last one; the
decoder merges them and builds a bar whenever the merged fields say that a consolidation
ended. A subscription takes a permit of a budget first and gives it back when it ends; every
`await` of a call is a place where other calls run and where the call can fail or be
cancelled.
-/

namespace Blive

/-- `_freq_to_timedelta`, in microseconds. -/
def freqToTimedelta : BarFreq → Int
  | .oneMinute => 60 * 1000000
  | .fiveMinutes => 300 * 1000000
  | .fifteenMinutes => 900 * 1000000
  | .oneHour => 3600 * 1000000
  | .oneDay => 86400 * 1000000

/-- `_LIGHTSTREAMER_CHART_FIELDS` -/
def lightstreamerChartFields : List String :=
  ["UTM", "OFR_OPEN", "OFR_HIGH", "OFR_LOW", "OFR_CLOSE", "BID_OPEN", "BID_HIGH", "BID_LOW",
    "BID_CLOSE", "LTP_OPEN", "LTP_HIGH", "LTP_LOW", "LTP_CLOSE", "LTV", "CONS_END"]

/-- The fields accumulated so far. -/
abbrev ChartState := Dict String String

/-- An update of a subscription; `None` means that the field did not change. -/
abbrev ChartUpdate := Dict String (Option String)

/-- The loop that merges the items of an update into the state. -/
def mergeItems : List (String × Option String) → ChartState → ChartState
  | [], state => state
  | (k, some v) :: rest, state => mergeItems rest (state.set k v)
  | (_, none) :: rest, state => mergeItems rest state

/-- `Decimal(text)`, or the fallback behind the `except (TypeError, ValueError)`. -/
def decimalOr (text : String) (fallback : Except PyError DecimalValue) :
    Except PyError DecimalValue :=
  match DecimalValue.ofString text with
  | .ok price => .ok price
  | .error e => if isTypeOrValueError e then fallback else .error e

/-- The midpoint of two texts, under the `except (TypeError, ValueError)` that turns what it
names into a `ValueError` of its own. -/
def midpoint (bid ask message : String) : Except PyError DecimalValue :=
  match DecimalValue.ofString bid, DecimalValue.ofString ask with
  | .ok bidD, .ok askD => bidD.add askD >>= fun sum => sum.div (.finite 2)
  | .error e, _ => .error (if isTypeOrValueError e then .valueError message else e)
  | _, .error e => .error (if isTypeOrValueError e then .valueError message else e)

/-- `_stream_ohlc` from the bid and the offer. -/
def streamMid (state : ChartState) (suffix : String) : Except PyError DecimalValue :=
  match state.get? ("BID_" ++ suffix), state.get? ("OFR_" ++ suffix) with
  | some bid, some ask =>
      if bid = "" ∨ ask = "" then
        .error (.valueError "Lightstreamer chart state missing BID_")
      else midpoint bid ask "Lightstreamer BID_"
  | _, _ => .error (.valueError "Lightstreamer chart state missing BID_")

/-- `_stream_ohlc` -/
def streamOhlc (state : ChartState) (suffix : String) : Except PyError DecimalValue :=
  match state.get? ("LTP_" ++ suffix) with
  | none => streamMid state suffix
  | some ltp =>
      if ltp = "" then streamMid state suffix else decimalOr ltp (streamMid state suffix)

/-- `datetime.fromtimestamp(utm_ms / 1000.0, tz=timezone.utc)`, read exactly. Past the years
a `datetime` holds it raises `ValueError`, past those the platform holds an error of its
own. -/
def fromTimestampMs (utmMs : Int) : Except PyError Datetime :=
  if -62135596800000 ≤ utmMs ∧ utmMs ≤ 253402300799999 then .ok ⟨utmMs * 1000, some 0⟩
  else if -67768040609740800000 ≤ utmMs ∧ utmMs < 67768036191676800000 then
    .error (.valueError "year is out of range")
  else .error (.other "OverflowError")

/-- `moment - delta` -/
def Datetime.minus (moment : Datetime) (delta : Int) : Except PyError Datetime :=
  if -62135596800000000 ≤ moment.micros - delta then
    .ok { moment with micros := moment.micros - delta }
  else .error (.other "OverflowError")

/-- The volume a text says, under the same `except`, and `0` for a negative one. -/
def volumeOf (text message : String) : Except PyError DecimalValue :=
  match DecimalValue.ofString text with
  | .ok volume => do if ← volume.lt (.finite 0) then .ok (.finite 0) else .ok volume
  | .error e => .error (if isTypeOrValueError e then .valueError message else e)

/-- The volume of a bar: `0` when there is none. -/
def streamVolume (state : ChartState) : Except PyError DecimalValue :=
  volumeOf ((state.get? "LTV").getD "0") "Lightstreamer LTV not numeric: "

/-- `_build_bar_from_state`, for a reader of the prices. -/
def buildBarWith (ohlc : String → Except PyError DecimalValue) (state : ChartState)
    (instrument : Instrument) (barDuration : Int) : Except PyError Wire.Bar := do
  let utmRaw := (state.get? "UTM").getD ""
  require (utmRaw ≠ "")
    (.valueError "Lightstreamer chart state missing UTM (update timestamp)")
  let utmMs ← orRaise (intOfString utmRaw) (.valueError "Lightstreamer UTM not an integer: ")
  let closeTime ← fromTimestampMs utmMs
  let openTime ← closeTime.minus barDuration
  let openPrice ← ohlc "OPEN"
  let highPrice ← ohlc "HIGH"
  let lowPrice ← ohlc "LOW"
  let closePrice ← ohlc "CLOSE"
  let volume ← streamVolume state
  Frozen.make {
    instrument
    openTimeUtc := openTime
    closeTimeUtc := closeTime
    openPrice
    high := highPrice
    low := lowPrice
    close := closePrice
    volume }

/-- `_build_bar_from_state` -/
def buildBarFromState (state : ChartState) (instrument : Instrument) (barDuration : Int) :
    Except PyError Wire.Bar :=
  buildBarWith (streamOhlc state) state instrument barDuration

/-- `_bar_stream` over the updates still to come: the bars it yields, and the exception that
ends it, if one does. -/
def barStream (instrument : Instrument) (barDuration : Int) :
    ChartState → List ChartUpdate → List Wire.Bar × Option PyError
  | _, [] => ([], none)
  | state, update :: rest =>
      let merged := mergeItems update.items state
      if merged.get? "CONS_END" ≠ some "1" then barStream instrument barDuration merged rest
      else
        match buildBarFromState merged instrument barDuration with
        | .ok bar =>
            let out := barStream instrument barDuration .empty rest
            (bar :: out.1, out.2)
        | .error e =>
            if isParseFailure e then barStream instrument barDuration .empty rest
            else ([], some e)

/-! ## Historical bars -/

/-- `_parse_ig_snapshot` -/
def parseIgSnapshot (parsers : DatetimeParsers) (text : String) : Except PyError Datetime :=
  parseTimestamp parsers text "unrecognised IG snapshot timestamp: "

/-- `_ohlc_value` from the bid and the offer. -/
def ohlcMid (obj : List (String × Json)) : Except PyError DecimalValue :=
  match Json.present? obj "bid", Json.present? obj "ask" with
  | some bid, some ask => midpoint bid.toStr ask.toStr "IG /prices "
  | _, _ => .error (.valueError "IG /prices ")

/-- `_ohlc_value` -/
def ohlcValue (entry : List (String × Json)) (field : String) : Except PyError DecimalValue :=
  match (Json.field entry field).dict? with
  | none => .error (.valueError "IG /prices entry missing ")
  | some obj =>
      match Json.present? obj "lastTraded" with
      | none => ohlcMid obj
      | some lastTraded => decimalOr lastTraded.toStr (ohlcMid obj)

/-- The text of the time of a bar's start. -/
def snapshotText (entry : List (String × Json)) : Except PyError String := do
  let snapshot ← orRaise
    ((Json.field entry "snapshotTimeUTC").orElse (Json.field entry "snapshotTime")).str?
    (.valueError "IG /prices entry missing snapshotTime[UTC]")
  require (snapshot ≠ "") (.valueError "IG /prices entry missing snapshotTime[UTC]")
  .ok snapshot

/-- `_parse_price_bar` -/
def parsePriceBar (parsers : DatetimeParsers) (instrument : Instrument) (barDuration : Int)
    (entry : List (String × Json)) : Except PyError Wire.Bar := do
  let snapshot ← snapshotText entry
  let openTime ← parseIgSnapshot parsers snapshot
  let closeTime ← openTime.plus barDuration
  let openPrice ← ohlcValue entry "openPrice"
  let highPrice ← ohlcValue entry "highPrice"
  let lowPrice ← ohlcValue entry "lowPrice"
  let closePrice ← ohlcValue entry "closePrice"
  let volume ← volumeOf ((Json.field? entry "lastTradedVolume").getD (.int 0)).toStr
    "IG /prices lastTradedVolume not numeric: "
  Frozen.make {
    instrument
    openTimeUtc := openTime
    closeTimeUtc := closeTime
    openPrice
    high := highPrice
    low := lowPrice
    close := closePrice
    volume }

/-- The entries of a `/prices` response that are parsed. -/
def priceEntries (body : Json) : List (List (String × Json)) :=
  (entriesOf body "prices").filterMap Json.dict?

/-- `out.sort(key=lambda b: b.open_time_utc)`, which is stable. -/
def sortBars (bars : List Wire.Bar) : List Wire.Bar :=
  bars.mergeSort fun a b => a.val.openTimeUtc.micros ≤ b.val.openTimeUtc.micros

/-- The checks `historical_bars` makes before the request. -/
def checkRange (start stop : Datetime) : Except PyError Unit := do
  require (start.utcOffset ≠ none ∧ stop.utcOffset ≠ none)
    (.valueError "IGMarketData.historical_bars requires UTC-aware start / end")
  require (start.micros < stop.micros)
    (.valueError "IGMarketData.historical_bars: start (")

/-- `historical_bars`, given what the resolver and the server answer. -/
def historicalBars (parsers : DatetimeParsers) (instrument : Instrument) (freq : BarFreq)
    (start stop : Datetime) (epic : Except CallError String)
    (response : Except RequestError Json) : Except CallError (List Wire.Bar) := do
  (checkRange start stop).mapError .py
  let _epic ← epic
  let body ← response.mapError .request
  let out ← (collect isParseFailure
    (parsePriceBar parsers instrument (freqToTimedelta freq)) (priceEntries body)).mapError .py
  .ok (sortBars out)

/-! ## Subscriptions -/

/-- `_freq_to_lightstreamer_resolution` -/
def freqToLightstreamerResolution : BarFreq → String
  | .oneMinute => "1MINUTE"
  | .fiveMinutes => "5MINUTE"
  | .fifteenMinutes => "15MINUTE"
  | .oneHour => "HOUR"
  | .oneDay => "DAY"

/-- `_lightstreamer_chart_item` -/
def lightstreamerChartItem (epic : String) (freq : BarFreq) : String :=
  "CHART:" ++ epic ++ ":" ++ freqToLightstreamerResolution freq

/-- A subscription object; `handle` tells two of them apart. -/
structure LightstreamerSubscription where
  handle : Nat
  item : String
  fields : List String
  mode : String
  deriving DecidableEq

/-- The `await` a call of `subscribe_bars` or `unsubscribe` stands at. -/
inductive CallStage where
  | acquiring (freq : BarFreq)
  | resolving (freq : BarFreq)
  | connecting (item : String)
  | subscribing (item : String)
  | unsubscribing (subscription : LightstreamerSubscription)
  deriving DecidableEq

structure SubscriptionCall where
  instrument : Instrument
  stage : CallStage
  deriving DecidableEq

structure IGMarketData where
  /-- Whether the adapter was given a Lightstreamer source. -/
  source : Bool
  subscriptionBudget : Semaphore Nat
  active : Dict Instrument LightstreamerSubscription
  /-- The calls under way, by task. -/
  calls : Dict Nat SubscriptionCall
  nextHandle : Nat
  /-- The subscriptions that are open at the source, with the instrument they are for. -/
  wire : List (Instrument × LightstreamerSubscription)

/-- How an `await` of `source.subscribe` or `source.unsubscribe` ends. The source is up to the
environment: where the call raises, the subscription may have been opened, or ended, all the
same. -/
inductive SourceOutcome where
  | returned
  | raised (effect : Bool)
  deriving DecidableEq

/-- What can happen next: a call starts, an `await` of a call returns or raises, or a call is
cancelled at its `await`; `effect` says if the source did by then what it was asked to do. -/
inductive SubscriptionAction where
  | subscribeBars (task : Nat) (instrument : Instrument) (freq : BarFreq)
  | unsubscribe (task : Nat) (instrument : Instrument)
  | acquired (task : Nat)
  | resolved (task : Nat) (epic : Option String)
  | connected (task : Nat) (ok : Bool)
  | subscribed (task : Nat) (outcome : SourceOutcome)
  | unsubscribed (task : Nat) (outcome : SourceOutcome)
  | cancel (task : Nat) (effect : Bool)

namespace IGMarketData

def init (source : Bool) (maxConcurrentSubscriptions : Nat) : IGMarketData :=
  ⟨source, .init maxConcurrentSubscriptions, .empty, .empty, 0, []⟩

/-- The checks `subscribe_bars` makes before it takes a permit. -/
def checkSubscribe (md : IGMarketData) (instrument : Instrument) : Except PyError Unit := do
  require md.source
    (.notImplementedError "IGMarketData.subscribe_bars requires a LightstreamerSource. ")
  require (instrument ∉ md.active)
    (.runtimeError "IGMarketData.subscribe_bars: already subscribed to ")

/-- `subscribe_bars` up to its first `await`. -/
def subscribeBars (md : IGMarketData) (task : Nat) (instrument : Instrument) (freq : BarFreq) :
    IGMarketData :=
  match md.checkSubscribe instrument with
  | .error _ => md
  | .ok () =>
      match md.subscriptionBudget.acquire? with
      | some budget =>
          { md with
            subscriptionBudget := budget
            calls := md.calls.set task ⟨instrument, .resolving freq⟩ }
      | none =>
          { md with
            subscriptionBudget := md.subscriptionBudget.enqueue task
            calls := md.calls.set task ⟨instrument, .acquiring freq⟩ }

/-- `unsubscribe` up to its first `await`. -/
def unsubscribe (md : IGMarketData) (task : Nat) (instrument : Instrument) : IGMarketData :=
  match md.active.get? instrument with
  | none => md
  | some subscription =>
      if md.source then
        { md with
          active := md.active.erase instrument
          calls := md.calls.set task ⟨instrument, .unsubscribing subscription⟩ }
      else
        { md with
          active := md.active.erase instrument
          subscriptionBudget := md.subscriptionBudget.release }

/-- `except Exception: self._subscription_budget.release(); raise` -/
def failed (md : IGMarketData) (task : Nat) : IGMarketData :=
  { md with
    subscriptionBudget := md.subscriptionBudget.release
    calls := md.calls.erase task }

/-- The subscription the source opens next. -/
def newSubscription (md : IGMarketData) (item : String) : LightstreamerSubscription :=
  ⟨md.nextHandle, item, lightstreamerChartFields, "MERGE"⟩

/-- The source opens a subscription. -/
def opened (md : IGMarketData) (instrument : Instrument) (item : String) : IGMarketData :=
  { md with
    nextHandle := md.nextHandle + 1
    wire := md.wire ++ [(instrument, md.newSubscription item)] }

/-- The source ends a subscription. -/
def closed (md : IGMarketData) (instrument : Instrument)
    (subscription : LightstreamerSubscription) : IGMarketData :=
  { md with wire := md.wire.filter (· ≠ (instrument, subscription)) }

/-- The rest of `subscribe_bars` once the source returned the subscription. -/
def register (md : IGMarketData) (task : Nat) (instrument : Instrument) (item : String) :
    IGMarketData :=
  { md.opened instrument item with
    active := md.active.set instrument (md.newSubscription item)
    calls := md.calls.erase task }

/-- The `finally` of `unsubscribe`, however the call of the source ended. -/
def released (md : IGMarketData) (task : Nat) : IGMarketData :=
  { md with
    subscriptionBudget := md.subscriptionBudget.release
    calls := md.calls.erase task }

/-- `CancelledError` at the `await` of a call. It is no `Exception`: only the semaphore and
the `finally` of `unsubscribe` see it. -/
def cancelled (md : IGMarketData) (task : Nat) (call : SubscriptionCall) (effect : Bool) :
    Option IGMarketData :=
  match call.stage with
  | .acquiring _ =>
      (md.subscriptionBudget.cancel? task).map fun budget =>
        { md with subscriptionBudget := budget, calls := md.calls.erase task }
  | .resolving _ | .connecting _ => some { md with calls := md.calls.erase task }
  | .subscribing item =>
      let md := if effect then md.opened call.instrument item else md
      some { md with calls := md.calls.erase task }
  | .unsubscribing subscription =>
      let md := if effect then md.closed call.instrument subscription else md
      some (md.released task)

/-- The rest of a call whose `await` returned or raised. -/
def advance (md : IGMarketData) (task : Nat) (call : SubscriptionCall) :
    SubscriptionAction → Option IGMarketData
  | .acquired _ =>
      match call.stage with
      | .acquiring freq =>
          (md.subscriptionBudget.resume? task).map fun budget =>
            { md with
              subscriptionBudget := budget
              calls := md.calls.set task ⟨call.instrument, .resolving freq⟩ }
      | _ => none
  | .resolved _ epic =>
      match call.stage, epic with
      | .resolving freq, some epic =>
          some { md with
            calls := md.calls.set task
              ⟨call.instrument, .connecting (lightstreamerChartItem epic freq)⟩ }
      | .resolving _, none => some (md.failed task)
      | _, _ => none
  | .connected _ ok =>
      match call.stage, ok with
      | .connecting item, true =>
          some { md with calls := md.calls.set task ⟨call.instrument, .subscribing item⟩ }
      | .connecting _, false => some (md.failed task)
      | _, _ => none
  | .subscribed _ outcome =>
      match call.stage, outcome with
      | .subscribing item, .returned => some (md.register task call.instrument item)
      | .subscribing item, .raised effect =>
          let md := if effect then md.opened call.instrument item else md
          some (md.failed task)
      | _, _ => none
  | .unsubscribed _ outcome =>
      match call.stage with
      | .unsubscribing subscription =>
          let md := if outcome = .raised false then md else md.closed call.instrument subscription
          some (md.released task)
      | _ => none
  | .cancel _ effect => md.cancelled task call effect
  | _ => none

end IGMarketData

/-- The task an action is about. -/
def SubscriptionAction.task : SubscriptionAction → Nat
  | .subscribeBars task _ _ | .unsubscribe task _ | .acquired task | .resolved task _
  | .connected task _ | .subscribed task _ | .unsubscribed task _ | .cancel task _ => task

namespace IGMarketData

/-- A task runs one call at a time. -/
def step (md : IGMarketData) (a : SubscriptionAction) : Option IGMarketData :=
  match md.calls.get? a.task with
  | some call => md.advance a.task call a
  | none =>
      match a with
      | .subscribeBars task instrument freq => some (md.subscribeBars task instrument freq)
      | .unsubscribe task instrument => some (md.unsubscribe task instrument)
      | _ => none

end IGMarketData

end Blive
