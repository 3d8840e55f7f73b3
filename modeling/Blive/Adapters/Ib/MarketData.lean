import Blive.Misc.Rounding
import Blive.Domain.WireTypes
import Blive.Adapters.Ib.InstrumentResolver
import Blive.Adapters.Ib.Positions

/-!
# The market data of IB

`IBMarketData.historical_bars` of `adapters/ib/market_data.py`: the request for a window, whose
length IB takes as a text, and the parser of the bars of the response. The rate limiter and the
client's answer are arguments.
-/

namespace Blive

/-- `_BAR_FREQ_TO_IB_BAR_SIZE` -/
def barFreqToIbBarSize : BarFreq → String
  | .oneMinute => "1 min"
  | .fiveMinutes => "5 mins"
  | .fifteenMinutes => "15 mins"
  | .oneHour => "1 hour"
  | .oneDay => "1 day"

/-- `_DEFAULT_WHAT_TO_SHOW` -/
def defaultWhatToShow : String := "TRADES"

/-- `_BID_ASK_WHAT_TO_SHOW` -/
def bidAskWhatToShow : String := "BID_ASK"

/-! ## The request -/

/-- The units of a `durationStr` that are used: `S`, `D` and `Y`. -/
inductive DurationUnit where
  | seconds | days | years
  deriving DecidableEq, Repr

/-- IB's `durationStr`, `<int> <unit>`. -/
structure IbDuration where
  count : Int
  unit : DurationUnit
  deriving DecidableEq, Repr

def DurationUnit.letter : DurationUnit → String
  | .seconds => "S"
  | .days => "D"
  | .years => "Y"

def IbDuration.str (duration : IbDuration) : String :=
  toString duration.count ++ " " ++ duration.unit.letter

/-- `(end - start).total_seconds()` as the `float` it is. -/
def totalSeconds (start stop : Datetime) : Decimal :=
  nearestFloat (((stop.micros - start.micros : Int) : Decimal) / (1000000 : Int))

/-- `_duration_str_for_range` -/
def durationStrForRange (start stop : Datetime) (freq : BarFreq) : IbDuration :=
  let deltaSeconds := totalSeconds start stop
  if deltaSeconds ≤ 0 then ⟨1, .days⟩
  else if freq = .oneDay then
    -- The sum is one of floats; the floor division of floats of this size is exact.
    let days := max 1 (nearestFloat (deltaSeconds + 86399) / 86400).floor
    if 365 < days then ⟨max 1 ((days + 364) / 365), .years⟩
    else ⟨days, .days⟩
  else
    let seconds := max 60 deltaSeconds.floor
    ⟨min seconds 86400, .seconds⟩

/-- The arguments of `reqHistoricalDataAsync`. -/
structure HistoricalRequest where
  contract : Contract
  endDateTime : Datetime
  duration : IbDuration
  barSizeSetting : String
  whatToShow : String
  useRth : Bool
  deriving DecidableEq

/-- `historical_bars` up to its request. -/
def historicalRequest (instrument : Instrument) (freq : BarFreq) (start stop : Datetime)
    (whatToShow : String) (useRth : Bool) : Except PyError HistoricalRequest := do
  require (start.utcOffset ≠ none ∧ stop.utcOffset ≠ none)
    (.valueError "historical_bars requires tz-aware start / end (UTC). Got start.tzinfo=")
  require (start.micros ≤ stop.micros) (.valueError "historical_bars start (")
  let contract ← toContract instrument
  return {
    contract
    endDateTime := stop
    duration := durationStrForRange start stop freq
    barSizeSetting := barFreqToIbBarSize freq
    whatToShow
    useRth }

theorem historicalRequest_eq_ok_iff {instrument : Instrument} {freq : BarFreq}
    {start stop : Datetime} {whatToShow : String} {useRth : Bool} {request : HistoricalRequest} :
    historicalRequest instrument freq start stop whatToShow useRth = .ok request ↔
      (start.utcOffset ≠ none ∧ stop.utcOffset ≠ none) ∧ start.micros ≤ stop.micros ∧
        ∃ contract, toContract instrument = .ok contract ∧
          request = ⟨contract, stop, durationStrForRange start stop freq,
            barFreqToIbBarSize freq, whatToShow, useRth⟩ := by
  simp only [historicalRequest, require_bind_eq_ok_iff]
  simp only [bind_eq_ok_iff, pure, Except.pure, Except.ok.injEq, eq_comm (b := request)]

/-- The tokens the request takes of the `historical` bucket. -/
def HistoricalRequest.tokens (request : HistoricalRequest) : Nat :=
  if request.whatToShow = bidAskWhatToShow then 2 else 1

/-! ## The response -/

/-- `ib_bar.date`: a `datetime`, or a `date` given by its number of days since the epoch. -/
inductive IbDate where
  | moment (value : Datetime)
  | day (number : Int)
  deriving DecidableEq

/-- `ib_async.BarData` -/
structure IbBar where
  date : IbDate
  openPrice : IbAttr
  high : IbAttr
  low : IbAttr
  close : IbAttr
  volume : IbAttr
  average : IbAttr

/-- `_duration_for_freq`, in microseconds. -/
def durationForFreq : BarFreq → Int
  | .oneMinute => 60 * 1000000
  | .fiveMinutes => 5 * 60 * 1000000
  | .fifteenMinutes => 15 * 60 * 1000000
  | .oneHour => 60 * 60 * 1000000
  | .oneDay => 24 * 60 * 60 * 1000000

/-- `value.astimezone(timezone.utc)` of a value in a time zone. -/
def Datetime.astimezoneUtc (value : Datetime) : Except PyError Datetime :=
  if -62135596800000000 ≤ value.micros ∧ value.micros ≤ 253402300799999999 then
    .ok ⟨value.micros, some 0⟩
  else .error (.other "OverflowError")

/-- The time at which a bar opens; a naive one is read in UTC. -/
def IbDate.openTimeUtc : IbDate → Except PyError Datetime
  | .moment value =>
      if value.utcOffset = none then .ok ⟨value.micros, some 0⟩ else value.astimezoneUtc
  | .day number => .ok ⟨number * 86400000000, some 0⟩

/-- `raw_vwap is None or raw_vwap == 0 or raw_vwap == -1` -/
def noVwap : IbAttr → Bool
  | .missing => true
  | .none => true
  | .text _ => false
  | .number repr => repr ∈ ["0", "0.0", "-0.0", "-1", "-1.0"]

/-- `Decimal(str(value))` -/
def IbAttr.toDecimal (attr : IbAttr) : Except PyError DecimalValue :=
  attr.toStr >>= DecimalValue.ofString

/-- The `vwap` of a bar. -/
def vwapOfIbBar (ibBar : IbBar) : Except PyError (Option DecimalValue) :=
  if noVwap ibBar.average then .ok none else some <$> ibBar.average.toDecimal

/-- `_parse_ib_bar` -/
def parseIbBar (instrument : Instrument) (freq : BarFreq) (ibBar : IbBar) :
    Except PyError Wire.Bar := do
  let openTimeUtc ← ibBar.date.openTimeUtc
  let closeTimeUtc ← openTimeUtc.plus (durationForFreq freq)
  let openPrice ← ibBar.openPrice.toDecimal
  let high ← ibBar.high.toDecimal
  let low ← ibBar.low.toDecimal
  let close ← ibBar.close.toDecimal
  let volume ← ibBar.volume.toDecimal
  let negative ← volume.lt (.finite 0)
  let vwap ← vwapOfIbBar ibBar
  Frozen.make {
    instrument
    openTimeUtc
    closeTimeUtc
    openPrice
    high
    low
    close
    volume := if negative then .finite 0 else volume
    vwap }

/-- `except (ValueError, TypeError, AttributeError)` -/
def isIbBarFailure : PyError → Bool
  | .valueError _ => true
  | .other name => name = "TypeError" ∨ name = "AttributeError"
  | _ => false

/-- `not (bar.close_time_utc < start or bar.open_time_utc >= end)` -/
def touchesWindow (start stop : Datetime) (bar : Wire.Bar) : Except PyError Bool :=
  Bool.not <$> orElse (bar.val.closeTimeUtc.lt start) (stop.le bar.val.openTimeUtc)

/-- `historical_bars`, given how the rate limiter and the client answer. The window filter runs
in the loop of the parses. -/
def ibHistoricalBars (instrument : Instrument) (freq : BarFreq) (start stop : Datetime)
    (acquired : Except PyError Unit)
    (response : HistoricalRequest → Except PyError (List IbBar))
    (whatToShow : String := defaultWhatToShow) (useRth : Bool := true) :
    Except PyError (List Wire.Bar) := do
  let request ← historicalRequest instrument freq start stop whatToShow useRth
  acquired
  let ibBars ← (response request).mapError fun _ => .other "IBMarketDataError"
  let bars ← collect isIbBarFailure (parseIbBar instrument freq) ibBars
  let out ← keep (touchesWindow start stop) bars
  return out.mergeSort fun a b => decide (a.val.openTimeUtc.micros ≤ b.val.openTimeUtc.micros)

end Blive
