import Blive.Domain.WireTypes

/-!
# The fixture-backed market data

`PaperMarketData` of `adapters/paper/market_data.py`: bars that come from a table for each
instrument. The table is read once, sorted by its column of open times; every read of bars walks
the rows in that order.
-/

namespace Blive

/-- A row of a fixture. The cells of numbers are given by the text `str` renders them by; `vwap`
is `none` where the cell is `None` or `NaN`. -/
structure FixtureRow (κ : Type) where
  openTimeUtc : κ
  closeTimeUtc : κ
  openPrice : String
  high : String
  low : String
  close : String
  volume : String
  vwap : Option String := none

/-- A parquet file: the names of its columns and its rows. -/
structure Fixture (κ : Type) where
  columns : List String
  rows : List (FixtureRow κ)

/-- The loaded data frame of an instrument. -/
structure Frame where
  hasVwap : Bool
  rows : List (FixtureRow Datetime)

/-- What is used of pandas on a column of times: `sort_values` by the column of open times, which
need not keep the order of rows with equal times, and `pd.to_datetime(cell, utc=True)`. -/
structure TimeColumn (κ : Type) where
  sortValues : List (FixtureRow κ) → Except PyError (List (FixtureRow κ))
  toDatetime : κ → Except PyError Datetime

/-- The columns `_read_fixture` requires. -/
def requiredColumns : List String :=
  ["open_time_utc", "close_time_utc", "open", "high", "low", "close", "volume"]

/-- The row with its times in UTC. -/
def TimeColumn.convert {κ : Type} (column : TimeColumn κ) (row : FixtureRow κ) :
    Except PyError (FixtureRow Datetime) := do
  let openTimeUtc ← column.toDatetime row.openTimeUtc
  let closeTimeUtc ← column.toDatetime row.closeTimeUtc
  return { row with openTimeUtc, closeTimeUtc }

/-- `_read_fixture` -/
def readFixture {κ : Type} (column : TimeColumn κ) (fixture : Fixture κ) :
    Except PyError Frame := do
  require (∀ name ∈ requiredColumns, name ∈ fixture.columns)
    (.valueError "PaperMarketData fixture at ")
  let sorted ← column.sortValues fixture.rows
  let rows ← sorted.mapM column.convert
  return ⟨"vwap" ∈ fixture.columns, rows⟩

/-- The `vwap` of a row, if the frame has that column. -/
def vwapOfRow (hasVwap : Bool) (row : FixtureRow Datetime) :
    Except PyError (Option DecimalValue) :=
  if hasVwap then row.vwap.mapM DecimalValue.ofString else .ok none

/-- The bar of a row of the frame. -/
def barOfRow (instrument : Instrument) (hasVwap : Bool) (row : FixtureRow Datetime) :
    Except PyError Wire.Bar := do
  let vwap ← vwapOfRow hasVwap row
  let openPrice ← DecimalValue.ofString row.openPrice
  let high ← DecimalValue.ofString row.high
  let low ← DecimalValue.ofString row.low
  let close ← DecimalValue.ofString row.close
  let volume ← DecimalValue.ofString row.volume
  Frozen.make {
    instrument
    openTimeUtc := row.openTimeUtc
    closeTimeUtc := row.closeTimeUtc
    openPrice
    high
    low
    close
    volume
    vwap }

structure PaperMarketData where
  freq : BarFreq := .oneDay
  frames : Dict Instrument Frame

namespace PaperMarketData

/-- `__init__` -/
def load {κ : Type} (column : TimeColumn κ) (fixtures : Dict Instrument (Fixture κ))
    (freq : BarFreq) : Except PyError PaperMarketData := do
  let frames ← fixtures.items.mapM fun item => (item.1, ·) <$> readFixture column item.2
  return ⟨freq, .ofList frames⟩

/-- `_iter_bars` -/
def iterBars (market : PaperMarketData) (instrument : Instrument) :
    Except PyError (List Wire.Bar) := do
  let frame ← orRaise (market.frames.get? instrument) (.keyError "")
  frame.rows.mapM (barOfRow instrument frame.hasVwap)

/-- The checks of `historical_bars` and `subscribe_bars`. -/
def checkRequest (market : PaperMarketData) (instrument : Instrument) (freq : BarFreq) :
    Except PyError Unit := do
  require (freq = market.freq) (.valueError "PaperMarketData configured at freq=")
  require (instrument ∈ market.frames) (.keyError "no fixture loaded for ")

/-- `start <= bar.open_time_utc and bar.close_time_utc <= end` -/
def inWindow (start stop : Datetime) (bar : Wire.Bar) : Except PyError Bool :=
  andThen (start.le bar.val.openTimeUtc) (bar.val.closeTimeUtc.le stop)

/-- `historical_bars` -/
def historicalBars (market : PaperMarketData) (instrument : Instrument) (freq : BarFreq)
    (start stop : Datetime) : Except PyError (List Wire.Bar) := do
  market.checkRequest instrument freq
  let bars ← market.iterBars instrument
  keep (inWindow start stop) bars

/-- The loop of `latest`, with the last bar it has passed. -/
def latestLoop (onOrBefore : Datetime) :
    Option Wire.Bar → List Wire.Bar → Except PyError (Option Wire.Bar)
  | latest, [] => .ok latest
  | latest, bar :: rest => do
      if ← bar.val.closeTimeUtc.le onOrBefore then latestLoop onOrBefore (some bar) rest
      else .ok latest

/-- `latest` -/
def latest (market : PaperMarketData) (instrument : Instrument) (onOrBefore : Datetime) :
    Except PyError (Option Wire.Bar) := do
  let bars ← market.iterBars instrument
  latestLoop onOrBefore none bars

end PaperMarketData

end Blive
