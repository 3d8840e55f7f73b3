import Blive.Misc.Scan
import Blive.Adapters.Paper.MarketData

/-!
# The latest bar of a fixture

`PaperMarketData.latest` walks the bars in the order of their open times and stops at the first
one that closes too late. It answers the latest closed bar where the bars that have closed stand
before the others, and the one that closes last stands last among them.
-/

namespace Blive

namespace PaperMarketData

/-- The instant at which a bar closes. -/
def closesAt (bar : Wire.Bar) : Int := bar.val.closeTimeUtc.micros

/-- The bar has closed by `t`. -/
def closedBy (t : Datetime) (bar : Wire.Bar) : Bool := decide (closesAt bar ≤ t.micros)

/-- The answer is a bar that closes last among those that have closed by `t`, and `None` if none
has. -/
def LatestClosed (bars : List Wire.Bar) (t : Datetime)
    (answer : Except PyError (Option Wire.Bar)) : Prop :=
  ∃ latest, answer = .ok latest ∧ IsLatest closesAt (closedBy t) bars latest

/-- The moment compares with the times of the bars, and either no bar has closed by it, or the
bars begin with closed ones up to a bar that closes last among all closed bars, and the next one
has not closed. -/
def ClosedBarsFirst (bars : List Wire.Bar) (t : Datetime) : Prop :=
  (bars ≠ [] → t.utcOffset ≠ none) ∧
    ((∀ bar ∈ bars, closedBy t bar = false) ∨
      ∃ bar, StopsAfter (closedBy t) bars bar ∧
        ∀ other ∈ bars, closedBy t other = true → closesAt other ≤ closesAt bar)

theorem closeTime_utc (bar : Wire.Bar) : bar.val.closeTimeUtc.utcOffset = some 0 :=
  ((Wire.Bar.valid_iff bar.val).mp bar.valid).2.1

theorem closeTime_le {t : Datetime} (ht : t.utcOffset ≠ none) (bar : Wire.Bar) :
    bar.val.closeTimeUtc.le t = .ok (closedBy t bar) := by
  have hsome : t.utcOffset.isSome = true := Option.isSome_iff_ne_none.mpr ht
  rw [Datetime.le, closeTime_utc, hsome]
  exact if_pos rfl

/-- Against a moment in a time zone, the loop is the scan. -/
theorem latestLoop_eq {t : Datetime} (ht : t.utcOffset ≠ none) (latest : Option Wire.Bar)
    (bars : List Wire.Bar) :
    latestLoop t latest bars = .ok (lastWhile (closedBy t) latest bars) := by
  induction bars generalizing latest with
  | nil => rfl
  | cons bar rest ih =>
    rw [latestLoop, closeTime_le ht, lastWhile]
    cases hclosed : closedBy t bar with
    | false => rfl
    | true => exact ih (some bar)

/-- Against a naive moment the first comparison raises. -/
theorem latestLoop_naive {t : Datetime} (ht : t.utcOffset = none) (latest : Option Wire.Bar)
    (bar : Wire.Bar) (rest : List Wire.Bar) :
    latestLoop t latest (bar :: rest) = .error (.other "TypeError") := by
  rw [latestLoop, Datetime.le, closeTime_utc, ht]
  rfl

variable {market : PaperMarketData} {instrument : Instrument} {bars : List Wire.Bar}

theorem latest_eq (hbars : market.iterBars instrument = .ok bars) (t : Datetime) :
    market.latest instrument t = latestLoop t none bars := by
  rw [latest, hbars]
  rfl

/-- Where the bars close in the order of the frame, `latest` is right at every moment. -/
theorem closedBarsFirst_of_ascending (hascending : bars.Pairwise fun a b => closesAt a ≤ closesAt b)
    {t : Datetime} (ht : t.utcOffset ≠ none) : ClosedBarsFirst bars t :=
  ⟨fun _ => ht, isLatest_lastWhile_iff.mp (isLatest_lastWhile_of_sorted t.micros hascending)⟩

/-- `latest` answers the latest closed bar exactly where the closed bars come first and the one
that closes last is the last of them. -/
theorem latest_closed_iff (hbars : market.iterBars instrument = .ok bars) (t : Datetime) :
    LatestClosed bars t (market.latest instrument t) ↔ ClosedBarsFirst bars t := by
  rw [latest_eq hbars]
  by_cases haware : t.utcOffset = none
  · cases bars with
    | nil => simp [LatestClosed, ClosedBarsFirst, latestLoop, IsLatest]
    | cons bar rest =>
      rw [latestLoop_naive haware]
      constructor
      · rintro ⟨latest, hanswer, -⟩
        cases hanswer
      · rintro ⟨hcompares, -⟩
        exact absurd haware (hcompares (by simp))
  · rw [latestLoop_eq haware]
    have hscan : LatestClosed bars t (.ok (lastWhile (closedBy t) none bars)) ↔
        IsLatest closesAt (closedBy t) bars (lastWhile (closedBy t) none bars) := by
      simp [LatestClosed]
    rw [hscan, isLatest_lastWhile_iff]
    simp [ClosedBarsFirst, haware]

/-- A column of timestamps, with a stable sort. -/
def timestamps : TimeColumn Int where
  sortValues rows := .ok (rows.insertionSort fun a b => a.openTimeUtc ≤ b.openTimeUtc)
  toDatetime cell := .ok ⟨cell, some 0⟩

/-- The row of a flat bar over the given hours. -/
def hoursRow (openHour closeHour : Int) : FixtureRow Int :=
  ⟨openHour * 3600000000, closeHour * 3600000000, "100.0", "100.0", "100.0", "100.0", "0", none⟩

/-- The bar of such a row. -/
def hoursBar (openHour closeHour : Int) : Wire.BarFields :=
  ⟨sampleInstrument, ⟨openHour * 3600000000, some 0⟩, ⟨closeHour * 3600000000, some 0⟩,
    .finite 100, .finite 100, .finite 100, .finite 100, .finite 0, none⟩

def hoursFixture (rows : List (FixtureRow Int)) : Dict Instrument (Fixture Int) :=
  .ofList [(sampleInstrument, ⟨requiredColumns, rows⟩)]

def hour (n : Int) : Datetime := ⟨n * 3600000000, some 0⟩

/-- A bar that spans the day. -/
def longBar : Wire.Bar := ⟨hoursBar 9 18, by decide +kernel⟩

/-- A bar that opens and closes within `longBar`. -/
def shortBar : Wire.Bar := ⟨hoursBar 10 11, by decide +kernel⟩

def earlyBar : Wire.Bar := ⟨hoursBar 9 10, by decide +kernel⟩

/-- At noon the short bar has closed, but the long one, which opened before it, has not. -/
theorem not_latest_closed :
    ¬ ∀ (column : TimeColumn Int) (fixtures : Dict Instrument (Fixture Int)) (freq : BarFreq)
      (market : PaperMarketData) (instrument : Instrument) (bars : List Wire.Bar) (t : Datetime),
      load column fixtures freq = .ok market → market.iterBars instrument = .ok bars →
      t.utcOffset ≠ none → LatestClosed bars t (market.latest instrument t) := by
  intro h
  have hruns : (load timestamps (hoursFixture [hoursRow 10 11, hoursRow 9 18]) .oneHour >>=
      fun market => market.iterBars sampleInstrument >>= fun bars =>
        market.latest sampleInstrument (hour 12) >>= fun latest => .ok (bars, latest)) =
      .ok ([longBar, shortBar], none) := by
    decide +kernel
  obtain ⟨market, hload, hruns⟩ := bind_eq_ok_iff.mp hruns
  obtain ⟨bars, hbars, hruns⟩ := bind_eq_ok_iff.mp hruns
  obtain ⟨answer, hanswer, hruns⟩ := bind_eq_ok_iff.mp hruns
  cases hruns
  obtain ⟨latest, hlatest, hright⟩ := h timestamps _ .oneHour market sampleInstrument _ (hour 12)
    hload hbars (by simp [hour])
  rw [hanswer] at hlatest
  cases hlatest
  have hclosed : closedBy (hour 12) shortBar = false := hright shortBar (by simp)
  exact absurd hclosed (by decide +kernel)

/-- The fixture of two consecutive hours. -/
def consecutiveMarket : PaperMarketData :=
  ⟨.oneHour, .ofList [(sampleInstrument, ⟨false,
    [⟨hour 9, hour 10, "100.0", "100.0", "100.0", "100.0", "0", none⟩,
      ⟨hour 10, hour 11, "100.0", "100.0", "100.0", "100.0", "0", none⟩]⟩)]⟩

theorem latest_closed_consecutive :
    LatestClosed [earlyBar, shortBar] (hour 12)
      (consecutiveMarket.latest sampleInstrument (hour 12)) :=
  (latest_closed_iff (by decide +kernel) (hour 12)).mpr
    (closedBarsFirst_of_ascending (by decide +kernel) (by simp [hour]))

end PaperMarketData

end Blive
