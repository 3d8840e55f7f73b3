import Blive.Misc.Scan
import Blive.Misc.Series
import Blive.Adapters.Ib.MarketData
import Blive.Adapters.Paper.Proofs.LatestBar

/-!
# The window of a history

The paper adapter keeps the bars that lie inside the window, the IB adapter those that touch it.
Over the same bars they return the same history where every bar that touches the window lies
inside it, and bars with one open time stand in the same order on both sides.
-/

namespace Blive

/-- The instant at which a bar opens. -/
def opensAt (bar : Wire.Bar) : Int := bar.val.openTimeUtc.micros

/-- The bar opens and closes in the window. -/
def Inside (start stop : Datetime) (bar : Wire.Bar) : Prop :=
  start.micros ≤ opensAt bar ∧ bar.val.closeTimeUtc.micros ≤ stop.micros

/-- The bar closes at the start of the window or after it, and opens before its end. -/
def Touches (start stop : Datetime) (bar : Wire.Bar) : Prop :=
  start.micros ≤ bar.val.closeTimeUtc.micros ∧ opensAt bar < stop.micros

instance (start stop : Datetime) (bar : Wire.Bar) : Decidable (Inside start stop bar) :=
  inferInstanceAs (Decidable (_ ∧ _))

instance (start stop : Datetime) (bar : Wire.Bar) : Decidable (Touches start stop bar) :=
  inferInstanceAs (Decidable (_ ∧ _))

/-- The bars inside the window. -/
def insideBars (start stop : Datetime) (bars : List Wire.Bar) : List Wire.Bar :=
  bars.filter fun bar => decide (Inside start stop bar)

/-- Both adapters return, and the same bars in the order of their open times. -/
def SameHistory (paper ib : Except PyError (List Wire.Bar)) : Prop :=
  ∃ bars, paper = .ok bars ∧ ib = .ok bars ∧ bars.Pairwise fun a b => opensAt a ≤ opensAt b

/-- IB can be asked for the window, each bar that touches it lies inside it, and of the bars
inside that open at one time both sides have the same order. -/
structure WindowsAgree (instrument : Instrument) (start stop : Datetime)
    (framed responded : List Wire.Bar) : Prop where
  resolves : ∃ contract, toContract instrument = .ok contract
  aware : start.utcOffset ≠ none ∧ stop.utcOffset ≠ none
  inside : ∀ bar ∈ framed, Touches start stop bar → Inside start stop bar
  ties : ∀ t, (insideBars start stop framed).filter (fun bar => decide (opensAt bar = t)) =
    (insideBars start stop responded).filter fun bar => decide (opensAt bar = t)

/-- The sort by a column of open times leaves the rows in the order of time. -/
def TimeColumn.Chronological {κ : Type} (column : TimeColumn κ) : Prop :=
  ∀ rows sorted converted, column.sortValues rows = .ok sorted →
    sorted.mapM column.convert = .ok converted →
    converted.Pairwise fun a b => a.openTimeUtc.micros ≤ b.openTimeUtc.micros

theorem Wire.Bar.times (bar : Wire.Bar) : bar.val.openTimeUtc.utcOffset = some 0 ∧
    bar.val.closeTimeUtc.utcOffset = some 0 ∧ opensAt bar < bar.val.closeTimeUtc.micros :=
  have h := (Wire.Bar.valid_iff bar.val).mp bar.valid
  ⟨h.1, h.2.1, h.2.2.1⟩

theorem Inside.touches {start stop : Datetime} {bar : Wire.Bar} (h : Inside start stop bar) :
    Touches start stop bar := by
  have htimes := bar.times.2.2
  obtain ⟨hopen, hclose⟩ := h
  constructor <;> omega

theorem Datetime.le_of_aware {a b : Datetime} (ha : a.utcOffset ≠ none) (hb : b.utcOffset ≠ none) :
    a.le b = .ok (decide (a.micros ≤ b.micros)) := by
  rw [Datetime.le, Option.isSome_iff_ne_none.mpr ha, Option.isSome_iff_ne_none.mpr hb]
  exact if_pos rfl

theorem Datetime.lt_of_aware {a b : Datetime} (ha : a.utcOffset ≠ none) (hb : b.utcOffset ≠ none) :
    a.lt b = .ok (decide (a.micros < b.micros)) := by
  rw [Datetime.lt, Option.isSome_iff_ne_none.mpr ha, Option.isSome_iff_ne_none.mpr hb]
  exact if_pos rfl

variable {start stop : Datetime}

theorem inWindow_eq (hstart : start.utcOffset ≠ none) (hstop : stop.utcOffset ≠ none)
    (bar : Wire.Bar) :
    PaperMarketData.inWindow start stop bar = .ok (decide (Inside start stop bar)) := by
  obtain ⟨hopen, hclose, -⟩ := bar.times
  rw [PaperMarketData.inWindow, Datetime.le_of_aware hstart (by simp [hopen]),
    Datetime.le_of_aware (by simp [hclose]) hstop, andThen_ok]
  exact congrArg Except.ok (Bool.decide_and _ _).symm

theorem touchesWindow_eq (hstart : start.utcOffset ≠ none) (hstop : stop.utcOffset ≠ none)
    (bar : Wire.Bar) : touchesWindow start stop bar = .ok (decide (Touches start stop bar)) := by
  obtain ⟨hopen, hclose, -⟩ := bar.times
  rw [touchesWindow, Datetime.lt_of_aware (by simp [hclose]) hstart,
    Datetime.le_of_aware hstop (by simp [hopen]), orElse_ok]
  refine congrArg Except.ok (Bool.eq_iff_iff.mpr ?_)
  simp only [Bool.not_eq_true', Bool.or_eq_false_iff, decide_eq_false_iff_not, not_lt, not_le,
    decide_eq_true_eq]
  rfl

/-! ## What the paper adapter returns -/

section Paper

variable {κ : Type} {column : TimeColumn κ} {fixtures : Dict Instrument (Fixture κ)}
  {freq : BarFreq} {market : PaperMarketData} {instrument : Instrument} {framed : List Wire.Bar}

/-- Each loaded frame was read from a fixture. -/
theorem readFixture_of_load (hload : PaperMarketData.load column fixtures freq = .ok market)
    {frame : Frame} (hframe : market.frames.get? instrument = some frame) :
    ∃ fixture, readFixture column fixture = .ok frame := by
  obtain ⟨frames, hframes, hmarket⟩ := bind_eq_ok_iff.mp hload
  cases hmarket
  have hkeys : frames.map Prod.fst = fixtures.items.map Prod.fst := by
    refine map_eq_of_mapM _ _ (fun item pair hread => ?_) hframes
    obtain ⟨frame, -, rfl⟩ := map_eq_ok_iff.mp hread
    rfl
  have hnodup : (frames.map Prod.fst).Nodup := by
    rw [hkeys]
    exact fixtures.nodup
  rw [Dict.get?_ofList hnodup, Dict.lookupItems_eq_some_iff hnodup] at hframe
  obtain ⟨item, -, hread⟩ := mem_of_mapM hframes hframe
  obtain ⟨_, hread, hpair⟩ := map_eq_ok_iff.mp hread
  cases hpair
  exact ⟨item.2, hread⟩

theorem barOfRow_opensAt {hasVwap : Bool} {row : FixtureRow Datetime} {bar : Wire.Bar}
    (h : barOfRow instrument hasVwap row = .ok bar) : opensAt bar = row.openTimeUtc.micros := by
  simp only [barOfRow, bind_eq_ok_iff] at h
  obtain ⟨_, -, _, -, _, -, _, -, _, -, _, -, hmake⟩ := h
  rw [opensAt, Frozen.make_eq_ok_iff.mp hmake]

/-- The bars of a fixture come in the order of their open times. -/
theorem iterBars_ascending (hcolumn : column.Chronological)
    (hload : PaperMarketData.load column fixtures freq = .ok market)
    (hframed : market.iterBars instrument = .ok framed) :
    framed.Pairwise fun a b => opensAt a ≤ opensAt b := by
  obtain ⟨frame, hframe, hbars⟩ := bind_eq_ok_iff.mp hframed
  obtain ⟨fixture, hread⟩ := readFixture_of_load hload (orRaise_eq_ok_iff.mp hframe)
  obtain ⟨-, hread⟩ := require_bind_eq_ok_iff.mp hread
  obtain ⟨sorted, hsorted, hread⟩ := bind_eq_ok_iff.mp hread
  obtain ⟨rows, hrows, hread⟩ := bind_eq_ok_iff.mp hread
  cases hread
  have htimes : framed.map opensAt = rows.map fun row => row.openTimeUtc.micros :=
    map_eq_of_mapM _ _ (fun _ _ hbar => barOfRow_opensAt hbar) hbars
  rw [← List.pairwise_map (f := opensAt) (R := (· ≤ ·)), htimes, List.pairwise_map]
  exact hcolumn _ _ _ hsorted hrows

theorem freq_of_load (hload : PaperMarketData.load column fixtures freq = .ok market) :
    market.freq = freq := by
  obtain ⟨frames, -, hmarket⟩ := bind_eq_ok_iff.mp hload
  cases hmarket
  rfl

theorem paper_historicalBars_eq (hload : PaperMarketData.load column fixtures freq = .ok market)
    (hframed : market.iterBars instrument = .ok framed) (hstart : start.utcOffset ≠ none)
    (hstop : stop.utcOffset ≠ none) :
    market.historicalBars instrument freq start stop = .ok (insideBars start stop framed) := by
  obtain ⟨frame, hframe, -⟩ := bind_eq_ok_iff.mp hframed
  have hmem : instrument ∈ market.frames := Dict.mem_of_get? (orRaise_eq_ok_iff.mp hframe)
  have hcheck : market.checkRequest instrument freq = .ok () :=
    require_bind_eq_ok_iff.mpr ⟨(freq_of_load hload).symm, require_eq_ok_iff.mpr hmem⟩
  rw [PaperMarketData.historicalBars, hcheck, hframed]
  exact keep_of_ok fun bar _ => inWindow_eq hstart hstop bar

end Paper

/-! ## What the IB adapter returns -/

section Ib

variable {instrument : Instrument} {freq : BarFreq} {whatToShow : String} {useRth : Bool}
  {response : HistoricalRequest → Except PyError (List IbBar)} {ibBars : List IbBar}
  {responded : List Wire.Bar}

theorem ibHistoricalBars_eq (hwindow : start.micros < stop.micros)
    (hstart : start.utcOffset ≠ none) (hstop : stop.utcOffset ≠ none) {contract : Contract}
    (hcontract : toContract instrument = .ok contract)
    (hresponse : ∀ request, response request = .ok ibBars)
    (hresponded : collect isIbBarFailure (parseIbBar instrument freq) ibBars = .ok responded) :
    ibHistoricalBars instrument freq start stop (.ok ()) response whatToShow useRth =
      .ok ((responded.filter fun bar => decide (Touches start stop bar)).mergeSort
        fun a b => decide (opensAt a ≤ opensAt b)) := by
  have hkept : keep (touchesWindow start stop) responded =
      .ok (responded.filter fun bar => decide (Touches start stop bar)) :=
    keep_of_ok fun bar _ => touchesWindow_eq hstart hstop bar
  have hrequest : historicalRequest instrument freq start stop whatToShow useRth =
      .ok ⟨contract, stop, durationStrForRange start stop freq, barFreqToIbBarSize freq,
        whatToShow, useRth⟩ :=
    historicalRequest_eq_ok_iff.mpr ⟨⟨hstart, hstop⟩, hwindow.le, contract, hcontract, rfl⟩
  rw [ibHistoricalBars, hrequest]
  simp only [bind, Except.bind, hresponse, Except.mapError, hresponded, hkept]
  rfl

/-- A history of IB was asked for a window in a time zone, of an instrument that resolves. -/
theorem of_ibHistoricalBars {acquired : Except PyError Unit} {bars : List Wire.Bar}
    (h : ibHistoricalBars instrument freq start stop acquired response whatToShow useRth =
      .ok bars) :
    (start.utcOffset ≠ none ∧ stop.utcOffset ≠ none) ∧
      ∃ contract, toContract instrument = .ok contract := by
  obtain ⟨request, hrequest, -⟩ := bind_eq_ok_iff.mp h
  obtain ⟨haware, -, contract, hcontract, -⟩ := historicalRequest_eq_ok_iff.mp hrequest
  exact ⟨haware, contract, hcontract⟩

end Ib

/-! ## The two histories -/

section Agreement

variable {κ : Type} {column : TimeColumn κ} {fixtures : Dict Instrument (Fixture κ)}
  {freq : BarFreq} {market : PaperMarketData} {instrument : Instrument}
  {framed responded : List Wire.Bar} {ibBars : List IbBar}
  {response : HistoricalRequest → Except PyError (List IbBar)}

/-- The adapters return the same history exactly where their windows agree on the bars. -/
theorem sameHistory_iff (hcolumn : column.Chronological)
    (hload : PaperMarketData.load column fixtures freq = .ok market)
    (hframed : market.iterBars instrument = .ok framed)
    (hresponse : ∀ request, response request = .ok ibBars)
    (hresponded : collect isIbBarFailure (parseIbBar instrument freq) ibBars = .ok responded)
    (hbars : framed.Perm responded) (hwindow : start.micros < stop.micros) :
    SameHistory (market.historicalBars instrument freq start stop)
        (ibHistoricalBars instrument freq start stop (.ok ()) response) ↔
      WindowsAgree instrument start stop framed responded := by
  have hascending := iterBars_ascending hcolumn hload hframed
  have hsorts := filter_eq_mergeSort_filter_iff opensAt
    (p := fun bar => decide (Inside start stop bar))
    (q := fun bar => decide (Touches start stop bar)) hascending hbars
    fun bar _ hinside => by simpa using (of_decide_eq_true hinside).touches
  simp only [decide_eq_true_eq] at hsorts
  constructor
  · rintro ⟨bars, hpaper, hib, -⟩
    obtain ⟨haware, contract, hcontract⟩ := of_ibHistoricalBars hib
    rw [paper_historicalBars_eq hload hframed haware.1 haware.2] at hpaper
    rw [ibHistoricalBars_eq hwindow haware.1 haware.2 hcontract hresponse hresponded] at hib
    have heq := Except.ok.inj (hpaper.trans hib.symm)
    obtain ⟨hinside, hties⟩ := hsorts.mp heq
    exact ⟨⟨contract, hcontract⟩, haware, hinside, hties⟩
  · rintro ⟨⟨contract, hcontract⟩, ⟨hstart, hstop⟩, hinside, hties⟩
    refine ⟨_, paper_historicalBars_eq hload hframed hstart hstop, ?_,
      hascending.sublist List.filter_sublist⟩
    rw [ibHistoricalBars_eq hwindow hstart hstop hcontract hresponse hresponded]
    exact congrArg Except.ok (hsorts.mpr ⟨hinside, hties⟩).symm

/-- Bars that open at different times leave no order to differ in. -/
theorem windowsAgree_of_distinct {contract : Contract}
    (hcontract : toContract instrument = .ok contract)
    (haware : start.utcOffset ≠ none ∧ stop.utcOffset ≠ none)
    (hinside : ∀ bar ∈ framed, Touches start stop bar → Inside start stop bar)
    (hbars : framed.Perm responded) (hdistinct : (framed.map opensAt).Nodup) :
    WindowsAgree instrument start stop framed responded where
  resolves := ⟨contract, hcontract⟩
  aware := haware
  inside := hinside
  ties := filter_key_eq_of_nodup (hbars.filter _)
    (hdistinct.sublist (List.filter_sublist.map opensAt))

end Agreement

namespace PaperMarketData

theorem timestamps_chronological : timestamps.Chronological := by
  intro rows sorted converted hsorted hconverted
  cases hsorted
  have htimes := map_eq_of_mapM FixtureRow.openTimeUtc
    (fun row : FixtureRow Datetime => row.openTimeUtc.micros)
    (fun row row' hrow => by cases hrow; rfl) hconverted
  have hascending := List.pairwise_insertionSort
    (fun a b : FixtureRow Int => a.openTimeUtc ≤ b.openTimeUtc) rows
  rw [← List.pairwise_map (f := fun row : FixtureRow Datetime => row.openTimeUtc.micros)
    (R := (· ≤ ·)), htimes, List.pairwise_map]
  exact hascending

end PaperMarketData

open PaperMarketData

/-- The bar of an hour as IB reports it. -/
def hourOfIb (openHour : Int) : IbBar :=
  ⟨.moment (hour openHour), .number "100.0", .number "100.0", .number "100.0", .number "100.0",
    .number "0", .number "-1"⟩

def halfPastNine : Datetime := ⟨9 * 3600000000 + 1800000000, some 0⟩

/-- The bar from nine to ten reaches into a window that begins at half past nine. -/
theorem not_sameHistory :
    ¬ ∀ (column : TimeColumn Int) (fixtures : Dict Instrument (Fixture Int)) (freq : BarFreq)
      (market : PaperMarketData) (instrument : Instrument) (framed responded : List Wire.Bar)
      (ibBars : List IbBar) (start stop : Datetime),
      column.Chronological → load column fixtures freq = .ok market →
      market.iterBars instrument = .ok framed →
      collect isIbBarFailure (parseIbBar instrument freq) ibBars = .ok responded →
      framed.Perm responded → start.micros < stop.micros →
      (start.utcOffset ≠ none ∧ stop.utcOffset ≠ none) →
      (∃ contract, toContract instrument = .ok contract) →
      SameHistory (market.historicalBars instrument freq start stop)
        (ibHistoricalBars instrument freq start stop (.ok ()) fun _ => .ok ibBars) := by
  intro h
  have hframed : (load timestamps (hoursFixture [hoursRow 9 10]) .oneHour >>= fun market =>
      market.iterBars sampleInstrument) = .ok [earlyBar] := by
    decide +kernel
  obtain ⟨market, hload, hframed⟩ := bind_eq_ok_iff.mp hframed
  have hresponded : collect isIbBarFailure (parseIbBar sampleInstrument .oneHour) [hourOfIb 9] =
      .ok [earlyBar] := by
    decide +kernel
  have hcontract : ∃ contract, toContract sampleInstrument = .ok contract :=
    ⟨⟨"CAC", "STK", "EUR", "SBF", "", none⟩, by decide +kernel⟩
  have hwindow : halfPastNine.micros < (hour 12).micros := by decide
  have hstart : halfPastNine.utcOffset ≠ none := by decide
  have hstop : (hour 12).utcOffset ≠ none := by decide
  obtain ⟨bars, hpaper, hib, -⟩ := h timestamps _ .oneHour market sampleInstrument _ _ [hourOfIb 9]
    halfPastNine (hour 12) timestamps_chronological hload hframed hresponded (.refl _) hwindow
    ⟨hstart, hstop⟩ hcontract
  obtain ⟨contract, hcontract⟩ := hcontract
  rw [paper_historicalBars_eq hload hframed hstart hstop] at hpaper
  rw [ibHistoricalBars_eq hwindow hstart hstop hcontract (fun _ => rfl) hresponded] at hib
  have hlength := congrArg List.length (Except.ok.inj (hpaper.trans hib.symm))
  rw [List.length_mergeSort] at hlength
  revert hlength
  decide +kernel

/-- Both bars lie inside the window. -/
theorem sameHistory_twoHours :
    SameHistory (consecutiveMarket.historicalBars sampleInstrument .oneHour (hour 9) (hour 12))
      (ibHistoricalBars sampleInstrument .oneHour (hour 9) (hour 12) (.ok ())
        fun _ => .ok [hourOfIb 10, hourOfIb 9]) := by
  have hload : load timestamps (hoursFixture [hoursRow 10 11, hoursRow 9 10]) .oneHour =
      .ok consecutiveMarket := rfl
  have hframed : consecutiveMarket.iterBars sampleInstrument = .ok [earlyBar, shortBar] := by
    decide +kernel
  have hresponded : collect isIbBarFailure (parseIbBar sampleInstrument .oneHour)
      [hourOfIb 10, hourOfIb 9] = .ok [shortBar, earlyBar] := by
    decide +kernel
  have hbars : [earlyBar, shortBar].Perm [shortBar, earlyBar] := List.Perm.swap _ _ _
  refine (sameHistory_iff timestamps_chronological hload hframed (fun _ => rfl) hresponded hbars
    (by decide)).mpr ?_
  have hcontract : toContract sampleInstrument =
      .ok ⟨"CAC", "STK", "EUR", "SBF", "", none⟩ := by
    decide +kernel
  refine windowsAgree_of_distinct hcontract (by decide) ?_ hbars (by decide +kernel)
  decide +kernel

end Blive
