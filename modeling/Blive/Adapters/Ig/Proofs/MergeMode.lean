import Mathlib.Tactic.NormNum
import Blive.Adapters.Ig.MarketData

/-!
# Decoding in merge mode

An update of a chart subscription may leave out any field that has not changed. The decoder
forgets the fields it merged whenever a consolidation ends, so what was left out across a
consolidation is lost. It decodes an encoding right, whatever the fields carry, exactly when
every field is sent again between any two consolidations.
-/

namespace Blive

/-- The values of the subscribed fields at an update. -/
abbrev Snapshot := String → String

theorem chartFields_nodup : lightstreamerChartFields.Nodup := by simp [lightstreamerChartFields]

theorem encodeUpdate_nodup (omits : String → Bool) (snapshot : Snapshot) :
    ((lightstreamerChartFields.map fun f =>
      (f, if omits f then none else some (snapshot f))).map Prod.fst).Nodup := by
  rw [List.map_map]
  exact (List.map_id lightstreamerChartFields).symm ▸ chartFields_nodup

/-- The update for a snapshot that leaves out the fields in `omits`. -/
def encodeUpdate (omits : String → Bool) (snapshot : Snapshot) : ChartUpdate :=
  ⟨lightstreamerChartFields.map fun f => (f, if omits f then none else some (snapshot f)),
    encodeUpdate_nodup omits snapshot⟩

/-- The update that leaves out nothing. -/
def fullUpdate (snapshot : Snapshot) : ChartUpdate := encodeUpdate (fun _ => false) snapshot

/-- The updates encode the snapshots: each leaves out only fields whose value is the one of
the snapshot before. -/
def Encodes : Option Snapshot → List Snapshot → List ChartUpdate → Prop
  | _, [], [] => True
  | before, s :: ss, u :: us =>
      (∃ omits, u = encodeUpdate omits s ∧ ∀ f ∈ lightstreamerChartFields, omits f = true →
        ∃ p, before = some p ∧ p f = s f) ∧ Encodes (some s) ss us
  | _, _, _ => False

/-- The bars of the encoding are those of the snapshots sent in full. -/
def Decodes (instrument : Instrument) (freq : BarFreq) (snapshots : List Snapshot)
    (updates : List ChartUpdate) : Prop :=
  (barStream instrument (freqToTimedelta freq) .empty updates).1 =
    (barStream instrument (freqToTimedelta freq) .empty (snapshots.map fullUpdate)).1

/-- Which fields an update carries, and whether its snapshot ends a consolidation. -/
structure UpdateShape where
  sent : List String
  consolidates : Bool
  deriving DecidableEq

/-- The fields an update carries a value for. -/
def sentFields (update : ChartUpdate) : List String :=
  lightstreamerChartFields.filter fun f => (update.get? f).join.isSome

def shapeOf (snapshots : List Snapshot) (updates : List ChartUpdate) : List UpdateShape :=
  List.zipWith (fun s u => ⟨sentFields u, s "CONS_END" = "1"⟩) snapshots updates

/-- Every field is sent again before the next consolidation ends; `seen` are the fields sent
since the last one. -/
def Resent (seen : List String) : List UpdateShape → Prop
  | [] => True
  | u :: us =>
      if u.consolidates then (∀ f ∈ lightstreamerChartFields, f ∈ u.sent ++ seen) ∧ Resent [] us
      else Resent (u.sent ++ seen) us

/-! ## Merging -/

theorem get?_mergeItems {items : List (String × Option String)}
    (hnodup : (items.map Prod.fst).Nodup) (state : ChartState) (k : String) :
    (mergeItems items state).get? k =
      ((Dict.lookupItems k items).join <|> state.get? k) := by
  induction items generalizing state with
  | nil => rfl
  | cons item rest ih =>
    obtain ⟨hfresh, hrest⟩ := List.nodup_cons.mp hnodup
    obtain ⟨k', v⟩ := item
    by_cases heq : k' = k
    · subst heq
      have habsent : Dict.lookupItems k' rest = none :=
        (Dict.lookupItems_eq_none_iff k' rest).mpr hfresh
      cases v <;> simp [mergeItems, ih hrest, Dict.lookupItems, habsent]
    · cases v <;> simp [mergeItems, ih hrest, Dict.lookupItems, heq, Ne.symm heq]

theorem get?_encodeUpdate (omits : String → Bool) (snapshot : Snapshot) {f : String}
    (hf : f ∈ lightstreamerChartFields) :
    (encodeUpdate omits snapshot).get? f =
      some (if omits f then none else some (snapshot f)) := by
  rw [Dict.get?_eq_some_iff]
  exact List.mem_map.mpr ⟨f, hf, rfl⟩

theorem mem_sentFields (omits : String → Bool) (snapshot : Snapshot) {f : String} :
    f ∈ sentFields (encodeUpdate omits snapshot) ↔
      f ∈ lightstreamerChartFields ∧ omits f = false := by
  unfold sentFields
  rw [List.mem_filter]
  apply and_congr_right
  intro hf
  rw [get?_encodeUpdate omits snapshot hf]
  cases omits f <;> simp

/-- The state holds the values that the last snapshot has in the fields seen, and no other. -/
def Knows (state : ChartState) (seen : List String) (last : Option Snapshot) : Prop :=
  ∀ f ∈ lightstreamerChartFields,
    state.get? f = if f ∈ seen then last.map (· f) else none

theorem knows_empty (last : Option Snapshot) : Knows .empty [] last := by
  intro f _
  rw [Dict.get?_empty, if_neg List.not_mem_nil]

/-- An update adds the fields it carries; those it leaves out have kept their value. -/
theorem Knows.merge {state : ChartState} {seen : List String} {last : Option Snapshot}
    (h : Knows state seen last) {omits : String → Bool} {s : Snapshot}
    (homits : ∀ f ∈ lightstreamerChartFields, omits f = true → ∃ p, last = some p ∧ p f = s f) :
    Knows (mergeItems (encodeUpdate omits s).items state)
      (sentFields (encodeUpdate omits s) ++ seen) (some s) := by
  intro f hf
  rw [get?_mergeItems (encodeUpdate omits s).nodup]
  have hlookup : Dict.lookupItems f (encodeUpdate omits s).items = _ :=
    get?_encodeUpdate omits s hf
  rw [hlookup, h f hf]
  cases homit : omits f with
  | false =>
    have hsent : f ∈ sentFields (encodeUpdate omits s) ++ seen :=
      List.mem_append_left _ ((mem_sentFields omits s).mpr ⟨hf, homit⟩)
    rw [if_pos hsent]
    rfl
  | true =>
    obtain ⟨p, hp, hsame⟩ := homits f hf homit
    have hnot : f ∉ sentFields (encodeUpdate omits s) := by
      rw [mem_sentFields, homit]
      simp
    rw [hp]
    simp [hnot, hsame]

/-! ## What a consolidation decodes -/

/-- The four prices of a bar. -/
def priceSuffixes : List String := ["OPEN", "HIGH", "LOW", "CLOSE"]

/-- A fact about the four suffixes. -/
theorem forall_priceSuffixes {P : String → Prop} (hopen : P "OPEN") (hhigh : P "HIGH")
    (hlow : P "LOW") (hclose : P "CLOSE") : ∀ suffix ∈ priceSuffixes, P suffix := by
  intro suffix hsuffix
  simp only [priceSuffixes, List.mem_cons, List.not_mem_nil, or_false] at hsuffix
  rcases hsuffix with rfl | rfl | rfl | rfl
  · exact hopen
  · exact hhigh
  · exact hlow
  · exact hclose

theorem open_mem : "OPEN" ∈ priceSuffixes := by simp [priceSuffixes]

theorem high_mem : "HIGH" ∈ priceSuffixes := by simp [priceSuffixes]

theorem low_mem : "LOW" ∈ priceSuffixes := by simp [priceSuffixes]

theorem close_mem : "CLOSE" ∈ priceSuffixes := by simp [priceSuffixes]

theorem utm_mem : "UTM" ∈ lightstreamerChartFields := by simp [lightstreamerChartFields]

theorem ltv_mem : "LTV" ∈ lightstreamerChartFields := by simp [lightstreamerChartFields]

theorem consEnd_mem : "CONS_END" ∈ lightstreamerChartFields := by simp [lightstreamerChartFields]

theorem price_mem_chartFields : ∀ suffix ∈ priceSuffixes,
    "LTP_" ++ suffix ∈ lightstreamerChartFields ∧ "BID_" ++ suffix ∈ lightstreamerChartFields ∧
      "OFR_" ++ suffix ∈ lightstreamerChartFields := by
  apply forall_priceSuffixes <;> simp [lightstreamerChartFields]

/-- The states agree on every subscribed field. -/
def Agree (a b : ChartState) : Prop := ∀ f ∈ lightstreamerChartFields, a.get? f = b.get? f

theorem streamOhlc_congr {a b : ChartState} (h : Agree a b) {suffix : String}
    (hsuffix : suffix ∈ priceSuffixes) : streamOhlc a suffix = streamOhlc b suffix := by
  obtain ⟨hltp, hbid, hofr⟩ := price_mem_chartFields suffix hsuffix
  have hmid : streamMid a suffix = streamMid b suffix := by
    simp only [streamMid, h _ hbid, h _ hofr]
  simp only [streamOhlc, h _ hltp, hmid]

/-- A bar is built from the subscribed fields alone. -/
theorem buildBarFromState_congr {a b : ChartState} (h : Agree a b) (instrument : Instrument)
    (barDuration : Int) :
    buildBarFromState a instrument barDuration = buildBarFromState b instrument barDuration := by
  have hutm := h "UTM" utm_mem
  have hvolume : streamVolume a = streamVolume b := by
    simp only [streamVolume, h "LTV" ltv_mem]
  simp only [buildBarFromState, buildBarWith, hutm, hvolume,
    streamOhlc_congr h open_mem,
    streamOhlc_congr h high_mem,
    streamOhlc_congr h low_mem,
    streamOhlc_congr h close_mem]

/-- The state a snapshot sent in full leaves. -/
def stateOf (s : Snapshot) : ChartState := mergeItems (fullUpdate s).items .empty

theorem get?_stateOf (s : Snapshot) {f : String} (hf : f ∈ lightstreamerChartFields) :
    (stateOf s).get? f = some (s f) := by
  have hlookup : Dict.lookupItems f (fullUpdate s).items = _ := get?_encodeUpdate _ s hf
  rw [stateOf, get?_mergeItems (fullUpdate s).nodup, hlookup]
  rfl

/-- What the decoder yields for snapshots sent in full. -/
def snapshotBars (instrument : Instrument) (barDuration : Int) :
    List Snapshot → List Wire.Bar × Option PyError
  | [] => ([], none)
  | s :: ss =>
      if s "CONS_END" ≠ "1" then snapshotBars instrument barDuration ss
      else
        match buildBarFromState (stateOf s) instrument barDuration with
        | .ok bar =>
            (bar :: (snapshotBars instrument barDuration ss).1,
              (snapshotBars instrument barDuration ss).2)
        | .error e =>
            if isParseFailure e then snapshotBars instrument barDuration ss else ([], some e)

/-- A state that knows every field decodes as the snapshot sent in full. -/
theorem Knows.build {state : ChartState} {seen : List String} {s : Snapshot}
    (h : Knows state seen (some s)) (hall : ∀ f ∈ lightstreamerChartFields, f ∈ seen)
    (instrument : Instrument) (barDuration : Int) :
    buildBarFromState state instrument barDuration =
      buildBarFromState (stateOf s) instrument barDuration := by
  apply buildBarFromState_congr
  intro f hf
  rw [h f hf, if_pos (hall f hf), get?_stateOf s hf]
  rfl

/-- The decoder sees the end of a consolidation when its mark was sent. -/
theorem Knows.consEnd {state : ChartState} {seen : List String} {s : Snapshot}
    (h : Knows state seen (some s)) :
    state.get? "CONS_END" = some "1" ↔ "CONS_END" ∈ seen ∧ s "CONS_END" = "1" := by
  rw [h "CONS_END" consEnd_mem]
  by_cases hseen : "CONS_END" ∈ seen <;> simp [hseen]

/-- An encoding that sends every field again between consolidations decodes as its snapshots
do, and ends as they do. -/
theorem barStream_of_resent (instrument : Instrument) (barDuration : Int) {last : Option Snapshot}
    {snapshots : List Snapshot} {updates : List ChartUpdate} {state : ChartState}
    {seen : List String} (hencodes : Encodes last snapshots updates)
    (hknows : Knows state seen last) (hresent : Resent seen (shapeOf snapshots updates)) :
    barStream instrument barDuration state updates =
      snapshotBars instrument barDuration snapshots := by
  induction snapshots generalizing last updates state seen with
  | nil =>
    cases updates with
    | nil => rfl
    | cons u us => exact hencodes.elim
  | cons s ss ih =>
    cases updates with
    | nil => exact hencodes.elim
    | cons u us =>
      obtain ⟨⟨omits, rfl, homits⟩, hrest⟩ := hencodes
      have hmerged := hknows.merge homits
      have hmark := hmerged.consEnd
      simp only [shapeOf, List.zipWith_cons_cons, Resent] at hresent
      by_cases hend : s "CONS_END" = "1"
      · rw [if_pos (decide_eq_true hend)] at hresent
        obtain ⟨hall, hafter⟩ := hresent
        have hsame := ih hrest (knows_empty (some s)) hafter
        have hseen := hmark.mpr ⟨hall _ consEnd_mem, hend⟩
        rewrite [barStream, if_neg (not_not.mpr hseen), snapshotBars, if_neg (not_not.mpr hend),
          hmerged.build hall, hsame]
        cases buildBarFromState (stateOf s) instrument barDuration with
        | ok bar => rfl
        | error e => rfl
      · rw [if_neg (by simpa using hend)] at hresent
        have hnot : (mergeItems (encodeUpdate omits s).items state).get? "CONS_END" ≠ some "1" :=
          fun h => hend (hmark.mp h).2
        rw [barStream, if_pos hnot, snapshotBars, if_pos hend]
        exact ih hrest hmerged hresent

theorem encodes_full (last : Option Snapshot) (snapshots : List Snapshot) :
    Encodes last snapshots (snapshots.map fullUpdate) := by
  induction snapshots generalizing last with
  | nil => trivial
  | cons s ss ih => exact ⟨⟨fun _ => false, rfl, by simp⟩, ih (some s)⟩

theorem resent_full (seen : List String) (snapshots : List Snapshot) :
    Resent seen (shapeOf snapshots (snapshots.map fullUpdate)) := by
  induction snapshots generalizing seen with
  | nil => trivial
  | cons s ss ih =>
    simp only [shapeOf, List.map_cons, List.zipWith_cons_cons, Resent]
    split
    · refine ⟨?_, ih []⟩
      intro f hf
      exact List.mem_append_left _ ((mem_sentFields _ s).mpr ⟨hf, rfl⟩)
    · exact ih _

theorem barStream_full (instrument : Instrument) (barDuration : Int) (snapshots : List Snapshot) :
    barStream instrument barDuration .empty (snapshots.map fullUpdate) =
      snapshotBars instrument barDuration snapshots :=
  barStream_of_resent instrument barDuration (encodes_full none snapshots) (knows_empty none)
    (resent_full [] snapshots)

/-! ## Snapshots that show what is lost -/

/-- A snapshot of a bar at the epoch, with prices of real trades or only of a bid and an
offer. -/
def probe (traded ends : Bool) : Snapshot := fun f =>
  if f = "UTM" then "0"
  else if f = "LTV" then "5"
  else if f = "CONS_END" then (if ends then "1" else "0")
  else if f ∈ priceSuffixes.map ("LTP_" ++ ·) then (if traded then "2" else "")
  else "1"

/-- The price of the bar of a probe. -/
def probePrice (traded : Bool) : Decimal := if traded then 2 else 1

theorem freqToTimedelta_pos (freq : BarFreq) : 0 < freqToTimedelta freq := by
  cases freq <;> decide

theorem openTime_probe (freq : BarFreq) :
    Datetime.minus ⟨0, some 0⟩ (freqToTimedelta freq) =
      .ok ⟨0 - freqToTimedelta freq, some 0⟩ := by
  cases freq <;> rfl

/-- The numerals of the probes. -/
theorem probe_numerals : intOfString "0" = some 0 ∧
    DecimalValue.ofString "0" = .ok (.finite 0) ∧ DecimalValue.ofString "1" = .ok (.finite 1) ∧
    DecimalValue.ofString "2" = .ok (.finite 2) ∧ DecimalValue.ofString "5" = .ok (.finite 5) := by
  decide +kernel

theorem midpoint_probe (message : String) : midpoint "1" "1" message = .ok (.finite 1) := by
  have hmiddle : DecimalValue.add (.finite 1) (.finite 1) >>= (DecimalValue.div · (.finite 2)) =
      .ok (.finite 1) := by
    decide +kernel
  simpa only [midpoint, probe_numerals.2.2.1] using hmiddle

/-- The prices of the probes. -/
theorem probe_prices (traded ends : Bool) : ∀ suffix ∈ priceSuffixes,
    probe traded ends ("LTP_" ++ suffix) = (if traded then "2" else "") ∧
      probe traded ends ("BID_" ++ suffix) = "1" ∧ probe traded ends ("OFR_" ++ suffix) = "1" := by
  apply forall_priceSuffixes <;> simp [probe, priceSuffixes]

theorem streamOhlc_probe (traded : Bool) {suffix : String} (hsuffix : suffix ∈ priceSuffixes) :
    streamOhlc (stateOf (probe traded true)) suffix = .ok (.finite (probePrice traded)) := by
  obtain ⟨hltp, hbid, hofr⟩ := price_mem_chartFields suffix hsuffix
  obtain ⟨hltp', hbid', hofr'⟩ := probe_prices traded true suffix hsuffix
  obtain ⟨-, -, -, htwo, -⟩ := probe_numerals
  cases traded with
  | true => simp [streamOhlc, decimalOr, get?_stateOf _ hltp, hltp', htwo, probePrice]
  | false =>
    simp [streamOhlc, streamMid, get?_stateOf _ hltp, get?_stateOf _ hbid, get?_stateOf _ hofr,
      hltp', hbid', hofr', midpoint_probe, probePrice]

theorem streamVolume_probe (traded : Bool) :
    streamVolume (stateOf (probe traded true)) = .ok (.finite 5) := by
  have hltv : probe traded true "LTV" = "5" := by simp [probe]
  rw [streamVolume, get?_stateOf _ ltv_mem, hltv, Option.getD_some, volumeOf]
  simp [probe_numerals.2.2.2.2, bind, Except.bind]

/-- The fields of the bar of a probe. -/
def probeBarFields (instrument : Instrument) (freq : BarFreq) (traded : Bool) :
    Wire.BarFields where
  instrument
  openTimeUtc := ⟨0 - freqToTimedelta freq, some 0⟩
  closeTimeUtc := ⟨0, some 0⟩
  openPrice := .finite (probePrice traded)
  high := .finite (probePrice traded)
  low := .finite (probePrice traded)
  close := .finite (probePrice traded)
  volume := .finite 5

theorem probeBarFields_valid (instrument : Instrument) (freq : BarFreq) (traded : Bool) :
    postInit (probeBarFields instrument freq traded) = .ok () := by
  rw [Wire.Bar.valid_iff]
  have hpos : DecimalValue.le (.finite (probePrice traded)) (.finite 0) = .ok false := by
    cases traded <;> simp [probePrice]
  have hself : DecimalValue.le (.finite (probePrice traded)) (.finite (probePrice traded)) =
      .ok true := by
    simp
  have hduration := freqToTimedelta_pos freq
  refine ⟨rfl, rfl, ?_, ⟨hpos, hpos⟩, ⟨⟨hself, hself⟩, hself, hself⟩, ?_, ?_⟩
  · show 0 - freqToTimedelta freq < 0
    omega
  · simp [probeBarFields]
  · intro v hv
    cases hv

def probeBar (instrument : Instrument) (freq : BarFreq) (traded : Bool) : Wire.Bar :=
  ⟨probeBarFields instrument freq traded, probeBarFields_valid instrument freq traded⟩

theorem build_probe (instrument : Instrument) (freq : BarFreq) (traded : Bool) :
    buildBarFromState (stateOf (probe traded true)) instrument (freqToTimedelta freq) =
      .ok (probeBar instrument freq traded) := by
  have hutm : (stateOf (probe traded true)).get? "UTM" = some "0" :=
    get?_stateOf _ utm_mem
  have hzero : intOfString "0" = some 0 := probe_numerals.1
  have hepoch : fromTimestampMs 0 = .ok ⟨0, some 0⟩ := rfl
  simp only [buildBarFromState, buildBarWith, hutm, Option.getD_some, hzero, orRaise, bind,
    Except.bind, hepoch, openTime_probe, streamVolume_probe, require,
    streamOhlc_probe traded open_mem,
    streamOhlc_probe traded high_mem,
    streamOhlc_probe traded low_mem,
    streamOhlc_probe traded close_mem]
  exact Frozen.make_of_valid (probeBarFields_valid instrument freq traded)

/-! ## What is lost shows -/

/-- What a bar that was built says of the state it was built from. -/
theorem buildBarFromState_eq_ok {state : ChartState} {instrument : Instrument}
    {barDuration : Int} {bar : Wire.Bar}
    (h : buildBarFromState state instrument barDuration = .ok bar) :
    (state.get? "UTM").getD "" ≠ "" ∧ streamOhlc state "OPEN" = .ok bar.val.openPrice ∧
      streamOhlc state "HIGH" = .ok bar.val.high ∧ streamOhlc state "LOW" = .ok bar.val.low ∧
      streamOhlc state "CLOSE" = .ok bar.val.close ∧ streamVolume state = .ok bar.val.volume := by
  rw [buildBarFromState, buildBarWith, require_bind_eq_ok_iff] at h
  obtain ⟨hutm, h⟩ := h
  simp only [bind_eq_ok_iff] at h
  obtain ⟨utmMs, _, closeTime, _, openTime, _, openPrice, hopen, high, hhigh, low, hlow, close,
    hclose, volume, hvolume, hmake⟩ := h
  have hfields := Frozen.make_eq_ok_iff.mp hmake
  rw [hfields]
  exact ⟨hutm, hopen, hhigh, hlow, hclose, hvolume⟩

section Lost

variable {state : ChartState} {seen : List String} {suffix : String}

/-- Without the field of the last trade a price is the middle of bid and offer. -/
theorem ltp_mem_of_price (h : Knows state seen (some (probe true true)))
    (hsuffix : suffix ∈ priceSuffixes)
    (hprice : streamOhlc state suffix = .ok (.finite (probePrice true))) :
    "LTP_" ++ suffix ∈ seen := by
  by_contra hlost
  obtain ⟨hltp, hbid, hofr⟩ := price_mem_chartFields suffix hsuffix
  obtain ⟨-, hbid1, hofr1⟩ := probe_prices true true suffix hsuffix
  have hnone : state.get? ("LTP_" ++ suffix) = none := by rw [h _ hltp, if_neg hlost]
  simp only [streamOhlc, hnone, streamMid, h _ hbid, h _ hofr] at hprice
  by_cases hb : "BID_" ++ suffix ∈ seen <;> by_cases ho : "OFR_" ++ suffix ∈ seen
  · simp only [hb, ho, if_true, Option.map_some, hbid1, hofr1, midpoint_probe] at hprice
    simp [probePrice] at hprice
  · simp [hb, ho] at hprice
  · simp [hb, ho] at hprice
  · simp [hb, ho] at hprice

/-- Without last trades a price needs both the bid and the offer. -/
theorem quotes_mem_of_price (h : Knows state seen (some (probe false true)))
    (hsuffix : suffix ∈ priceSuffixes) {price : DecimalValue}
    (hprice : streamOhlc state suffix = .ok price) :
    "BID_" ++ suffix ∈ seen ∧ "OFR_" ++ suffix ∈ seen := by
  obtain ⟨hltp, hbid, hofr⟩ := price_mem_chartFields suffix hsuffix
  have htrades : probe false true ("LTP_" ++ suffix) = "" :=
    (probe_prices false true suffix hsuffix).1
  have hmid : streamMid state suffix = .ok price := by
    have hget := h _ hltp
    by_cases hl : "LTP_" ++ suffix ∈ seen
    · rw [if_pos hl] at hget
      simpa [streamOhlc, hget, htrades] using hprice
    · rw [if_neg hl] at hget
      simpa [streamOhlc, hget] using hprice
  simp only [streamMid, h _ hbid, h _ hofr] at hmid
  by_cases hb : "BID_" ++ suffix ∈ seen <;> by_cases ho : "OFR_" ++ suffix ∈ seen
  · exact ⟨hb, ho⟩
  · simp [hb, ho] at hmid
  · simp [hb, ho] at hmid
  · simp [hb, ho] at hmid

theorem ltv_mem_of_volume {traded : Bool} (h : Knows state seen (some (probe traded true)))
    (hvolume : streamVolume state = .ok (.finite 5)) : "LTV" ∈ seen := by
  by_contra hlost
  have hnone : state.get? "LTV" = none := by rw [h "LTV" ltv_mem, if_neg hlost]
  have hzero : DecimalValue.ofString "0" = .ok (.finite 0) := probe_numerals.2.1
  rw [streamVolume, hnone, Option.getD_none, volumeOf] at hvolume
  simp [hzero, bind, Except.bind] at hvolume

theorem utm_mem_of_ne {traded : Bool} (h : Knows state seen (some (probe traded true)))
    (hutm : (state.get? "UTM").getD "" ≠ "") : "UTM" ∈ seen := by
  by_contra hlost
  rw [h "UTM" utm_mem, if_neg hlost] at hutm
  exact hutm rfl

theorem chartFields_cases : ∀ f ∈ lightstreamerChartFields, f = "UTM" ∨ f = "LTV" ∨
    f = "CONS_END" ∨ ∃ suffix ∈ priceSuffixes,
      f = "LTP_" ++ suffix ∨ f = "BID_" ++ suffix ∨ f = "OFR_" ++ suffix := by
  simp [lightstreamerChartFields, priceSuffixes]

end Lost

/-- Only a state that was sent every field builds the bars of both probes. -/
theorem mem_of_build_probe {instrument : Instrument} {freq : BarFreq}
    {state : Bool → ChartState} {seen : List String}
    (hknows : ∀ traded, Knows (state traded) seen (some (probe traded true)))
    (hmark : "CONS_END" ∈ seen)
    (hbuild : ∀ traded, buildBarFromState (state traded) instrument (freqToTimedelta freq) =
      .ok (probeBar instrument freq traded)) :
    ∀ f ∈ lightstreamerChartFields, f ∈ seen := by
  have hparts := fun traded => buildBarFromState_eq_ok (hbuild traded)
  have hprices : ∀ traded, ∀ suffix ∈ priceSuffixes,
      streamOhlc (state traded) suffix = .ok (.finite (probePrice traded)) := by
    intro traded
    obtain ⟨_, hopen, hhigh, hlow, hclose, _⟩ := hparts traded
    exact forall_priceSuffixes hopen hhigh hlow hclose
  intro f hf
  rcases chartFields_cases f hf with rfl | rfl | rfl | ⟨suffix, hsuffix, rfl | rfl | rfl⟩
  · exact utm_mem_of_ne (hknows true) (hparts true).1
  · exact ltv_mem_of_volume (hknows true) (hparts true).2.2.2.2.2
  · exact hmark
  · exact ltp_mem_of_price (hknows true) hsuffix (hprices true suffix hsuffix)
  · exact (quotes_mem_of_price (hknows false) hsuffix (hprices false suffix hsuffix)).1
  · exact (quotes_mem_of_price (hknows false) hsuffix (hprices false suffix hsuffix)).2

/-- The number of consolidations a shape ends. -/
def consolidations (shape : List UpdateShape) : Nat := shape.countP (·.consolidates)

/-- A bar is yielded at the end of a consolidation only. -/
theorem barStream_length_le (instrument : Instrument) (barDuration : Int)
    {last : Option Snapshot} {snapshots : List Snapshot} {updates : List ChartUpdate}
    {state : ChartState} {seen : List String} (hencodes : Encodes last snapshots updates)
    (hknows : Knows state seen last) :
    (barStream instrument barDuration state updates).1.length ≤
      consolidations (shapeOf snapshots updates) := by
  induction snapshots generalizing last updates state seen with
  | nil =>
    cases updates with
    | nil => exact le_rfl
    | cons u us => exact hencodes.elim
  | cons s ss ih =>
    cases updates with
    | nil => exact hencodes.elim
    | cons u us =>
      obtain ⟨⟨omits, rfl, homits⟩, hrest⟩ := hencodes
      have hmerged := hknows.merge homits
      have hcount : consolidations (shapeOf (s :: ss) (encodeUpdate omits s :: us)) =
          consolidations (shapeOf ss us) + if s "CONS_END" = "1" then 1 else 0 := by
        simp [consolidations, shapeOf, List.countP_cons]
      rw [hcount, barStream]
      split
      · exact (ih hrest hmerged).trans (Nat.le_add_right _ _)
      · rename_i hmark
        rw [if_pos (hmerged.consEnd.mp (not_not.mp hmark)).2]
        have hafter := ih hrest (knows_empty (some s))
        split
        · exact Nat.succ_le_succ hafter
        · split
          · exact hafter.trans (Nat.le_succ _)
          · exact Nat.zero_le _

/-- Probes of a shape. -/
def probes (traded : Bool) (shape : List UpdateShape) : List Snapshot :=
  shape.map fun u => probe traded u.consolidates

/-- The encoding of the probes of a shape. -/
def probeUpdates (traded : Bool) (shape : List UpdateShape) : List ChartUpdate :=
  shape.map fun u => encodeUpdate (fun f => decide (f ∉ u.sent)) (probe traded u.consolidates)

theorem probe_eq {traded a b : Bool} {f : String} (hf : f ≠ "CONS_END") :
    probe traded a f = probe traded b f := by
  simp [probe, hf]

theorem probe_consEnd (traded ends : Bool) :
    probe traded ends "CONS_END" = "1" ↔ ends = true := by
  cases ends <;> simp [probe]

theorem sentFields_probe (u : ChartUpdate) (s : Snapshot) :
    sentFields (encodeUpdate (fun f => decide (f ∉ sentFields u)) s) = sentFields u := by
  show lightstreamerChartFields.filter _ = lightstreamerChartFields.filter _
  apply List.filter_congr
  intro f hf
  rw [get?_encodeUpdate _ s hf]
  by_cases hsent : (u.get? f).join.isSome
  · have hmem : f ∈ sentFields u := List.mem_filter.mpr ⟨hf, hsent⟩
    simp [hmem, hsent]
  · have hnot : f ∉ sentFields u := fun h => hsent (List.mem_filter.mp h).2
    simp [hnot, hsent]

/-- The probes of the shape of an encoding are encoded in the same shape. -/
theorem encodes_probes (traded : Bool) {last : Option Snapshot} {snapshots : List Snapshot}
    {updates : List ChartUpdate} (hencodes : Encodes last snapshots updates) :
    Encodes (last.map fun p => probe traded (p "CONS_END" = "1"))
        (probes traded (shapeOf snapshots updates))
        (probeUpdates traded (shapeOf snapshots updates)) ∧
      shapeOf (probes traded (shapeOf snapshots updates))
        (probeUpdates traded (shapeOf snapshots updates)) = shapeOf snapshots updates := by
  induction snapshots generalizing last updates with
  | nil =>
    cases updates with
    | nil => exact ⟨trivial, rfl⟩
    | cons u us => exact hencodes.elim
  | cons s ss ih =>
    cases updates with
    | nil => exact hencodes.elim
    | cons u us =>
      obtain ⟨⟨omits, rfl, homits⟩, hrest⟩ := hencodes
      obtain ⟨hprobes, hshape⟩ := ih hrest
      refine ⟨⟨⟨_, rfl, ?_⟩, hprobes⟩, ?_⟩
      · intro f hf hleft
        have homit : omits f = true := by
          by_contra hkept
          have hsent := (mem_sentFields omits s).mpr ⟨hf, by simpa using hkept⟩
          simp [hsent] at hleft
        obtain ⟨p, hp, hsame⟩ := homits f hf homit
        refine ⟨probe traded (p "CONS_END" = "1"), by rw [hp]; rfl, ?_⟩
        by_cases hmark : f = "CONS_END"
        · subst hmark
          rw [hsame]
        · exact probe_eq hmark
      · have hends : decide (probe traded (decide (s "CONS_END" = "1")) "CONS_END" = "1") =
            decide (s "CONS_END" = "1") :=
          decide_eq_decide.mpr ((probe_consEnd _ _).trans decide_eq_true_iff)
        exact congrArg₂ List.cons
          (congrArg₂ UpdateShape.mk (sentFields_probe (encodeUpdate omits s) _) hends) hshape

/-- In full, every consolidation of the probes yields the bar of the probe. -/
theorem snapshotBars_probes (instrument : Instrument) (freq : BarFreq) (traded : Bool)
    (shape : List UpdateShape) :
    (snapshotBars instrument (freqToTimedelta freq) (probes traded shape)).1 =
      List.replicate (consolidations shape) (probeBar instrument freq traded) := by
  induction shape with
  | nil => rfl
  | cons u us ih =>
    show (snapshotBars _ _ (probe traded u.consolidates :: probes traded us)).1 = _
    have hcount : consolidations (u :: us) =
        consolidations us + if u.consolidates = true then 1 else 0 := by
      simp [consolidations, List.countP_cons]
    rw [hcount, snapshotBars]
    cases hends : u.consolidates with
    | false =>
      have hmark : probe traded false "CONS_END" ≠ "1" := fun h =>
        Bool.false_ne_true ((probe_consEnd traded false).mp h)
      rw [if_pos hmark]
      exact ih
    | true =>
      have hmark : ¬ probe traded true "CONS_END" ≠ "1" :=
        not_not.mpr ((probe_consEnd traded true).mpr rfl)
      rw [if_neg hmark, build_probe]
      show _ :: _ = _
      rw [ih]
      rfl

/-- A decoder that is to yield a bar for every consolidation yields one at the first. -/
theorem head_of_bars {instrument : Instrument} {freq : BarFreq} {traded : Bool}
    {us : List UpdateShape} {state : ChartState} {seen : List String} {update : ChartUpdate}
    (hmerged : Knows (mergeItems update.items state) seen (some (probe traded true)))
    (hrest : Encodes (some (probe traded true)) (probes traded us) (probeUpdates traded us))
    (htail : shapeOf (probes traded us) (probeUpdates traded us) = us)
    (hbars : (barStream instrument (freqToTimedelta freq) state
      (update :: probeUpdates traded us)).1 =
        List.replicate (consolidations us + 1) (probeBar instrument freq traded)) :
    "CONS_END" ∈ seen ∧
      buildBarFromState (mergeItems update.items state) instrument (freqToTimedelta freq) =
        .ok (probeBar instrument freq traded) ∧
      (barStream instrument (freqToTimedelta freq) .empty (probeUpdates traded us)).1 =
        List.replicate (consolidations us) (probeBar instrument freq traded) := by
  have hlength := congrArg List.length hbars
  rw [List.length_replicate] at hlength
  -- From here on at most one bar comes for each consolidation that is left.
  have hshort : ∀ (state : ChartState) (seen : List String),
      Knows state seen (some (probe traded true)) →
        (barStream instrument (freqToTimedelta freq) state (probeUpdates traded us)).1.length ≤
          consolidations us := by
    intro state seen hknows
    have hle := barStream_length_le instrument (freqToTimedelta freq) hrest hknows
    rwa [htail] at hle
  have hafter := hshort .empty [] (knows_empty _)
  rw [barStream] at hbars hlength
  by_cases hmark : (mergeItems update.items state).get? "CONS_END" = some "1"
  · rw [if_neg (not_not.mpr hmark)] at hbars hlength
    cases hbuild : buildBarFromState (mergeItems update.items state) instrument
        (freqToTimedelta freq) with
    | ok bar =>
      rw [hbuild] at hbars
      obtain ⟨hbar, htailBars⟩ := List.cons.inj (hbars.trans List.replicate_succ)
      exact ⟨(hmerged.consEnd.mp hmark).1, by rw [hbar], htailBars⟩
    | error e =>
      rw [hbuild] at hlength
      simp only at hlength
      split at hlength
      · omega
      · cases hlength
  · rw [if_pos hmark] at hlength
    have hunmarked := hshort _ _ hmerged
    omega

/-- A decoder that yields the bars of both probes was sent every field again between any two
consolidations. -/
theorem resent_of_probes {instrument : Instrument} {freq : BarFreq} {shape : List UpdateShape}
    {state : Bool → ChartState} {seen : List String} {last : Bool → Option Snapshot}
    (hencodes : ∀ traded, Encodes (last traded) (probes traded shape) (probeUpdates traded shape))
    (hshape : ∀ traded, shapeOf (probes traded shape) (probeUpdates traded shape) = shape)
    (hknows : ∀ traded, Knows (state traded) seen (last traded))
    (hbars : ∀ traded, (barStream instrument (freqToTimedelta freq) (state traded)
      (probeUpdates traded shape)).1 =
        List.replicate (consolidations shape) (probeBar instrument freq traded)) :
    Resent seen shape := by
  induction shape generalizing state seen last with
  | nil => trivial
  | cons u us ih =>
    have hcount : consolidations (u :: us) =
        consolidations us + if u.consolidates = true then 1 else 0 := by
      simp [consolidations, List.countP_cons]
    have htail : ∀ traded, shapeOf (probes traded us) (probeUpdates traded us) = us := fun traded =>
      (List.cons.inj (hshape traded)).2
    have hsent : ∀ traded, sentFields (encodeUpdate (fun f => decide (f ∉ u.sent))
        (probe traded u.consolidates)) = u.sent := fun traded =>
      congrArg UpdateShape.sent (List.cons.inj (hshape traded)).1
    have hrest := fun traded => (hencodes traded).2
    have hmerged : ∀ traded, Knows (mergeItems (encodeUpdate (fun f => decide (f ∉ u.sent))
        (probe traded u.consolidates)).items (state traded)) (u.sent ++ seen)
          (some (probe traded u.consolidates)) := by
      intro traded
      obtain ⟨omits, hsame, homits⟩ := (hencodes traded).1
      have hmerge := (hknows traded).merge homits
      rw [← hsame, hsent traded] at hmerge
      exact hmerge
    have hbars' : ∀ traded, (barStream instrument (freqToTimedelta freq) (state traded)
        (encodeUpdate (fun f => decide (f ∉ u.sent)) (probe traded u.consolidates) ::
          probeUpdates traded us)).1 = _ := hbars
    rw [Resent]
    cases hends : u.consolidates with
    | false =>
      simp only [hends] at hbars' hmerged hcount hrest
      rw [if_neg Bool.false_ne_true]
      refine ih hrest htail hmerged ?_
      intro traded
      have hmark : (mergeItems (encodeUpdate (fun f => decide (f ∉ u.sent))
          (probe traded false)).items (state traded)).get? "CONS_END" ≠ some "1" := by
        intro h
        have hfalse := (probe_consEnd traded false).mp ((hmerged traded).consEnd.mp h).2
        exact Bool.false_ne_true hfalse
      have hthis := hbars' traded
      rw [barStream, if_pos hmark, hcount] at hthis
      exact hthis
    | true =>
      simp only [hends, if_true] at hbars' hmerged hcount hrest ⊢
      rw [hcount] at hbars'
      have hhead := fun traded =>
        head_of_bars (hmerged traded) (hrest traded) (htail traded) (hbars' traded)
      refine ⟨mem_of_build_probe hmerged (hhead true).1 fun traded => (hhead traded).2.1, ?_⟩
      exact ih hrest htail (fun traded => knows_empty _) fun traded => (hhead traded).2.2

/-! ## When an encoding is decoded right -/

/-- Every encoding of every sequence of snapshots is decoded right. -/
def MergeDecoding : Prop :=
  ∀ (instrument : Instrument) (freq : BarFreq) (snapshots : List Snapshot)
    (updates : List ChartUpdate), Encodes none snapshots updates →
      Decodes instrument freq snapshots updates

/-- Two consolidations between which only the time changed. -/
def unchangedSnapshots : List Snapshot :=
  [probe true true, fun f => if f = "UTM" then "60000" else probe true true f]

/-- The second update carries the time and the mark of the consolidation alone. -/
def unchangedUpdates : List ChartUpdate :=
  [fullUpdate (probe true true),
    encodeUpdate (fun f => decide (f ∉ ["UTM", "CONS_END"]))
      fun f => if f = "UTM" then "60000" else probe true true f]

theorem encodes_unchanged : Encodes none unchangedSnapshots unchangedUpdates := by
  refine ⟨⟨fun _ => false, rfl, by simp⟩, ⟨_, rfl, ?_⟩, trivial⟩
  intro f _ hleft
  refine ⟨probe true true, rfl, ?_⟩
  have hutm : f ≠ "UTM" := by
    rintro rfl
    simp at hleft
  exact (if_neg hutm).symm

theorem not_mergeDecoding : ¬ MergeDecoding := by
  intro hdecoding
  have hbars := hdecoding sampleInstrument .oneMinute unchangedSnapshots unchangedUpdates
    encodes_unchanged
  have hlengths : (barStream sampleInstrument (freqToTimedelta .oneMinute) .empty
      unchangedUpdates).1.length ≠ (barStream sampleInstrument (freqToTimedelta .oneMinute) .empty
        (unchangedSnapshots.map fullUpdate)).1.length := by
    decide +kernel
  exact hlengths (congrArg List.length hbars)

/-- An encoding is decoded right whatever its fields carry, that is, with all others of its
shape, exactly when every field is sent again between any two consolidations. -/
theorem decodes_iff_resent (instrument : Instrument) (freq : BarFreq)
    (snapshots : List Snapshot) (updates : List ChartUpdate)
    (hencodes : Encodes none snapshots updates) :
    (∀ (snapshots' : List Snapshot) (updates' : List ChartUpdate),
      Encodes none snapshots' updates' →
        shapeOf snapshots' updates' = shapeOf snapshots updates →
          Decodes instrument freq snapshots' updates') ↔
      Resent [] (shapeOf snapshots updates) := by
  constructor
  · intro hall
    have hprobes := fun traded => encodes_probes traded hencodes
    have hbars : ∀ traded, (barStream instrument (freqToTimedelta freq) .empty
        (probeUpdates traded (shapeOf snapshots updates))).1 =
          List.replicate (consolidations (shapeOf snapshots updates))
            (probeBar instrument freq traded) := by
      intro traded
      have hdecodes := hall _ _ (hprobes traded).1 (hprobes traded).2
      rw [Decodes, barStream_full, snapshotBars_probes] at hdecodes
      exact hdecodes
    exact resent_of_probes (fun traded => (hprobes traded).1) (fun traded => (hprobes traded).2)
      (fun _ => knows_empty _) hbars
  · intro hresent snapshots' updates' hencodes' hshape
    rw [Decodes, barStream_full, barStream_of_resent instrument (freqToTimedelta freq) hencodes'
      (knows_empty none) (hshape ▸ hresent)]

theorem decodes_iff_resent_unchanged :
    (∀ (snapshots' : List Snapshot) (updates' : List ChartUpdate),
      Encodes none snapshots' updates' →
        shapeOf snapshots' updates' = shapeOf unchangedSnapshots unchangedUpdates →
          Decodes sampleInstrument .oneMinute snapshots' updates') ↔
      Resent [] (shapeOf unchangedSnapshots unchangedUpdates) :=
  decodes_iff_resent sampleInstrument .oneMinute unchangedSnapshots unchangedUpdates
    encodes_unchanged

end Blive
