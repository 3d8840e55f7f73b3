import Blive.Misc.Timeline
import Blive.Runtime.Proofs.Eligibility

/-!
# Signals look back only

Each row of a signal is computed from the rows up to its label: two histories that are the same up
to a time have the same signals up to it. The rolling mean does so, the position and the state
machine of the eligibility take over its rows, and a row of target weights is one of eligibility.
-/

namespace Blive

open Timeline

/-- Both raise the same exception, or what both return is related. -/
def Alike {α β : Type} (r : α → β → Prop) : Except PyError α → Except PyError β → Prop
  | .ok a, .ok b => r a b
  | .error e, .error e' => e = e'
  | _, _ => False

theorem Alike.imp {α β : Type} {r r' : α → β → Prop} {x : Except PyError α}
    {y : Except PyError β} (h : Alike r x y) (himp : ∀ a b, r a b → r' a b) : Alike r' x y := by
  cases x with
  | error e =>
    cases y with
    | error e' => exact h
    | ok b => cases h
  | ok a =>
    cases y with
    | error e => cases h
    | ok b => exact himp a b h

/-- The time of a bar's close. -/
def Bar.closed (bar : Bar) : Int := bar.val.closeTimeUtc.micros

/-- No bar opens before the one ahead of it has closed. -/
def NonOverlapping (bars : List Bar) : Prop :=
  bars.Pairwise fun bar later => bar.closed ≤ later.val.openTimeUtc.micros

/-- Bars that do not overlap close one after the other. -/
theorem NonOverlapping.inOrder {bars : List Bar} (h : NonOverlapping bars) :
    InOrder Bar.closed bars := by
  refine h.imp fun {bar later} hopen => ?_
  have hvalid := ((Bar.valid_iff _).mp later.valid).2.2.1
  exact hopen.trans hvalid.le

/-- The rows of a series up to `t`. -/
def Series.upTo {α : Type} (t : Int) (s : Series Datetime α) : List (Datetime × α) :=
  Timeline.upTo (fun row => row.1.micros) t (s.index.zip s.values)

/-- The labels of a series go on in time. -/
def Series.InOrder {α : Type} (s : Series Datetime α) : Prop :=
  s.index.Pairwise fun label later => label.micros < later.micros

theorem Series.InOrder.index {α : Type} {s : Series Datetime α} (h : s.InOrder) :
    Timeline.InOrder Datetime.micros s.index := h.imp le_of_lt

theorem Series.InOrder.nodup {α : Type} {s : Series Datetime α} (h : s.InOrder) :
    s.index.Nodup := by
  refine h.imp fun {label later} hlt => ?_
  rintro rfl
  exact lt_irrefl _ hlt

theorem Series.upTo_congr {α : Type} {t : Int} {s s' : Series Datetime α}
    (h : Timeline.InOrder Datetime.micros s.index)
    (h' : Timeline.InOrder Datetime.micros s'.index) : s.upTo t = s'.upTo t ↔
      Timeline.upTo Datetime.micros t s.index = Timeline.upTo Datetime.micros t s'.index ∧
        s.values.take (Timeline.upTo Datetime.micros t s.index).length =
          s'.values.take (Timeline.upTo Datetime.micros t s.index).length :=
  upTo_zip_congr h h' s.length_values s'.length_values

/-- The first means are those of the first values. -/
theorem RollingMean.take_mean {F : Type} (rolling : RollingMean F) (window n : Nat)
    (values : List F) :
    (rolling.mean window values).take n = rolling.mean window (values.take n) := by
  by_cases hn : n ≤ values.length
  · have h := rolling.mean_append window (values.take n) (values.drop n)
    rwa [List.take_append_drop, List.length_take, Nat.min_eq_left hn] at h
  · rw [List.take_of_length_le (by rw [rolling.length_mean]; omega),
      List.take_of_length_le (by omega)]

namespace Signals

variable {F : Type} [FloatType F] {t : Int}

/-! ## SMA crossover -/

/-- The values of the position, for the closes. -/
def crossover (rolling : RollingMean F) (smaWindow : Nat) (closes : List F) : List Int :=
  let position := List.zipWith (fun close mean => if mean < close then (1 : Int) else 0) closes
    (rolling.mean smaWindow closes)
  List.replicate (min (smaWindow - 1) position.length) 0 ++ position.drop (smaWindow - 1)

theorem take_crossover (rolling : RollingMean F) (smaWindow n : Nat) (closes : List F) :
    (crossover rolling smaWindow closes).take n = crossover rolling smaWindow (closes.take n) := by
  unfold crossover
  rw [← rolling.take_mean, ← List.take_zipWith]
  generalize List.zipWith _ _ _ = position
  dsimp only
  rw [List.take_append, List.take_replicate, List.length_replicate, List.length_take,
    List.drop_take]
  have hzeros : min n (min (smaWindow - 1) position.length) =
      min (smaWindow - 1) (min n position.length) := by omega
  have hrest : (position.drop (smaWindow - 1)).take
        (n - min (smaWindow - 1) position.length) =
      (position.drop (smaWindow - 1)).take (n - (smaWindow - 1)) := by
    by_cases hshort : position.length ≤ smaWindow - 1
    · simp only [List.drop_eq_nil_of_le hshort, List.take_nil]
    · rw [Nat.min_eq_left (by omega)]
  rw [hzeros, hrest]

/-- The close times and the values of the position. -/
theorem smaCrossoverPosition_eq (rolling : RollingMean F) {bars : List Bar} {smaWindow : Nat}
    {position : Series Datetime Int}
    (h : smaCrossoverPosition rolling bars smaWindow = .ok position) :
    position.index = bars.map (fun bar => bar.val.closeTimeUtc) ∧
      position.values = crossover rolling smaWindow
        (bars.map fun bar => (FloatType.ofDecimal bar.val.close : F)) := by
  obtain ⟨-, h⟩ := require_bind_eq_ok_iff.mp h
  cases h
  exact ⟨rfl, rfl⟩

theorem smaCrossoverPosition_alike (rolling : RollingMean F) (smaWindow : Nat)
    {bars bars' : List Bar} (hbars : InOrder Bar.closed bars) (hbars' : InOrder Bar.closed bars')
    (hsame : upTo Bar.closed t bars = upTo Bar.closed t bars') :
    Alike (fun position position' => position.upTo t = position'.upTo t)
      (smaCrossoverPosition rolling bars smaWindow)
      (smaCrossoverPosition rolling bars' smaWindow) := by
  have hindex (bars : List Bar) :
      Timeline.upTo Datetime.micros t (bars.map fun bar => bar.val.closeTimeUtc) =
        (upTo Bar.closed t bars).map fun bar => bar.val.closeTimeUtc := upTo_map _ _
  by_cases hwindow : 2 ≤ smaWindow
  · have hreturns (bars : List Bar) :
        ∃ position, smaCrossoverPosition rolling bars smaWindow = .ok position :=
      ⟨_, require_bind_eq_ok_iff.mpr ⟨hwindow, rfl⟩⟩
    obtain ⟨position, hposition⟩ := hreturns bars
    obtain ⟨position', hposition'⟩ := hreturns bars'
    rw [hposition, hposition']
    obtain ⟨hlabels, hvalues⟩ := smaCrossoverPosition_eq rolling hposition
    obtain ⟨hlabels', hvalues'⟩ := smaCrossoverPosition_eq rolling hposition'
    have hinOrder : Timeline.InOrder Datetime.micros position.index := by
      rw [hlabels]
      exact List.pairwise_map.mpr hbars
    have hinOrder' : Timeline.InOrder Datetime.micros position'.index := by
      rw [hlabels']
      exact List.pairwise_map.mpr hbars'
    refine (Series.upTo_congr hinOrder hinOrder').mpr ⟨?_, ?_⟩
    · rw [hlabels, hlabels', hindex, hindex, hsame]
    · rw [hvalues, hvalues', take_crossover, take_crossover, hlabels, hindex, List.length_map,
        ← List.map_take, ← List.map_take, hbars.take_upTo, hsame, hbars'.take_upTo]
  · have hraises (bars : List Bar) : smaCrossoverPosition rolling bars smaWindow =
        .error (.valueError "sma_window must be >= 2; got ") := by
      simp only [smaCrossoverPosition, require, if_neg hwindow]
      rfl
    rw [hraises, hraises]
    rfl

/-! ## Eligibility of the legs -/

/-- The rows of a frame up to `t`. -/
def DataFrame.upTo {α : Type} (t : Int) (frame : DataFrame Datetime α) :
    List (Datetime × (String → α)) :=
  Timeline.upTo (fun row => row.1.micros) t (frame.index.zip frame.rows)

/-- The rows of the frame for the eligibility, for the closes of the two proxies. -/
def eligibilityRows (rolling : RollingMean F) (smaWindow : Nat) (exitBuffer enterBuffer : F)
    (qqqCloses tltCloses : List F) : List (String → F) :=
  (Machine.outputs (eligibilityStep exitBuffer enterBuffer) (true, true)
    (List.zipWith Row.mk
      (List.zipWith LegRow.mk qqqCloses (rolling.mean smaWindow qqqCloses))
      (List.zipWith LegRow.mk tltCloses (rolling.mean smaWindow tltCloses)))).map eligibilityRow

theorem take_eligibilityRows (rolling : RollingMean F) (smaWindow n : Nat)
    (exitBuffer enterBuffer : F) (qqqCloses tltCloses : List F) :
    (eligibilityRows rolling smaWindow exitBuffer enterBuffer qqqCloses tltCloses).take n =
      eligibilityRows rolling smaWindow exitBuffer enterBuffer (qqqCloses.take n)
        (tltCloses.take n) := by
  unfold eligibilityRows
  rw [← List.map_take, Machine.outputs_take, List.take_zipWith, List.take_zipWith,
    List.take_zipWith, rolling.take_mean, rolling.take_mean]

section Eligibility

variable {rolling : RollingMean F} {smaWindow : Nat} {exitBuffer enterBuffer : F}
  {qqqCloses tltCloses qqqCloses' tltCloses' : Series Datetime F}

theorem tripleLevSmaEligibility_eq {frame : DataFrame Datetime F}
    (h : tripleLevSmaEligibility rolling qqqCloses tltCloses smaWindow exitBuffer enterBuffer =
      .ok frame) :
    frame.columns = ["TQQQ", "TMF", "IEF"] ∧ frame.index = qqqCloses.index ∧
      frame.rows = eligibilityRows rolling smaWindow exitBuffer enterBuffer qqqCloses.values
        tltCloses.values := by
  obtain ⟨-, h⟩ := require_bind_eq_ok_iff.mp h
  obtain ⟨hindex, h⟩ := require_bind_eq_ok_iff.mp h
  obtain ⟨rows, hrows, h⟩ := bind_eq_ok_iff.mp h
  cases h
  refine ⟨rfl, rfl, ?_⟩
  rw [readRows_eq hindex hrows]
  rfl

theorem length_eligibilityRows (hindex : qqqCloses.index = tltCloses.index) :
    (eligibilityRows rolling smaWindow exitBuffer enterBuffer qqqCloses.values
      tltCloses.values).length = qqqCloses.index.length := by
  simp [eligibilityRows, rolling.length_mean, qqqCloses.length_values, tltCloses.length_values,
    ← hindex]

/-- Frames that are returned for histories that are the same up to `t` are the same up to it. -/
theorem tripleLevSmaEligibility_upTo (hinOrder : qqqCloses.InOrder) (hinOrder' : qqqCloses'.InOrder)
    (hqqq : qqqCloses.upTo t = qqqCloses'.upTo t) (htlt : tltCloses.upTo t = tltCloses'.upTo t)
    {frame frame' : DataFrame Datetime F}
    (h : tripleLevSmaEligibility rolling qqqCloses tltCloses smaWindow exitBuffer enterBuffer =
      .ok frame)
    (h' : tripleLevSmaEligibility rolling qqqCloses' tltCloses' smaWindow exitBuffer enterBuffer =
      .ok frame') :
    frame.columns = frame'.columns ∧ frame.upTo t = frame'.upTo t := by
  have hindex := index_of_ok h
  have hindex' := index_of_ok h'
  obtain ⟨hcolumns, hlabels, hrows⟩ := tripleLevSmaEligibility_eq h
  obtain ⟨hcolumns', hlabels', hrows'⟩ := tripleLevSmaEligibility_eq h'
  obtain ⟨hsame, hqqqValues⟩ := (Series.upTo_congr hinOrder.index hinOrder'.index).mp hqqq
  obtain ⟨-, htltValues⟩ := (Series.upTo_congr (hindex ▸ hinOrder.index)
    (hindex' ▸ hinOrder'.index)).mp htlt
  rw [← hindex] at htltValues
  refine ⟨hcolumns.trans hcolumns'.symm, ?_⟩
  unfold DataFrame.upTo
  rw [hlabels, hlabels', hrows, hrows']
  refine (upTo_zip_congr hinOrder.index hinOrder'.index (length_eligibilityRows hindex)
    (length_eligibilityRows hindex')).mpr ⟨hsame, ?_⟩
  rw [take_eligibilityRows, take_eligibilityRows, hqqqValues, htltValues]

/-- Where the histories pass the check of their labels alike, the function returns on both, or
raises the same. -/
theorem tripleLevSmaEligibility_alike (rolling : RollingMean F) (smaWindow : Nat)
    (exitBuffer enterBuffer : F) (hinOrder : qqqCloses.InOrder) (hinOrder' : qqqCloses'.InOrder)
    (haligned : qqqCloses.index = tltCloses.index ↔ qqqCloses'.index = tltCloses'.index)
    (hqqq : qqqCloses.upTo t = qqqCloses'.upTo t) (htlt : tltCloses.upTo t = tltCloses'.upTo t) :
    Alike (fun frame frame' => frame.columns = frame'.columns ∧ frame.upTo t = frame'.upTo t)
      (tripleLevSmaEligibility rolling qqqCloses tltCloses smaWindow exitBuffer enterBuffer)
      (tripleLevSmaEligibility rolling qqqCloses' tltCloses' smaWindow exitBuffer enterBuffer) := by
  by_cases hwindow : 2 ≤ smaWindow
  · by_cases hindex : qqqCloses.index = tltCloses.index
    · obtain ⟨frame, hframe⟩ : ∃ frame, tripleLevSmaEligibility rolling qqqCloses tltCloses
          smaWindow exitBuffer enterBuffer = .ok frame :=
        exists_frame hwindow hindex hinOrder.nodup
      obtain ⟨frame', hframe'⟩ : ∃ frame, tripleLevSmaEligibility rolling qqqCloses' tltCloses'
          smaWindow exitBuffer enterBuffer = .ok frame :=
        exists_frame hwindow (haligned.mp hindex) hinOrder'.nodup
      rw [hframe, hframe']
      exact tripleLevSmaEligibility_upTo hinOrder hinOrder' hqqq htlt hframe hframe'
    · simp only [tripleLevSmaEligibility, require, if_pos hwindow, if_neg hindex,
        if_neg (haligned.not.mp hindex)]
      rfl
  · simp only [tripleLevSmaEligibility, require, if_neg hwindow]
    rfl

end Eligibility

/-! ## Target weights -/

/-- The target weights of frames that are the same up to `t` are the same up to it. -/
theorem eligibilityToTargetWeights_upTo {frame frame' : DataFrame Datetime F}
    (hcolumns : frame.columns = frame'.columns) (h : frame.upTo t = frame'.upTo t) :
    (eligibilityToTargetWeights frame).upTo t = (eligibilityToTargetWeights frame').upTo t := by
  have hrows {frame : DataFrame Datetime F} (hsome : frame.columns ≠ []) :
      (eligibilityToTargetWeights frame).upTo t =
        (frame.upTo t).map fun row => (row.1, targetWeightsRow frame.columns row.2) := by
    by_cases hempty : frame.rows = []
    · have hsame : eligibilityToTargetWeights frame = frame := by
        simp [eligibilityToTargetWeights, hempty]
      rw [hsame]
      simp [DataFrame.upTo, hempty, Timeline.upTo]
    · simp only [eligibilityToTargetWeights, hsome, hempty, or_self, if_false, DataFrame.upTo]
      rw [List.zip_map_right, upTo_map]
      rfl
  by_cases hnone : frame.columns = []
  · have hsame {frame : DataFrame Datetime F} (hnone : frame.columns = []) :
        eligibilityToTargetWeights frame = frame := by
      simp [eligibilityToTargetWeights, hnone]
    rw [hsame hnone, hsame (hcolumns ▸ hnone), h]
  · rw [hrows hnone, hrows (hcolumns ▸ hnone), h, hcolumns]

end Signals

end Blive
