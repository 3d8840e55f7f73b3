import Blive.Runtime.Signals

/-!
# The eligibility of a leg

Each column of the eligibility frame is what one machine emits, whose inputs are the rows of the
leg and the gaps of QQQ: the rows where QQQ has no close or no SMA. A gap reports the leg as
eligible and leaves the state alone. The legs share the warm-up that way, and a gap after it
shows in the columns as changes that no close has crossed a threshold for.
-/

namespace Blive.Signals

open FloatType Machine

variable {F : Type} [FloatType F] {ι : Type}

/-! ## One leg -/

/-- The closes of a series with their SMA. -/
def legRows (rolling : RollingMean F) (smaWindow : Nat) (closes : Series ι F) : List (LegRow F) :=
  List.zipWith LegRow.mk closes.values (rolling.mean smaWindow closes.values)

/-- The rows where a series has no close or no SMA. -/
def gaps (rolling : RollingMean F) (smaWindow : Nat) (closes : Series ι F) : List Bool :=
  (legRows rolling smaWindow closes).map LegRow.undefined

/-- The loop body for one leg, given whether the row is a gap. -/
def legStep (exitBuffer enterBuffer : F) (eligible : Bool) (input : Bool × LegRow F) :
    Bool × Bool :=
  if input.1 then (eligible, true)
  else
    let eligible := hysteresis exitBuffer enterBuffer eligible input.2
    (eligible, eligible)

/-- The states a leg reports. -/
def legStates (exitBuffer enterBuffer : F) (gaps : List Bool) (rows : List (LegRow F)) :
    List Bool :=
  outputs (legStep exitBuffer enterBuffer) true (gaps.zip rows)

/-- The column of a leg. -/
def legColumn (exitBuffer enterBuffer : F) (gaps : List Bool) (rows : List (LegRow F)) : List F :=
  (legStates exitBuffer enterBuffer gaps rows).map ofBool

omit [FloatType F] in
@[simp] theorem length_legRows (rolling : RollingMean F) (smaWindow : Nat) (closes : Series ι F) :
    (legRows rolling smaWindow closes).length = closes.index.length := by
  simp [legRows, rolling.length_mean, closes.length_values]

theorem hysteresis_up {exitBuffer enterBuffer : F} {row : LegRow F}
    (h : hysteresis exitBuffer enterBuffer false row = true) :
    row.sma * (1 + enterBuffer) < row.close := by
  simpa [hysteresis] using h

theorem hysteresis_down {exitBuffer enterBuffer : F} {row : LegRow F}
    (h : hysteresis exitBuffer enterBuffer true row = false) :
    row.close < row.sma * (1 + exitBuffer) := by
  simpa [hysteresis] using h

/-- Without an SMA an eligible leg stays eligible. -/
theorem hysteresis_undefined {exitBuffer enterBuffer : F} {row : LegRow F}
    (h : isNa row.sma = true) : hysteresis exitBuffer enterBuffer true row = true := by
  have hexit : ¬ row.close < row.sma * (1 + exitBuffer) :=
    not_lt_na _ _ (isNa_mul _ _ h)
  simp [hysteresis, hexit]

/-! ## The columns of the frame -/

omit [FloatType F] in
/-- The rows the loop reads are those of the two legs. -/
theorem readRows_eq [DecidableEq ι] {rolling : RollingMean F} {smaWindow : Nat}
    {qqqCloses tltCloses : Series ι F} (hindex : qqqCloses.index = tltCloses.index)
    {rows : List (Row F)}
    (h : qqqCloses.index.mapM (readRow qqqCloses tltCloses
      (qqqCloses.rollingMean rolling smaWindow) (tltCloses.rollingMean rolling smaWindow)) =
        .ok rows) :
    rows = List.zipWith Row.mk (legRows rolling smaWindow qqqCloses)
      (legRows rolling smaWindow tltCloses) := by
  have hall := mapM_eq_ok_iff.mp h
  have hlength := hall.length_eq
  refine List.ext_getElem? fun i => ?_
  by_cases hi : i < qqqCloses.index.length
  · have hrow := hall.get hi (hlength ▸ hi)
    simp only [List.get_eq_getElem] at hrow
    obtain ⟨q, hq, hrow⟩ := bind_eq_ok_iff.mp hrow
    obtain ⟨t, ht, hrow⟩ := bind_eq_ok_iff.mp hrow
    obtain ⟨qs, hqs, hrow⟩ := bind_eq_ok_iff.mp hrow
    obtain ⟨ts, hts, hrow⟩ := bind_eq_ok_iff.mp hrow
    have hat : qqqCloses.index[i]? = some qqqCloses.index[i] := List.getElem?_eq_getElem hi
    have hq' := Series.getElem?_values hq hat
    have hat' : tltCloses.index[i]? = some qqqCloses.index[i] := by rw [← hindex, hat]
    have ht' := Series.getElem?_values ht hat'
    have hqs' := Series.getElem?_values hqs hat
    have hts' := Series.getElem?_values hts hat'
    rw [List.getElem?_eq_getElem (hlength ▸ hi), ← Except.ok.inj hrow]
    simp only [Series.rollingMean] at hqs' hts'
    simp [legRows, List.getElem?_zipWith, hq', ht', hqs', hts']
  · rw [List.getElem?_eq_none (by omega), List.getElem?_eq_none]
    simp [← hindex]
    omega

/-- The machine of both legs, seen at one of them. -/
theorem outputs_fst (exitBuffer enterBuffer : F) (state : Bool × Bool) (rows : List (Row F)) :
    (outputs (eligibilityStep exitBuffer enterBuffer) state rows).map Prod.fst =
      outputs (legStep exitBuffer enterBuffer) state.1
        (rows.map fun row => (row.qqq.undefined, row.qqq)) := by
  refine (outputs_map ?_ state rows).symm
  intro state row
  by_cases h : row.qqq.undefined <;> simp [eligibilityStep, legStep, h]

theorem outputs_snd (exitBuffer enterBuffer : F) (state : Bool × Bool) (rows : List (Row F)) :
    (outputs (eligibilityStep exitBuffer enterBuffer) state rows).map Prod.snd =
      outputs (legStep exitBuffer enterBuffer) state.2
        (rows.map fun row => (row.qqq.undefined, row.tlt)) := by
  refine (outputs_map ?_ state rows).symm
  intro state row
  by_cases h : row.qqq.undefined <;> simp [eligibilityStep, legStep, h]

theorem map_row_qqq {xs ys : List (LegRow F)} (hlegs : xs.length = ys.length) :
    (List.zipWith Row.mk xs ys).map (fun row => (row.qqq.undefined, row.qqq)) =
      (xs.map LegRow.undefined).zip xs := by
  induction xs generalizing ys with
  | nil => rfl
  | cons x xs ih =>
    cases ys with
    | nil => cases hlegs
    | cons y ys => simp [ih (Nat.succ.inj hlegs)]

theorem map_row_tlt (xs ys : List (LegRow F)) :
    (List.zipWith Row.mk xs ys).map (fun row => (row.qqq.undefined, row.tlt)) =
      (xs.map LegRow.undefined).zip ys := by
  induction xs generalizing ys with
  | nil => rfl
  | cons x xs ih =>
    cases ys with
    | nil => rfl
    | cons y ys => simp [ih ys]

/-- The columns of a frame the function returned. -/
structure Columns (rolling : RollingMean F) (smaWindow : Nat) (exitBuffer enterBuffer : F)
    (qqqCloses tltCloses : Series ι F) (frame : DataFrame ι F) : Prop where
  tqqq : frame.column "TQQQ" = legColumn exitBuffer enterBuffer
    (gaps rolling smaWindow qqqCloses) (legRows rolling smaWindow qqqCloses)
  tmf : frame.column "TMF" = legColumn exitBuffer enterBuffer
    (gaps rolling smaWindow qqqCloses) (legRows rolling smaWindow tltCloses)

section Frame

variable [DecidableEq ι] {rolling : RollingMean F} {smaWindow : Nat} {exitBuffer enterBuffer : F}
  {qqqCloses tltCloses : Series ι F} {frame : DataFrame ι F}

theorem columns_of_ok (h : tripleLevSmaEligibility rolling qqqCloses tltCloses smaWindow
    exitBuffer enterBuffer = .ok frame) :
    Columns rolling smaWindow exitBuffer enterBuffer qqqCloses tltCloses frame := by
  obtain ⟨-, h⟩ := require_bind_eq_ok_iff.mp h
  obtain ⟨hindex, h⟩ := require_bind_eq_ok_iff.mp h
  obtain ⟨rows, hrows, h⟩ := bind_eq_ok_iff.mp h
  cases h
  have hlegs := readRows_eq hindex hrows
  have hlength : (legRows rolling smaWindow qqqCloses).length =
      (legRows rolling smaWindow tltCloses).length := by
    rw [length_legRows, length_legRows, hindex]
  constructor
  · rw [DataFrame.column, List.map_map, legColumn, legStates, gaps,
      ← map_row_qqq hlength, ← hlegs, ← outputs_fst _ _ (true, true), List.map_map]
    rfl
  · rw [DataFrame.column, List.map_map, legColumn, legStates, gaps,
      ← map_row_tlt, ← hlegs, ← outputs_snd _ _ (true, true), List.map_map]
    rfl

theorem index_of_ok (h : tripleLevSmaEligibility rolling qqqCloses tltCloses smaWindow
    exitBuffer enterBuffer = .ok frame) : qqqCloses.index = tltCloses.index :=
  (require_bind_eq_ok_iff.mp (require_bind_eq_ok_iff.mp h).2).1

/-- The function returns on series that share an index of distinct labels. -/
theorem exists_frame (hwindow : 2 ≤ smaWindow) (hindex : qqqCloses.index = tltCloses.index)
    (hlabels : qqqCloses.index.Nodup) :
    ∃ frame, tripleLevSmaEligibility rolling qqqCloses tltCloses smaWindow exitBuffer
      enterBuffer = .ok frame := by
  have hloc : ∀ (closes : Series ι F), closes.index = qqqCloses.index →
      ∀ dt ∈ qqqCloses.index, ∃ v, closes.loc dt = .ok v := by
    intro closes hsame dt hdt
    rw [Series.exists_loc_iff, hsame]
    exact List.count_eq_one_of_mem hlabels hdt
  have hrow : ∀ dt ∈ qqqCloses.index, ∃ row, readRow qqqCloses tltCloses
      (qqqCloses.rollingMean rolling smaWindow) (tltCloses.rollingMean rolling smaWindow) dt =
        .ok row := by
    intro dt hdt
    obtain ⟨q, hq⟩ := hloc qqqCloses rfl dt hdt
    obtain ⟨t, ht⟩ := hloc tltCloses hindex.symm dt hdt
    obtain ⟨qs, hqs⟩ := hloc (qqqCloses.rollingMean rolling smaWindow) rfl dt hdt
    obtain ⟨ts, hts⟩ := hloc (tltCloses.rollingMean rolling smaWindow) hindex.symm dt hdt
    refine ⟨⟨⟨q, qs⟩, ⟨t, ts⟩⟩, ?_⟩
    simp only [readRow, hq, ht, hqs, hts, bind, Except.bind, pure, Except.pure]
  obtain ⟨rows, hrows⟩ := exists_mapM hrow
  exact ⟨_, require_bind_eq_ok_iff.mpr ⟨hwindow, require_bind_eq_ok_iff.mpr
    ⟨hindex, bind_eq_ok_iff.mpr ⟨rows, hrows, rfl⟩⟩⟩⟩

end Frame

/-! ## The transition law -/

/-- A gap that comes after a row without one. -/
def Interrupted (gaps : List Bool) (i : Nat) : Prop :=
  gaps[i]? = some true ∧ ∃ j < i, gaps[j]? = some false

/-- Between consecutive rows, none of them exempt, a column goes from 0 to 1 only where the close
is above the entry threshold. -/
def RisesAtThreshold (exempt : Nat → Prop) (enterBuffer : F) (column : List F)
    (rows : List (LegRow F)) : Prop :=
  ∀ i row, rows[i + 1]? = some row → ¬ exempt i → ¬ exempt (i + 1) →
    column[i]? = some 0 → column[i + 1]? = some 1 → row.sma * (1 + enterBuffer) < row.close

/-- Between consecutive rows, none of them exempt, a column goes from 1 to 0 only where the close
is below the exit threshold. -/
def FallsAtThreshold (exempt : Nat → Prop) (exitBuffer : F) (column : List F)
    (rows : List (LegRow F)) : Prop :=
  ∀ i row, rows[i + 1]? = some row → ¬ exempt i → ¬ exempt (i + 1) →
    column[i]? = some 1 → column[i + 1]? = some 0 → row.close < row.sma * (1 + exitBuffer)

/-- The rows before the first one with an SMA are reported as eligible. -/
def EligibleInWarmup (column : List F) (rows : List (LegRow F)) : Prop :=
  ∀ i < rows.length, (∀ j ≤ i, ∀ row, rows[j]? = some row → isNa row.sma = true) →
    column[i]? = some 1

section Leg

variable {exitBuffer enterBuffer : F} {gaps : List Bool} {rows : List (LegRow F)}

theorem getElem?_legColumn {i : Nat} {b : Bool} :
    (legColumn exitBuffer enterBuffer gaps rows)[i]? = some (ofBool b) ↔
      (legStates exitBuffer enterBuffer gaps rows)[i]? = some b := by
  rw [legColumn, List.getElem?_map]
  cases (legStates exitBuffer enterBuffer gaps rows)[i]? with
  | none => simp
  | some reported => simp [ofBool_inj]

/-- The state of a leg before a row. -/
def stateBefore (exitBuffer enterBuffer : F) (gaps : List Bool) (rows : List (LegRow F))
    (i : Nat) : Bool :=
  stateAfter (legStep exitBuffer enterBuffer) true ((gaps.zip rows).take i)

/-- What a leg reports at a row, and the state it leaves. -/
theorem legStates_at (exitBuffer enterBuffer : F) {i : Nat} {gap : Bool} {row : LegRow F}
    (hgap : gaps[i]? = some gap) (hrow : rows[i]? = some row) :
    (legStates exitBuffer enterBuffer gaps rows)[i]? = some (legStep exitBuffer enterBuffer
        (stateBefore exitBuffer enterBuffer gaps rows i) (gap, row)).2 ∧
      stateBefore exitBuffer enterBuffer gaps rows (i + 1) = (legStep exitBuffer enterBuffer
        (stateBefore exitBuffer enterBuffer gaps rows i) (gap, row)).1 := by
  have hinput : (gaps.zip rows)[i]? = some (gap, row) :=
    List.getElem?_zip_eq_some.mpr ⟨hgap, hrow⟩
  constructor
  · rw [legStates, getElem?_outputs, hinput]
    rfl
  · exact stateAfter_take_succ true hinput

/-- Before the first row without a gap a leg is in its first state. -/
theorem stateBefore_of_gaps {i : Nat} (h : ∀ j < i, gaps[j]? ≠ some false) :
    stateBefore exitBuffer enterBuffer gaps rows i = true := by
  refine stateAfter_eq_self ?_
  intro input hinput
  obtain ⟨j, hj⟩ := List.mem_iff_getElem?.mp hinput
  rw [List.getElem?_take] at hj
  split at hj
  · rename_i hlt
    obtain ⟨hgap, -⟩ := List.getElem?_zip_eq_some.mp hj
    cases hinput' : input.1 with
    | true => simp [legStep, hinput']
    | false => exact absurd (hinput' ▸ hgap) (h j hlt)
  · cases hj

/-- What a leg reports at two consecutive rows, and the state it passes between them. -/
theorem legColumn_consecutive (before after : Bool) (hlength : gaps.length = rows.length) {i : Nat}
    {row : LegRow F} (hrow : rows[i + 1]? = some row)
    (hbefore : (legColumn exitBuffer enterBuffer gaps rows)[i]? = some (ofBool before))
    (hafter : (legColumn exitBuffer enterBuffer gaps rows)[i + 1]? = some (ofBool after)) :
    ∃ gap₀ gap row₀, gaps[i]? = some gap₀ ∧ gaps[i + 1]? = some gap ∧
      (legStep exitBuffer enterBuffer (stateBefore exitBuffer enterBuffer gaps rows i)
        (gap₀, row₀)).2 = before ∧
      stateBefore exitBuffer enterBuffer gaps rows (i + 1) =
        (legStep exitBuffer enterBuffer (stateBefore exitBuffer enterBuffer gaps rows i)
          (gap₀, row₀)).1 ∧
      (legStep exitBuffer enterBuffer (stateBefore exitBuffer enterBuffer gaps rows (i + 1))
        (gap, row)).2 = after := by
  have hi : i + 1 < rows.length := (List.getElem?_eq_some_iff.mp hrow).1
  obtain ⟨row₀, hrow₀⟩ : ∃ row₀, rows[i]? = some row₀ :=
    ⟨_, List.getElem?_eq_getElem (by omega)⟩
  obtain ⟨gap₀, hgap₀⟩ : ∃ gap₀, gaps[i]? = some gap₀ :=
    ⟨_, List.getElem?_eq_getElem (by omega)⟩
  obtain ⟨gap, hgap⟩ : ∃ gap, gaps[i + 1]? = some gap :=
    ⟨_, List.getElem?_eq_getElem (by omega)⟩
  obtain ⟨hreport₀, hstate⟩ := legStates_at exitBuffer enterBuffer hgap₀ hrow₀
  obtain ⟨hreport, -⟩ := legStates_at exitBuffer enterBuffer hgap hrow
  exact ⟨gap₀, gap, row₀, hgap₀, hgap,
    Option.some.inj (hreport₀.symm.trans (getElem?_legColumn.mp hbefore)), hstate,
    Option.some.inj (hreport.symm.trans (getElem?_legColumn.mp hafter))⟩

/-- A leg rises where its close clears the entry threshold: what it reports as 0 is its state. -/
theorem risesAtThreshold_legColumn (hlength : gaps.length = rows.length) :
    RisesAtThreshold (Interrupted gaps) enterBuffer
      (legColumn exitBuffer enterBuffer gaps rows) rows := by
  intro i row hrow hnow hnext hzero hone
  obtain ⟨gap₀, gap, row₀, hgap₀, hgap, hdown, hstate, hup⟩ :=
    legColumn_consecutive false true hlength hrow hzero hone
  cases gap₀ with
  | true => cases hdown
  | false =>
    have hout : stateBefore exitBuffer enterBuffer gaps rows (i + 1) = false := hstate.trans hdown
    rw [hout] at hup
    cases gap with
    | true => exact absurd ⟨hgap, i, Nat.lt_succ_self i, hgap₀⟩ hnext
    | false =>
      have hcross : hysteresis exitBuffer enterBuffer false row = true := hup
      exact hysteresis_up hcross

/-- A leg falls where its close is below the exit threshold: the state behind a 1 is 1, at a gap
of the warm-up as well. -/
theorem fallsAtThreshold_legColumn (hlength : gaps.length = rows.length) :
    FallsAtThreshold (Interrupted gaps) exitBuffer
      (legColumn exitBuffer enterBuffer gaps rows) rows := by
  intro i row hrow hnow hnext hone hzero
  obtain ⟨gap₀, gap, row₀, hgap₀, hgap, hup, hstate, hdown⟩ :=
    legColumn_consecutive true false hlength hrow hone hzero
  have hin : stateBefore exitBuffer enterBuffer gaps rows (i + 1) = true := by
    cases gap₀ with
    | false => exact hstate.trans hup
    | true =>
      refine hstate.trans (stateBefore_of_gaps ?_)
      intro j hj hfalse
      exact hnow ⟨hgap₀, j, hj, hfalse⟩
  rw [hin] at hdown
  cases gap with
  | true => cases hdown
  | false =>
    have hcross : hysteresis exitBuffer enterBuffer true row = false := hdown
    exact hysteresis_down hcross

/-- Before its first SMA a leg is eligible. -/
theorem eligibleInWarmup_legColumn (hlength : gaps.length = rows.length) :
    EligibleInWarmup (legColumn exitBuffer enterBuffer gaps rows) rows := by
  intro i hi hwarmup
  have hkeep : ∀ input ∈ (gaps.zip rows).take (i + 1),
      legStep exitBuffer enterBuffer true input = (true, true) := by
    intro input hinput
    obtain ⟨j, hj⟩ := List.mem_iff_getElem?.mp hinput
    rw [List.getElem?_take] at hj
    split at hj
    · rename_i hlt
      obtain ⟨-, hrow⟩ := List.getElem?_zip_eq_some.mp hj
      have hsma := hwarmup j (Nat.lt_succ_iff.mp hlt) input.2 hrow
      cases hgap : input.1 with
      | true => simp [legStep, hgap]
      | false => simp [legStep, hgap, hysteresis_undefined hsma]
    · cases hj
  obtain ⟨row, hrow⟩ : ∃ row, rows[i]? = some row := ⟨_, List.getElem?_eq_getElem hi⟩
  obtain ⟨gap, hgap⟩ : ∃ gap, gaps[i]? = some gap :=
    ⟨_, List.getElem?_eq_getElem (by omega)⟩
  have hinput : (gap, row) ∈ (gaps.zip rows).take (i + 1) := by
    refine List.mem_iff_getElem?.mpr ⟨i, ?_⟩
    rw [List.getElem?_take, if_pos (Nat.lt_succ_self i)]
    exact List.getElem?_zip_eq_some.mpr ⟨hgap, hrow⟩
  have hstate : stateBefore exitBuffer enterBuffer gaps rows i = true := by
    refine stateAfter_eq_self ?_
    intro input hinput
    have hmem : input ∈ (gaps.zip rows).take (i + 1) :=
      (List.take_subset_take_left _ (Nat.le_succ i)) hinput
    rw [hkeep input hmem]
  refine (getElem?_legColumn (b := true)).mpr ?_
  rw [(legStates_at exitBuffer enterBuffer hgap hrow).1, hstate, hkeep _ hinput]

end Leg

/-! ## Both legs -/

section Legs

variable [DecidableEq ι] {rolling : RollingMean F} {smaWindow : Nat} {exitBuffer enterBuffer : F}
  {qqqCloses tltCloses : Series ι F} {frame : DataFrame ι F}

/-- The column of TQQQ depends on the closes of QQQ alone. That of TMF depends on the closes of
TLT and on where QQQ has no close or no SMA. Away from the gaps of QQQ after its warm-up both
change only at a threshold, and each leg is eligible before its first SMA. -/
theorem tripleLev_legs (h : tripleLevSmaEligibility rolling qqqCloses tltCloses smaWindow
    exitBuffer enterBuffer = .ok frame) :
    (∀ tltCloses' frame', tripleLevSmaEligibility rolling qqqCloses tltCloses' smaWindow
        exitBuffer enterBuffer = .ok frame' → frame'.column "TQQQ" = frame.column "TQQQ") ∧
      (∀ qqqCloses' frame', tripleLevSmaEligibility rolling qqqCloses' tltCloses smaWindow
          exitBuffer enterBuffer = .ok frame' →
        gaps rolling smaWindow qqqCloses' = gaps rolling smaWindow qqqCloses →
          frame'.column "TMF" = frame.column "TMF") ∧
      (RisesAtThreshold (Interrupted (gaps rolling smaWindow qqqCloses)) enterBuffer
          (frame.column "TQQQ") (legRows rolling smaWindow qqqCloses) ∧
        FallsAtThreshold (Interrupted (gaps rolling smaWindow qqqCloses)) exitBuffer
          (frame.column "TQQQ") (legRows rolling smaWindow qqqCloses)) ∧
      (RisesAtThreshold (Interrupted (gaps rolling smaWindow qqqCloses)) enterBuffer
          (frame.column "TMF") (legRows rolling smaWindow tltCloses) ∧
        FallsAtThreshold (Interrupted (gaps rolling smaWindow qqqCloses)) exitBuffer
          (frame.column "TMF") (legRows rolling smaWindow tltCloses)) ∧
      EligibleInWarmup (frame.column "TQQQ") (legRows rolling smaWindow qqqCloses) ∧
      EligibleInWarmup (frame.column "TMF") (legRows rolling smaWindow tltCloses) := by
  have hcolumns := columns_of_ok h
  have hqqq : (gaps rolling smaWindow qqqCloses).length =
      (legRows rolling smaWindow qqqCloses).length := List.length_map _
  have htlt : (gaps rolling smaWindow qqqCloses).length =
      (legRows rolling smaWindow tltCloses).length := by
    rw [hqqq, length_legRows, length_legRows, index_of_ok h]
  refine ⟨?_, ?_, ?_⟩
  · intro tltCloses' frame' h'
    rw [(columns_of_ok h').tqqq, hcolumns.tqqq]
  · intro qqqCloses' frame' h' hgaps
    rw [(columns_of_ok h').tmf, hcolumns.tmf, hgaps]
  · rw [hcolumns.tqqq, hcolumns.tmf]
    exact ⟨⟨risesAtThreshold_legColumn hqqq, fallsAtThreshold_legColumn hqqq⟩,
      ⟨risesAtThreshold_legColumn htlt, fallsAtThreshold_legColumn htlt⟩,
      eligibleInWarmup_legColumn hqqq, eligibleInWarmup_legColumn htlt⟩

end Legs

/-! ## Closes with gaps -/

/-- Exact closes, labelled by their places. -/
def sampleCloses (closes : List ExactFloat) : Series Nat ExactFloat :=
  ⟨List.range closes.length, closes, by simp⟩

/-- Closes that fall below their SMA of two rows, with a missing one on the way. -/
def gappedCloses : Series Nat ExactFloat :=
  sampleCloses [.number 10, .number 8, .na, .number 8, .number 8]

/-- The same closes without the gap. -/
def fullCloses : Series Nat ExactFloat :=
  sampleCloses [.number 10, .number 8, .number 8, .number 8, .number 8]

/-- The same closes from the second row on. -/
def lateCloses : Series Nat ExactFloat :=
  sampleCloses [.na, .number 8, .number 8, .number 8, .number 8]

/-- The frame of the closes with the default buffers. -/
theorem exists_sampleFrame (qqqCloses tltCloses : Series Nat ExactFloat)
    (hindex : qqqCloses.index = tltCloses.index) (hlabels : qqqCloses.index.Nodup) :
    ∃ frame, tripleLevSmaEligibility ExactFloat.rollingMean qqqCloses tltCloses 2 0
        (.number (1 / 20)) = .ok frame ∧
      Columns ExactFloat.rollingMean 2 0 (.number (1 / 20)) qqqCloses tltCloses frame := by
  obtain ⟨frame, hframe⟩ := exists_frame (le_refl 2) hindex hlabels
  exact ⟨frame, hframe, columns_of_ok hframe⟩

theorem tripleLev_legs_gapped :
    ∃ frame, tripleLevSmaEligibility ExactFloat.rollingMean gappedCloses fullCloses 2 0
        (.number (1 / 20)) = .ok frame ∧
      RisesAtThreshold (Interrupted (gaps ExactFloat.rollingMean 2 gappedCloses))
        (.number (1 / 20)) (frame.column "TMF")
        (legRows ExactFloat.rollingMean 2 fullCloses) := by
  obtain ⟨frame, hframe, -⟩ := exists_sampleFrame gappedCloses fullCloses rfl (by decide)
  exact ⟨frame, hframe, (tripleLev_legs hframe).2.2.2.1.1⟩

/-- A leg's column depends on the other leg's gaps, and a gap after the warm-up lifts a column to
1 without a close above the entry threshold and drops it without one below the exit threshold. -/
theorem not_tripleLev_legs :
    (¬ ∀ qqqCloses qqqCloses' tltCloses frame frame',
      tripleLevSmaEligibility ExactFloat.rollingMean qqqCloses tltCloses 2 0
        (.number (1 / 20)) = .ok (frame : DataFrame Nat ExactFloat) →
      tripleLevSmaEligibility ExactFloat.rollingMean qqqCloses' tltCloses 2 0
        (.number (1 / 20)) = .ok frame' → frame'.column "TMF" = frame.column "TMF") ∧
    (¬ ∀ qqqCloses tltCloses frame,
      tripleLevSmaEligibility ExactFloat.rollingMean qqqCloses tltCloses 2 0
        (.number (1 / 20)) = .ok (frame : DataFrame Nat ExactFloat) →
      RisesAtThreshold (fun _ => False) (.number (1 / 20)) (frame.column "TQQQ")
        (legRows ExactFloat.rollingMean 2 qqqCloses)) ∧
    ¬ ∀ qqqCloses tltCloses frame,
      tripleLevSmaEligibility ExactFloat.rollingMean qqqCloses tltCloses 2 0
        (.number (1 / 20)) = .ok (frame : DataFrame Nat ExactFloat) →
      FallsAtThreshold (fun _ => False) 0 (frame.column "TQQQ")
        (legRows ExactFloat.rollingMean 2 qqqCloses) := by
  obtain ⟨frame, hframe, hcolumns⟩ :=
    exists_sampleFrame gappedCloses fullCloses rfl (by decide)
  obtain ⟨frame', hframe', hcolumns'⟩ :=
    exists_sampleFrame lateCloses fullCloses rfl (by decide)
  refine ⟨?_, ?_, ?_⟩
  · intro h
    have heq := h gappedCloses lateCloses fullCloses frame frame' hframe hframe'
    rw [hcolumns.tmf, hcolumns'.tmf] at heq
    exact absurd heq (by decide +kernel)
  · intro h
    have hrises := h gappedCloses fullCloses frame hframe
    rw [hcolumns.tqqq] at hrises
    exact absurd (hrises 1 ⟨.na, .na⟩ (by decide +kernel) id id (by decide +kernel)
      (by decide +kernel)) (by decide +kernel)
  · intro h
    have hfalls := h gappedCloses fullCloses frame hframe
    rw [hcolumns.tqqq] at hfalls
    exact absurd (hfalls 3 ⟨.number 8, .number 8⟩ (by decide +kernel) id id (by decide +kernel)
      (by decide +kernel)) (by decide +kernel)

end Blive.Signals
