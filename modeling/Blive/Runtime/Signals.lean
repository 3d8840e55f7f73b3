import Blive.Domain.Types
import Blive.Misc.Machine
import Blive.Misc.Series

/-!
# The signal helpers

`runtime/signals.py`: the position of the SMA crossover, the eligibility of the legs of the
triple-leveraged strategy and the target weights it stands for. Floats and the rolling mean are
arguments.
-/

namespace Blive.Signals

open FloatType

variable {F : Type} [FloatType F] {ι : Type}

/-! ## SMA crossover -/

/-- `sma_crossover_position`. No bars give the empty series. -/
def smaCrossoverPosition (rolling : RollingMean F) (bars : List Bar) (smaWindow : Nat) :
    Except PyError (Series Datetime Int) := do
  require (2 ≤ smaWindow) (.valueError "sma_window must be >= 2; got ")
  let closes := bars.map fun bar => (ofDecimal bar.val.close : F)
  let sma := rolling.mean smaWindow closes
  let position := List.zipWith (fun close mean => if mean < close then (1 : Int) else 0) closes sma
  return {
    index := bars.map fun bar => bar.val.closeTimeUtc
    values := List.replicate (min (smaWindow - 1) position.length) 0 ++
      position.drop (smaWindow - 1)
    length_values := by
      have hlength : position.length = bars.length := by
        simp [position, sma, closes, rolling.length_mean]
      rw [List.length_append, List.length_replicate, List.length_drop, List.length_map]
      omega }

/-! ## Eligibility of the legs -/

/-- A data frame: a value for each column in each row. -/
structure DataFrame (ι α : Type) where
  columns : List String
  index : List ι
  rows : List (String → α)

/-- `df[name]` -/
def DataFrame.column {α : Type} (frame : DataFrame ι α) (name : String) : List α :=
  frame.rows.map fun row => row name

/-- A close of a leg's proxy and its SMA. -/
structure LegRow (F : Type) where
  close : F
  sma : F
  deriving DecidableEq

/-- The closes of the two proxies at one label. -/
structure Row (F : Type) where
  qqq : LegRow F
  tlt : LegRow F

/-- The hysteresis state machine of a leg. -/
def hysteresis (exitBuffer enterBuffer : F) (eligible : Bool) (row : LegRow F) : Bool :=
  if eligible ∧ row.close < row.sma * (1 + exitBuffer) then false
  else if ¬ eligible ∧ row.sma * (1 + enterBuffer) < row.close then true
  else eligible

/-- `pd.isna(qs) or pd.isna(q)` -/
def LegRow.undefined (row : LegRow F) : Bool := isNa row.sma || isNa row.close

/-- The loop body: the two states afterwards, and what is appended for the legs. -/
def eligibilityStep (exitBuffer enterBuffer : F) (state : Bool × Bool) (row : Row F) :
    (Bool × Bool) × (Bool × Bool) :=
  if row.qqq.undefined then (state, (true, true))
  else
    let state := (hysteresis exitBuffer enterBuffer state.1 row.qqq,
      hysteresis exitBuffer enterBuffer state.2 row.tlt)
    (state, state)

/-- The row of the frame for the eligibility of the legs. -/
def eligibilityRow (eligible : Bool × Bool) (name : String) : F :=
  if name = "TQQQ" then ofBool eligible.1
  else if name = "TMF" then ofBool eligible.2
  else ofBool (!(eligible.1 && eligible.2))

/-- What the loop reads at a label. -/
def readRow [DecidableEq ι] (qqqCloses tltCloses qqqSma tltSma : Series ι F) (dt : ι) :
    Except PyError (Row F) := do
  let q ← qqqCloses.loc dt
  let t ← tltCloses.loc dt
  let qs ← qqqSma.loc dt
  let ts ← tltSma.loc dt
  return ⟨⟨q, qs⟩, ⟨t, ts⟩⟩

/-- `triple_lev_sma_eligibility`. Empty series give the frame without rows. -/
def tripleLevSmaEligibility [DecidableEq ι] (rolling : RollingMean F)
    (qqqCloses tltCloses : Series ι F) (smaWindow : Nat) (exitBuffer enterBuffer : F) :
    Except PyError (DataFrame ι F) := do
  require (2 ≤ smaWindow) (.valueError "sma_window must be >= 2; got ")
  require (qqqCloses.index = tltCloses.index)
    (.valueError "qqq_closes and tlt_closes must share the same index; align/ffill before calling")
  let qqqSma := qqqCloses.rollingMean rolling smaWindow
  let tltSma := tltCloses.rollingMean rolling smaWindow
  let rows ← qqqCloses.index.mapM (readRow qqqCloses tltCloses qqqSma tltSma)
  let eligible := Machine.outputs (eligibilityStep exitBuffer enterBuffer) (true, true) rows
  return ⟨["TQQQ", "TMF", "IEF"], qqqCloses.index, eligible.map eligibilityRow⟩

/-! ## Target weights -/

/-- The weights of a row: the eligible columns share it equally. -/
def targetWeightsRow (columns : List String) (row : String → F) (name : String) : F :=
  let counts := (columns.filter fun column => half ≤ row column).length
  let safeCounts := if counts = 0 then 1 else counts
  ofBool (half ≤ row name) / ((safeCounts : Nat) : F)

/-- `eligibility_to_target_weights` -/
def eligibilityToTargetWeights (eligibility : DataFrame ι F) : DataFrame ι F :=
  if eligibility.columns = [] ∨ eligibility.rows = [] then eligibility
  else { eligibility with rows := eligibility.rows.map (targetWeightsRow eligibility.columns) }

end Blive.Signals
