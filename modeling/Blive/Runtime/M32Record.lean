import Blive.Misc.Rounding
import Blive.Runtime.IbPipeline

/-!
# The record of a run

`runtime/m3_2_record.py`: the row that a run of `run_ib_multi_pipeline` leaves, with the rates it
derives from the counters. A decimal stands for the text that `str` makes of it.
-/

namespace Blive.M32Record

open IbPipeline (RunResult)

def schemaVersion : Nat := 1

/-- `_WARNING_2161` -/
def warning2161 : Int := 2161

/-- The ratios of `_fsm_trace`. -/
structure FsmTrace where
  acceptedRate : Decimal
  filledRate : Decimal
  canceledRate : Decimal
  rejectedRate : Decimal

/-- An entry of `breaches`. -/
structure BreachRow where
  check : RiskCheckCode
  severity : RiskBreachSeverity
  detail : BreachDetail

structure RunRecord where
  schemaVersion : Nat
  runId : String
  recordedAtUtc : String
  strategyId : String
  instruments : List String
  orderType : String
  maxBars : Int
  navSlice : Decimal
  startingCash : Decimal
  finalEquity : Decimal
  rebalanceRows : Int
  regimeFlipCount : Int
  submittedCount : Nat
  acceptedCount : Nat
  filledCount : Nat
  canceledCount : Nat
  rejectedCount : Nat
  breachCount : Nat
  capBinding2161Count : Nat
  submittedBySymbol : Dict String Nat
  fillsBySymbol : Dict String Nat
  fillRateBySymbol : Dict String Decimal
  observedErrorCodes : Dict Int Nat
  fsmTrace : FsmTrace
  breaches : List BreachRow
  note : String

/-- `round(a / b, 4)` -/
def ratio (a b : Nat) : Except PyError Decimal := do
  let quotient ← trueDiv a b
  return roundFloat quotient 4

/-- `_fill_rate_by_symbol` -/
def fillRateBySymbol (submittedBySymbol fillsBySymbol : Dict String Nat) :
    Except PyError (Dict String Decimal) :=
  submittedBySymbol.items.foldlM (fun rates placed =>
    if placed.2 ≤ 0 then .ok rates
    else do
      let rate ← ratio (fillsBySymbol.tally placed.1) placed.2
      return rates.set placed.1 rate) Dict.empty

/-- `_fsm_trace` -/
def fsmTraceOf (submitted accepted filled canceled rejected : Nat) : Except PyError FsmTrace :=
  if submitted ≤ 0 then .ok ⟨0, 0, 0, 0⟩
  else do
    let acceptedRate ← ratio accepted submitted
    let filledRate ← ratio filled submitted
    let canceledRate ← ratio canceled submitted
    let rejectedRate ← ratio rejected submitted
    return ⟨acceptedRate, filledRate, canceledRate, rejectedRate⟩

/-- The arguments of `build_run_record` besides the result. -/
structure RunMetadata where
  regimeFlipCount : Int
  rebalanceRows : Int
  strategyId : String
  instruments : List String
  orderType : String
  maxBars : Int
  navSlice : Decimal
  startingCash : Decimal
  runId : String
  recordedAtUtc : String
  note : String := ""

/-- `build_run_record` -/
def buildRunRecord (result : RunResult) (metadata : RunMetadata) : Except PyError RunRecord := do
  let rates ← fillRateBySymbol result.submittedBySymbol result.fillsBySymbol
  let trace ← fsmTraceOf result.submittedCount result.acceptedCount result.fillsCount
    result.canceledCount result.rejectedCount
  return {
    schemaVersion
    runId := metadata.runId
    recordedAtUtc := metadata.recordedAtUtc
    strategyId := metadata.strategyId
    instruments := metadata.instruments
    orderType := metadata.orderType
    maxBars := metadata.maxBars
    navSlice := metadata.navSlice
    startingCash := metadata.startingCash
    finalEquity := result.finalEquity
    rebalanceRows := metadata.rebalanceRows
    regimeFlipCount := metadata.regimeFlipCount
    submittedCount := result.submittedCount
    acceptedCount := result.acceptedCount
    filledCount := result.fillsCount
    canceledCount := result.canceledCount
    rejectedCount := result.rejectedCount
    breachCount := result.breaches.length
    capBinding2161Count := result.observedErrorCodes.tally warning2161
    submittedBySymbol := result.submittedBySymbol
    fillsBySymbol := result.fillsBySymbol
    fillRateBySymbol := rates
    observedErrorCodes := result.observedErrorCodes
    fsmTrace := trace
    breaches := result.breaches.map fun b => ⟨b.check, b.severity, b.detail⟩
    note := metadata.note }

end Blive.M32Record
