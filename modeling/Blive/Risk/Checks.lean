import Mathlib.Algebra.Order.Ring.Abs
import Mathlib.Algebra.Order.Ring.Rat
import Blive.Domain.Events

/-!
# The risk engine

`risk/checks.py`: the kill switch and the checks `RiskEngine.approve` runs on an order, in the
order RC-13, RC-08, RC-09, RC-12, RC-10. The first one that blocks ends the evaluation.
-/

namespace Blive

/-! ## The kill-switch latch -/

structure KillSwitch where
  armed : Bool := false
  reason : String := ""
  deriving DecidableEq

namespace KillSwitch

/-- `arm` -/
def arm (_switch : KillSwitch) (reason : String) : Except PyError KillSwitch := do
  require (reason ≠ "") (.valueError "KillSwitch.arm requires a non-empty reason")
  return ⟨true, reason⟩

/-- `clear` -/
def clear (_switch : KillSwitch) : KillSwitch := ⟨false, ""⟩

/-- A call on the switch from outside. -/
inductive Call where
  | arm (reason : String)
  | clear
  deriving DecidableEq

/-- The switch after the call; an `arm` that raises leaves it as it was. -/
def after (switch : KillSwitch) : Call → KillSwitch
  | .arm reason => (switch.arm reason).toOption.getD switch
  | .clear => switch.clear

/-- Whether a switch that was not armed is armed after the calls. -/
def armedBy (calls : List Call) : Bool := (calls.foldl after {}).armed

/-- Whether the switch is armed after a call depends on its being armed before, no more. -/
theorem after_armed_congr {switch other : KillSwitch} (h : switch.armed = other.armed)
    (call : Call) : (switch.after call).armed = (other.after call).armed := by
  cases call with
  | clear => rfl
  | arm reason => by_cases hr : reason = "" <;> simp [after, arm, require, hr, h, bind, Except.bind,
      pure, Except.pure, Except.toOption]

/-- The calls that were made since a switch was not armed tell whether it is. -/
theorem armed_after_eq_armedBy {switch : KillSwitch} {calls : List Call}
    (h : switch.armed = armedBy calls) (call : Call) :
    (switch.after call).armed = armedBy (calls ++ [call]) := by
  rw [armedBy, List.foldl_append]
  exact after_armed_congr h call

end KillSwitch

/-! ## The engine -/

structure RiskEngineConfig where
  maxDataStalenessIntradaySec : Int := 300
  maxDataStalenessDailySec : Int := 86400
  outsideRthAllowed : Bool := false
  maxModelArtefactAgeDays : Int := 30
  modelArtefactWarningAgeDays : Int := 21
  isIntraday : Bool := false
  maxPriceDeviationPct : Decimal := 1 / 2

/-- What the file system says about an artefact path: its modification time when it is a
file. -/
abbrev Artefact := Option Datetime

structure RiskInputs where
  lastBar : Option Bar
  isMarketOpen : Bool
  artefactPaths : List (String × Artefact) := []
  referencePrice : Option Decimal := none

structure RiskEngine where
  config : RiskEngineConfig
  killSwitch : KillSwitch
  strategyId : String

namespace RiskEngine

def breach (engine : RiskEngine) (check : RiskCheckCode) (severity : RiskBreachSeverity)
    (detail : BreachDetail) (now : Datetime) : RiskBreach :=
  ⟨engine.strategyId, check, severity, detail, now⟩

/-- `_check_stale_data` -/
def checkStaleData (engine : RiskEngine) (lastBar : Option Bar) (instrument : Instrument)
    (now : Datetime) : Option RiskBreach :=
  match lastBar with
  | none => some (engine.breach .rc08 .block (.noBar instrument.val.symbol) now)
  | some bar =>
      let thresholdSec :=
        if engine.config.isIntraday then engine.config.maxDataStalenessIntradaySec
        else engine.config.maxDataStalenessDailySec
      let delta := now.micros - bar.val.closeTimeUtc.micros
      if delta > thresholdSec * 1000000 then
        some (engine.breach .rc08 .block
          (.staleBar instrument.val.symbol (delta.tdiv 1000000) thresholdSec) now)
      else none

/-- `_check_price_sanity` -/
def checkPriceSanity (engine : RiskEngine) (order : Order) (referencePrice : Option Decimal)
    (now : Datetime) : Option RiskBreach :=
  match referencePrice with
  | none => none
  | some reference =>
      if reference ≤ 0 then none
      else if order.val.orderType = .mkt ∨ order.val.orderType = .adaptiveMkt then none
      else
        match order.val.limitPrice with
        | none => none
        | some orderPrice =>
            let deviation := |orderPrice - reference| / reference
            if deviation > engine.config.maxPriceDeviationPct then
              some (engine.breach .rc10 .block (.priceSanity orderPrice
                order.val.instrument.val.symbol deviation reference
                engine.config.maxPriceDeviationPct) now)
            else none

/-- The first artefact that is no file. -/
def missingArtefact (artefacts : List (String × Artefact)) : Option String :=
  (artefacts.find? fun artefact => artefact.2.isNone).map Prod.fst

/-- The name and the age in days of the oldest artefact; an artefact from the future counts
for nothing. -/
def oldestArtefact (artefacts : List (String × Artefact)) (now : Datetime) : String × Decimal :=
  artefacts.foldl (fun oldest artefact =>
    match artefact.2 with
    | none => oldest
    | some mtime =>
        let ageDays := now.secondsSince mtime / 86400
        if ageDays > oldest.2 then (artefact.1, ageDays) else oldest) ("", 0)

/-- `_check_artefact_freshness`: the block and the warning. -/
def checkArtefactFreshness (engine : RiskEngine) (artefacts : List (String × Artefact))
    (now : Datetime) : Option RiskBreach × Option RiskBreach :=
  if artefacts = [] then (none, none)
  else
    match missingArtefact artefacts with
    | some name => (some (engine.breach .rc12 .block (.artefactMissing name) now), none)
    | none =>
        let (name, ageDays) := oldestArtefact artefacts now
        let config := engine.config
        if ageDays ≥ config.maxModelArtefactAgeDays then
          (some (engine.breach .rc12 .block
            (.artefactExpired name ageDays config.maxModelArtefactAgeDays) now), none)
        else if ageDays ≥ config.modelArtefactWarningAgeDays then
          (none, some (engine.breach .rc12 .warn
            (.artefactAging name ageDays config.modelArtefactWarningAgeDays) now))
        else (none, none)

/-- `approve`, as far as the breaches it answers can be built. -/
def approve (engine : RiskEngine) (order : Order) (inputs : RiskInputs) (now : Datetime) :
    Option Order × List RiskBreach :=
  if engine.killSwitch.armed then
    (none, [engine.breach .rc13 .block (.killSwitchArmed engine.killSwitch.reason) now])
  else
    match engine.checkStaleData inputs.lastBar order.val.instrument now with
    | some stale => (none, [stale])
    | none =>
      if ¬ inputs.isMarketOpen ∧ ¬ engine.config.outsideRthAllowed then
        (none, [engine.breach .rc09 .block (.marketClosed order.val.instrument.val.symbol
          order.val.instrument.val.venue) now])
      else
        match engine.checkArtefactFreshness inputs.artefactPaths now with
        | (some block, warn) => (none, warn.toList ++ [block])
        | (none, warn) =>
          match engine.checkPriceSanity order inputs.referencePrice now with
          | some price => (none, warn.toList ++ [price])
          | none => (some order, warn.toList)

/-- `approve`, with the constructor of the breaches, which can refuse them. -/
def approveOrRaise (engine : RiskEngine) (order : Order) (inputs : RiskInputs) (now : Datetime) :
    Except PyError (Option Order × List RiskBreach) := do
  let answer := engine.approve order inputs now
  answer.2.forM postInit
  return answer

/-- The checks that do not look at the price of the order all pass. -/
structure PassesOtherChecks (engine : RiskEngine) (instrument : Instrument) (inputs : RiskInputs)
    (now : Datetime) : Prop where
  killSwitch : engine.killSwitch.armed = false
  staleData : engine.checkStaleData inputs.lastBar instrument now = none
  marketHours : inputs.isMarketOpen = true ∨ engine.config.outsideRthAllowed = true
  artefacts : (engine.checkArtefactFreshness inputs.artefactPaths now).1 = none

/-- What `approve` returns when it lets an order through, and when it does. -/
theorem approve_eq_some_iff {engine : RiskEngine} {order result : Order} {inputs : RiskInputs}
    {now : Datetime} : (engine.approve order inputs now).1 = some result ↔
      result = order ∧ engine.PassesOtherChecks order.val.instrument inputs now ∧
        engine.checkPriceSanity order inputs.referencePrice now = none := by
  constructor
  · intro h
    unfold approve at h
    split at h
    · cases h
    · rename_i hswitch
      split at h
      · cases h
      · rename_i hstale
        split at h
        · cases h
        · rename_i hopen
          split at h
          · cases h
          · rename_i hfresh
            split at h
            · cases h
            · rename_i hprice
              refine ⟨(Option.some.inj h).symm, ⟨by simpa using hswitch, hstale, ?_, ?_⟩, hprice⟩
              · by_cases hmarket : inputs.isMarketOpen = true
                · exact .inl hmarket
                · exact .inr (by simpa [hmarket] using hopen)
              · rw [hfresh]
  · rintro ⟨rfl, ⟨hswitch, hstale, hopen, hfresh⟩, hprice⟩
    have hclosed : ¬ (¬ inputs.isMarketOpen = true ∧ ¬ engine.config.outsideRthAllowed = true) := by
      tauto
    unfold approve
    rw [hswitch, hstale, if_neg (by decide)]
    dsimp only
    rw [if_neg hclosed]
    generalize engine.checkArtefactFreshness inputs.artefactPaths now = fresh at hfresh
    obtain ⟨block, warn⟩ := fresh
    cases hfresh
    dsimp only
    rw [hprice]

/-- RC-10 lets an order through when its limit price stays within the band. -/
theorem checkPriceSanity_eq_none_iff {engine : RiskEngine} {order : Order} {reference : Decimal}
    {now : Datetime} (hpos : 0 < reference) :
    engine.checkPriceSanity order (some reference) now = none ↔
      (order.val.orderType = .mkt ∨ order.val.orderType = .adaptiveMkt) ∨
        ∀ price ∈ order.val.limitPrice,
          |price - reference| / reference ≤ engine.config.maxPriceDeviationPct := by
  simp only [checkPriceSanity, if_neg (not_le.mpr hpos)]
  by_cases hmkt : order.val.orderType = .mkt ∨ order.val.orderType = .adaptiveMkt
  · simp [hmkt]
  · rw [if_neg hmkt]
    cases order.val.limitPrice with
    | none => simp
    | some price => simp [hmkt]

end RiskEngine

end Blive
