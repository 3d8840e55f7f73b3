import Blive.Misc.Dict
import Blive.Misc.Py

/-!
# The live strategy configuration

The fields of `strategy/config.py` the IB pipelines read.
-/

namespace Blive

structure RiskOverridesFields where
  maxDataStalenessIntradaySec : Int := 300
  maxDataStalenessDailySec : Int := 86400
  outsideRthAllowed : Bool := false
  maxModelArtefactAgeDays : Int := 30
  modelArtefactWarningAgeDays : Int := 21
  deriving DecidableEq

instance : PostInit RiskOverridesFields where
  postInit r := do
    require (0 < r.maxDataStalenessIntradaySec)
      (.valueError "RiskOverrides.max_data_staleness_intraday_sec must be > 0")
    require (0 < r.maxDataStalenessDailySec)
      (.valueError "RiskOverrides.max_data_staleness_daily_sec must be > 0")
    require (1 ≤ r.maxModelArtefactAgeDays)
      (.valueError "RiskOverrides.max_model_artefact_age_days must be ≥ 1")
    require (1 ≤ r.modelArtefactWarningAgeDays)
      (.valueError "RiskOverrides.model_artefact_warning_age_days must be ≥ 1")
    require (r.modelArtefactWarningAgeDays < r.maxModelArtefactAgeDays)
      (.valueError ("RiskOverrides.model_artefact_warning_age_days must be < " ++
        "max_model_artefact_age_days (warn before block)"))

abbrev RiskOverrides := Frozen RiskOverridesFields

/-- `RiskOverrides()` -/
def RiskOverrides.default : RiskOverrides := ⟨{}, by decide⟩

/-- `NAV_SLICE_HARD_CAP` -/
def navSliceHardCap : Decimal := 1 / 10

/-- `artefact_paths` holds the paths as text. -/
structure LiveStrategyConfigFields where
  strategyId : String
  navSlice : Decimal
  artefactPaths : Dict String String := Dict.empty
  riskOverrides : RiskOverrides := RiskOverrides.default

instance : PostInit LiveStrategyConfigFields where
  postInit c := do
    require (c.strategyId ≠ "" ∧ c.strategyId.toList.all (fun ch => ch.isAlphanum || ch == '_') ∧
        PyStr.isLower c.strategyId)
      (.valueError "LiveStrategyConfig.strategy_id must be non-empty lowercase [a-z0-9_]+, got ")
    require (0 < c.navSlice) (.valueError "LiveStrategyConfig.nav_slice must be > 0")
    require (c.navSlice ≤ navSliceHardCap)
      (.valueError "LiveStrategyConfig.nav_slice exceeds Phase 1 hard cap of ")

abbrev LiveStrategyConfig := Frozen LiveStrategyConfigFields

theorem LiveStrategyConfig.strategyId_ne_empty (config : LiveStrategyConfig) :
    config.val.strategyId ≠ "" :=
  (require_bind_eq_ok_iff.mp config.valid).1.1

end Blive
