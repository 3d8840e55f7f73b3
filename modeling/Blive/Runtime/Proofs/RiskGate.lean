import Mathlib.Algebra.Order.AbsoluteValue.Basic
import Mathlib.Tactic.Linarith
import Blive.Risk.Proofs.Verdict
import Blive.Runtime.Proofs.Step

/-!
# The risk engine and the submitted orders

The risk engine is asked about the sizer's market order; the limit price is built afterwards, and
nobody asks RC-10 about it. The reference of RC-10 and the reference the limit is built from are
one number, so a limit order deviates from it by the offset itself: every submitted order passes
the engine's checks exactly when the offset of the limit orders stays within the band.
-/

namespace Blive.IbPipeline

open Transition

/-- The engine lets the submitted order itself through, with the inputs of its rebalance. -/
def PassesRiskChecks (loop : RebalanceLoop) (submission : Submission) : Prop :=
  ((loop.riskEngine submission.killSwitch).approve submission.order submission.inputs
    submission.now).1 = some submission.order

/-- A limit order stays within the band around a positive reference price. -/
def LimitWithinBand (loop : RebalanceLoop) (submission : Submission) : Prop :=
  submission.order.val.orderType = .lmt → ∀ reference ∈ submission.inputs.referencePrice,
    0 < reference → ∀ price ∈ submission.order.val.limitPrice,
      |price - reference| / reference ≤ (riskConfigFromLive loop.liveConfig).maxPriceDeviationPct

instance (loop : RebalanceLoop) (submission : Submission) :
    Decidable (PassesRiskChecks loop submission) := inferInstanceAs (Decidable (_ = _))

/-- The breaches of a loop can be built, so that its engine does not raise. -/
theorem riskEngine_builds (loop : RebalanceLoop) (killSwitch : KillSwitch) (order : Order)
    (inputs : RiskInputs) (rebalance : Rebalance) :
    (loop.riskEngine killSwitch).approveOrRaise order inputs rebalance.time =
      .ok ((loop.riskEngine killSwitch).approve order inputs rebalance.time) :=
  RiskEngine.approveOrRaise_of_named loop.liveConfig.strategyId_ne_empty
    rebalance.bar.closeTimeUtc_utc order inputs

/-- The band is part of what the engine checks. -/
theorem PassesRiskChecks.limitWithinBand {loop : RebalanceLoop} {submission : Submission}
    (h : PassesRiskChecks loop submission) : LimitWithinBand loop submission := by
  obtain ⟨-, -, hprice⟩ := RiskEngine.approve_eq_some_iff.mp h
  intro hlmt reference hreference hpos price hlimit
  rw [Option.mem_def.mp hreference] at hprice
  rcases (RiskEngine.checkPriceSanity_eq_none_iff hpos).mp hprice with (hmkt | hadaptive) | hband
  · rw [hlmt] at hmkt
    cases hmkt
  · rw [hlmt] at hadaptive
    cases hadaptive
  · exact hband price hlimit

/-! ## The promoted order -/

/-- The limit price deviates from its reference by the offset, on either side. -/
theorem limitPriceOf_deviation (side : OrderSide) {ibReference : Decimal} (h : 0 < ibReference)
    (limitPriceOffsetBps : Decimal) :
    |limitPriceOf side ibReference limitPriceOffsetBps - ibReference| / ibReference =
      |limitPriceOffsetBps / 10000| := by
  have hscale (x : Decimal) : |ibReference * x| / ibReference = |x| := by
    rw [abs_mul, abs_of_pos h, mul_div_cancel_left₀ _ h.ne']
  unfold limitPriceOf
  dsimp only
  split
  · rw [mul_add, mul_one, add_sub_cancel_left, hscale]
  · rw [mul_sub, mul_one, sub_sub_cancel_left, ← mul_neg, hscale, abs_neg]

/-! ## The multi-instrument pipeline -/

/-- Converting the closes keeps the keys. -/
theorem markPricesOf_get? {bars : List (String × Bar)} {prices result : Dict String Decimal}
    (h : IbMultiPipelineArgs.rebalance.markPricesOf bars prices = .ok result)
    (hnodup : (bars.map Prod.fst).Nodup) {symbol : String} :
    (symbol ∉ bars.map Prod.fst → result.get? symbol = prices.get? symbol) ∧
      ∀ bar, (symbol, bar) ∈ bars →
        ∃ price, eodhdToIbPrice symbol bar.val.close = .ok price ∧
          result.get? symbol = some price := by
  induction bars generalizing prices with
  | nil =>
    cases h
    simp
  | cons first rest ih =>
    obtain ⟨key, firstBar⟩ := first
    obtain ⟨hfresh, hrest⟩ := List.nodup_cons.mp hnodup
    obtain ⟨price, hprice, h⟩ := bind_eq_ok_iff.mp h
    obtain ⟨hother, hmem⟩ := ih h hrest
    constructor
    · intro hnot
      obtain ⟨hne, hnot⟩ := not_or.mp (fun hor => hnot (List.mem_cons.mpr hor))
      rw [hother hnot, Dict.get?_set, if_neg hne]
    · intro bar hbar
      rcases List.mem_cons.mp hbar with heq | hin
      · cases heq
        exact ⟨price, hprice, by rw [hother hfresh, Dict.get?_set, if_pos rfl]⟩
      · exact hmem bar hin

/-- At a rebalance the mark price of a symbol is its converted close. -/
theorem markPrices_of_rebalance {args : IbMultiPipelineArgs} {canonical : Instrument}
    {others : List Instrument} {bar : Bar} {rebalance : Rebalance}
    (h : args.rebalance canonical others bar = .ok (some rebalance)) {symbol : String}
    {last : Bar} (hlast : rebalance.barsBySymbol.get? symbol = some last) :
    ∃ price, eodhdToIbPrice symbol last.val.close = .ok price ∧
      rebalance.markPrices.get? symbol = some price := by
  unfold IbMultiPipelineArgs.rebalance at h
  split at h
  · cases h
  · rename_i row hrow
    obtain ⟨bars, -, h⟩ := bind_eq_ok_iff.mp h
    split at h
    · cases h
    · obtain ⟨markPrices, hprices, h⟩ := bind_eq_ok_iff.mp h
      cases h
      exact (markPricesOf_get? hprices bars.nodup).2 last (Dict.get?_eq_some_iff.mp hlast)

/-- The last bar and the reference price the risk engine was given. -/
theorem riskInputs_cases {loop : RebalanceLoop} {rebalance : Rebalance} {desired : Order}
    {artefact : String → Artefact} {inputs : RiskInputs}
    (h : loop.riskInputs rebalance desired artefact = .ok inputs) :
    (∃ bar, loop.lastBar rebalance desired.val.instrument = .ok bar) ∧
      inputs.referencePrice = loop.referencePrice rebalance desired.val.instrument := by
  obtain ⟨bar, hbar, h⟩ := bind_eq_ok_iff.mp h
  cases h
  exact ⟨⟨bar, hbar⟩, rfl⟩

/-- A submission passes the checks it was not asked about exactly when its offset, if it is a
limit order, is within the band. -/
theorem passesRiskChecks_iff {args : IbMultiPipelineArgs} {broker : IBBroker}
    {loop : RebalanceLoop} (hloop : runIbMultiPipeline args broker = .ok loop)
    {submission : Submission} (h : loop.Recorded submission) :
    PassesRiskChecks loop submission ↔
      (args.orderTypeOf submission.desired.val.instrument.val.symbol = .lmt →
        |args.limitPriceOffsetBps| ≤
          10000 * (riskConfigFromLive loop.liveConfig).maxPriceDeviationPct) := by
  obtain ⟨⟨canonical, others, hrebalance⟩, hlast, htype, hoffset, hreference, -⟩ :=
    runIbMultiPipeline_eq hloop
  obtain ⟨work, ⟨bar, hbar⟩, -, hmade⟩ := h
  have hsame := hmade.instrument_eq
  obtain ⟨⟨artefact, hinputs⟩, happroved, ⟨id, hpromoted⟩, -⟩ := hmade
  rw [hrebalance] at hbar
  obtain ⟨-, hinputRef⟩ := riskInputs_cases hinputs
  rw [hreference] at hinputRef
  obtain ⟨last, hlastBar, hpromoted⟩ := bind_eq_ok_iff.mp hpromoted
  rw [hlast] at hlastBar
  rw [htype, hoffset] at hpromoted
  obtain ⟨ref, href, hmark⟩ := markPrices_of_rebalance hbar (orRaise_eq_ok_iff.mp hlastBar)
  have hpos : 0 < ref := eodhdToIbPrice_pos href
  dsimp only at hinputRef
  rw [hmark] at hinputRef
  obtain ⟨-, hpasses, -⟩ := RiskEngine.approve_eq_some_iff.mp happroved
  have hshape := ibOrderFromDesired_promoted hpromoted
  generalize args.orderTypeOf submission.desired.val.instrument.val.symbol = orderType at hshape ⊢
  have hiff : PassesRiskChecks loop submission ↔
      (loop.riskEngine submission.killSwitch).checkPriceSanity submission.order (some ref)
        submission.now = none := by
    unfold PassesRiskChecks
    rw [RiskEngine.approve_eq_some_iff, hinputRef]
    rw [hsame]
    exact ⟨fun hall => hall.2.2, fun hprice => ⟨rfl, hpasses, hprice⟩⟩
  rw [hiff, RiskEngine.checkPriceSanity_eq_none_iff hpos]
  cases hshape with
  | market _ _ hmarket horder _ =>
    apply iff_of_true (.inl (horder ▸ hmarket))
    intro hlmt
    rcases hmarket with hmkt | hmkt <;> rw [hlmt] at hmkt <;> cases hmkt
  | limit _ ibReference hibReference horder hlimit _ =>
    obtain rfl : ibReference = ref := by
      rw [href] at hibReference
      exact (Except.ok.inj hibReference).symm
    have hband : (loop.riskEngine submission.killSwitch).config =
        riskConfigFromLive loop.liveConfig := rfl
    simp only [horder, hlimit, hband, Option.mem_def, Option.some.injEq, forall_eq', true_imp_iff,
      limitPriceOf_deviation _ hpos, abs_div, reduceCtorEq, or_self, false_or]
    rw [abs_of_pos (by norm_num : (0 : Decimal) < 10000), div_le_iff₀' (by norm_num)]

/-- The rebalance is opened and its one order submitted. -/
def oneOrderRun : List Action := [sampleProceed 1, sampleProceed 2]

end Blive.IbPipeline
