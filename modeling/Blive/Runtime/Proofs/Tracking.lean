import Blive.Risk.Proofs.Verdict
import Blive.Runtime.Proofs.ProfitAndLoss
import Blive.Sizing.Proofs.Convergence

/-!
# The holding follows the target

A rebalance that is not refused leaves a single leg within one share of its target, on the side it
comes from; one that is refused leaves it where it was. The paper pipeline fills every order whole,
so that its equity curve follows the targets all along.
-/

namespace Blive

/-- The limits of a live configuration are in order. -/
theorem ageLimits_riskConfigFromLive (live : LiveStrategyConfig) :
    RiskEngine.AgeLimits (IbPipeline.riskConfigFromLive live) := by
  have hvalid := live.val.riskOverrides.valid
  simp only [postInit, require_bind_eq_ok_iff, require_eq_ok_iff] at hvalid
  obtain ⟨-, -, -, hwarning, hordered⟩ := hvalid
  exact ⟨Int.lt_of_lt_of_le zero_lt_one hwarning, hordered.le⟩

theorem navSlice_pos (live : LiveStrategyConfig) : 0 < live.val.navSlice := by
  have hvalid := live.valid
  simp only [postInit, require_bind_eq_ok_iff, require_eq_ok_iff] at hvalid
  exact hvalid.2.1

/-- The risk engine blocked an order at the time. -/
def Refused (breaches : List RiskBreach) (time : Datetime) : Prop :=
  ∃ breach ∈ breaches, breach.severity = .block ∧ breach.timeUtc = time

theorem Refused.mono {breaches more : List RiskBreach} {time : Datetime}
    (h : Refused breaches time) (hsub : breaches ⊆ more) : Refused more time := by
  obtain ⟨breach, hmem, hbreach⟩ := h
  exact ⟨breach, hsub hmem, hbreach⟩

/-- An order that is not approved is refused by a breach. -/
theorem refused_of_approve {engine : RiskEngine} (hlimits : RiskEngine.AgeLimits engine.config)
    {order : Order} {inputs : RiskInputs} {now : Datetime}
    (h : (engine.approve order inputs now).1 = none) :
    Refused (engine.approve order inputs now).2 now := by
  have hstamped := engine.approve_breachOf order inputs now
  have hverdict := RiskEngine.approve_spec hlimits order inputs now
  generalize engine.approve order inputs now = answer at h hstamped hverdict
  cases hverdict with
  | approved => cases h
  | @refused warnings check block _ _ hblock =>
    have hmem : block ∈ warnings ++ [block] := by simp
    exact ⟨block, hmem, hblock.severity, (hstamped block hmem).2⟩

namespace SingleLeg

open Transition

variable {leg : SingleLeg}

/-! ## What a rebalance aims at -/

/-- The quantity that is aimed at from the account of the point. -/
def aim (leg : SingleLeg) (before : Point) (bar : Bar) (weight : Decimal) : Decimal :=
  (before.cash + before.quantity * leg.price bar) * leg.liveConfig.val.navSlice * weight /
    leg.price bar

/-- The whole shares to it. -/
def way (leg : SingleLeg) (before : Point) (bar : Bar) (weight : Decimal) : Int :=
  towardZero (leg.aim before bar weight - before.quantity)

/-- What the sizer has checked when a rebalance opens. -/
structure Opened (leg : SingleLeg) (before : Point) (bar : Bar) (weight : Decimal) : Prop where
  scheduled : leg.targetWeight bar = some weight
  weight : -1 ≤ weight ∧ weight ≤ 1
  price : 0 < leg.price bar
  equity : 0 < before.cash + before.quantity * leg.price bar

/-- The leg has moved by the whole shares, or was refused and has not moved. -/
def Moved (leg : SingleLeg) (breaches : List RiskBreach) (before : Point) (bar : Bar)
    (weight quantity : Decimal) : Prop :=
  quantity = before.quantity + leg.way before bar weight ∨
    quantity = before.quantity ∧ Refused breaches bar.val.closeTimeUtc

/-- From one point to the next there is one rebalance. -/
def Rebalanced (leg : SingleLeg) (breaches : List RiskBreach) (before after : Point) : Prop :=
  ∃ bar weight, leg.Opened before bar weight ∧ after.timeUtc = bar.val.closeTimeUtc ∧
    after.mark = leg.price bar ∧ leg.Moved breaches before bar weight after.quantity

theorem Moved.mono {breaches more : List RiskBreach} {before : Point} {bar : Bar}
    {weight quantity : Decimal} (h : leg.Moved breaches before bar weight quantity)
    (hsub : breaches ⊆ more) : leg.Moved more before bar weight quantity :=
  h.imp_right fun h => ⟨h.1, h.2.mono hsub⟩

theorem Rebalanced.mono {breaches more : List RiskBreach} {before after : Point}
    (h : leg.Rebalanced breaches before after) (hsub : breaches ⊆ more) :
    leg.Rebalanced more before after := by
  obtain ⟨bar, weight, hopened, htime, hmark, hmoved⟩ := h
  exact ⟨bar, weight, hopened, htime, hmark, hmoved.mono hsub⟩

theorem signedQty_candidateFields (leg : SingleLeg) (bar : Bar) (rounded : Decimal) :
    (if (leg.candidateFields bar rounded).side = .buy
      then (leg.candidateFields bar rounded).quantity
      else -(leg.candidateFields bar rounded).quantity) = rounded := by
  simp only [candidateFields]
  by_cases hpos : rounded > 0
  · simp [hpos, abs_of_pos hpos]
  · simp [hpos, abs_of_nonpos (not_lt.mp hpos)]

/-- The candidate trades the whole shares, and there is none when there are none. -/
theorem candidate_spec {view : View} {before : Point} {bar : Bar} {weight : Decimal}
    {desired : Option Order} (hcash : view.cash = before.cash)
    (hquantity : view.quantity = before.quantity) (hscheduled : leg.targetWeight bar = some weight)
    (h : leg.candidate view bar weight = .ok desired) :
    leg.Opened before bar weight ∧
      (desired.map Order.signedQty).getD 0 = leg.way before bar weight := by
  obtain ⟨-, h⟩ := require_bind_eq_ok_iff.mp h
  obtain ⟨hequity, h⟩ := require_bind_eq_ok_iff.mp h
  obtain ⟨hweight, h⟩ := require_bind_eq_ok_iff.mp h
  obtain ⟨hprice, h⟩ := require_bind_eq_ok_iff.mp h
  rw [equity, hcash, hquantity] at hequity
  refine ⟨⟨hscheduled, hweight, hprice, hequity⟩, ?_⟩
  have haim : (if weight = 0 then 0 else leg.equity view bar * leg.liveConfig.val.navSlice *
      weight / leg.price bar) = leg.aim before bar weight := by
    rw [equity, hcash, hquantity, aim]
    split
    · rename_i hzero
      rw [hzero, mul_zero, zero_div]
    · rfl
  dsimp only at h
  rw [haim, hquantity, quantizeShareQty_exact] at h
  change (if (leg.way before bar weight : Decimal) = 0 then _ else _) = _ at h
  split at h
  · rename_i hzero
    cases h
    exact hzero.symm
  · obtain ⟨order, hmake, rfl⟩ := map_eq_ok_iff.mp h
    have hval := Frozen.make_eq_ok_iff.mp hmake
    rw [Option.map_some, Option.getD_some, Order.signedQty, hval]
    exact signedQty_candidateFields leg bar _

/-! ## Where a rebalance stands -/

/-- What the loop has come to since the point. -/
inductive Stage (leg : SingleLeg) (before : Point) (view : View) : Prop
  | atBar (bars : List Bar) (hphase : view.phase = .atBar bars) (hcash : view.cash = before.cash)
      (hquantity : view.quantity = before.quantity)
  | candidate (bar : Bar) (desired : Order) (bars : List Bar) (weight : Decimal)
      (hphase : view.phase = .atOrder bar (some desired) bars) (hcash : view.cash = before.cash)
      (hquantity : view.quantity = before.quantity) (hopened : leg.Opened before bar weight)
      (hdesired : desired.signedQty = leg.way before bar weight)
  | waiting (bar : Bar) (bars : List Bar) (order : Order) (weight : Decimal)
      (hphase : view.phase = .waiting bar bars) (hquantity : view.quantity = before.quantity)
      (hopened : leg.Opened before bar weight) (hlast : view.submitted.getLast? = some order)
      (horder : order.signedQty = leg.way before bar weight)
  | settled (bar : Bar) (bars : List Bar) (weight : Decimal)
      (hphase : view.phase = .atOrder bar none bars) (hopened : leg.Opened before bar weight)
      (hmoved : leg.Moved view.breaches before bar weight view.quantity)
  | ended (hphase : view.phase = .finished ∨ view.phase = .raised)

/-- The point the loop stands behind. -/
def View.last (opening : Point) (view : View) : Point := (view.curve.getLast?).getD opening

/-- The rebalances so far, and the present one. -/
structure Tracked (leg : SingleLeg) (opening : Point) (view : View) : Prop where
  chain : (opening :: view.curve).IsChain (leg.Rebalanced view.breaches)
  stage : leg.Stage (view.last opening) view

theorem getLast?_opening (opening : Point) (view : View) :
    (opening :: view.curve).getLast? = some (view.last opening) := by
  rw [List.getLast?_cons, View.last]

/-- Nothing has changed on the curve, and no breach has gone. -/
theorem Tracked.of_same {opening : Point} {view view' : View} (h : leg.Tracked opening view)
    (hcurve : view'.curve = view.curve) (hbreaches : view.breaches ⊆ view'.breaches)
    (hstage : leg.Stage (view.last opening) view') : leg.Tracked opening view' := by
  constructor
  · rw [hcurve]
    exact h.chain.imp fun _ _ hrebalanced => hrebalanced.mono hbreaches
  · rwa [View.last, hcurve]

theorem Tracked.turn {opening : Point} {view : View} (h : leg.Tracked opening view) :
    leg.Tracked opening (leg.turn view) := by
  have hstage := h.stage
  unfold SingleLeg.turn
  cases hstage with
  | atBar bars hphase hcash hquantity =>
    rw [hphase]
    cases bars with
    | nil => exact h.of_same rfl (List.Subset.refl _) (.ended (.inl rfl))
    | cons bar bars =>
      dsimp only
      cases hweight : leg.targetWeight bar with
      | none => exact h.of_same rfl (List.Subset.refl _) (.atBar bars rfl hcash hquantity)
      | some weight =>
        dsimp only
        cases hdesired : leg.candidate view bar weight with
        | error e => exact h.of_same rfl (List.Subset.refl _) (.ended (.inr rfl))
        | ok desired =>
          obtain ⟨hopened, hway⟩ := candidate_spec hcash hquantity hweight hdesired
          refine h.of_same rfl (List.Subset.refl _) ?_
          cases desired with
          | none =>
            refine .settled bar bars weight rfl hopened (.inl ?_)
            rw [← hway]
            exact hquantity.trans (add_zero _).symm
          | some desired =>
            exact .candidate bar desired bars weight rfl hcash hquantity hopened hway
  | candidate bar desired bars weight hphase =>
    rw [hphase]
    exact h
  | waiting bar bars order weight hphase =>
    rw [hphase]
    exact h
  | settled bar bars weight hphase hopened hmoved =>
    rw [hphase]
    dsimp only
    have hlast : (leg.mark view bar bars).last opening = ⟨bar.val.closeTimeUtc, view.cash,
        view.quantity, leg.price bar, leg.equity view bar⟩ := by
      simp [View.last, SingleLeg.mark]
    constructor
    · change (opening :: (view.curve ++ [_])).IsChain _
      rw [← List.cons_append]
      refine List.isChain_append.mpr ⟨h.chain, List.isChain_singleton _, ?_⟩
      intro before hbefore after hafter
      rw [getLast?_opening] at hbefore
      cases hbefore
      cases hafter
      exact ⟨bar, weight, hopened, rfl, rfl, hmoved⟩
    · rw [hlast]
      exact .atBar bars rfl rfl rfl
  | ended hphase =>
    rcases hphase with hphase | hphase
    · rw [hphase]
      exact h
    · rw [hphase]
      exact h

/-- A candidate goes to the broker, or it is refused. -/
theorem Tracked.ask {opening : Point} {view : View} (h : leg.Tracked opening view)
    (hlimits : RiskEngine.AgeLimits leg.riskConfig)
    (hpromote : ∀ bar desired, leg.promote bar desired = .ok desired) (killSwitch : KillSwitch)
    (artefact : String → Artefact) :
    leg.Tracked opening (leg.ask view killSwitch artefact) := by
  have hstage := h.stage
  unfold SingleLeg.ask
  cases hstage with
  | candidate bar desired bars weight hphase hcash hquantity hopened hdesired =>
    rw [hphase]
    dsimp only
    have happroved : ∀ result : Order, ((leg.riskEngine killSwitch).approve desired
        (leg.riskInputs bar artefact) bar.val.closeTimeUtc).1 = some result → result = desired :=
      fun _ h => (RiskEngine.approve_eq_some_iff.mp h).1
    have hrefused : ((leg.riskEngine killSwitch).approve desired
        (leg.riskInputs bar artefact) bar.val.closeTimeUtc).1 = none →
          Refused ((leg.riskEngine killSwitch).approve desired
            (leg.riskInputs bar artefact) bar.val.closeTimeUtc).2 bar.val.closeTimeUtc :=
      refused_of_approve hlimits
    generalize (leg.riskEngine killSwitch).approve desired (leg.riskInputs bar artefact)
      bar.val.closeTimeUtc = answer at happroved hrefused
    obtain ⟨approved, breaches⟩ := answer
    cases approved with
    | none =>
      refine h.of_same rfl (List.subset_append_left _ _) ?_
      exact .settled bar bars weight rfl hopened
        (.inr ⟨hquantity, (hrefused rfl).mono (List.subset_append_right _ _)⟩)
    | some approved =>
      obtain rfl : approved = desired := happroved approved rfl
      dsimp only
      rw [hpromote]
      refine h.of_same rfl (List.subset_append_left _ _) ?_
      exact .waiting bar bars approved weight rfl hquantity hopened List.getLast?_concat hdesired
  | atBar bars hphase =>
    rw [hphase]
    exact h
  | waiting bar bars order weight hphase =>
    rw [hphase]
    exact h
  | settled bar bars weight hphase =>
    rw [hphase]
    exact h
  | ended hphase =>
    rcases hphase with hphase | hphase
    · rw [hphase]
      exact h
    · rw [hphase]
      exact h

end SingleLeg

namespace PaperPipeline

open SingleLeg Transition

section Runs

variable {loop : PaperLoop}

/-- An order that was passed on comes back whole. -/
theorem tracked_answer {opening : Point} {view : View} {response : Response}
    (h : loop.leg.Tracked opening view) (hsees : loop.Sees view (.answered response)) :
    loop.leg.Tracked opening (view.answer response) := by
  have hstage := h.stage
  unfold View.answer
  cases hstage with
  | waiting bar bars order weight hphase hquantity hopened hlast horder =>
    have hresponse : response = .filled order.signedQty bar.val.close
        (loop.commissionPerShare * order.val.quantity) := by
      rw [PaperLoop.Sees] at hsees
      rw [hsees]
      simp only [fillsAtClose, hphase, hlast]
    rw [hphase, hresponse]
    refine h.of_same rfl (List.Subset.refl _) (.settled bar bars weight rfl hopened (.inl ?_))
    rw [← horder, ← hquantity]
  | atBar bars hphase =>
    rw [hphase]
    exact h
  | candidate bar desired bars weight hphase =>
    rw [hphase]
    exact h
  | settled bar bars weight hphase =>
    rw [hphase]
    exact h
  | ended hphase =>
    rcases hphase with hphase | hphase
    · rw [hphase]
      exact h
    · rw [hphase]
      exact h

theorem tracked_hear {opening : Point} {view : View} {heard : Heard}
    (h : loop.leg.Tracked opening view) (hsees : loop.Sees view heard) :
    loop.leg.Tracked opening (loop.leg.hear view heard) := by
  cases heard with
  | turned => exact h.turn
  | asked killSwitch artefact =>
    exact h.ask (ageLimits_riskConfigFromLive loop.liveConfig) (fun _ _ => rfl) killSwitch artefact
  | answered response => exact tracked_answer h hsees

/-- The breaches of the loop can be built, so that its engine does not raise. -/
theorem PaperLoop.riskEngine_builds (loop : PaperLoop) (order : Order) (inputs : RiskInputs)
    (bar : Bar) : loop.riskEngine.approveOrRaise order inputs bar.val.closeTimeUtc =
      .ok (loop.riskEngine.approve order inputs bar.val.closeTimeUtc) :=
  RiskEngine.approveOrRaise_of_named loop.liveConfig.strategyId_ne_empty bar.closeTimeUtc_utc order
    inputs

/-- The account before the first rebalance. -/
def PaperLoop.opening (loop : PaperLoop) : EquityPoint where
  timeUtc := loop.firstBar.val.closeTimeUtc
  cash := loop.startingCash
  positionQty := 0
  markPrice := loop.firstBar.val.close
  equity := loop.startingCash

/-- The target weight of a position. -/
def PaperLoop.weightOf (loop : PaperLoop) (position : Decimal) : Decimal :=
  IbPipeline.truncate position * loop.targetLeverage

/-- The quantity that a position stands for at the mark of `after`. -/
def PaperLoop.aimOf (loop : PaperLoop) (before after : EquityPoint) (position : Decimal) :
    Decimal :=
  (before.cash + before.positionQty * after.markPrice) * loop.liveConfig.val.navSlice *
    loop.weightOf position / after.markPrice

/-- From one point to the next the holding has moved by whole shares towards the target, which it
comes within a share of, unless the risk engine has refused the order. -/
structure Tracks (loop : PaperLoop) (breaches : List RiskBreach) (before after : EquityPoint)
    (position : Decimal) : Prop where
  scheduled : loop.positionSeries.get? after.timeUtc = some position
  equity : 0 < before.cash + before.positionQty * after.markPrice
  mark : 0 < after.markPrice
  whole : ∃ n : ℤ, after.positionQty = before.positionQty + n
  follows : Converges before.positionQty (loop.aimOf before after position) after.positionQty ∨
    after.positionQty = before.positionQty ∧ Refused breaches after.timeUtc

theorem tracks_of_rebalanced {breaches : List RiskBreach} {before after : EquityPoint}
    (h : loop.leg.Rebalanced breaches before.point after.point) :
    ∃ position, Tracks loop breaches before after position := by
  obtain ⟨bar, weight, hopened, htime, hmark, hmoved⟩ := h
  obtain ⟨position, hposition, rfl⟩ := Option.map_eq_some_iff.mp hopened.scheduled
  have hequity := hopened.equity
  have hprice := hopened.price
  rw [← hmark] at hequity hprice
  have haim : loop.leg.aim before.point bar (loop.weightOf position) =
      loop.aimOf before after position := by
    rw [SingleLeg.aim, ← hmark]
    rfl
  refine ⟨position, ⟨?_, hequity, hprice, ?_, ?_⟩⟩
  · change loop.positionSeries.get? after.point.timeUtc = _
    rw [htime]
    exact hposition
  · rcases hmoved with hmoved | ⟨hmoved, -⟩
    · exact ⟨_, hmoved⟩
    · exact ⟨0, hmoved.trans (by rw [Int.cast_zero, add_zero]; rfl)⟩
  · rcases hmoved with hmoved | ⟨hmoved, hrefused⟩
    · left
      have hconverges := converges_towardZero before.positionQty (loop.aimOf before after position)
      rw [← haim] at hconverges ⊢
      change Converges _ _ after.point.quantity
      rw [hmoved]
      exact hconverges
    · right
      refine ⟨hmoved, ?_⟩
      change Refused breaches after.point.timeUtc
      rw [htime]
      exact hrefused

end Runs

end PaperPipeline

end Blive
