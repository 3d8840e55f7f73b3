import Blive.Runtime.Proofs.SingleLeg

/-!
# The two IB pipelines

`run_ib_pipeline` sizes and marks at the close the vendor reports, `run_ib_multi_pipeline` at
that close in the unit IB quotes the symbol in. Over one instrument both are the same leg but
for that price: they agree when the catalogue of conventions has no scale for the symbol, and
part at the first order when it has one.
-/

namespace Blive

/-- The convention of a symbol. -/
def conventionOf (ibSymbol : String) : Convention :=
  (conventionsByIbSymbol ibSymbol).getD identityDefault

/-- What the convention of a symbol divides a price by. -/
def ibDivisor (ibSymbol : String) : Decimal := (conventionOf ibSymbol).val.divisor.getD 1

theorem Convention.divisor_of_identity {convention : Convention}
    (h : convention.val.kind = .identity) : convention.val.divisor = none := by
  obtain ⟨⟨kind, divisor⟩, hvalid⟩ := convention
  cases h
  simpa [postInit, require_eq_ok_iff] using hvalid

theorem eodhdToIbPrice_eq (ibSymbol : String) {eodhdPrice : Decimal} (h : 0 < eodhdPrice) :
    eodhdToIbPrice ibSymbol eodhdPrice = .ok (eodhdPrice / ibDivisor ibSymbol) := by
  have hconvention : (conventionsByIbSymbol ibSymbol).getD identityDefault =
      conventionOf ibSymbol := rfl
  unfold eodhdToIbPrice ibDivisor
  simp only [require_bind_eq_ok_iff, h, true_and, hconvention]
  cases hkind : (conventionOf ibSymbol).val.kind with
  | identity =>
    rw [Convention.divisor_of_identity hkind]
    simp [pure, Except.pure]
  | manualScale =>
    obtain ⟨divisor, hdivisor, -⟩ := Convention.exists_divisor hkind
    simp [hdivisor, orRaise, pure, Except.pure, bind, Except.bind]

namespace IbPipeline

open Transition SingleLeg

/-- The leg of the arguments of `run_ib_pipeline`, for what the loop reads off the position
series and off a bar. -/
def IbPipelineArgs.leg (args : IbPipelineArgs) (weight : Decimal → Decimal)
    (price : Bar → Decimal) : SingleLeg where
  liveConfig := args.liveConfig
  riskConfig := riskConfigFromLive args.liveConfig
  instrument := args.instrument
  targetWeight := fun bar => (args.positionSeries.get? bar.val.closeTimeUtc).map weight
  price := price
  promote := fun bar desired =>
    ibOrderFromDesired desired bar args.orderType args.limitPriceOffsetBps 0

/-- The leg of `run_ib_pipeline`. -/
def IbPipelineArgs.singleLeg (args : IbPipelineArgs) : SingleLeg :=
  args.leg (fun position => truncate position * args.targetLeverage) fun bar => bar.val.close

/-- The leg of `run_ib_multi_pipeline` over the one instrument. -/
def IbPipelineArgs.multiLeg (args : IbPipelineArgs) : SingleLeg :=
  args.leg id fun bar => bar.val.close / ibDivisor args.instrument.val.symbol

/-- The call of `run_ib_multi_pipeline` with the one instrument, whose column of weights is the
position series. -/
def IbPipelineArgs.toMulti (args : IbPipelineArgs) : IbMultiPipelineArgs where
  liveConfig := args.liveConfig
  marketData := args.marketData
  instruments := [args.instrument]
  targetWeightsSeries :=
    ⟨[args.instrument.val.symbol], args.positionSeries.mapValues fun position _ => position⟩
  startingCash := args.startingCash
  orderType := args.orderType
  limitPriceOffsetBps := args.limitPriceOffsetBps

theorem computeEquityMulti_of_keys (cash markPrice : Decimal) {positions : Dict String Position}
    {key : String} (h : ∀ k ∈ positions, k = key) :
    computeEquityMulti cash positions (Dict.empty.set key markPrice) =
      cash + quantityOf (positions.get? key) * markPrice := by
  unfold computeEquityMulti
  rw [Dict.items_of_forall_keys h]
  cases positions.get? key <;> simp [quantityOf, Dict.get?_set]

theorem runIbPipeline_trades {args : IbPipelineArgs} {broker : IBBroker} {loop : RebalanceLoop}
    (h : runIbPipeline args broker = .ok loop) :
    loop.Trades args.singleLeg args.instrument.val.symbol ∧
      args.marketData.bars args.instrument = .ok loop.bars ∧
      loop.startingCash = args.startingCash := by
  obtain ⟨-, h⟩ := require_bind_eq_ok_iff.mp h
  obtain ⟨bars, hbars, h⟩ := bind_eq_ok_iff.mp h
  obtain ⟨-, h⟩ := require_bind_eq_ok_iff.mp h
  cases h
  refine ⟨?_, hbars, rfl⟩
  exact
    { liveConfig := rfl
      riskConfig := rfl
      rebalance := fun bar => by
        simp only [IbPipelineArgs.singleLeg, IbPipelineArgs.leg, Option.map_map]
        rfl
      instrument := rfl
      price := fun _ _ => rfl
      equity := fun cash positions bar _ hkeys => computeEquity_of_keys cash bar.val.close hkeys
      lastBar := fun _ _ => rfl
      promote := fun _ _ => rfl
      bookingKey := fun _ _ => rfl }

/-- The loop body of the multi-instrument pipeline over the one instrument. -/
theorem multi_rebalance (args : IbPipelineArgs) (bar : Bar) :
    args.toMulti.rebalance args.instrument [] bar =
      .ok ((args.multiLeg.targetWeight bar).map
        (rebalanceOf args.multiLeg args.instrument.val.symbol bar)) := by
  have hrow : args.toMulti.targetWeightsSeries.rows.get? bar.val.closeTimeUtc =
      (args.positionSeries.get? bar.val.closeTimeUtc).map fun position _ => position :=
    Dict.get?_mapValues _ _ _
  have hprice := eodhdToIbPrice_eq args.instrument.val.symbol (Bar.close_pos bar)
  unfold IbMultiPipelineArgs.rebalance
  rw [hrow]
  simp only [IbPipelineArgs.multiLeg, IbPipelineArgs.leg]
  cases args.positionSeries.get? bar.val.closeTimeUtc with
  | none => rfl
  | some position =>
    have hbars : args.toMulti.barsBySymbol [] bar.val.closeTimeUtc
        (Dict.empty.set args.instrument.val.symbol bar) =
          .ok (Dict.empty.set args.instrument.val.symbol bar) := rfl
    have hitems : (Dict.empty.set args.instrument.val.symbol bar).items =
        [(args.instrument.val.symbol, bar)] := rfl
    have hweights : args.toMulti.targetWeights (fun _ => position) =
        Dict.empty.set args.instrument.val.symbol position := by
      simp [IbMultiPipelineArgs.targetWeights, IbPipelineArgs.toMulti, Dict.ofList]
    have hmarks : IbMultiPipelineArgs.rebalance.markPricesOf
        [(args.instrument.val.symbol, bar)] Dict.empty =
          .ok (Dict.empty.set args.instrument.val.symbol
            (bar.val.close / ibDivisor args.instrument.val.symbol)) := by
      simp only [IbMultiPipelineArgs.rebalance.markPricesOf, hprice]
      rfl
    simp only [Option.map_some, hbars, bind, Except.bind, hitems]
    rw [if_neg (by simp [IbPipelineArgs.toMulti]), hmarks, hweights]
    rfl

theorem multi_instrument (args : IbPipelineArgs) :
    orRaise (args.toMulti.instBySymbol.get? args.instrument.val.symbol) (.keyError "") =
      .ok args.instrument := by
  simp [IbMultiPipelineArgs.instBySymbol, IbPipelineArgs.toMulti, Dict.ofList, Dict.get?_set,
    orRaise]

theorem runIbMultiPipeline_trades {args : IbPipelineArgs} {broker : IBBroker}
    {loop : RebalanceLoop} (h : runIbMultiPipeline args.toMulti broker = .ok loop) :
    loop.Trades args.multiLeg args.instrument.val.symbol ∧
      args.marketData.bars args.instrument = .ok loop.bars ∧
      loop.startingCash = args.startingCash := by
  obtain ⟨-, h⟩ := require_bind_eq_ok_iff.mp h
  obtain ⟨-, h⟩ := require_bind_eq_ok_iff.mp h
  obtain ⟨bars, hbars, h⟩ := bind_eq_ok_iff.mp h
  obtain ⟨-, h⟩ := require_bind_eq_ok_iff.mp h
  cases h
  refine ⟨?_, hbars, rfl⟩
  have hprice (bar : Bar) := eodhdToIbPrice_eq args.instrument.val.symbol (Bar.close_pos bar)
  have hbar (bar : Bar) (weight : Decimal) :
      (rebalanceOf args.multiLeg args.instrument.val.symbol bar weight).barOf args.instrument =
        .ok bar := by
    simp [Rebalance.barOf, rebalanceOf, Dict.get?_set, orRaise]
  exact
    { liveConfig := rfl
      riskConfig := rfl
      rebalance := fun bar => multi_rebalance args bar
      instrument := multi_instrument args
      price := fun bar weight => by
        dsimp only
        rw [show args.multiLeg.instrument = args.instrument from rfl, hbar]
        exact hprice bar
      equity := fun cash positions bar _ hkeys => computeEquityMulti_of_keys cash _ hkeys
      lastBar := hbar
      promote := fun _ _ => rfl
      bookingKey := fun fill hfill => by simp only [hfill]; rfl }

/-! ## Agreement -/

/-- What agreement compares in a row of the equity curve. -/
def EquityPoint.ledger (symbol : String) (p : EquityPoint) :
    Datetime × Decimal × Decimal × Decimal :=
  (p.timeUtc, p.cash, (p.positions.get? symbol).getD 0, p.equity)

/-- The same orders up to their ids, and the same ledger at every rebalance. -/
structure SameOutcome (symbol : String) (s t : State) : Prop where
  submitted : s.submitted.map (fun submission => submission.order.anonymous) =
    t.submitted.map fun submission => submission.order.anonymous
  ledger : s.result.equityCurve.map (EquityPoint.ledger symbol) =
    t.result.equityCurve.map (EquityPoint.ledger symbol)

/-- The run is over. -/
def State.Stopped (s : State) : Prop := s.task = .finished ∨ s.Raised

/-- Over the instrument, complete runs of `run_ib_pipeline` and `run_ib_multi_pipeline` have the
same outcome in the same surroundings, when all that is heard in either of them is what the
surroundings say: the kill switch and the files at each risk check, and the response of the
broker to each submitted order. -/
def PipelinesAgree (instrument : Instrument) : Prop :=
  ∀ (args : IbPipelineArgs) (around : Surroundings) (policy policy' : RoundingPolicy)
    (history history' : List IBSystem.Action) (broker broker' : IBBroker)
    (placed placed' : List PlacedOrder) (killSwitch killSwitch' : KillSwitch)
    (loop loop' : RebalanceLoop) (as as' : List Action) (s s' : State),
    args.instrument = instrument →
    (∀ t position, args.positionSeries.get? t = some position → position = 0 ∨ position = 1) →
    args.targetLeverage = 1 →
    run (IBSystem.step policy) IBSystem.init history = some ⟨broker, [], placed⟩ →
    run (IBSystem.step policy') IBSystem.init history' = some ⟨broker', [], placed'⟩ →
    runIbPipeline args broker = .ok loop →
    runIbMultiPipeline args.toMulti broker' = .ok loop' →
    run (step loop policy) (loop.start broker placed killSwitch) as = some s →
    run (step loop' policy') (loop'.start broker' placed' killSwitch') as' = some s' →
    s.Stopped → s'.Stopped →
    Throughout args.singleLeg.hear around.Say (.start loop.bars loop.startingCash)
      (trace (step loop policy) heard (loop.start broker placed killSwitch) as) →
    Throughout args.multiLeg.hear around.Say (.start loop'.bars loop'.startingCash)
      (trace (step loop' policy') heard (loop'.start broker' placed' killSwitch') as') →
    SameOutcome instrument.val.symbol s s'

theorem ibDivisor_of_identity {ibSymbol : String}
    (h : (conventionOf ibSymbol).val.kind = .identity) : ibDivisor ibSymbol = 1 := by
  rw [ibDivisor, Convention.divisor_of_identity h]
  rfl

theorem truncate_zero : truncate 0 = 0 := rfl

theorem truncate_one : truncate 1 = 1 := rfl

/-- Without a scale for the symbol the two pipelines are one leg. -/
theorem singleLeg_eq_multiLeg {args : IbPipelineArgs}
    (hidentity : (conventionOf args.instrument.val.symbol).val.kind = .identity)
    (hunit : ∀ t position, args.positionSeries.get? t = some position →
      position = 0 ∨ position = 1)
    (hleverage : args.targetLeverage = 1) : args.singleLeg = args.multiLeg := by
  have hprice : (fun bar : Bar => bar.val.close) =
      fun bar => bar.val.close / ibDivisor args.instrument.val.symbol := by
    funext bar
    rw [ibDivisor_of_identity hidentity, div_one]
  have hweight : (fun bar : Bar => (args.positionSeries.get? bar.val.closeTimeUtc).map
      fun position => truncate position * args.targetLeverage) =
        fun bar => (args.positionSeries.get? bar.val.closeTimeUtc).map id := by
    funext bar
    cases hposition : args.positionSeries.get? bar.val.closeTimeUtc with
    | none => rfl
    | some position =>
      rcases hunit _ position hposition with rfl | rfl
      · simp [hleverage, truncate_zero]
      · simp [hleverage, truncate_one]
  simp only [IbPipelineArgs.singleLeg, IbPipelineArgs.multiLeg, IbPipelineArgs.leg, hprice,
    hweight]

theorem SameOutcome.of_view {symbol : String} {s t : State} (h : s.view symbol = t.view symbol) :
    SameOutcome symbol s t := by
  refine ⟨congrArg View.submitted h, ?_⟩
  have hcurve := congrArg View.curve h
  have hledger : EquityPoint.ledger symbol =
      (fun p : Point => (p.timeUtc, p.cash, p.quantity, p.equity)) ∘ EquityPoint.point symbol := rfl
  rw [hledger, ← List.map_map, ← List.map_map]
  exact congrArg _ hcurve

theorem State.Stopped.view {s : State} (h : s.Stopped) (key : String) : (s.view key).Stopped := by
  rcases h with h | ⟨e, h⟩
  · exact .inl (by rw [State.view, h]; rfl)
  · exact .inr (by rw [State.view, h]; rfl)

theorem pipelinesAgree_of_identity {instrument : Instrument}
    (hidentity : (conventionOf instrument.val.symbol).val.kind = .identity) :
    PipelinesAgree instrument := by
  intro args around policy policy' history history' broker broker' placed placed' killSwitch
    killSwitch' loop loop' as as' s s' hinstrument hunit hleverage hhistory hhistory' hsingle
    hmulti hrun hrun' hstopped hstopped' hsay hsay'
  subst hinstrument
  obtain ⟨htrades, hbars, hcash⟩ := runIbPipeline_trades hsingle
  obtain ⟨htrades', hbars', hcash'⟩ := runIbMultiPipeline_trades hmulti
  have hruns := run_runsAs htrades hhistory hrun
  have hruns' := run_runsAs htrades' hhistory' hrun'
  have hsame : loop'.bars = loop.bars := Except.ok.inj (hbars'.symm.trans hbars)
  rw [← singleLeg_eq_multiLeg hidentity hunit hleverage, hsame, hcash', ← hcash] at hruns' hsay'
  have hend := hstopped.view args.instrument.val.symbol
  have hend' := hstopped'.view args.instrument.val.symbol
  rw [hruns.view] at hend
  rw [hruns'.view] at hend'
  apply SameOutcome.of_view
  rw [hruns.view, hruns'.view]
  exact stopped_unique hruns.canHear hruns'.canHear hsay hsay' hend hend'

/-! ## Where they part -/

/-- One bar; the order of its rebalance is rejected for want of price rules. -/
def rejectedRun : List Action :=
  [sampleProceed 1, sampleProceed 2, .priceRules (.error (.priceRuleUnavailable "")) ⟨1⟩,
    .getEvent, sampleProceed 3, sampleProceed 4]

/-- What is heard in it. -/
def rejectedTrace : List Heard :=
  [.turned, .asked {} fun _ => none, .answered .unfilled, .turned, .turned]

/-- A broker that has just been connected takes an order with a limit. -/
theorem sampleBroker_submit {order : Order} (h : order.val.limitPrice.isSome) :
    sampleBroker.submit order = .ok ⟨order, .priceRules⟩ := by
  obtain ⟨price, hprice⟩ := Option.isSome_iff_exists.mp h
  simp [IBBroker.submit, sampleBroker, IBBroker.init, IBBroker.connect, IBBroker.put, require,
    hprice, bind, Except.bind, pure, Except.pure]

section Rejected

variable {loop : RebalanceLoop} {leg : SingleLeg} {key : String} {bar : Bar} {weight : Decimal}
  {desired order : Order}

/-- What becomes of an order does not change what was submitted. -/
theorem submitted_leaving (view : View) (task : Task) :
    (task.leaving.foldl leg.hear view).submitted = view.submitted := by
  have hanswer (response : Response) : (view.answer response).submitted = view.submitted := by
    unfold View.answer
    split
    · cases response <;> rfl
    · rfl
  cases task with
  | atOrder work => exact hanswer .unfilled
  | raised e => exact hanswer .raised
  | _ => rfl

/-- The order of an approved candidate is taken by a broker that has just been connected. -/
theorem submitOrder_of_approved (hloop : loop.Trades leg key) {s : State} (hs : s.OnLeg leg key)
    {rebalance : Rebalance} {candidate : Order}
    (htask : s.task = .atOrder ⟨rebalance, [candidate], []⟩) (hbroker : s.broker = sampleBroker)
    (hnone : s.submitted = []) (hphase : (s.view key).phase = .atOrder bar (some desired) [])
    (happroved : ((leg.riskEngine s.killSwitch).approve desired (leg.riskInputs bar fun _ => none)
      bar.val.closeTimeUtc).1 = some desired)
    (hpromoted : leg.promote bar desired = .ok order) (hlimit : order.val.limitPrice.isSome)
    (id : UUID) :
    ∃ submission result, submission.order.anonymous = order ∧
      loop.submitOrder s ⟨rebalance, [], []⟩ candidate id (fun _ => none) =
        { s with
          task := .inSubmit ⟨rebalance, [], []⟩ submission.order
            ⟨submission.order, .priceRules⟩ []
          submitted := [submission]
          result } := by
  have hsubmitted := congrArg View.submitted
    (submitOrder_moves hloop hs htask (fun _ => id) fun _ => none).view
  have hasked : (leg.ask (s.view key) s.killSwitch fun _ => none).submitted = [order] := by
    generalize hverdict : (leg.riskEngine s.killSwitch).approve desired
      (leg.riskInputs bar fun _ => none) bar.val.closeTimeUtc = verdict at happroved
    obtain ⟨approved, breaches⟩ := verdict
    cases happroved
    simp only [ask, hphase, hverdict, hpromoted]
    simp [State.view, hnone]
  rcases submitOrder_cases loop s ⟨rebalance, [], []⟩ candidate id (fun _ => none) with
    ⟨task, result, heq, -⟩ | ⟨submission, result, heq, -⟩
  · rw [heq] at hsubmitted
    simp only [heard, htask, lt_irrefl, if_false, List.foldl_cons, List.foldl_nil, hear, hasked]
      at hsubmitted
    simp [State.view, hnone] at hsubmitted
  · have hlist : (RebalanceLoop.callSubmit { s with result } ⟨rebalance, [], []⟩
        submission).submitted = [submission] := by
      rw [callSubmit_submitted, hnone]
      rfl
    have horder : submission.order.anonymous = order := by
      rw [heq] at hsubmitted
      generalize RebalanceLoop.callSubmit { s with result } ⟨rebalance, [], []⟩ submission = t
        at hsubmitted hlist
      have hlonger : s.submitted.length < t.submitted.length := by simp [hlist, hnone]
      simp only [heard, htask, hlonger, if_true, List.foldl_cons, hear, submitted_leaving, hasked]
        at hsubmitted
      simpa [State.view, hlist] using hsubmitted
    have hlimit' : submission.order.val.limitPrice.isSome := by
      rw [← horder] at hlimit
      exact hlimit
    refine ⟨submission, result, horder, ?_⟩
    rw [heq]
    simp only [RebalanceLoop.callSubmit, hbroker, sampleBroker_submit hlimit', hnone]
    rfl

/-- An order without price rules is rejected, and the run comes to its end. -/
theorem exists_rejected (loop : RebalanceLoop) {s : State} {rebalance : Rebalance} {sent : Order}
    (htask : s.task = .inSubmit ⟨rebalance, [], []⟩ sent ⟨sent, .priceRules⟩ [])
    (hbroker : s.broker = sampleBroker) (hcursor : s.cursor = 1) :
    ∃ t, run (step loop .nearest) s [.priceRules (.error (.priceRuleUnavailable "")) ⟨1⟩,
        .getEvent, sampleProceed 3, sampleProceed 4] = some t ∧
      t.task = .finished ∧ t.submitted = s.submitted ∧
      trace (step loop .nearest) heard s [.priceRules (.error (.priceRuleUnavailable "")) ⟨1⟩,
        .getEvent, sampleProceed 3, sampleProceed 4] = [.answered .unfilled, .turned, .turned] := by
  have hread : Drain.read { targetId := sent.val.clientOrderId }
      (.order (IBBroker.priceRuleRejection sent "" ⟨1⟩)) =
        { targetId := sent.val.clientOrderId, state := .rejected } := by
    simp [Drain.read, BrokerEvent.order?, IBBroker.priceRuleRejection, OrderEvent.withReason,
      Drain.observe]
  obtain ⟨s₁, h₁, htask₁, hevent, hsubmitted₁⟩ : ∃ s₁, step loop .nearest s
      (.priceRules (.error (.priceRuleUnavailable "")) ⟨1⟩) = some s₁ ∧
        s₁.task = .inDrain ⟨rebalance, [], []⟩ { targetId := sent.val.clientOrderId } ∧
        s₁.broker.events[s₁.cursor]? = some (.order (IBBroker.priceRuleRejection sent "" ⟨1⟩)) ∧
        s₁.submitted = s.submitted := by
    simp only [step, htask, hbroker, IBBroker.afterPriceRules, RebalanceLoop.submitEnded]
    refine ⟨_, rfl, rfl, ?_, rfl⟩
    simp only [RebalanceLoop.submitReturned, hcursor]
    rfl
  obtain ⟨s₂, h₂, htask₂, hsubmitted₂⟩ : ∃ s₂, step loop .nearest s₁ .getEvent = some s₂ ∧
      s₂.task = .atOrder ⟨rebalance, [], []⟩ ∧ s₂.submitted = s₁.submitted := by
    simp only [step, htask₁, hevent, hread]
    exact ⟨_, rfl, rfl, rfl⟩
  obtain ⟨s₃, h₃, htask₃, hsubmitted₃⟩ : ∃ s₃, step loop .nearest s₂ (sampleProceed 3) = some s₃ ∧
      s₃.task = .atBar [] ∧ s₃.submitted = s₂.submitted := by
    simp only [step, sampleProceed, htask₂]
    exact ⟨_, rfl, rfl, rfl⟩
  obtain ⟨s₄, h₄, htask₄, hsubmitted₄⟩ : ∃ s₄, step loop .nearest s₃ (sampleProceed 4) = some s₄ ∧
      s₄.task = .finished ∧ s₄.submitted = s₃.submitted := by
    simp only [step, sampleProceed, htask₃]
    exact ⟨_, rfl, rfl, rfl⟩
  refine ⟨s₄, ?_, htask₄, ?_, ?_⟩
  · simp only [run, h₁, h₂, h₃, h₄, Option.bind_some]
  · rw [hsubmitted₄, hsubmitted₃, hsubmitted₂, hsubmitted₁]
  · rw [trace_cons h₁, trace_cons h₂, trace_cons h₃, trace_cons h₄]
    simp only [heard, sampleProceed, htask₁, hevent, hread, htask₂, htask₃]
    rfl

/-- A loop over one bar that has an order for it goes through the run. -/
theorem exists_rejectedRun (hloop : loop.Trades leg key) (hbars : loop.bars = [bar])
    (hweight : leg.targetWeight bar = some weight)
    (hdesired : leg.candidate (.start [bar] loop.startingCash) bar weight = .ok (some desired))
    (happroved : ((leg.riskEngine {}).approve desired (leg.riskInputs bar fun _ => none)
      bar.val.closeTimeUtc).1 = some desired)
    (hpromoted : leg.promote bar desired = .ok order) (hlimit : order.val.limitPrice.isSome) :
    ∃ s, run (step loop .nearest) (loop.start sampleBroker [] {}) rejectedRun = some s ∧
      s.Stopped ∧
      trace (step loop .nearest) heard (loop.start sampleBroker [] {}) rejectedRun =
        rejectedTrace ∧
      s.submitted.map (fun submission => submission.order.anonymous) = [order] := by
  have hstart : (loop.start sampleBroker [] {}).OnLeg leg key := by
    refine ⟨?_, ?_, trivial, ?_⟩
    all_goals simp [RebalanceLoop.start]
  have htask : (loop.start sampleBroker [] {}).task = .atBar [bar] := by
    rw [RebalanceLoop.start, hbars]
  -- The rebalance is opened: the task holds the one candidate.
  have hopened := openRebalance_moves hloop hstart htask fun _ => 1
  obtain ⟨task, hopen, -⟩ :=
    openRebalance_cases loop (loop.start sampleBroker [] {}) bar [] fun _ => 1
  rw [hopen] at hopened
  have hfirst : (loop.start sampleBroker [] {}).view key = .start [bar] loop.startingCash := by
    simp only [State.view, htask]
    rfl
  have hturned : leg.turn (.start [bar] loop.startingCash) =
      { View.start [bar] loop.startingCash with phase := .atOrder bar (some desired) [] } := by
    have hphase : (View.start [bar] loop.startingCash).phase = .atBar [bar] := rfl
    simp only [turn, hphase, hweight, hdesired]
  have hview := hopened.view
  rw [hfirst] at hview
  simp only [List.foldl_cons, List.foldl_nil, hear, hturned] at hview
  have hphase : task.phase = .atOrder bar (some desired) [] := congrArg View.phase hview
  obtain ⟨rebalance, candidate, rfl⟩ : ∃ rebalance candidate,
      task = .atOrder ⟨rebalance, [candidate], []⟩ := by
    have hon := hopened.onLeg.task
    cases task with
    | atOrder work =>
      obtain ⟨rebalance, orders, bars⟩ := work
      obtain ⟨-, hlength, -⟩ := hon
      simp only [Task.phase, Phase.atOrder.injEq] at hphase
      obtain ⟨-, hhead, rfl⟩ := hphase
      cases orders with
      | nil => cases hhead
      | cons candidate rest =>
        cases rest with
        | nil => exact ⟨rebalance, candidate, rfl⟩
        | cons _ _ => simp at hlength
    | _ => cases hphase
  obtain ⟨s₁, h₁, hon₁, htask₁, hbroker₁, hcursor₁, hnone₁, hkillSwitch₁⟩ : ∃ s₁,
      step loop .nearest (loop.start sampleBroker [] {}) (sampleProceed 1) = some s₁ ∧
        s₁.OnLeg leg key ∧ s₁.task = .atOrder ⟨rebalance, [candidate], []⟩ ∧
        s₁.broker = sampleBroker ∧ s₁.cursor = 1 ∧ s₁.submitted = [] ∧ s₁.killSwitch = {} := by
    simp only [step, sampleProceed, htask, hopen]
    exact ⟨_, rfl, hopened.onLeg, rfl, rfl, rfl, rfl, rfl⟩
  -- The order goes to the broker, which asks for its price rules.
  have hphase₁ : (s₁.view key).phase = .atOrder bar (some desired) [] := by
    rw [State.view, htask₁]
    exact hphase
  obtain ⟨submission, result, horder, hsubmit⟩ := submitOrder_of_approved hloop hon₁ htask₁
    hbroker₁ hnone₁ hphase₁ (hkillSwitch₁ ▸ happroved) hpromoted hlimit 2
  obtain ⟨s₂, h₂, htask₂, hbroker₂, hcursor₂, hsubmitted₂⟩ : ∃ s₂,
      step loop .nearest s₁ (sampleProceed 2) = some s₂ ∧
        s₂.task = .inSubmit ⟨rebalance, [], []⟩ submission.order
          ⟨submission.order, .priceRules⟩ [] ∧
        s₂.broker = sampleBroker ∧ s₂.cursor = 1 ∧ s₂.submitted = [submission] := by
    simp only [step, sampleProceed, htask₁, hsubmit]
    exact ⟨_, rfl, rfl, hbroker₁, hcursor₁, rfl⟩
  obtain ⟨t, hrun, hfinished, hsubmitted, htrace⟩ := exists_rejected loop htask₂ hbroker₂ hcursor₂
  refine ⟨t, ?_, .inl hfinished, ?_, ?_⟩
  · exact run_cons_eq_some.mpr ⟨s₁, h₁, run_cons_eq_some.mpr ⟨s₂, h₂, hrun⟩⟩
  · rw [rejectedRun, trace_cons h₁, trace_cons h₂, htrace]
    simp only [heard, sampleProceed, htask, htask₁, htask₂, hnone₁, hsubmitted₂, hkillSwitch₁]
    rfl
  · rw [hsubmitted, hsubmitted₂, List.map_singleton, horder]

end Rejected

/-- One daily bar of the instrument. -/
def dailyBar (instrument : Instrument) : Bar :=
  ⟨{ sampleBar.val with instrument }, sampleBar.valid⟩

/-- Fully invested at `dailyBar`, with limit orders. -/
def dailyArgs (instrument : Instrument) : IbPipelineArgs where
  liveConfig := sampleLiveConfig
  marketData := fun _ => some [dailyBar instrument]
  instrument := instrument
  positionSeries := Dict.empty.set (dailyBar instrument).val.closeTimeUtc 1

/-- The order a leg has for `dailyBar`. -/
theorem exists_dailyOrder {instrument : Instrument} {leg : SingleLeg} {price quantity : Decimal}
    (hconfig : leg.liveConfig = sampleLiveConfig)
    (hrisk : leg.riskConfig = riskConfigFromLive sampleLiveConfig)
    (hpromote : leg.promote = fun bar desired => ibOrderFromDesired desired bar .lmt 50 0)
    (hprice : leg.price (dailyBar instrument) = price) (hpos : 0 < price)
    (hquantize : quantizeShareQty .exact (100000 / price) = .ok quantity)
    (hquantity : 0 < quantity) :
    ∃ desired order,
      leg.candidate (.start [dailyBar instrument] 1000000) (dailyBar instrument) 1 =
        .ok (some desired) ∧
      ((leg.riskEngine {}).approve desired (leg.riskInputs (dailyBar instrument) fun _ => none)
        (dailyBar instrument).val.closeTimeUtc).1 = some desired ∧
      leg.promote (dailyBar instrument) desired = .ok order ∧
      order.val.limitPrice.isSome ∧ order.val.quantity = quantity := by
  have hvalid : postInit (leg.candidateFields (dailyBar instrument) quantity) = .ok () := by
    refine (Order.valid_iff _).mpr ⟨?_, ?_, ?_, ?_, ?_, ?_, ?_, ?_⟩
    all_goals simp [candidateFields, hconfig, OrderType.needsLimit, OrderType.needsStop,
      sampleLiveConfig, hquantity.ne', dailyBar, sampleBar]
  have hcandidate : leg.candidate (.start [dailyBar instrument] 1000000) (dailyBar instrument) 1 =
      .ok (some ⟨_, hvalid⟩) := by
    have hequity : leg.equity (.start [dailyBar instrument] 1000000) (dailyBar instrument) =
        1000000 := by
      simp [equity, View.start]
    have htarget : (1000000 : Decimal) * sampleLiveConfig.val.navSlice * 1 / price - 0 =
        100000 / price := by
      rw [sub_zero, mul_one]
      congr 1
      decide +kernel
    unfold candidate
    rw [hequity, hconfig, hprice]
    simp only [require_bind_eq_ok_iff]
    refine ⟨by decide +kernel, by norm_num, by norm_num, hpos, ?_⟩
    rw [if_neg one_ne_zero]
    simp only [View.start, htarget, hquantize]
    exact (if_neg hquantity.ne').trans (congrArg (some <$> ·) (Frozen.make_of_valid hvalid))
  have happroved : ((leg.riskEngine {}).approve ⟨_, hvalid⟩
      (leg.riskInputs (dailyBar instrument) fun _ => none)
      (dailyBar instrument).val.closeTimeUtc).1 = some ⟨_, hvalid⟩ := by
    have hfresh : (leg.riskEngine {}).checkStaleData (some (dailyBar instrument)) leg.instrument
        (dailyBar instrument).val.closeTimeUtc = none := by
      simp only [riskEngine, hrisk]
      rfl
    have hartefacts : (leg.riskInputs (dailyBar instrument) fun _ => none).artefactPaths = [] := by
      simp only [riskInputs, hconfig]
      rfl
    exact RiskEngine.approve_eq_some_iff.mpr
      ⟨rfl, ⟨rfl, hfresh, .inl rfl, by rw [hartefacts]; rfl⟩, rfl⟩
  obtain ⟨reference, hreference, hreferencePos⟩ :=
    eodhdToIbPrice_of_pos leg.instrument.val.symbol (Bar.close_pos (dailyBar instrument))
  have hlimitPos : 0 < limitPriceOf .buy reference 50 :=
    mul_pos hreferencePos (by norm_num)
  have hbuy : (leg.candidateFields (dailyBar instrument) quantity).side = .buy :=
    if_pos hquantity
  have hpromoted : postInit (ibOrderFields ⟨_, hvalid⟩ .lmt .day
      (some (limitPriceOf .buy reference 50)) 0) = .ok () := by
    refine (Order.valid_iff _).mpr ⟨?_, ?_, ?_, ?_, ?_, ?_, ?_, ?_⟩
    all_goals simp [ibOrderFields, candidateFields, hconfig, OrderType.needsLimit,
      OrderType.needsStop, positivePrice, hlimitPos, sampleLiveConfig, hquantity.ne', dailyBar,
      sampleBar, Dict.setItems]
  refine ⟨⟨_, hvalid⟩, ⟨_, hpromoted⟩, hcandidate, happroved, ?_, rfl, ?_⟩
  · rw [hpromote]
    simp only [ibOrderFromDesired, hbuy]
    refine bind_eq_ok_iff.mpr ⟨reference, hreference, Frozen.make_of_valid hpromoted⟩
  · exact abs_of_pos hquantity

/-- Orders without price rules, and no file anywhere. -/
def rejecting : Surroundings where
  killSwitch := fun _ => {}
  artefact := fun _ _ => none
  response := fun _ => .unfilled

theorem rejectedTrace_said (leg : SingleLeg) (view : View) :
    Throughout leg.hear rejecting.Say view rejectedTrace :=
  ⟨trivial, ⟨rfl, rfl⟩, rfl, trivial, trivial, trivial⟩

/-- The catalogue scales the one symbol. -/
theorem symbol_of_scaled {ibSymbol : String} (h : (conventionOf ibSymbol).val.kind ≠ .identity) :
    ibSymbol = "QQL3" := by
  by_contra hne
  apply h
  have hlookup : conventionsByIbSymbol ibSymbol = none := by
    simp [conventionsByIbSymbol, hne]
  rw [conventionOf, hlookup]
  rfl

theorem ibDivisor_scaled : ibDivisor "QQL3" = 10 := rfl

/-- At a scaled symbol the one order is ten times as large in the multi pipeline. -/
theorem not_pipelinesAgree_of_scaled {instrument : Instrument}
    (hscaled : (conventionOf instrument.val.symbol).val.kind ≠ .identity) :
    ¬ PipelinesAgree instrument := by
  intro hagree
  have hsymbol := symbol_of_scaled hscaled
  obtain ⟨loop, hsingle⟩ : ∃ loop, runIbPipeline (dailyArgs instrument) sampleBroker = .ok loop :=
    ⟨_, rfl⟩
  obtain ⟨loop', hmulti⟩ :
      ∃ loop', runIbMultiPipeline (dailyArgs instrument).toMulti sampleBroker = .ok loop' :=
    ⟨_, rfl⟩
  obtain ⟨htrades, hbars, hcash⟩ := runIbPipeline_trades hsingle
  obtain ⟨htrades', hbars', hcash'⟩ := runIbMultiPipeline_trades hmulti
  have hprice : (dailyArgs instrument).multiLeg.price (dailyBar instrument) = 10 := by
    have hdivisor : ibDivisor instrument.val.symbol = 10 := by rw [hsymbol, ibDivisor_scaled]
    simp only [IbPipelineArgs.multiLeg, IbPipelineArgs.leg, dailyArgs, hdivisor]
    exact (by norm_num : (100 : Decimal) / 10 = 10)
  have hunit : ∀ t position, (dailyArgs instrument).positionSeries.get? t = some position →
      position = 0 ∨ position = 1 := by
    intro t position h
    simp only [dailyArgs, Dict.get?_set] at h
    split at h
    · exact .inr (Option.some.inj h).symm
    · cases h
  have hposition : (dailyArgs instrument).positionSeries.get?
      (dailyBar instrument).val.closeTimeUtc = some 1 := by
    simp [dailyArgs, Dict.get?_set]
  have hprice' : (dailyArgs instrument).singleLeg.price (dailyBar instrument) = 100 := rfl
  have hquantize : quantizeShareQty .exact (100000 / 100) = .ok 1000 := by decide +kernel
  have hquantize' : quantizeShareQty .exact (100000 / 10) = .ok 10000 := by decide +kernel
  obtain ⟨desired, order, hdesired, happroved, hpromoted, hlimit, hquantity⟩ :=
    exists_dailyOrder rfl rfl rfl hprice' (by norm_num) hquantize (by norm_num)
  obtain ⟨desired', order', hdesired', happroved', hpromoted', hlimit', hquantity'⟩ :=
    exists_dailyOrder rfl rfl rfl hprice (by norm_num) hquantize' (by norm_num)
  have hlist : loop.bars = [dailyBar instrument] := (Except.ok.inj hbars).symm
  have hlist' : loop'.bars = [dailyBar instrument] := (Except.ok.inj hbars').symm
  have hweight : (dailyArgs instrument).singleLeg.targetWeight (dailyBar instrument) = some 1 := by
    simp only [IbPipelineArgs.singleLeg, IbPipelineArgs.leg, hposition, Option.map_some,
      truncate_one, Int.cast_one, one_mul]
    rfl
  have hweight' : (dailyArgs instrument).multiLeg.targetWeight (dailyBar instrument) = some 1 := by
    simp only [IbPipelineArgs.multiLeg, IbPipelineArgs.leg, hposition, Option.map_some, id]
  obtain ⟨s, hrun, hstopped, htrace, hsubmitted⟩ := exists_rejectedRun htrades hlist hweight
    (hcash ▸ hdesired) happroved hpromoted hlimit
  obtain ⟨s', hrun', hstopped', htrace', hsubmitted'⟩ := exists_rejectedRun htrades' hlist' hweight'
    (hcash' ▸ hdesired') happroved' hpromoted' hlimit'
  have hhistory : run (IBSystem.step .nearest) IBSystem.init [.connect ⟨0⟩] =
      some ⟨sampleBroker, [], []⟩ := rfl
  have houtcome := hagree (dailyArgs instrument) rejecting .nearest .nearest [.connect ⟨0⟩]
    [.connect ⟨0⟩] sampleBroker sampleBroker [] [] {} {} loop loop' rejectedRun rejectedRun s s'
    rfl hunit rfl hhistory hhistory hsingle hmulti hrun hrun' hstopped hstopped'
    (htrace ▸ rejectedTrace_said _ _) (htrace' ▸ rejectedTrace_said _ _)
  have hsame : [order] = [order'] := by
    rw [← hsubmitted, ← hsubmitted', houtcome.submitted]
  rw [List.singleton_inj.mp hsame, hquantity'] at hquantity
  exact absurd hquantity (by norm_num)

/-- The two pipelines agree over an instrument exactly when its symbol has no scale. -/
theorem pipelinesAgree_iff (instrument : Instrument) :
    PipelinesAgree instrument ↔ (conventionOf instrument.val.symbol).val.kind = .identity := by
  constructor
  · intro hagree
    by_contra hscaled
    exact not_pipelinesAgree_of_scaled hscaled hagree
  · exact pipelinesAgree_of_identity

/-- An instrument whose symbol the catalogue scales. -/
def scaledInstrument : Instrument :=
  ⟨{ symbol := "QQL3", venue := "LSEETF", currency := "USD", assetClass := .etf },
    by decide +kernel⟩

theorem not_pipelinesAgree : ¬ ∀ instrument, PipelinesAgree instrument :=
  fun hagree => not_pipelinesAgree_of_scaled (by decide +kernel) (hagree scaledInstrument)

end IbPipeline

end Blive
