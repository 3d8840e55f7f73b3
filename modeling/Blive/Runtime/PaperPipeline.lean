import Blive.Adapters.Paper.Broker
import Blive.Runtime.IbPipeline

/-!
# The paper pipeline

`runtime/paper_pipeline.py`, with the clock of `adapters/clock/sim.py`. The broker is simulated:
its lifecycle tasks have no latency, so that each runs in one stretch, and they run while the
pipeline waits in a drain, the only place where it gives up control. An action is one stretch of
the pipeline or one lifecycle task. What the btest runner returns is the position series; the
switch is not called during a run. `_compute_equity`, `_risk_config_from_live` and `int` are those
of the IB pipelines, of which this module has its own copies.
-/

namespace Blive

/-- `SimClock.tick`, for a step in microseconds. -/
def SimClock.tick (now : Utc) (micros : Int) : Except PyError Utc := do
  require (0 ≤ micros) (.valueError "tick seconds must be non-negative")
  return ⟨now.micros + micros⟩

namespace PaperPipeline

open IbPipeline (MarketData computeEquity riskConfigFromLive truncate)

structure EquityPoint where
  timeUtc : Datetime
  cash : Decimal
  positionQty : Decimal
  markPrice : Decimal
  equity : Decimal

structure PaperRunResult where
  equityCurve : List EquityPoint := []
  breaches : List RiskBreach := []
  fillsCount : Nat := 0
  finalEquity : Decimal := 0

/-! ## The drain of one order's events -/

/-- The variables of `_drain_order_lifecycle`. -/
structure Drain where
  targetId : ClientOrderId
  state : OrderState := .submitPending
  fillEvent : Option OrderEvent := none

namespace Drain

/-- What the loop body does with an event of the target. -/
def observe (drain : Drain) (event : OrderEvent) : Drain :=
  match event.val.kind with
  | .submitted => { drain with state := .submitted }
  | .accepted => { drain with state := .accepted }
  | .partialFill => { drain with state := .partiallyFilled, fillEvent := some event }
  | .filled => { drain with state := .filled, fillEvent := some event }
  | .canceled => { drain with state := .canceled }
  | .rejected => { drain with state := .rejected }
  | .expired => { drain with state := .expired }

/-- The loop body on the event that was taken off the queue. -/
def read (drain : Drain) (event : BrokerEvent) : Drain :=
  match event.order? with
  | none => drain
  | some event => if event.val.clientOrderId ≠ drain.targetId then drain else drain.observe event

/-- The loop breaks at a terminal state. -/
def done (drain : Drain) : Bool := isTerminal drain.state

/-- The fill of the fill-bearing event, whatever state the drain has ended in. -/
def bookedFill (drain : Drain) : Option Fill := drain.fillEvent.bind fun event => event.val.fill

end Drain

/-! ## The loop -/

/-- `strategy.portfolio`: a `TimingPortfolio`, or one of another archetype. -/
inductive Portfolio where
  | timing (instrument : String) (targetLeverage : Decimal)
  | other

structure PaperPipelineArgs where
  liveConfig : LiveStrategyConfig
  portfolio : Portfolio
  marketData : MarketData
  instrument : Instrument
  /-- `btest_result["position"]` -/
  positionSeries : Dict Datetime Decimal
  startingCash : Decimal := 1000000
  commissionPerShare : Decimal := 0
  killSwitch : KillSwitch := {}

/-- What the loop body still has to do: the candidates of the rebalance at the bar and the bars
after it. -/
structure Work where
  bar : Bar
  orders : List Order
  bars : List Bar

inductive Task where
  /-- At the head of the loop over the bars. -/
  | atBar (bars : List Bar)
  /-- At the head of the loop over the candidate orders. -/
  | atOrder (work : Work)
  | inDrain (work : Work) (drain : Drain)
  | finished
  | raised (e : PyError)

/-- The pipeline, its broker and its clock. The broker's queue is what its log holds from `cursor`
on; `currentPrice` is the cell `_price_lookup` reads. `submitted` is history: the orders passed to
`submit`. -/
structure State where
  broker : PaperBroker
  cursor : Nat
  now : Utc
  currentPrice : Decimal
  cash : Decimal
  positions : Dict String Position
  result : PaperRunResult
  task : Task
  submitted : List Order

namespace State

/-- The events the pipeline has not taken off the broker's queue. -/
def queue (s : State) : List BrokerEvent := s.broker.events.drop s.cursor

def raise (s : State) (e : PyError) : State := { s with task := .raised e }

end State

/-- The variables of `run_paper_pipeline` that the loop leaves alone. -/
structure PaperLoop where
  liveConfig : LiveStrategyConfig
  instrument : Instrument
  instrumentKey : String
  targetLeverage : Decimal
  firstBar : Bar
  bars : List Bar
  positionSeries : Dict Datetime Decimal
  startingCash : Decimal
  commissionPerShare : Decimal
  killSwitch : KillSwitch

/-- `run_paper_pipeline`, up to its loop. -/
def runPaperPipeline (args : PaperPipelineArgs) : Except PyError PaperLoop :=
  match args.portfolio with
  | .other =>
      .error (.notImplementedError
        "M1 paper pipeline only supports TimingPortfolio strategies; got ")
  | .timing instrumentKey targetLeverage => do
      match ← args.marketData.bars args.instrument with
      | [] => .error (.valueError "no bars in fixture for ")
      | firstBar :: bars =>
          return {
            liveConfig := args.liveConfig
            instrument := args.instrument
            instrumentKey := instrumentKey
            targetLeverage := targetLeverage
            firstBar := firstBar
            bars := firstBar :: bars
            positionSeries := args.positionSeries
            startingCash := args.startingCash
            commissionPerShare := args.commissionPerShare
            killSwitch := args.killSwitch }

namespace PaperLoop

variable (loop : PaperLoop)

/-- The broker's constructor arguments: no latency anywhere. -/
def config : PaperConfig where
  commissionPerShare := loop.commissionPerShare

def riskEngine : RiskEngine :=
  ⟨riskConfigFromLive loop.liveConfig, loop.killSwitch, loop.liveConfig.val.strategyId⟩

/-- The run up to the loop: the clock is at the first close, the broker is connected and its
first event taken off the queue. -/
def start : State where
  broker := PaperBroker.init.connect ⟨loop.firstBar.val.closeTimeUtc.micros⟩
  cursor := 1
  now := ⟨loop.firstBar.val.closeTimeUtc.micros⟩
  currentPrice := loop.firstBar.val.close
  cash := loop.startingCash
  positions := Dict.empty
  result := {}
  task := .atBar loop.bars
  submitted := []

/-- The end of the run, once the bars are used up. -/
def finish (s : State) : State :=
  { s with
    broker := s.broker.disconnect s.now
    task := .finished
    result := { s.result with
      finalEquity := (s.result.equityCurve.getLast?.map (·.equity)).getD loop.startingCash } }

/-- The sizer's input. -/
def sizerInput (s : State) (bar : Bar) (position : Decimal) : SizerInput where
  targetWeights := Dict.empty.set loop.instrumentKey (truncate position * loop.targetLeverage)
  equity := computeEquity s.cash s.positions bar.val.close
  navSlice := loop.liveConfig.val.navSlice
  currentPositions := s.positions
  instrumentResolver := fun _ => .ok loop.instrument
  priceLookup := fun _ => .ok s.currentPrice
  strategyId := loop.liveConfig.val.strategyId
  now := bar.val.closeTimeUtc

/-- One bar, up to the loop over its candidate orders. -/
def openRebalance (s : State) (bar : Bar) (bars : List Bar) (ids : Nat → UUID) : State :=
  match SimClock.tick s.now (bar.val.closeTimeUtc.micros - s.now.micros) with
  | .error e => s.raise e
  | .ok now =>
      let s := { s with now, currentPrice := bar.val.close }
      match loop.positionSeries.get? bar.val.closeTimeUtc with
      | none => { s with task := .atBar bars }
      | some position =>
          match sizeOrders .exact (loop.sizerInput s bar position) ids with
          | .error e => s.raise e
          | .ok orders => { s with task := .atOrder ⟨bar, orders, bars⟩ }

/-- The end of a rebalance: its point of the equity curve. -/
def closeRebalance (s : State) (bar : Bar) (bars : List Bar) : State :=
  { s with
    task := .atBar bars
    result := { s.result with equityCurve := s.result.equityCurve ++ [{
      timeUtc := bar.val.closeTimeUtc
      cash := s.cash
      positionQty := quantityOf (s.positions.get? loop.instrumentKey)
      markPrice := bar.val.close
      equity := computeEquity s.cash s.positions bar.val.close }] } }

/-- The inputs of the risk engine, when the file system holds `artefact`. -/
def riskInputs (bar : Bar) (artefact : String → Artefact) : RiskInputs where
  lastBar := some bar
  isMarketOpen := true
  artefactPaths := loop.liveConfig.val.artefactPaths.items.map fun path => (path.1, artefact path.2)

/-- One candidate order, up to the drain of its events. -/
def submitOrder (s : State) (work : Work) (order : Order) (artefact : String → Artefact) : State :=
  let (approved, breaches) :=
    loop.riskEngine.approve order (loop.riskInputs work.bar artefact) work.bar.val.closeTimeUtc
  let s := { s with result := { s.result with breaches := s.result.breaches ++ breaches } }
  match approved with
  | none => { s with task := .atOrder work }
  | some approved =>
      let s := { s with submitted := s.submitted ++ [approved] }
      match s.broker.submit approved with
      | .error e => s.raise e
      | .ok broker =>
          { s with broker, task := .inDrain work { targetId := approved.val.clientOrderId } }

/-- A fill is booked: position, cash and count. -/
def bookFill (s : State) (work : Work) (fill : Fill) : State :=
  match applyFill (s.positions.get? loop.instrumentKey) fill loop.liveConfig.val.strategyId
      work.bar.val.closeTimeUtc with
  | .error e => s.raise e
  | .ok position =>
      { s with
        task := .atOrder work
        positions := s.positions.set loop.instrumentKey position
        cash := s.cash - (fill.signedQty * fill.val.price + fill.val.commission)
        result := { s.result with fillsCount := s.result.fillsCount + 1 } }

/-- The drain has ended: what the loop body does with its outcome. -/
def settle (s : State) (work : Work) (drain : Drain) : State :=
  match drain.bookedFill with
  | some fill => loop.bookFill s work fill
  | none => { s with task := .atOrder work }

end PaperLoop

/-! ## One step -/

/-- `proceed` runs the loop to its next bar or candidate order, with what `uuid4()` returns and
what the file system holds; `lifecycle` runs a task of the broker, `getEvent` resumes the drain
with the next event. -/
inductive Action where
  | proceed (ids : Nat → UUID) (artefact : String → Artefact)
  | lifecycle (i : Nat)
  | getEvent

def step (loop : PaperLoop) (s : State) : Action → Option State
  | .proceed ids artefact =>
      match s.task with
      | .atBar [] => some (loop.finish s)
      | .atBar (bar :: bars) => some (loop.openRebalance s bar bars ids)
      | .atOrder ⟨bar, [], bars⟩ => some (loop.closeRebalance s bar bars)
      | .atOrder ⟨bar, order :: orders, bars⟩ =>
          some (loop.submitOrder s ⟨bar, orders, bars⟩ order artefact)
      | _ => none
  | .lifecycle i =>
      match s.task with
      | .inDrain _ _ =>
          (s.broker.step loop.config (.lifecycle i ⟨s.now, .ok s.currentPrice, false⟩)).map
            fun broker => { s with broker }
      | _ => none
  | .getEvent =>
      match s.task, s.broker.events[s.cursor]? with
      | .inDrain work drain, some event =>
          let s := { s with cursor := s.cursor + 1 }
          let drain := drain.read event
          some (if drain.done then loop.settle s work drain
            else { s with task := .inDrain work drain })
      | _, _ => none

end PaperPipeline

end Blive
