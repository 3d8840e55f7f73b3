import Blive.Adapters.Eodhd.Conventions
import Blive.Adapters.Ib.Broker
import Blive.Domain.OrderFsm
import Blive.Risk.Checks
import Blive.Sizing.Sizer
import Blive.Strategy.Config

/-!
# The IB pipelines

`runtime/ib_pipeline.py`. `run_ib_pipeline` and `run_ib_multi_pipeline` are one loop, a
`RebalanceLoop`, over different ways to read a bar. The loop is a coroutine next to the broker's
handlers: it gives up control in `broker.submit`, in `broker.cancel` and while a drain waits for
the next event, and there the venue pushes, the event loop runs its tasks and the kill switch is
called. `Task` says where the coroutine stands; an action is one stretch of it, or one thing that
happens around it. `LogAlert.send` never gives up control and is no point of its own. The amounts
of the loop are exact, and so is its sizer; the prices at the wire are snapped in the context of 28
digits.
-/

namespace Blive.IbPipeline

open IBBroker (SubmitCall)

/-! ## Orders for IB -/

/-- The order for IB, given the type, the time in force and the limit price it gets. -/
def ibOrderFields (desired : Order) (orderType : OrderType) (timeInForce : TimeInForce)
    (limitPrice : Option Decimal) (id : UUID) : OrderFields :=
  { desired.val with
    clientOrderId := id
    orderType := orderType
    timeInForce := timeInForce
    limitPrice := limitPrice
    stopPrice := none
    parentId := none
    tags := Dict.setItems "pipeline" "m2-ib.5" desired.val.tags }

/-- The limit price: the reference moved by the offset to the aggressive side. -/
def limitPriceOf (side : OrderSide) (ibReference limitPriceOffsetBps : Decimal) : Decimal :=
  let scale := limitPriceOffsetBps / 10000
  if side = .buy then ibReference * (1 + scale) else ibReference * (1 - scale)

/-- `_ib_order_from_desired` -/
def ibOrderFromDesired (desired : Order) (bar : Bar) (orderType : OrderType)
    (limitPriceOffsetBps : Decimal) (id : UUID) : Except PyError Order :=
  match orderType with
  | .mkt | .adaptiveMkt =>
      Frozen.make (ibOrderFields desired orderType desired.val.timeInForce none id)
  | .lmt => do
      let ibReference ← eodhdToIbPrice desired.val.instrument.val.symbol bar.val.close
      let limitPrice := limitPriceOf desired.val.side ibReference limitPriceOffsetBps
      Frozen.make (ibOrderFields desired .lmt .day (some limitPrice) id)
  | .moc | .loc | .stp | .stpLmt =>
      .error (.valueError "run_ib_pipeline supports MKT / ADAPTIVE_MKT / LMT order_type only; got ")

/-! ## The drain of one order's events -/

/-- The variables of `_drain_order_lifecycle`. -/
structure Drain where
  targetId : ClientOrderId
  state : OrderState := .submitPending
  fillEvent : Option OrderEvent := none
  reachedAccepted : Bool := false

namespace Drain

/-- What the loop body does with an event of the target. -/
def observe (drain : Drain) (event : OrderEvent) : Drain :=
  match event.val.kind with
  | .submitted => { drain with state := .submitted }
  | .accepted => { drain with state := .accepted, reachedAccepted := true }
  | .partialFill =>
      { drain with state := .partiallyFilled, reachedAccepted := true, fillEvent := some event }
  | .filled => { drain with state := .filled, reachedAccepted := true, fillEvent := some event }
  | .canceled => { drain with state := .canceled }
  | .rejected => { drain with state := .rejected }
  | .expired => { drain with state := .expired }

/-- The loop body on the event that was taken off the queue. -/
def read (drain : Drain) (event : BrokerEvent) : Drain :=
  match event.order? with
  | none => drain
  | some event => if event.val.clientOrderId ≠ drain.targetId then drain else drain.observe event

/-- The loop breaks at a terminal state. -/
def done (drain : Drain) : Bool := isTerminal drain.state

/-- The fill of the event that decided the drain, when the order was filled. -/
def bookedFill (drain : Drain) : Option Fill :=
  if drain.state = .filled then drain.fillEvent.bind fun event => event.val.fill else none

end Drain

/-! ## The loop both pipelines run -/

/-- What the loop body computes from a bar before it calls the sizer. -/
structure Rebalance where
  bar : Bar
  targetWeights : Dict String Decimal
  barsBySymbol : Dict String Bar
  markPrices : Dict String Decimal

/-- `t` of the loop body. -/
def Rebalance.time (rebalance : Rebalance) : Datetime := rebalance.bar.val.closeTimeUtc

structure RebalanceLoop where
  liveConfig : LiveStrategyConfig
  bars : List Bar
  startingCash : Decimal
  limitPriceOffsetBps : Decimal
  /-- The loop body up to the sizer, `none` when it skips the bar. -/
  rebalance : Bar → Except PyError (Option Rebalance)
  instrumentResolver : String → Except PyError Instrument
  priceLookup : Rebalance → Instrument → Except PyError Decimal
  computeEquity : Decimal → Dict String Position → Rebalance → Decimal
  lastBar : Rebalance → Instrument → Except PyError Bar
  referencePrice : Rebalance → Instrument → Option Decimal
  orderTypeOf : String → OrderType
  /-- The key of `positions` a fill is booked under. -/
  bookingKey : Fill → String

structure EquityPoint where
  timeUtc : Datetime
  cash : Decimal
  positions : Dict String Decimal
  markPrices : Dict String Decimal
  equity : Decimal

/-- `IBMultiRunResult`; `IBRunResult` is part of it. -/
structure RunResult where
  equityCurve : List EquityPoint := []
  breaches : List RiskBreach := []
  fillsCount : Nat := 0
  submittedCount : Nat := 0
  acceptedCount : Nat := 0
  canceledCount : Nat := 0
  rejectedCount : Nat := 0
  fillsBySymbol : Dict String Nat := Dict.empty
  submittedBySymbol : Dict String Nat := Dict.empty
  observedErrorCodes : Dict Int Nat := Dict.empty
  finalEquity : Decimal := 0

/-- What the loop body still has to do: the candidates of this rebalance and the bars after it. -/
structure Work where
  rebalance : Rebalance
  orders : List Order
  bars : List Bar

/-- Where the coroutine stands. -/
inductive Task where
  /-- At the head of the loop over the bars. -/
  | atBar (bars : List Bar)
  /-- At the head of the loop over the candidate orders. -/
  | atOrder (work : Work)
  /-- In `broker.submit(order)`, with the calls on the kill switch since the approval. -/
  | inSubmit (work : Work) (order : Order) (call : SubmitCall) (switched : List KillSwitch.Call)
  | inDrain (work : Work) (drain : Drain)
  | inCancel (work : Work) (targetId : ClientOrderId)
  /-- In the drain after the engine's cancel. -/
  | inRedrain (work : Work) (drain : Drain)
  | finished
  | raised (e : PyError)

/-- The pipeline's call of `submit`, while it is suspended. -/
def Task.submits : Task → List SubmitCall
  | .inSubmit _ _ call _ => [call]
  | _ => []

/-- One order passed to `broker.submit`: the sizer's order it was made from, and what the risk
engine was asked at that moment. -/
structure Submission where
  desired : Order
  order : Order
  inputs : RiskInputs
  now : Datetime
  killSwitch : KillSwitch

/-- The pipeline, its broker and its kill switch. The broker's queue is what its log holds from
`cursor` on. `submitted`, `booked` and `cancels` are history: the orders passed to `submit`, the
fills applied to the ledger and the orders the engine asked to cancel. -/
structure State where
  broker : IBBroker
  placed : List PlacedOrder
  cursor : Nat
  killSwitch : KillSwitch
  errorCodesBaseline : Dict Int Nat
  cash : Decimal
  positions : Dict String Position
  result : RunResult
  task : Task
  submitted : List Submission
  booked : List Fill
  cancels : List ClientOrderId

namespace State

/-- The events the pipeline has not taken off the broker's queue. -/
def queue (s : State) : List BrokerEvent := s.broker.events.drop s.cursor

/-- The broker and the wire as the system of the IB broker sees them. -/
def toSystem (s : State) : IBSystem := ⟨s.broker, s.task.submits, s.placed⟩

def raise (s : State) (e : PyError) : State := { s with task := .raised e }

end State

/-- `_risk_config_from_live` -/
def riskConfigFromLive (live : LiveStrategyConfig) : RiskEngineConfig where
  maxDataStalenessIntradaySec := live.val.riskOverrides.val.maxDataStalenessIntradaySec
  maxDataStalenessDailySec := live.val.riskOverrides.val.maxDataStalenessDailySec
  outsideRthAllowed := live.val.riskOverrides.val.outsideRthAllowed
  maxModelArtefactAgeDays := live.val.riskOverrides.val.maxModelArtefactAgeDays
  modelArtefactWarningAgeDays := live.val.riskOverrides.val.modelArtefactWarningAgeDays
  isIntraday := false

namespace RebalanceLoop

variable (loop : RebalanceLoop)

/-- The risk engine of the run, at a moment when its switch is `killSwitch`. -/
def riskEngine (killSwitch : KillSwitch) : RiskEngine :=
  ⟨riskConfigFromLive loop.liveConfig, killSwitch, loop.liveConfig.val.strategyId⟩

/-- The run up to the loop: the startup events are drained off the queue. -/
def start (broker : IBBroker) (placed : List PlacedOrder) (killSwitch : KillSwitch) : State where
  broker := broker
  placed := placed
  cursor := broker.events.length
  killSwitch := killSwitch
  errorCodesBaseline := broker.observedErrorCodes
  cash := loop.startingCash
  positions := Dict.empty
  result := {}
  task := .atBar loop.bars
  submitted := []
  booked := []
  cancels := []

/-- The end of the run, once the bars are used up. -/
def finish (s : State) : State :=
  { s with
    task := .finished
    result := { s.result with
      observedErrorCodes :=
        (Dict.ofList (s.broker.observedErrorCodes.items.map fun code =>
          (code.1, code.2 - (s.errorCodesBaseline.get? code.1).getD 0))).filter fun _ n => 0 < n
      finalEquity := (s.result.equityCurve.getLast?.map (·.equity)).getD loop.startingCash } }

/-- The sizer's input. -/
def sizerInput (s : State) (rebalance : Rebalance) : SizerInput where
  targetWeights := rebalance.targetWeights
  equity := loop.computeEquity s.cash s.positions rebalance
  navSlice := loop.liveConfig.val.navSlice
  currentPositions := s.positions
  instrumentResolver := loop.instrumentResolver
  priceLookup := loop.priceLookup rebalance
  strategyId := loop.liveConfig.val.strategyId
  now := rebalance.time

/-- One bar, up to the loop over its candidate orders. -/
def openRebalance (s : State) (bar : Bar) (bars : List Bar) (ids : Nat → UUID) : State :=
  match loop.rebalance bar with
  | .error e => s.raise e
  | .ok none => { s with task := .atBar bars }
  | .ok (some rebalance) =>
      match sizeOrders .exact (loop.sizerInput s rebalance) ids with
      | .error e => s.raise e
      | .ok orders => { s with task := .atOrder ⟨rebalance, orders, bars⟩ }

/-- The end of a rebalance: its point of the equity curve. -/
def closeRebalance (s : State) (rebalance : Rebalance) (bars : List Bar) : State :=
  { s with
    task := .atBar bars
    result := { s.result with equityCurve := s.result.equityCurve ++ [{
      timeUtc := rebalance.time
      cash := s.cash
      positions := s.positions.mapValues (·.val.quantity)
      markPrices := rebalance.markPrices
      equity := loop.computeEquity s.cash s.positions rebalance }] } }

/-- The inputs of the risk engine, when the file system holds `artefact`. -/
def riskInputs (rebalance : Rebalance) (desired : Order) (artefact : String → Artefact) :
    Except PyError RiskInputs := do
  let lastBar ← loop.lastBar rebalance desired.val.instrument
  return {
    lastBar := some lastBar
    isMarketOpen := true
    artefactPaths := loop.liveConfig.val.artefactPaths.items.map fun path =>
      (path.1, artefact path.2)
    referencePrice := loop.referencePrice rebalance desired.val.instrument }

/-- The order for IB of an approved candidate. -/
def promote (rebalance : Rebalance) (approved : Order) (id : UUID) : Except PyError Order := do
  let bar ← loop.lastBar rebalance approved.val.instrument
  ibOrderFromDesired approved bar (loop.orderTypeOf approved.val.instrument.val.symbol)
    loop.limitPriceOffsetBps id

/-- The call of `broker.submit`, up to its first suspension. -/
def callSubmit (s : State) (work : Work) (submission : Submission) : State :=
  let s := { s with submitted := s.submitted ++ [submission] }
  match s.broker.submit submission.order with
  | .error e => s.raise e
  | .ok call => { s with task := .inSubmit work submission.order call [] }

/-- One candidate order, up to its first suspension. -/
def submitOrder (s : State) (work : Work) (desired : Order) (id : UUID)
    (artefact : String → Artefact) : State :=
  match loop.riskInputs work.rebalance desired artefact with
  | .error e => s.raise e
  | .ok inputs =>
      let (approved, breaches) :=
        (loop.riskEngine s.killSwitch).approve desired inputs work.rebalance.time
      let s := { s with result := { s.result with breaches := s.result.breaches ++ breaches } }
      match approved with
      | none => { s with task := .atOrder work }
      | some approved =>
          match loop.promote work.rebalance approved id with
          | .error e => s.raise e
          | .ok order =>
              callSubmit s work ⟨approved, order, inputs, work.rebalance.time, s.killSwitch⟩

/-- `d[key] = d.get(key, 0) + 1` -/
def increment (counts : Dict String Nat) (key : String) : Dict String Nat :=
  counts.set key ((counts.get? key).getD 0 + 1)

/-- `submit` has returned: the drain starts. -/
def submitReturned (s : State) (work : Work) (order : Order) : State :=
  { s with
    task := .inDrain work { targetId := order.val.clientOrderId }
    result := { s.result with
      submittedCount := s.result.submittedCount + 1
      submittedBySymbol :=
        increment s.result.submittedBySymbol order.val.instrument.val.symbol } }

/-- A stretch of `submit` has ended. -/
def submitEnded (s : State) (work : Work) (order : Order) (switched : List KillSwitch.Call) :
    IBBroker.SubmitResult → State
  | .suspended call => { s with task := .inSubmit work order call switched }
  | .returned => submitReturned s work order
  | .raised e => s.raise e

/-- A fill is booked: position, cash and counters. -/
def bookFill (s : State) (work : Work) (fill : Fill) : State :=
  let key := loop.bookingKey fill
  match applyFill (s.positions.get? key) fill loop.liveConfig.val.strategyId
      work.rebalance.time with
  | .error e => s.raise e
  | .ok position =>
      { s with
        task := .atOrder work
        positions := s.positions.set key position
        cash := s.cash - (fill.signedQty * fill.val.price + fill.val.commission)
        booked := s.booked ++ [fill]
        result := { s.result with
          fillsCount := s.result.fillsCount + 1
          fillsBySymbol := increment s.result.fillsBySymbol key } }

/-- The drain after the engine's cancel starts. -/
def startRedrain (s : State) (work : Work) (targetId : ClientOrderId) : State :=
  { s with task := .inRedrain work { targetId } }

/-- `broker.cancel`, up to its suspension; a `KeyError` is passed over. -/
def engineCancel (s : State) (work : Work) (targetId : ClientOrderId) : State :=
  let s := { s with cancels := s.cancels ++ [targetId] }
  match s.broker.cancel targetId with
  | .ok _ => { s with task := .inCancel work targetId }
  | .error (.keyError _) => startRedrain s work targetId
  | .error e => s.raise e

/-- The first drain has ended: what the loop body does with its outcome. -/
def settle (s : State) (work : Work) (drain : Drain) : State :=
  let s := { s with result := { s.result with
    acceptedCount := s.result.acceptedCount + drain.reachedAccepted.toNat } }
  match drain.bookedFill, drain.state with
  | some fill, _ => loop.bookFill s work fill
  | none, .canceled =>
      { s with
        task := .atOrder work
        result := { s.result with canceledCount := s.result.canceledCount + 1 } }
  | none, .rejected =>
      { s with
        task := .atOrder work
        result := { s.result with rejectedCount := s.result.rejectedCount + 1 } }
  | none, _ => engineCancel s work drain.targetId

/-- The second drain has ended; its outcome is ignored. -/
def settleCancel (s : State) (work : Work) : State :=
  { s with
    task := .atOrder work
    result := { s.result with canceledCount := s.result.canceledCount + 1 } }

end RebalanceLoop

/-! ## One step -/

/-- `proceed` runs the loop to its next bar or candidate order, with what `uuid4()` returns and
what the file system holds; the next four resume the coroutine with the answer it waits for;
`venue` is a push of IB, a connection change or the event loop running a task of the broker. -/
inductive Action where
  | proceed (ids : Nat → UUID) (artefact : String → Artefact)
  | priceRules (result : Except PyError (List PriceIncrement)) (now : Utc)
  | acquired (result : Except PyError Int) (now : Utc)
  | canceled (result : Except PyError Unit)
  | getEvent
  | timeout
  | killSwitch (call : KillSwitch.Call)
  | venue (action : IBSystem.Action)

/-- The actions of the broker's system that are no call of `submit` and no part of one. -/
def isPush : IBSystem.Action → Bool
  | .connect _ | .disconnect _ | .statusEvent _ _ _ | .fillEvent _ _ _ _ | .errorEvent _ _ _
  | .tick _ _ _ => true
  | .submit _ | .priceRules _ _ _ | .acquired _ _ _ => false

/-- The calls on the switch are noted while an approved order is in `submit`. -/
def Task.noteSwitch (call : KillSwitch.Call) : Task → Task
  | .inSubmit work order submitCall switched =>
      .inSubmit work order submitCall (switched ++ [call])
  | task => task

open RebalanceLoop in
def step (loop : RebalanceLoop) (policy : RoundingPolicy) (s : State) : Action → Option State
  | .proceed ids artefact =>
      match s.task with
      | .atBar [] => some (loop.finish s)
      | .atBar (bar :: bars) => some (loop.openRebalance s bar bars ids)
      | .atOrder ⟨rebalance, [], bars⟩ => some (loop.closeRebalance s rebalance bars)
      | .atOrder ⟨rebalance, desired :: orders, bars⟩ =>
          some (loop.submitOrder s ⟨rebalance, orders, bars⟩ desired (ids 0) artefact)
      | _ => none
  | .priceRules result now =>
      match s.task with
      | .inSubmit work order ⟨wired, .priceRules⟩ switched =>
          let (broker, ended) := s.broker.afterPriceRules policy wired result now
          some (submitEnded { s with broker } work order switched ended)
      | _ => none
  | .acquired result now =>
      match s.task with
      | .inSubmit work order ⟨wired, .token contract ibOrder⟩ _ =>
          match result with
          | .error e => some (s.raise e)
          | .ok orderId =>
              let placed : PlacedOrder := ⟨wired, contract, ibOrder, orderId⟩
              some (submitReturned { s with
                broker := s.broker.afterPlaceOrder placed now
                placed := s.placed ++ [placed] } work order)
      | _ => none
  | .canceled result =>
      match s.task with
      | .inCancel work targetId =>
          match result with
          | .ok () | .error (.keyError _) => some (startRedrain s work targetId)
          | .error e => some (s.raise e)
      | _ => none
  | .getEvent =>
      match s.task, s.broker.events[s.cursor]? with
      | .inDrain work drain, some event =>
          let s := { s with cursor := s.cursor + 1 }
          let drain := drain.read event
          some (if drain.done then loop.settle s work drain
            else { s with task := .inDrain work drain })
      | .inRedrain work drain, some event =>
          let s := { s with cursor := s.cursor + 1 }
          let drain := drain.read event
          some (if drain.done then settleCancel s work
            else { s with task := .inRedrain work drain })
      | _, _ => none
  | .timeout =>
      match s.task with
      | .inDrain work drain => some (loop.settle s work drain)
      | .inRedrain work _ => some (settleCancel s work)
      | _ => none
  | .killSwitch call =>
      some { s with
        killSwitch := s.killSwitch.after call
        task := s.task.noteSwitch call }
  | .venue action =>
      if isPush action then
        (IBSystem.step policy s.toSystem action).map fun system =>
          { s with broker := system.broker }
      else none

/-! ## The two pipelines -/

/-- `PaperMarketData`: the fixture bars of each instrument it was loaded with. -/
abbrev MarketData := Instrument → Option (List Bar)

/-- `market_data.bars(instrument)` -/
def MarketData.bars (marketData : MarketData) (instrument : Instrument) :
    Except PyError (List Bar) :=
  orRaise (marketData instrument) (.keyError "")

/-- `market_data.latest(instrument, on_or_before=t)` -/
def MarketData.latest (marketData : MarketData) (instrument : Instrument) (onOrBefore : Datetime) :
    Except PyError (Option Bar) := do
  let bars ← marketData.bars instrument
  return (bars.takeWhile fun bar => bar.val.closeTimeUtc.micros ≤ onOrBefore.micros).getLast?

/-- `int(x)` -/
def truncate (x : Decimal) : Int := if 0 ≤ x then x.floor else -(-x).floor

/-- The position series maps bar close times to values. -/
structure IbPipelineArgs where
  liveConfig : LiveStrategyConfig
  marketData : MarketData
  instrument : Instrument
  positionSeries : Dict Datetime Decimal
  startingCash : Decimal := 1000000
  targetLeverage : Decimal := 1
  orderType : OrderType := .lmt
  limitPriceOffsetBps : Decimal := 50

/-- `_compute_equity` -/
def computeEquity (cash : Decimal) (positions : Dict String Position) (markPrice : Decimal) :
    Decimal :=
  cash + positions.values.foldl (fun notional p => notional + p.val.quantity * markPrice) 0

/-- `run_ib_pipeline`, up to its loop. -/
def runIbPipeline (args : IbPipelineArgs) (broker : IBBroker) : Except PyError RebalanceLoop := do
  require (broker.connected = true)
    (.runtimeError "run_ib_pipeline expects an already-connected IBBroker")
  let bars ← args.marketData.bars args.instrument
  require (bars ≠ []) (.valueError "no bars in fixture for ")
  let instrumentKey := args.instrument.val.symbol
  return {
    liveConfig := args.liveConfig
    bars := bars
    startingCash := args.startingCash
    limitPriceOffsetBps := args.limitPriceOffsetBps
    rebalance := fun bar => .ok <|
      (args.positionSeries.get? bar.val.closeTimeUtc).map fun position => {
        bar := bar
        targetWeights := Dict.empty.set instrumentKey (truncate position * args.targetLeverage)
        barsBySymbol := Dict.empty.set instrumentKey bar
        markPrices := Dict.empty.set instrumentKey bar.val.close }
    instrumentResolver := fun _ => .ok args.instrument
    priceLookup := fun rebalance _ => .ok rebalance.bar.val.close
    computeEquity := fun cash positions rebalance =>
      computeEquity cash positions rebalance.bar.val.close
    lastBar := fun rebalance _ => .ok rebalance.bar
    referencePrice := fun _ _ => none
    orderTypeOf := fun _ => args.orderType
    bookingKey := fun _ => instrumentKey }

/-- A `DataFrame` of target weights: its columns, and a row of values by column for each close
time in its index. -/
structure WeightsFrame where
  columns : List String
  rows : Dict Datetime (String → Decimal)

/-- `df.empty` -/
def WeightsFrame.empty (frame : WeightsFrame) : Prop := frame.columns = [] ∨ frame.rows.items = []

instance (frame : WeightsFrame) : Decidable frame.empty := inferInstanceAs (Decidable (_ ∨ _))

structure IbMultiPipelineArgs where
  liveConfig : LiveStrategyConfig
  marketData : MarketData
  instruments : List Instrument
  targetWeightsSeries : WeightsFrame
  startingCash : Decimal := 1000000
  orderType : OrderType := .mkt
  orderTypeBySymbol : Option (Dict String OrderType) := none
  limitPriceOffsetBps : Decimal := 50

namespace IbMultiPipelineArgs

variable (args : IbMultiPipelineArgs)

/-- `inst_by_symbol` -/
def instBySymbol : Dict String Instrument :=
  Dict.ofList (args.instruments.map fun instrument => (instrument.val.symbol, instrument))

/-- `bars_by_symbol`: an instrument without a bar so far is left out. -/
def barsBySymbol (others : List Instrument) (t : Datetime) (bars : Dict String Bar) :
    Except PyError (Dict String Bar) :=
  others.foldlM (fun bars instrument => do
    match ← args.marketData.latest instrument t with
    | none => return bars
    | some bar => return bars.set instrument.val.symbol bar) bars

/-- `target_weights` of the row of a rebalance. -/
def targetWeights (row : String → Decimal) : Dict String Decimal :=
  Dict.ofList (args.instruments.map fun instrument =>
    (instrument.val.symbol,
      if instrument.val.symbol ∈ args.targetWeightsSeries.columns then row instrument.val.symbol
      else 0))

/-- The loop body up to the sizer. -/
def rebalance (canonical : Instrument) (others : List Instrument) (bar : Bar) :
    Except PyError (Option Rebalance) := do
  match args.targetWeightsSeries.rows.get? bar.val.closeTimeUtc with
  | none => return none
  | some row =>
      let bars ← args.barsBySymbol others bar.val.closeTimeUtc
        (Dict.empty.set canonical.val.symbol bar)
      if bars.items.length ≠ args.instruments.length then return none
      else
        let markPrices ← markPricesOf bars.items Dict.empty
        return some {
          bar := bar
          targetWeights := args.targetWeights row
          barsBySymbol := bars
          markPrices := markPrices }
where
  /-- `mark_prices`: every close in the unit IB quotes the symbol in. -/
  markPricesOf : List (String × Bar) → Dict String Decimal → Except PyError (Dict String Decimal)
    | [], prices => .ok prices
    | (symbol, bar) :: bars, prices => do
        let price ← eodhdToIbPrice symbol bar.val.close
        markPricesOf bars (prices.set symbol price)

/-- The effective order type of a symbol. -/
def orderTypeOf (symbol : String) : OrderType :=
  match args.orderTypeBySymbol with
  | some bySymbol => (bySymbol.get? symbol).getD args.orderType
  | none => args.orderType

end IbMultiPipelineArgs

/-- `_compute_equity_multi` -/
def computeEquityMulti (cash : Decimal) (positions : Dict String Position)
    (markPrices : Dict String Decimal) : Decimal :=
  cash + positions.items.foldl (fun notional item =>
    match markPrices.get? item.1 with
    | some price => notional + item.2.val.quantity * price
    | none => notional) 0

/-- `bars_by_symbol[instrument.symbol]` -/
def Rebalance.barOf (rebalance : Rebalance) (instrument : Instrument) : Except PyError Bar :=
  orRaise (rebalance.barsBySymbol.get? instrument.val.symbol) (.keyError "")

/-- `run_ib_multi_pipeline`, up to its loop. -/
def runIbMultiPipeline (args : IbMultiPipelineArgs) (broker : IBBroker) :
    Except PyError RebalanceLoop := do
  require (broker.connected = true)
    (.runtimeError "run_ib_multi_pipeline expects an already-connected IBBroker")
  match args.instruments with
  | [] => .error (.valueError "instruments list must be non-empty")
  | canonical :: others => do
      require (¬ args.targetWeightsSeries.empty)
        (.valueError "target_weights_series must not be empty")
      let bars ← args.marketData.bars canonical
      require (bars ≠ []) (.valueError "no bars in fixture for canonical instrument ")
      return {
        liveConfig := args.liveConfig
        bars := bars
        startingCash := args.startingCash
        limitPriceOffsetBps := args.limitPriceOffsetBps
        rebalance := args.rebalance canonical others
        instrumentResolver := fun symbol => orRaise (args.instBySymbol.get? symbol) (.keyError "")
        priceLookup := fun rebalance instrument => do
          let bar ← rebalance.barOf instrument
          eodhdToIbPrice instrument.val.symbol bar.val.close
        computeEquity := fun cash positions rebalance =>
          computeEquityMulti cash positions rebalance.markPrices
        lastBar := Rebalance.barOf
        referencePrice := fun rebalance instrument =>
          rebalance.markPrices.get? instrument.val.symbol
        orderTypeOf := args.orderTypeOf
        bookingKey := fun fill => fill.val.instrument.val.symbol }

/-- Either pipeline, with its arguments. -/
inductive Pipeline where
  | single (args : IbPipelineArgs)
  | multi (args : IbMultiPipelineArgs)

/-- The pipeline up to its loop. -/
def Pipeline.enter : Pipeline → IBBroker → Except PyError RebalanceLoop
  | .single args => runIbPipeline args
  | .multi args => runIbMultiPipeline args

/-! ## A concrete pipeline, for runs on fixed values -/

/-- One daily bar that closes at 100. -/
def sampleBar : Bar :=
  ⟨⟨sampleInstrument, ⟨0, some 0⟩, ⟨86400000000, some 0⟩, 100, 100, 100, 100, 1000, none⟩,
    by decide +kernel⟩

/-- The bar after `sampleBar`, which closes ten lower. -/
def sampleNextBar : Bar :=
  ⟨{ sampleBar.val with
      openTimeUtc := ⟨86400000000, some 0⟩
      closeTimeUtc := ⟨172800000000, some 0⟩
      low := 90
      close := 90 }, by decide +kernel⟩

def sampleLiveConfig : LiveStrategyConfig :=
  ⟨{ strategyId := "trend", navSlice := 1 / 10 }, by decide +kernel⟩

/-- The fixture of `sampleInstrument` is `sampleBar`. -/
def sampleMarketData : MarketData := fun instrument =>
  if instrument = sampleInstrument then some [sampleBar] else none

/-- Fully invested at `sampleBar`, with market orders: the one order buys 1000 shares. -/
def sampleArgs : IbPipelineArgs where
  liveConfig := sampleLiveConfig
  marketData := sampleMarketData
  instrument := sampleInstrument
  positionSeries := Dict.empty.set sampleBar.val.closeTimeUtc 1
  orderType := .mkt

/-- The same position in the multi-instrument pipeline, with limit orders at an offset. -/
def sampleMultiArgs (limitPriceOffsetBps : Decimal) : IbMultiPipelineArgs where
  liveConfig := sampleLiveConfig
  marketData := sampleMarketData
  instruments := [sampleInstrument]
  targetWeightsSeries := ⟨["CAC.PA"], Dict.empty.set sampleBar.val.closeTimeUtc fun _ => 1⟩
  orderType := .lmt
  limitPriceOffsetBps := limitPriceOffsetBps

/-- A broker that has just been connected. -/
def sampleBroker : IBBroker := IBBroker.init.connect ⟨0⟩

/-- Every id `uuid4()` returns, and a file system without artefacts. -/
def sampleProceed (id : UUID) : Action := .proceed (fun _ => id) fun _ => none

end Blive.IbPipeline
