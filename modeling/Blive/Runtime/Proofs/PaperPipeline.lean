import Blive.Adapters.Paper.Proofs.Step
import Blive.Runtime.PaperPipeline
import Blive.Runtime.Proofs.SingleLeg

/-!
# The paper pipeline over its instrument

In every run the ledger of the paper pipeline, its orders up to their ids and the place it has come
to are moved by what it hears, and an answer it hears is the fill of the whole order at the close of
the bar. `Stands` says what its broker holds wherever it has come to; a run is at its end, or what
it waits for can be brought about.
-/

namespace Blive.PaperPipeline

open Transition SingleLeg
open IbPipeline (truncate riskConfigFromLive)

/-! ## The pipeline and its leg -/

def PaperLoop.leg (loop : PaperLoop) : SingleLeg where
  liveConfig := loop.liveConfig
  riskConfig := riskConfigFromLive loop.liveConfig
  instrument := loop.instrument
  targetWeight := fun bar => (loop.positionSeries.get? bar.val.closeTimeUtc).map fun position =>
    truncate position * loop.targetLeverage
  price := fun bar => bar.val.close
  promote := fun _ desired => .ok desired

/-- Where the loop has come to. -/
def Task.phase : Task → Phase
  | .atBar bars => .atBar bars
  | .atOrder work => .atOrder work.bar (work.orders.head?.map Order.anonymous) work.bars
  | .inDrain work _ => .waiting work.bar work.bars
  | .finished => .finished
  | .raised _ => .raised

def EquityPoint.point (p : EquityPoint) : Point :=
  ⟨p.timeUtc, p.cash, p.positionQty, p.markPrice, p.equity⟩

def State.view (key : String) (s : State) : View where
  cash := s.cash
  quantity := quantityOf (s.positions.get? key)
  curve := s.result.equityCurve.map EquityPoint.point
  breaches := s.result.breaches
  fillsCount := s.result.fillsCount
  submitted := s.submitted.map Order.anonymous
  phase := s.task.phase

/-- What becomes of the order of a drain that has ended. -/
def Drain.response (drain : Drain) : Response :=
  match drain.bookedFill with
  | some fill => .filled fill.signedQty fill.val.price fill.val.commission
  | none => .unfilled

/-- What is heard in a step from `s` to `t`. -/
def heard (loop : PaperLoop) (s : State) (a : Action) (_ : State) : List Heard :=
  match a with
  | .proceed _ artefact =>
      match s.task with
      | .atOrder ⟨_, _ :: _, _⟩ => [.asked loop.killSwitch artefact]
      | _ => [.turned]
  | .lifecycle _ => []
  | .getEvent =>
      match s.task, s.broker.events[s.cursor]? with
      | .inDrain _ drain, some event =>
          if (drain.read event).done then [.answered (drain.read event).response] else []
      | _, _ => []

/-! ## What the broker holds -/

/-- The closes of the bars never go back. -/
def ClosesInOrder (bars : List Bar) : Prop :=
  bars.Pairwise fun bar later => bar.val.closeTimeUtc.micros ≤ later.val.closeTimeUtc.micros

instance (bars : List Bar) : Decidable (ClosesInOrder bars) :=
  inferInstanceAs (Decidable (bars.Pairwise _))

/-- The closes of the bars are still to come, one after the other. -/
def Ahead (now : Utc) (bars : List Bar) : Prop :=
  (∀ bar ∈ bars, now.micros ≤ bar.val.closeTimeUtc.micros) ∧ ClosesInOrder bars

/-- The broker has nothing in hand. -/
structure Quiet (broker : PaperBroker) : Prop where
  connected : broker.connected = true
  openOrders : ∀ cid, cid ∉ broker.openOrders
  lifecycleTasks : broker.lifecycleTasks = []

/-- The order was submitted and its lifecycle has not started. -/
structure Pending (broker : PaperBroker) (order : Order) : Prop where
  connected : broker.connected = true
  openOrders : ∀ cid, cid ∈ broker.openOrders ↔ cid = order.val.clientOrderId
  lifecycleTasks : ∃ venueId, broker.lifecycleTasks = [⟨order, venueId, .created⟩]

/-- The order is filled whole, at the price and for the commission per share. -/
structure FillsWhole (order : Order) (price commissionPerShare : Decimal) (fill : Fill) : Prop where
  instrument : fill.val.instrument = order.val.instrument
  signedQty : fill.signedQty = order.signedQty
  price : fill.val.price = price
  commission : fill.val.commission = commissionPerShare * order.val.quantity

/-- The FILLED event of the order. -/
def Fills (order : Order) (price commissionPerShare : Decimal) (event : BrokerEvent) : Prop :=
  ∃ e : OrderEvent, event = .order e ∧ e.val.clientOrderId = order.val.clientOrderId ∧
    e.val.kind = .filled ∧ ∃ fill, e.val.fill = some fill ∧
      FillsWhole order price commissionPerShare fill

/-- The events an order at the market is answered with: its progress, and at last its fill, which
a negative commission does without. -/
def Answered (order : Order) (price commissionPerShare : Decimal) (events : List BrokerEvent) :
    Prop :=
  ∃ progress ended, events = progress ++ ended ∧
    PaperBroker.ProgressOnly order.val.clientOrderId progress ∧
    (ended = [] ∧ commissionPerShare < 0 ∨
      ∃ event, ended = [event] ∧ Fills order price commissionPerShare event)

/-- The first event of an answer is the fill, and the last, or there is more to come. -/
theorem Answered.cons {order : Order} {price commissionPerShare : Decimal} {event : BrokerEvent}
    {events : List BrokerEvent} (h : Answered order price commissionPerShare (event :: events)) :
    (events = [] ∧ Fills order price commissionPerShare event) ∨
      PaperBroker.ProgressOnly order.val.clientOrderId [event] ∧
        Answered order price commissionPerShare events := by
  obtain ⟨progress, ended, hevents, hprogress, hended⟩ := h
  cases progress with
  | nil =>
    rcases hended with ⟨rfl, -⟩ | ⟨filled, rfl, hfills⟩
    · cases hevents
    · cases hevents
      exact .inl ⟨rfl, hfills⟩
  | cons first progress =>
    cases hevents
    refine .inr ⟨fun e he => hprogress e ?_, progress, ended, rfl, fun e he => hprogress e ?_,
      hended⟩
    · rw [List.mem_singleton.mp he]
      exact List.mem_cons_self
    · exact List.mem_cons_of_mem _ he

/-- The lifecycle of the pending order runs in one stretch. -/
theorem lifecycle_cases {cfg : PaperConfig} (hlatency : cfg.ackLatency = 0 ∧ cfg.acceptLatency = 0 ∧
    cfg.fillLatency = 0) {broker broker' : PaperBroker} {order : Order}
    (hpending : Pending broker order) (hmkt : order.val.orderType = .mkt) {now : Utc}
    {price : Decimal} (hprice : 0 < price) {i : Nat}
    (h : broker.step cfg (.lifecycle i ⟨now, .ok price, false⟩) = some broker') :
    Quiet broker' ∧ ∃ answers, broker'.events = broker.events ++ answers ∧
      Answered order price cfg.commissionPerShare answers := by
  obtain ⟨hack, haccept, hfillLatency⟩ := hlatency
  obtain ⟨venueId, htasks⟩ := hpending.lifecycleTasks
  simp only [PaperBroker.step, htasks] at h
  cases i with
  | succ i => simp at h
  | zero =>
    simp only [List.getElem?_cons_zero] at h
    have hopen : order.val.clientOrderId ∈ broker.openOrders := (hpending.openOrders _).mpr rfl
    set task : LifecycleTask := ⟨order, venueId, .created⟩ with htask
    have hdue : PaperBroker.fillDue cfg task false = true := by
      simp [PaperBroker.fillDue, htask, hack, haccept, hfillLatency, hmkt]
    have heffects := PaperBroker.simulateLifecycle_effects cfg ⟨now, .ok price, false⟩ task broker
    rw [if_pos ⟨hopen, hdue⟩] at heffects
    have hnext : (PaperBroker.simulateLifecycle cfg ⟨now, .ok price, false⟩ task broker).2 =
        none := by
      simp [PaperBroker.simulateLifecycle, PaperBroker.afterAck, PaperBroker.afterAccept, hack,
        haccept, hfillLatency, htask, hopen, hmkt]
    have hconnected : (PaperBroker.simulateLifecycle cfg ⟨now, .ok price, false⟩ task
        broker).1.connected = true := by
      simp only [PaperBroker.simulateLifecycle, PaperBroker.afterAck, PaperBroker.afterAccept,
        PaperBroker.afterFill, PaperBroker.put_openOrders, hack, haccept, hfillLatency, htask,
        hopen, hmkt, ne_eq, not_true_eq_false, if_false, if_true]
      cases PaperBroker.computeFill cfg ⟨now, .ok price, false⟩ task <;> exact hpending.connected
    generalize PaperBroker.simulateLifecycle cfg ⟨now, .ok price, false⟩ task broker = out
      at h heffects hnext hconnected
    obtain ⟨after, next⟩ := out
    obtain ⟨hbook, progress, hprogress, hevents⟩ := heffects
    cases hnext
    cases h
    refine ⟨⟨hconnected, ?_, rfl⟩, _, (hevents.trans (List.append_assoc _ _ _)),
      progress, _, rfl, hprogress, ?_⟩
    · intro cid
      rw [hbook, Option.isSome_some, if_pos rfl, Dict.mem_erase, hpending.openOrders]
      exact fun h => h.1 h.2
    · cases hfill : PaperBroker.computeFill cfg ⟨now, .ok price, false⟩ task with
      | error e =>
        refine .inl ⟨rfl, ?_⟩
        by_contra hrate
        have hfilled : ∃ fill,
            PaperBroker.computeFill cfg ⟨now, .ok price, false⟩ task = .ok fill :=
          PaperBroker.computeFill_ok_iff.mpr ⟨hprice, not_lt.mp hrate⟩
        obtain ⟨fill, hok⟩ := hfilled
        cases hfill.symm.trans hok
      | ok fill =>
        have hval : fill.val = PaperBroker.fillFields cfg task price now :=
          Frozen.make_eq_ok_iff.mp hfill
        have hwhole : FillsWhole order price cfg.commissionPerShare fill :=
          ⟨by rw [hval]; rfl, by rw [Fill.signedQty, hval]; rfl, by rw [hval]; rfl,
            by rw [hval]; rfl⟩
        exact .inr ⟨_, rfl, _, rfl, rfl, rfl, fill, rfl, hwhole⟩

theorem exists_lifecycle {broker : PaperBroker} {order : Order} (hpending : Pending broker order)
    (cfg : PaperConfig) (env : PaperBroker.LifecycleEnv) :
    ∃ broker', broker.step cfg (.lifecycle 0 env) = some broker' := by
  obtain ⟨venueId, htasks⟩ := hpending.lifecycleTasks
  simp only [PaperBroker.step, htasks]
  exact ⟨_, rfl⟩

/-! ## The invariant -/

/-- What the ledger holds is on the instrument, and no event was taken off the queue that was not
put on it. -/
structure State.OnLeg (loop : PaperLoop) (s : State) : Prop where
  cursor : s.cursor ≤ s.broker.events.length
  keys : ∀ k ∈ s.positions, k = loop.instrumentKey
  held : ∀ position ∈ s.positions.get? loop.instrumentKey,
    position.val.strategyId = loop.leg.liveConfig.val.strategyId ∧
      position.val.instrument = loop.leg.instrument

/-- The loop is in the rebalance of a bar, with one candidate at most. -/
structure Work.OnLeg (loop : PaperLoop) (s : State) (work : Work) : Prop where
  price : s.currentPrice = work.bar.val.close
  ahead : Ahead s.now work.bars
  length : work.orders.length ≤ 1
  orders : ∀ order ∈ work.orders,
    order.val.instrument = loop.leg.instrument ∧ order.val.orderType = .mkt

/-- The loop waits for the order it submitted last. -/
structure Draining (loop : PaperLoop) (s : State) (work : Work) (drain : Drain) (order : Order) :
    Prop where
  task : s.task = .inDrain work drain
  onLeg : work.OnLeg loop s
  noOrders : work.orders = []
  target : drain.targetId = order.val.clientOrderId
  last : s.submitted.getLast? = some order
  instrument : order.val.instrument = loop.leg.instrument
  notDone : drain.done = false
  noFill : drain.fillEvent = none

/-- Where the loop stands, and what its broker holds there. -/
inductive Stands (loop : PaperLoop) (s : State) : Prop
  | atBar (bars : List Bar) (htask : s.task = .atBar bars) (hquiet : Quiet s.broker)
      (hqueue : s.queue = []) (hahead : Ahead s.now bars)
  | atOrder (work : Work) (htask : s.task = .atOrder work) (hquiet : Quiet s.broker)
      (hqueue : s.queue = []) (hwork : work.OnLeg loop s)
  | pending (work : Work) (drain : Drain) (order : Order)
      (hdraining : Draining loop s work drain order) (hmkt : order.val.orderType = .mkt)
      (hpending : Pending s.broker order) (hqueue : s.queue = [])
  | answered (work : Work) (drain : Drain) (order : Order)
      (hdraining : Draining loop s work drain order) (hquiet : Quiet s.broker)
      (hanswers : Answered order s.currentPrice loop.commissionPerShare s.queue)
  | finished (htask : s.task = .finished)
  | raised (e : PyError) (htask : s.task = .raised e)

/-- What the pipeline itself sees to: its switch does not change, and the answer to an order is its
fill at the close. -/
def PaperLoop.Sees (loop : PaperLoop) (view : View) : Heard → Prop
  | .turned => True
  | .asked killSwitch _ => killSwitch = loop.killSwitch
  | .answered response => response =
      (fillsAtClose loop.killSwitch (fun _ _ => none) loop.commissionPerShare).response view

/-- The loop has come from `s` to `t` by what it has heard. -/
structure Moves (loop : PaperLoop) (s t : State) (hears : List Heard) : Prop where
  view : t.view loop.instrumentKey = hears.foldl loop.leg.hear (s.view loop.instrumentKey)
  onLeg : t.OnLeg loop
  stands : Stands loop t
  canHear : Throughout loop.leg.hear CanHear (s.view loop.instrumentKey) hears
  sees : Throughout loop.leg.hear loop.Sees (s.view loop.instrumentKey) hears

section Step

variable {loop : PaperLoop} {s t : State}

/-- A run starts with nothing in hand, when its closes are ahead. -/
theorem start_stands (hahead : Ahead loop.start.now loop.bars) :
    loop.start.OnLeg loop ∧ Stands loop loop.start := by
  refine ⟨⟨le_rfl, ?_, ?_⟩, .atBar loop.bars rfl ⟨rfl, ?_, rfl⟩ rfl hahead⟩
  all_goals simp [PaperLoop.start, PaperBroker.connect, PaperBroker.init]

theorem Stands.of_atBar (h : Stands loop s) {bars : List Bar} (htask : s.task = .atBar bars) :
    Quiet s.broker ∧ s.queue = [] ∧ Ahead s.now bars := by
  cases h with
  | atBar bars' htask' hquiet hqueue hahead =>
    cases htask.symm.trans htask'
    exact ⟨hquiet, hqueue, hahead⟩
  | atOrder _ htask' => cases htask.symm.trans htask'
  | pending _ _ _ hdraining => cases htask.symm.trans hdraining.task
  | answered _ _ _ hdraining => cases htask.symm.trans hdraining.task
  | finished htask' => cases htask.symm.trans htask'
  | raised _ htask' => cases htask.symm.trans htask'

theorem Stands.of_atOrder (h : Stands loop s) {work : Work} (htask : s.task = .atOrder work) :
    Quiet s.broker ∧ s.queue = [] ∧ work.OnLeg loop s := by
  cases h with
  | atBar _ htask' => cases htask.symm.trans htask'
  | atOrder work' htask' hquiet hqueue hwork =>
    cases htask.symm.trans htask'
    exact ⟨hquiet, hqueue, hwork⟩
  | pending _ _ _ hdraining => cases htask.symm.trans hdraining.task
  | answered _ _ _ hdraining => cases htask.symm.trans hdraining.task
  | finished htask' => cases htask.symm.trans htask'
  | raised _ htask' => cases htask.symm.trans htask'

/-- The clock goes on to a close that is still to come. -/
theorem tick_of_ahead {now : Utc} {bar : Bar} {bars : List Bar} (h : Ahead now (bar :: bars)) :
    SimClock.tick now (bar.val.closeTimeUtc.micros - now.micros) =
        .ok ⟨bar.val.closeTimeUtc.micros⟩ ∧
      Ahead ⟨bar.val.closeTimeUtc.micros⟩ bars := by
  have hnext : now.micros ≤ bar.val.closeTimeUtc.micros := h.1 bar List.mem_cons_self
  obtain ⟨hlater, hrest⟩ := List.pairwise_cons.mp h.2
  refine ⟨?_, hlater, hrest⟩
  have hstep : 0 ≤ bar.val.closeTimeUtc.micros - now.micros := by omega
  have hsum : now.micros + (bar.val.closeTimeUtc.micros - now.micros) =
      bar.val.closeTimeUtc.micros := by omega
  simp only [SimClock.tick, require, if_pos hstep, hsum]
  rfl

theorem openRebalance_moves (hs : s.OnLeg loop) (hstands : Stands loop s) {bar : Bar}
    {bars : List Bar} (htask : s.task = .atBar (bar :: bars)) (ids : Nat → UUID) :
    Moves loop s (loop.openRebalance s bar bars ids) [.turned] := by
  obtain ⟨hquiet, hqueue, hahead⟩ := hstands.of_atBar htask
  obtain ⟨htick, hrest⟩ := tick_of_ahead hahead
  have hphase : (s.view loop.instrumentKey).phase = .atBar (bar :: bars) := by
    simp only [State.view, htask, Task.phase]
  have hcan : Throughout loop.leg.hear CanHear (s.view loop.instrumentKey) [.turned] :=
    ⟨by simp only [CanHear, hphase], trivial⟩
  have hsees : Throughout loop.leg.hear loop.Sees (s.view loop.instrumentKey) [.turned] :=
    ⟨trivial, trivial⟩
  unfold PaperLoop.openRebalance
  simp only [htick]
  cases hposition : loop.positionSeries.get? bar.val.closeTimeUtc with
  | none =>
    have hweight : loop.leg.targetWeight bar = none := by
      simp only [PaperLoop.leg, hposition, Option.map_none]
    refine ⟨?_, ⟨hs.cursor, hs.keys, hs.held⟩, .atBar bars rfl hquiet hqueue hrest, hcan, hsees⟩
    simp only [List.foldl_cons, List.foldl_nil, hear, turn, hphase, hweight]
    rfl
  | some position =>
    have hweight : loop.leg.targetWeight bar =
        some (truncate position * loop.targetLeverage) := by
      simp only [PaperLoop.leg, hposition, Option.map_some]
    have hsizes : loop.leg.Sizes (s.view loop.instrumentKey) bar
        (truncate position * loop.targetLeverage) loop.instrumentKey
        (loop.sizerInput { s with
          now := ⟨bar.val.closeTimeUtc.micros⟩, currentPrice := bar.val.close } bar position) :=
      { targetWeights := rfl
        equity := IbPipeline.computeEquity_of_keys s.cash bar.val.close hs.keys
        navSlice := rfl
        held := rfl
        instrument := rfl
        price := rfl
        strategyId := rfl
        now := rfl }
    dsimp only
    rcases hsizes.cases ids with ⟨e, e', hsized, hdesired⟩ |
      ⟨orders, desired, hsized, hdesired, hhead, hlength, horders⟩
    · simp only [hsized]
      refine ⟨?_, ⟨hs.cursor, hs.keys, hs.held⟩, .raised e rfl, hcan, hsees⟩
      simp only [List.foldl_cons, List.foldl_nil, hear, turn, hphase, hweight, hdesired]
      rfl
    · simp only [hsized]
      refine ⟨?_, ⟨hs.cursor, hs.keys, hs.held⟩,
        .atOrder _ rfl hquiet hqueue ⟨rfl, hrest, hlength, horders⟩, hcan, hsees⟩
      simp only [List.foldl_cons, List.foldl_nil, hear, turn, hphase, hweight, hdesired]
      simp only [State.view, Task.phase, hhead]

theorem closeRebalance_moves (hs : s.OnLeg loop) (hstands : Stands loop s) {bar : Bar}
    {bars : List Bar} (htask : s.task = .atOrder ⟨bar, [], bars⟩) :
    Moves loop s (loop.closeRebalance s bar bars) [.turned] := by
  obtain ⟨hquiet, hqueue, hwork⟩ := hstands.of_atOrder htask
  have hphase : (s.view loop.instrumentKey).phase = .atOrder bar none bars := by
    simp only [State.view, htask, Task.phase]
    rfl
  have hequity : IbPipeline.computeEquity s.cash s.positions bar.val.close =
      loop.leg.equity (s.view loop.instrumentKey) bar :=
    IbPipeline.computeEquity_of_keys s.cash bar.val.close hs.keys
  refine ⟨?_, ⟨hs.cursor, hs.keys, hs.held⟩, .atBar bars rfl hquiet hqueue hwork.ahead,
    ⟨by simp only [CanHear, hphase], trivial⟩, ⟨trivial, trivial⟩⟩
  simp only [List.foldl_cons, List.foldl_nil, hear, turn, hphase, mark]
  simp only [State.view, PaperLoop.closeRebalance, List.map_append, List.map_cons, List.map_nil,
    EquityPoint.point, hequity]
  rfl

/-- A quiet broker takes an order. -/
theorem submit_of_quiet {broker : PaperBroker} (hquiet : Quiet broker) (order : Order) :
    ∃ broker', broker.submit order = .ok broker' ∧ Pending broker' order ∧
      broker'.events = broker.events := by
  have hnew : order.val.clientOrderId ∉ broker.openOrders := hquiet.openOrders _
  refine ⟨broker.booked order, ?_, ⟨hquiet.connected, ?_, ?_⟩, rfl⟩
  · unfold PaperBroker.submit
    rw [if_neg (by simp [hquiet.connected]), if_neg hnew]
    rfl
  · intro cid
    simp [PaperBroker.booked, hquiet.openOrders]
  · exact ⟨broker.mintVenueId.1, by simp [PaperBroker.booked, hquiet.lifecycleTasks]⟩

theorem submitOrder_moves (hs : s.OnLeg loop) (hstands : Stands loop s) {bar : Bar} {order : Order}
    {orders : List Order} {bars : List Bar} (htask : s.task = .atOrder ⟨bar, order :: orders, bars⟩)
    (artefact : String → Artefact) :
    Moves loop s (loop.submitOrder s ⟨bar, orders, bars⟩ order artefact)
      [.asked loop.killSwitch artefact] := by
  obtain ⟨hquiet, hqueue, hprice, hahead, hlength, horders⟩ := hstands.of_atOrder htask
  obtain rfl : orders = [] := by
    cases orders with
    | nil => rfl
    | cons => simp at hlength
  obtain ⟨hinstrument, hmkt⟩ := horders order List.mem_cons_self
  have hphase : (s.view loop.instrumentKey).phase = .atOrder bar (some order.anonymous) bars := by
    simp only [State.view, htask, Task.phase]
    rfl
  have hcan : Throughout loop.leg.hear CanHear (s.view loop.instrumentKey)
      [.asked loop.killSwitch artefact] := ⟨by simp only [CanHear, hphase], trivial⟩
  have hsees : Throughout loop.leg.hear loop.Sees (s.view loop.instrumentKey)
      [.asked loop.killSwitch artefact] := ⟨rfl, trivial⟩
  have hrest (t : State) (hprice' : t.currentPrice = s.currentPrice) (hnow : t.now = s.now) :
      (⟨bar, [], bars⟩ : Work).OnLeg loop t :=
    ⟨hprice' ▸ hprice, hnow ▸ hahead, Nat.zero_le _, by simp⟩
  have hverdict : loop.riskEngine.approve order (loop.riskInputs bar artefact)
      bar.val.closeTimeUtc = (loop.leg.riskEngine loop.killSwitch).approve order
        (loop.leg.riskInputs bar artefact) bar.val.closeTimeUtc := rfl
  have hanonymous := approve_anonymous (loop.leg.riskEngine loop.killSwitch) order
    (loop.leg.riskInputs bar artefact) bar.val.closeTimeUtc
  unfold PaperLoop.submitOrder
  simp only [hverdict]
  generalize hanswer : (loop.leg.riskEngine loop.killSwitch).approve order
    (loop.leg.riskInputs bar artefact) bar.val.closeTimeUtc = verdict at hanonymous
  obtain ⟨approved, breaches⟩ := verdict
  cases approved with
  | none =>
    refine ⟨?_, ⟨hs.cursor, hs.keys, hs.held⟩,
      .atOrder _ rfl hquiet hqueue (hrest _ rfl rfl), hcan, hsees⟩
    simp only [List.foldl_cons, List.foldl_nil, hear, ask, hphase, hanonymous]
    rfl
  | some approved =>
    obtain rfl : approved = order := by
      have hsome : ((loop.leg.riskEngine loop.killSwitch).approve order
          (loop.leg.riskInputs bar artefact) bar.val.closeTimeUtc).1 = some approved := by
        rw [hanswer]
      exact (RiskEngine.approve_eq_some_iff.mp hsome).1
    obtain ⟨broker', hsubmit, hpending, hevents⟩ := submit_of_quiet hquiet approved
    have hcursor : s.cursor ≤ broker'.events.length := by
      rw [hevents]
      exact hs.cursor
    have hqueue' : broker'.events.drop s.cursor = [] := by
      rw [hevents]
      exact hqueue
    simp only [hsubmit]
    refine ⟨?_, ⟨hcursor, hs.keys, hs.held⟩, .pending ⟨bar, [], bars⟩ _ approved
      ⟨rfl, hrest _ rfl rfl, rfl, rfl, by simp, hinstrument, rfl, rfl⟩ hmkt hpending hqueue', hcan,
      hsees⟩
    simp only [List.foldl_cons, List.foldl_nil, hear, ask, hphase, hanonymous, Option.map_some]
    simp only [State.view, Task.phase, List.map_append]
    rfl

theorem queue_eq_cons {event : BrokerEvent} (h : s.broker.events[s.cursor]? = some event) :
    s.queue = event :: s.broker.events.drop (s.cursor + 1) := by
  obtain ⟨hlt, rfl⟩ := List.getElem?_eq_some_iff.mp h
  exact List.drop_eq_getElem_cons hlt

/-- The lifecycle of the pending order leaves its answer on the queue. -/
theorem lifecycle_answered (hs : s.OnLeg loop) {work : Work} {drain : Drain} {order : Order}
    (hdraining : Draining loop s work drain order) (hmkt : order.val.orderType = .mkt)
    (hpending : Pending s.broker order) (hqueue : s.queue = []) {i : Nat}
    (h : step loop s (.lifecycle i) = some t) :
    t.view loop.instrumentKey = s.view loop.instrumentKey ∧ t.OnLeg loop ∧
      Draining loop t work drain order ∧ Quiet t.broker ∧
      Answered order t.currentPrice loop.commissionPerShare t.queue := by
  simp only [step, hdraining.task] at h
  obtain ⟨broker', hbroker, rfl⟩ := Option.map_eq_some_iff.mp h
  have hprice : 0 < s.currentPrice := hdraining.onLeg.price ▸ Bar.close_pos _
  obtain ⟨hquiet, answers, hevents, hanswers⟩ :=
    lifecycle_cases ⟨rfl, rfl, rfl⟩ hpending hmkt hprice hbroker
  have hend : s.cursor = s.broker.events.length :=
    le_antisymm hs.cursor (List.drop_eq_nil_iff.mp hqueue)
  have hqueue' : broker'.events.drop s.cursor = answers := by
    rw [hevents, hend, List.drop_left]
  have hcursor : s.cursor ≤ broker'.events.length := by
    rw [hevents, List.length_append]
    omega
  obtain ⟨htask, ⟨hclose, hahead, hlength, horders⟩, hnone, htarget, hlast, hinstrument, hnotDone,
    hnoFill⟩ := hdraining
  refine ⟨?_, ⟨hcursor, hs.keys, hs.held⟩, ⟨rfl, ⟨hclose, hahead, hlength, horders⟩, hnone, htarget,
    hlast, hinstrument, hnotDone, hnoFill⟩, hquiet, ?_⟩
  · simp only [State.view, htask]
  · rw [State.queue, hqueue']
    exact hanswers

/-- The lifecycle of the pending order is heard of in the drain only. -/
theorem lifecycle_moves (hs : s.OnLeg loop) (hstands : Stands loop s) {i : Nat}
    (h : step loop s (.lifecycle i) = some t) : Moves loop s t [] := by
  cases hstands with
  | pending work drain order hdraining hmkt hpending hqueue =>
    obtain ⟨hview, hon, hdraining', hquiet, hanswers⟩ :=
      lifecycle_answered hs hdraining hmkt hpending hqueue h
    exact ⟨hview, hon, .answered work drain order hdraining' hquiet hanswers, trivial, trivial⟩
  | answered work drain order hdraining hquiet =>
    simp only [step, hdraining.task, PaperBroker.step, hquiet.lifecycleTasks] at h
    simp at h
  | atBar bars htask => simp [step, htask] at h
  | atOrder work htask => simp [step, htask] at h
  | finished htask => simp [step, htask] at h
  | raised e htask => simp [step, htask] at h

/-- Progress of the order leaves the drain open. -/
theorem read_progress {drain : Drain} {event : BrokerEvent}
    (h : PaperBroker.ProgressOnly drain.targetId [event]) :
    (drain.read event).targetId = drain.targetId ∧ (drain.read event).done = false ∧
      (drain.read event).fillEvent = drain.fillEvent := by
  obtain ⟨e, rfl, hcid, hkind⟩ := h event (List.mem_singleton.mpr rfl)
  have hread : drain.read (.order e) = drain.observe e := by
    simp [Drain.read, BrokerEvent.order?, hcid]
  rw [hread, Drain.observe]
  rcases hkind with hkind | hkind
  · simp only [hkind]
    exact ⟨trivial, rfl, trivial⟩
  · simp only [hkind]
    exact ⟨trivial, rfl, trivial⟩

theorem Draining.read {work : Work} {drain : Drain} {order : Order} {event : BrokerEvent}
    (h : Draining loop s work drain order)
    (hprogress : PaperBroker.ProgressOnly order.val.clientOrderId [event]) :
    Draining loop { s with cursor := s.cursor + 1, task := .inDrain work (drain.read event) } work
      (drain.read event) order := by
  obtain ⟨-, ⟨hclose, hahead, hlength, horders⟩, hnone, htarget, hlast, hinstrument, -,
    hnoFill⟩ := h
  rw [← htarget] at hprogress
  obtain ⟨htarget', hnotDone, hsame⟩ := read_progress hprogress
  exact ⟨rfl, ⟨hclose, hahead, hlength, horders⟩, hnone, htarget'.trans htarget, hlast, hinstrument,
    hnotDone, hsame.trans hnoFill⟩

/-- The fill an event carries. -/
def fillOf (event : BrokerEvent) : Option Fill := event.order?.bind fun e => e.val.fill

/-- The fill of the order ends the drain. -/
theorem read_fills {drain : Drain} {order : Order} {price commissionPerShare : Decimal}
    {event : BrokerEvent} (htarget : drain.targetId = order.val.clientOrderId)
    (h : Fills order price commissionPerShare event) :
    (drain.read event).done = true ∧ ∃ fill, (drain.read event).bookedFill = some fill ∧
      fillOf event = some fill ∧ FillsWhole order price commissionPerShare fill := by
  obtain ⟨e, rfl, hcid, hkind, fill, hfill, hwhole⟩ := h
  have hread : drain.read (.order e) = drain.observe e := by
    simp [Drain.read, BrokerEvent.order?, hcid, htarget]
  rw [hread, Drain.observe]
  simp only [hkind]
  exact ⟨rfl, fill, hfill, hfill, hwhole⟩

/-- The state after the fill of the order is booked. -/
def State.afterFill (loop : PaperLoop) (s : State) (work : Work) (fill : Fill)
    (position : Position) : State :=
  { s with
    cursor := s.cursor + 1
    task := .atOrder work
    positions := s.positions.set loop.instrumentKey position
    cash := s.cash - (fill.signedQty * fill.val.price + fill.val.commission)
    result := { s.result with fillsCount := s.result.fillsCount + 1 } }

/-- The event the drain takes off the queue is progress of its order, or the fill, which is the
last on the queue and is booked. -/
theorem getEvent_cases (hs : s.OnLeg loop) (hstands : Stands loop s)
    (h : step loop s .getEvent = some t) :
    ∃ work drain order event, Draining loop s work drain order ∧ Quiet s.broker ∧
      s.broker.events[s.cursor]? = some event ∧
      ((PaperBroker.ProgressOnly order.val.clientOrderId [event] ∧
          Answered order s.currentPrice loop.commissionPerShare
            (s.broker.events.drop (s.cursor + 1)) ∧
          t = { s with cursor := s.cursor + 1, task := .inDrain work (drain.read event) }) ∨
        (s.broker.events.drop (s.cursor + 1) = [] ∧
          (drain.read event).done = true ∧
          ∃ fill position, (drain.read event).bookedFill = some fill ∧ fillOf event = some fill ∧
            FillsWhole order s.currentPrice loop.commissionPerShare fill ∧
            applyFill (s.positions.get? loop.instrumentKey) fill loop.leg.liveConfig.val.strategyId
              work.bar.val.closeTimeUtc = .ok position ∧
            position.val.strategyId = loop.leg.liveConfig.val.strategyId ∧
            position.val.instrument = loop.leg.instrument ∧
            t = s.afterFill loop work fill position)) := by
  simp only [step] at h
  split at h
  · rename_i work drain event htask hevent
    cases h
    have hqueue := queue_eq_cons hevent
    cases hstands with
    | pending work' drain' order hdraining hmkt hpending hempty =>
      rw [hempty] at hqueue
      cases hqueue
    | answered work' drain' order hdraining hquiet hanswers =>
      cases htask.symm.trans hdraining.task
      rw [hqueue] at hanswers
      refine ⟨work, drain, order, event, hdraining, hquiet, hevent, ?_⟩
      rcases hanswers.cons with ⟨hrest, hfills⟩ | ⟨hprogress, hrest⟩
      · obtain ⟨hdone, fill, hbooked, hfill, hwhole⟩ := read_fills hdraining.target hfills
        have hclose : work.bar.val.closeTimeUtc.utcOffset = some 0 :=
          ((Bar.valid_iff _).mp work.bar.valid).2.1
        obtain ⟨position, hposition, hsame, hposinst⟩ := exists_applyFill hs.held
          work.bar.val.closeTimeUtc (hwhole.instrument.trans hdraining.instrument) hclose
        refine .inr ⟨hrest, hdone, fill, position, hbooked, hfill, hwhole, hposition, hsame,
          hposinst, ?_⟩
        rw [hdone, if_pos rfl]
        simp only [PaperLoop.settle, hbooked, PaperLoop.bookFill]
        rw [show loop.liveConfig = loop.leg.liveConfig from rfl, hposition]
        rfl
      · refine .inl ⟨hprogress, hrest, ?_⟩
        rw [(hdraining.read hprogress).notDone, if_neg (by simp)]
    | atBar bars htask' => cases htask.symm.trans htask'
    | atOrder work htask' => cases htask.symm.trans htask'
    | finished htask' => cases htask.symm.trans htask'
    | raised e htask' => cases htask.symm.trans htask'
  · cases h

theorem getEvent_moves (hs : s.OnLeg loop) (hstands : Stands loop s)
    (h : step loop s .getEvent = some t) : Moves loop s t (heard loop s .getEvent t) := by
  obtain ⟨work, drain, order, event, hdraining, hquiet, hevent, hcases⟩ :=
    getEvent_cases hs hstands h
  have hcursor : s.cursor + 1 ≤ s.broker.events.length :=
    (List.getElem?_eq_some_iff.mp hevent).1
  simp only [heard, hdraining.task, hevent]
  rcases hcases with ⟨hprogress, hrest, rfl⟩ |
    ⟨hrest, hdone, fill, position, hbooked, -, hwhole, hposition, hsame, hposinst, rfl⟩
  · have hdraining' := hdraining.read hprogress
    rw [hdraining'.notDone, if_neg (by simp)]
    refine ⟨?_, ⟨hcursor, hs.keys, hs.held⟩,
      .answered work _ order hdraining' hquiet hrest, trivial, trivial⟩
    simp only [List.foldl_nil, State.view, hdraining.task]
    rfl
  · obtain ⟨htask, hwork, hnone, -, hlast, -, -, -⟩ := hdraining
    have hphase : (s.view loop.instrumentKey).phase = .waiting work.bar work.bars := by
      simp only [State.view, htask, Task.phase]
    have hresponse : (drain.read event).response =
        .filled fill.signedQty fill.val.price fill.val.commission := by
      simp only [Drain.response, hbooked]
    rw [if_pos hdone, hresponse]
    refine ⟨?_, ⟨hcursor, keys_booked hs.keys position, ?_⟩, .atOrder work rfl hquiet hrest
      ⟨hwork.price, hwork.ahead, hwork.length, hwork.orders⟩,
      ⟨by simp only [CanHear, hphase], trivial⟩, ?_, trivial⟩
    · simp only [List.foldl_cons, List.foldl_nil, hear, View.answer, hphase]
      simp only [State.view, State.afterFill, Task.phase, hnone, quantityOf_booked hposition]
      rfl
    · intro held hheld
      rw [State.afterFill, Dict.get?_set, if_pos rfl] at hheld
      cases hheld
      exact ⟨hsame, hposinst⟩
    · have hlast' : (s.view loop.instrumentKey).submitted.getLast? = some order.anonymous := by
        simp only [State.view, List.getLast?_map, hlast, Option.map_some]
      simp only [PaperLoop.Sees, fillsAtClose, hphase, hlast', hwhole.signedQty, hwhole.price,
        hwhole.commission, hwork.price]
      rfl

/-- A step moves the loop by what is heard in it. -/
theorem step_moves {a : Action} (hs : s.OnLeg loop) (hstands : Stands loop s)
    (h : step loop s a = some t) : Moves loop s t (heard loop s a t) := by
  cases a with
  | proceed ids artefact =>
    simp only [step] at h
    split at h
    · rename_i htask
      cases h
      have hphase : (s.view loop.instrumentKey).phase = .atBar [] := by
        simp only [State.view, htask, Task.phase]
      simp only [heard, htask]
      refine ⟨?_, ⟨?_, hs.keys, hs.held⟩, .finished rfl, ⟨by simp only [CanHear, hphase], trivial⟩,
        ⟨trivial, trivial⟩⟩
      · simp only [List.foldl_cons, List.foldl_nil, hear, turn, hphase]
        rfl
      · have hlonger : (loop.finish s).broker.events.length = s.broker.events.length + 1 := by
          simp [PaperLoop.finish, PaperBroker.disconnect]
        rw [hlonger]
        exact Nat.le_succ_of_le hs.cursor
    · rename_i bar bars htask
      cases h
      simp only [heard, htask]
      exact openRebalance_moves hs hstands htask ids
    · rename_i bar bars htask
      cases h
      simp only [heard, htask]
      exact closeRebalance_moves hs hstands htask
    · rename_i bar order orders bars htask
      cases h
      simp only [heard, htask]
      exact submitOrder_moves hs hstands htask artefact
    · cases h
  | lifecycle i => exact lifecycle_moves hs hstands h
  | getEvent => exact getEvent_moves hs hstands h

/-! ## Runs -/

/-- The run is over. -/
def State.Stopped (s : State) : Prop := s.task = .finished ∨ ∃ e, s.task = .raised e

theorem State.Stopped.view (h : s.Stopped) (key : String) : (s.view key).Stopped := by
  rcases h with h | ⟨e, h⟩
  · exact .inl (by rw [State.view, h]; rfl)
  · exact .inr (by rw [State.view, h]; rfl)

theorem State.stopped_of_view {key : String} (h : (s.view key).Stopped) : s.Stopped := by
  simp only [View.Stopped, State.view] at h
  cases htask : s.task with
  | finished => exact .inl htask
  | raised e => exact .inr ⟨e, htask⟩
  | _ => simp [htask, Task.phase] at h

/-- A run moves the loop by what is heard in it. -/
theorem run_moves {as : List Action} (hs : s.OnLeg loop) (hstands : Stands loop s)
    (hrun : run (step loop) s as = some t) :
    Moves loop s t (trace (step loop) (heard loop) s as) := by
  let Known (s : State) : Prop := s.OnLeg loop ∧ Stands loop s
  have hmoves (s : State) (a : Action) (t : State) (hs : Known s) (h : step loop s a = some t) :
      Moves loop s t (heard loop s a t) := step_moves hs.1 hs.2 h
  have hstep (s : State) (a : Action) (t : State) (hs : Known s) (h : step loop s a = some t) :
      Known t := ⟨(hmoves s a t hs h).onLeg, (hmoves s a t hs h).stands⟩
  have hview (s : State) (a : Action) (t : State) (hs : Known s) (h : step loop s a = some t) :=
    (hmoves s a t hs h).view
  have hcanHear (s : State) (a : Action) (t : State) (hs : Known s) (h : step loop s a = some t) :=
    (hmoves s a t hs h).canHear
  have hsees (s : State) (a : Action) (t : State) (hs : Known s) (h : step loop s a = some t) :=
    (hmoves s a t hs h).sees
  have hend : Known t := run_invariant hstep ⟨hs, hstands⟩ hrun
  exact
    { view := run_view hstep hview ⟨hs, hstands⟩ hrun
      onLeg := hend.1
      stands := hend.2
      canHear := run_throughout hstep hview hcanHear ⟨hs, hstands⟩ hrun
      sees := run_throughout hstep hview hsees ⟨hs, hstands⟩ hrun }

/-- The files at a risk check are what the loop has done so far makes of them. -/
def FilesAre (files : View → String → Artefact) (view : View) : Heard → Prop
  | .asked _ artefact => artefact = files view.bare
  | _ => True

/-- A drain whose answer is on the queue comes to its end. -/
theorem exists_answered {queue : List BrokerEvent} {work : Work} {drain : Drain} {order : Order}
    (hdraining : Draining loop s work drain order) (hqueue : s.queue = queue)
    (hanswers : Answered order s.currentPrice loop.commissionPerShare queue)
    (hrate : 0 ≤ loop.commissionPerShare) :
    ∃ as t response, run (step loop) s as = some t ∧
      trace (step loop) (heard loop) s as = [.answered response] := by
  induction queue generalizing s drain with
  | nil =>
    obtain ⟨progress, ended, hnil, -, hended⟩ := hanswers
    rcases hended with ⟨-, hneg⟩ | ⟨event, rfl, -⟩
    · exact absurd hrate (not_le.mpr hneg)
    · simp at hnil
  | cons event queue ih =>
    have hevent : s.broker.events[s.cursor]? = some event := by
      rw [← List.head?_drop]
      exact congrArg List.head? hqueue
    have hrest : s.broker.events.drop (s.cursor + 1) = queue := by
      have htail := congrArg List.tail hqueue
      rwa [State.queue, List.tail_drop] at htail
    rcases hanswers.cons with ⟨-, hfills⟩ | ⟨hprogress, hanswers'⟩
    · obtain ⟨hdone, -⟩ := read_fills hdraining.target hfills
      obtain ⟨t, ht⟩ : ∃ t, step loop s .getEvent = some t := by
        simp only [step, hdraining.task, hevent]
        exact ⟨_, rfl⟩
      refine ⟨[.getEvent], t, (drain.read event).response, run_cons_eq_some.mpr ⟨t, ht, rfl⟩, ?_⟩
      rw [trace_cons ht]
      simp only [heard, hdraining.task, hevent, hdone, if_true]
      rfl
    · have hdraining' := hdraining.read hprogress
      have ht : step loop s .getEvent = some { s with
          cursor := s.cursor + 1, task := .inDrain work (drain.read event) } := by
        simp only [step, hdraining.task, hevent, hdraining'.notDone]
        rfl
      obtain ⟨as, t, response, hrun, htrace⟩ := ih hdraining' hrest hanswers'
      refine ⟨.getEvent :: as, t, response, run_cons_eq_some.mpr ⟨_, ht, hrun⟩, ?_⟩
      rw [trace_cons ht, htrace]
      simp only [heard, hdraining.task, hevent, hdraining'.notDone]
      rfl

/-- A run that is not over can go on, with the files as they are, until something is heard. -/
theorem exists_heard (hs : s.OnLeg loop) (hstands : Stands loop s) (hnot : ¬ s.Stopped)
    (hrate : ∀ bar bars, s.task.phase = .waiting bar bars → s.submitted ≠ [] →
      0 ≤ loop.commissionPerShare) (files : View → String → Artefact) :
    ∃ as t o, run (step loop) s as = some t ∧ trace (step loop) (heard loop) s as = [o] ∧
      FilesAre files (s.view loop.instrumentKey) o := by
  have hsubmitted {work : Work} {drain : Drain} {order : Order}
      (h : Draining loop s work drain order) : s.submitted ≠ [] := by
    intro hnil
    have hlast := h.last
    rw [hnil] at hlast
    cases hlast
  have hone {a : Action} {o : Heard} {t : State} (ht : step loop s a = some t)
      (hheard : heard loop s a t = [o]) (hfiles : FilesAre files (s.view loop.instrumentKey) o) :
      ∃ as t o, run (step loop) s as = some t ∧ trace (step loop) (heard loop) s as = [o] ∧
        FilesAre files (s.view loop.instrumentKey) o := by
    refine ⟨[a], t, o, run_cons_eq_some.mpr ⟨t, ht, rfl⟩, ?_, hfiles⟩
    rw [trace_cons ht, hheard]
    rfl
  cases hstands with
  | atBar bars htask =>
    obtain ⟨t, ht⟩ : ∃ t, step loop s (.proceed (fun _ => 0) fun _ => none) = some t := by
      simp only [step, htask]
      cases bars <;> exact ⟨_, rfl⟩
    exact hone ht (o := .turned) (by simp only [heard, htask]) trivial
  | atOrder work htask =>
    obtain ⟨bar, orders, bars⟩ := work
    cases orders with
    | nil =>
      obtain ⟨t, ht⟩ : ∃ t, step loop s (.proceed (fun _ => 0) fun _ => none) = some t := by
        simp only [step, htask]
        exact ⟨_, rfl⟩
      exact hone ht (o := .turned) (by simp only [heard, htask]) trivial
    | cons order orders =>
      set artefact := files (s.view loop.instrumentKey).bare with hartefact
      obtain ⟨t, ht⟩ : ∃ t, step loop s (.proceed (fun _ => 0) artefact) = some t := by
        simp only [step, htask]
        exact ⟨_, rfl⟩
      exact hone ht (o := .asked loop.killSwitch artefact) (by simp only [heard, htask]) hartefact
  | pending work drain order hdraining hmkt hpending hqueue =>
    have hnonneg := hrate work.bar work.bars (by rw [hdraining.task]; rfl) (hsubmitted hdraining)
    obtain ⟨t, ht⟩ : ∃ t, step loop s (.lifecycle 0) = some t := by
      obtain ⟨broker', hbroker⟩ := exists_lifecycle hpending loop.config
        ⟨s.now, .ok s.currentPrice, false⟩
      simp only [step, hdraining.task, hbroker]
      exact ⟨_, rfl⟩
    obtain ⟨-, -, hdraining', -, hanswers⟩ :=
      lifecycle_answered hs hdraining hmkt hpending hqueue ht
    obtain ⟨as, u, response, hrun, htrace⟩ :=
      exists_answered hdraining' rfl hanswers hnonneg
    refine ⟨.lifecycle 0 :: as, u, .answered response, run_cons_eq_some.mpr ⟨t, ht, hrun⟩, ?_,
      trivial⟩
    rw [trace_cons ht, htrace]
    rfl
  | answered work drain order hdraining hquiet hanswers =>
    have hnonneg := hrate work.bar work.bars (by rw [hdraining.task]; rfl) (hsubmitted hdraining)
    obtain ⟨as, t, response, hrun, htrace⟩ := exists_answered hdraining rfl hanswers hnonneg
    exact ⟨as, t, .answered response, hrun, htrace, trivial⟩
  | finished htask => exact absurd (.inl htask) hnot
  | raised e htask => exact absurd (.inr ⟨e, htask⟩) hnot

theorem passesOn_leg (loop : PaperLoop) : loop.leg.PassesOn := fun _ desired => ⟨desired, rfl, rfl⟩

/-- What the pipeline sees to, with the files as they are, is all that these surroundings say. -/
theorem said_of_sees {files : View → String → Artefact} {view : View} {o : Heard}
    (hsees : loop.Sees view o) (hfiles : FilesAre files view o) :
    (fillsAtClose loop.killSwitch files loop.commissionPerShare).Say view o := by
  cases o with
  | turned => trivial
  | asked killSwitch artefact => exact ⟨hsees, hfiles⟩
  | answered response => exact hsees

/-- A run can go on to its end where the bare leg comes to one, and needs no fill that a negative
commission does without. -/
theorem exists_stopped {files : View → String → Artefact} {n : Nat} (hs : s.OnLeg loop)
    (hstands : Stands loop s)
    (hstops : ((loop.leg.bare.next (fillsAtClose loop.killSwitch files
      loop.commissionPerShare))^[n] (s.view loop.instrumentKey).bare).Stopped)
    (hrate : ∀ k < n, ∀ bar bars, ((loop.leg.bare.next (fillsAtClose loop.killSwitch files
      loop.commissionPerShare))^[k] (s.view loop.instrumentKey).bare).phase = .waiting bar bars →
        ((loop.leg.bare.next (fillsAtClose loop.killSwitch files
          loop.commissionPerShare))^[k] (s.view loop.instrumentKey).bare).submitted ≠ [] →
        0 ≤ loop.commissionPerShare) :
    ∃ as t, run (step loop) s as = some t ∧ t.Stopped ∧
      Throughout loop.leg.hear (FilesAre files) (s.view loop.instrumentKey)
        (trace (step loop) (heard loop) s as) := by
  induction n generalizing s with
  | zero =>
    have hstopped : (s.view loop.instrumentKey).Stopped := hstops
    exact ⟨[], s, rfl, State.stopped_of_view hstopped, trivial⟩
  | succ n ih =>
    by_cases hover : s.Stopped
    · exact ⟨[], s, rfl, hover, trivial⟩
    obtain ⟨as, t, o, hrun, htrace, hfiles⟩ :=
      exists_heard hs hstands hover (fun bar bars hphase hsome =>
        hrate 0 (Nat.succ_pos n) bar bars hphase (by simpa [View.bare, State.view] using hsome))
        files
    have hmoves := run_moves hs hstands hrun
    rw [htrace] at hmoves
    have hsay : (fillsAtClose loop.killSwitch files loop.commissionPerShare).Say
        (s.view loop.instrumentKey).bare o :=
      fillsAtClose_bare (said_of_sees hmoves.sees.1 hfiles)
    have hnext : (t.view loop.instrumentKey).bare =
        loop.leg.bare.next (fillsAtClose loop.killSwitch files loop.commissionPerShare)
          (s.view loop.instrumentKey).bare := by
      rw [hmoves.view, foldl_bare (passesOn_leg loop)]
      exact hear_eq_next hmoves.canHear.1 hsay
    obtain ⟨bs, u, hrest, hstopped, hthroughout⟩ := ih hmoves.onLeg hmoves.stands
      (by rw [hnext]; exact hstops)
      (fun k hk => by
        rw [hnext]
        exact hrate (k + 1) (Nat.succ_lt_succ hk))
    refine ⟨as ++ bs, u, ?_, hstopped, ?_⟩
    · rw [run_append, hrun]
      exact hrest
    · rw [trace_append hrun, throughout_append, htrace, ← hmoves.view]
      exact ⟨⟨hfiles, trivial⟩, hthroughout⟩

/-- A step to the end is the end of the loop. -/
theorem eq_finish {a : Action} (h : step loop s a = some t) (hfinished : t.task = .finished) :
    t = loop.finish s := by
  cases a with
  | proceed ids artefact =>
    simp only [step] at h
    split at h
    · cases h
      rfl
    · cases h
      simp only [PaperLoop.openRebalance] at hfinished
      split at hfinished
      · cases hfinished
      · split at hfinished
        · cases hfinished
        · split at hfinished <;> cases hfinished
    · cases h
      cases hfinished
    · cases h
      simp only [PaperLoop.submitOrder] at hfinished
      split at hfinished
      · cases hfinished
      · split at hfinished <;> cases hfinished
    · cases h
  | lifecycle i =>
    simp only [step] at h
    split at h
    · rename_i work drain htask
      obtain ⟨broker, -, rfl⟩ := Option.map_eq_some_iff.mp h
      cases htask.symm.trans hfinished
    · cases h
  | getEvent =>
    simp only [step] at h
    split at h
    · cases h
      split at hfinished
      · simp only [PaperLoop.settle, PaperLoop.bookFill] at hfinished
        split at hfinished
        · split at hfinished <;> cases hfinished
        · cases hfinished
      · cases hfinished
    · cases h

/-- What a finished run reports is the equity at its last rebalance. -/
theorem finalEquity_of_finished {as : List Action}
    (hrun : run (step loop) loop.start as = some s) (hfinished : s.task = .finished) :
    s.result.finalEquity =
      (s.result.equityCurve.getLast?.map (·.equity)).getD loop.startingCash := by
  let Reported (s : State) : Prop := s.task = .finished → s.result.finalEquity =
    (s.result.equityCurve.getLast?.map (·.equity)).getD loop.startingCash
  have hstep (s : State) (a : Action) (t : State) (_ : Reported s) (h : step loop s a = some t) :
      Reported t := by
    intro hover
    rw [eq_finish h hover]
    rfl
  exact run_invariant (I := Reported) hstep (fun h => by cases h) hrun hfinished

end Step

end Blive.PaperPipeline
