import Blive.Domain.Proofs.PositionHistory
import Blive.Runtime.SingleLeg
import Blive.Runtime.Proofs.Ledger

/-!
# An IB pipeline over one instrument

A `RebalanceLoop` that trades one instrument is the machine of `SingleLeg`: in every run its
ledger, its orders up to their ids and the place it has come to are moved by what it hears, and
by nothing else.
-/

namespace Blive

/-! ## Orders up to their ids -/

/-- An order is built, or fails to be, whatever its id. -/
theorem make_anonymous {fields blank : OrderFields}
    (h : { fields with clientOrderId := 0 } = blank) :
    Order.anonymous <$> Frozen.make fields = Frozen.make blank := by
  subst h
  cases hvalid : postInit fields with
  | ok u =>
    have hblank : postInit { fields with clientOrderId := 0 } = .ok u := hvalid
    rw [Frozen.make_of_valid hvalid]
    exact (Frozen.make_of_valid hblank).symm
  | error e =>
    have hblank : postInit { fields with clientOrderId := 0 } = .error e := hvalid
    rw [Frozen.make_of_error hvalid]
    exact (Frozen.make_of_error hblank).symm

/-- The engine does not look at the id. -/
theorem approve_anonymous (engine : RiskEngine) (order : Order) (inputs : RiskInputs)
    (now : Datetime) : engine.approve order.anonymous inputs now =
      ((engine.approve order inputs now).1.map Order.anonymous,
        (engine.approve order inputs now).2) := by
  have hinstrument : order.anonymous.val.instrument = order.val.instrument := rfl
  have hprice : engine.checkPriceSanity order.anonymous inputs.referencePrice now =
      engine.checkPriceSanity order inputs.referencePrice now := rfl
  unfold RiskEngine.approve
  rw [hinstrument, hprice]
  split
  · rfl
  · cases engine.checkStaleData inputs.lastBar order.val.instrument now with
    | some stale => rfl
    | none =>
      dsimp only
      split
      · rfl
      · obtain ⟨block, warn⟩ := engine.checkArtefactFreshness inputs.artefactPaths now
        cases block with
        | some block => rfl
        | none =>
          dsimp only
          cases engine.checkPriceSanity order inputs.referencePrice now with
          | some price => rfl
          | none => rfl

/-- A market order is approved or not whatever the reference price. -/
theorem approve_of_mkt {order : Order} (h : order.val.orderType = .mkt) (engine : RiskEngine)
    (inputs : RiskInputs) (referencePrice : Option Decimal) (now : Datetime) :
    engine.approve order { inputs with referencePrice } now = engine.approve order inputs now := by
  have hnone : ∀ reference, engine.checkPriceSanity order reference now = none := by
    intro reference
    cases reference with
    | none => rfl
    | some reference => simp [RiskEngine.checkPriceSanity, h]
  unfold RiskEngine.approve
  rw [hnone, hnone]

/-- Promotion does not look at the id it replaces. -/
theorem ibOrderFromDesired_anonymous (desired : Order) (bar : Bar) (orderType : OrderType)
    (limitPriceOffsetBps : Decimal) (id : UUID) :
    Order.anonymous <$> IbPipeline.ibOrderFromDesired desired bar orderType limitPriceOffsetBps id =
      IbPipeline.ibOrderFromDesired desired.anonymous bar orderType limitPriceOffsetBps 0 := by
  cases orderType with
  | mkt => exact make_anonymous rfl
  | adaptiveMkt => exact make_anonymous rfl
  | lmt =>
    have hsymbol : desired.anonymous.val.instrument.val.symbol =
        desired.val.instrument.val.symbol := rfl
    simp only [IbPipeline.ibOrderFromDesired, hsymbol]
    cases eodhdToIbPrice desired.val.instrument.val.symbol bar.val.close with
    | error e => rfl
    | ok ibReference => exact make_anonymous rfl
  | moc => rfl
  | loc => rfl
  | stp => rfl
  | stpLmt => rfl
/-! ## The candidate of the leg -/

/-- The sizer's input at a rebalance of the leg, whose one key is `key`. -/
structure SingleLeg.Sizes (leg : SingleLeg) (view : SingleLeg.View) (bar : Bar) (weight : Decimal)
    (key : String) (inp : SizerInput) : Prop where
  targetWeights : inp.targetWeights = Dict.empty.set key weight
  equity : inp.equity = leg.equity view bar
  navSlice : inp.navSlice = leg.liveConfig.val.navSlice
  held : quantityOf (inp.currentPositions.get? key) = view.quantity
  instrument : inp.instrumentResolver key = .ok leg.instrument
  price : inp.priceLookup leg.instrument = .ok (leg.price bar)
  strategyId : inp.strategyId = leg.liveConfig.val.strategyId
  now : inp.now = bar.val.closeTimeUtc

/-- Two computations that make the same check first agree when they agree once it has passed. -/
theorem require_bind_map_congr {α β γ : Type} {p : Prop} [Decidable p] {e : PyError}
    {k : Unit → Except PyError α} {k' : Unit → Except PyError β} {f : α → γ} {g : β → γ}
    (h : p → f <$> k () = g <$> k' ()) :
    f <$> (require p e >>= k) = g <$> (require p e >>= k') := by
  by_cases hp : p
  · simp only [require, if_pos hp]
    exact h hp
  · simp only [require, if_neg hp]
    rfl

theorem sizeOrdersFrom_single (arith : Arithmetic) (inp : SizerInput) (capital : Decimal)
    (key : String) (weight : Decimal) (ids : Nat → UUID) :
    sizeOrdersFrom arith inp capital [(key, weight)] ids =
      Option.toList <$> sizeOrder arith inp capital key weight (ids 0) := by
  simp only [sizeOrdersFrom]
  cases sizeOrder arith inp capital key weight (ids 0) with
  | error e => rfl
  | ok order => cases order <;> rfl

/-- Up to the id, the candidates of the sizer are the candidate of the leg. -/
theorem SingleLeg.Sizes.candidate {leg : SingleLeg} {view : SingleLeg.View} {bar : Bar}
    {weight : Decimal} {key : String} {inp : SizerInput}
    (h : leg.Sizes view bar weight key inp) (ids : Nat → UUID) :
    List.map Order.anonymous <$> sizeOrders .exact inp ids =
      Option.toList <$> leg.candidate view bar weight := by
  have hitems : inp.targetWeights.items = [(key, weight)] := by rw [h.targetWeights]; rfl
  have hdelta : sizingDelta .exact inp (leg.equity view bar * leg.liveConfig.val.navSlice) key
      weight (leg.price bar) = .ok ((if weight = 0 then 0
        else leg.equity view bar * leg.liveConfig.val.navSlice * weight / leg.price bar) -
        view.quantity) := by
    simp only [sizingDelta, h.held, Arithmetic.fix_exact, bind, Except.bind, pure, Except.pure]
    split <;> rfl
  have hmake (rounded : Decimal) :
      Order.anonymous <$> Frozen.make (deltaOrder inp leg.instrument rounded (ids 0)) =
        Frozen.make (leg.candidateFields bar rounded) := by
    apply make_anonymous
    simp only [deltaOrder, SingleLeg.candidateFields, h.strategyId, h.now]
  unfold sizeOrders SingleLeg.candidate
  rw [hitems, h.navSlice, h.equity]
  refine require_bind_map_congr fun _ => require_bind_map_congr fun _ => ?_
  rw [Arithmetic.fix_exact]
  show _ <$> sizeOrdersFrom .exact inp _ [(key, weight)] ids = _
  rw [sizeOrdersFrom_single]
  unfold sizeOrder
  rw [h.instrument]
  by_cases hweight : -1 ≤ weight ∧ weight ≤ 1
  · simp only [require, if_pos hweight, bind, Except.bind, h.price]
    by_cases hprice : 0 < leg.price bar
    · simp only [if_pos hprice, hdelta]
      generalize quantizeShareQty _ _ = quantized
      cases quantized with
      | error e => rfl
      | ok rounded =>
        dsimp only
        by_cases hzero : rounded = 0
        · simp only [if_pos hzero]
          rfl
        · simp only [if_neg hzero, ← hmake]
          cases Frozen.make (deltaOrder inp leg.instrument rounded (ids 0)) <;> rfl
    · simp only [if_neg hprice]
      rfl
  · simp only [require, if_neg hweight]
    rfl

/-- The candidate of a leg is a market order on its instrument. -/
theorem SingleLeg.candidate_eq_some {leg : SingleLeg} {view : SingleLeg.View} {bar : Bar}
    {weight : Decimal} {order : Order} (h : leg.candidate view bar weight = .ok (some order)) :
    ∃ rounded, rounded ≠ 0 ∧ order.val = leg.candidateFields bar rounded := by
  obtain ⟨-, h⟩ := require_bind_eq_ok_iff.mp h
  obtain ⟨-, h⟩ := require_bind_eq_ok_iff.mp h
  obtain ⟨-, h⟩ := require_bind_eq_ok_iff.mp h
  obtain ⟨-, h⟩ := require_bind_eq_ok_iff.mp h
  obtain ⟨rounded, -, h⟩ := bind_eq_ok_iff.mp h
  split at h
  · cases h
  · rename_i hrounded
    obtain ⟨_, hmake, hsome⟩ := map_eq_ok_iff.mp h
    cases hsome
    exact ⟨rounded, hrounded, Frozen.make_eq_ok_iff.mp hmake⟩

/-- The sizer raises where the leg does, and otherwise has the candidate of the leg, if any. -/
theorem SingleLeg.Sizes.cases {leg : SingleLeg} {view : SingleLeg.View} {bar : Bar}
    {weight : Decimal} {key : String} {inp : SizerInput}
    (h : leg.Sizes view bar weight key inp) (ids : Nat → UUID) :
    (∃ e e', sizeOrders .exact inp ids = .error e ∧ leg.candidate view bar weight = .error e') ∨
      ∃ orders desired, sizeOrders .exact inp ids = .ok orders ∧
        leg.candidate view bar weight = .ok desired ∧
        orders.head?.map Order.anonymous = desired ∧ orders.length ≤ 1 ∧
        ∀ order ∈ orders, order.val.instrument = leg.instrument ∧ order.val.orderType = .mkt := by
  have hcandidate := h.candidate ids
  cases hsized : sizeOrders .exact inp ids with
  | error e =>
    rw [hsized] at hcandidate
    cases hdesired : leg.candidate view bar weight with
    | ok desired =>
      rw [hdesired] at hcandidate
      cases hcandidate
    | error e' => exact .inl ⟨e, e', rfl, rfl⟩
  | ok orders =>
    rw [hsized] at hcandidate
    cases hdesired : leg.candidate view bar weight with
    | error e' =>
      rw [hdesired] at hcandidate
      cases hcandidate
    | ok desired =>
      rw [hdesired] at hcandidate
      have horders : orders.map Order.anonymous = desired.toList := Except.ok.inj hcandidate
      refine .inr ⟨orders, desired, rfl, rfl, ?_, ?_, ?_⟩
      · rw [← List.head?_map, horders]
        cases desired <;> rfl
      · have hlength := congrArg List.length horders
        rw [List.length_map] at hlength
        rw [hlength]
        cases desired <;> simp
      · intro order horder
        have hmem : order.anonymous ∈ desired.toList := by
          rw [← horders]
          exact List.mem_map_of_mem horder
        obtain rfl := Option.mem_toList.mp hmem
        obtain ⟨rounded, -, hfields⟩ := SingleLeg.candidate_eq_some hdesired
        have hinstrument : order.val.instrument = order.anonymous.val.instrument := rfl
        have htype : order.val.orderType = order.anonymous.val.orderType := rfl
        rw [hinstrument, htype, hfields]
        exact ⟨rfl, rfl⟩

/-- A fill of the instrument can be booked. -/
theorem exists_applyFill {leg : SingleLeg} {held : Option Position}
    (hheld : ∀ position ∈ held, position.val.strategyId = leg.liveConfig.val.strategyId ∧
      position.val.instrument = leg.instrument) {fill : Fill} (now : Datetime)
    (hinstrument : fill.val.instrument = leg.instrument) (hnow : now.utcOffset = some 0) :
    ∃ position, applyFill held fill leg.liveConfig.val.strategyId now = .ok position ∧
      position.val.strategyId = leg.liveConfig.val.strategyId ∧
      position.val.instrument = leg.instrument := by
  have hstrategy : leg.liveConfig.val.strategyId ≠ "" :=
    (require_bind_eq_ok_iff.mp leg.liveConfig.valid).1.1
  have hchecks : checkFill held fill leg.liveConfig.val.strategyId = .ok () := by
    cases held with
    | none => exact checkFill_eq_ok_iff.mpr ⟨require_eq_ok_iff.mpr hstrategy, rfl⟩
    | some position =>
      obtain ⟨hsame, hon⟩ := hheld position rfl
      apply checkFill_eq_ok_iff.mpr
      simp only [checkStrategy, checkInstrument, hsame, hon, hinstrument]
      split <;> simp [hstrategy]
  obtain ⟨position, hok, hfields⟩ := applyFill_ok hchecks hnow
  refine ⟨position, hok, ?_, ?_⟩
  · rw [hfields]
    rfl
  · rw [hfields]
    exact hinstrument

/-- A booked fill moves what is held under its key. -/
theorem quantityOf_booked {positions : Dict String Position} {key : String} {fill : Fill}
    {strategyId : String} {now : Datetime} {position : Position}
    (h : applyFill (positions.get? key) fill strategyId now = .ok position) :
    quantityOf ((positions.set key position).get? key) =
      quantityOf (positions.get? key) + fill.signedQty := by
  rw [Dict.get?_set, if_pos rfl]
  exact applyFill_quantity h

/-- Booking under the one key of a ledger keeps it the only one. -/
theorem keys_booked {positions : Dict String Position} {key : String}
    (hkeys : ∀ k ∈ positions, k = key) (position : Position) :
    ∀ k ∈ positions.set key position, k = key := by
  intro k hk
  rcases (Dict.mem_set _ _ _ _).mp hk with hnew | hold
  · exact hnew
  · exact hkeys k hold

namespace IbPipeline

open Transition SingleLeg

/-! ## A loop and its leg -/

theorem computeEquity_of_keys (cash markPrice : Decimal) {positions : Dict String Position}
    {key : String} (h : ∀ k ∈ positions, k = key) :
    computeEquity cash positions markPrice =
      cash + quantityOf (positions.get? key) * markPrice := by
  unfold computeEquity Dict.values
  rw [Dict.items_of_forall_keys h]
  cases positions.get? key <;> simp [quantityOf]

/-- What the loop body computes from a bar of the leg, under the one key of its dictionaries. -/
def rebalanceOf (leg : SingleLeg) (key : String) (bar : Bar) (weight : Decimal) : Rebalance where
  bar := bar
  targetWeights := Dict.empty.set key weight
  barsBySymbol := Dict.empty.set key bar
  markPrices := Dict.empty.set key (leg.price bar)

/-- The loop trades the leg and nothing else. -/
structure RebalanceLoop.Trades (loop : RebalanceLoop) (leg : SingleLeg) (key : String) : Prop where
  liveConfig : loop.liveConfig = leg.liveConfig
  riskConfig : riskConfigFromLive leg.liveConfig = leg.riskConfig
  rebalance : ∀ bar, loop.rebalance bar = .ok ((leg.targetWeight bar).map (rebalanceOf leg key bar))
  instrument : loop.instrumentResolver key = .ok leg.instrument
  price : ∀ bar weight,
    loop.priceLookup (rebalanceOf leg key bar weight) leg.instrument = .ok (leg.price bar)
  equity : ∀ cash (positions : Dict String Position) bar weight, (∀ k ∈ positions, k = key) →
    loop.computeEquity cash positions (rebalanceOf leg key bar weight) =
      cash + quantityOf (positions.get? key) * leg.price bar
  lastBar : ∀ bar weight, loop.lastBar (rebalanceOf leg key bar weight) leg.instrument = .ok bar
  promote : ∀ bar desired, leg.promote bar desired = ibOrderFromDesired desired bar
    (loop.orderTypeOf leg.instrument.val.symbol) loop.limitPriceOffsetBps 0
  bookingKey : ∀ fill : Fill, fill.val.instrument = leg.instrument → loop.bookingKey fill = key

/-- Where the loop has come to. -/
def Task.phase : Task → Phase
  | .atBar bars => .atBar bars
  | .atOrder work =>
      .atOrder work.rebalance.bar (work.orders.head?.map Order.anonymous) work.bars
  | .inSubmit work _ _ _ | .inDrain work _ | .inCancel work _ | .inRedrain work _ =>
      .waiting work.rebalance.bar work.bars
  | .finished => .finished
  | .raised _ => .raised

def EquityPoint.point (key : String) (p : EquityPoint) : Point where
  timeUtc := p.timeUtc
  cash := p.cash
  quantity := (p.positions.get? key).getD 0
  mark := (p.markPrices.get? key).getD 0
  equity := p.equity

def State.view (key : String) (s : State) : View where
  cash := s.cash
  quantity := quantityOf (s.positions.get? key)
  curve := s.result.equityCurve.map (EquityPoint.point key)
  breaches := s.result.breaches
  fillsCount := s.result.fillsCount
  submitted := s.submitted.map fun submission => submission.order.anonymous
  phase := s.task.phase

/-- The order of the work is at the broker. -/
inductive Task.AtBroker (work : Work) : Task → Prop
  | inSubmit (order : Order) (call : IBBroker.SubmitCall) (switched : List KillSwitch.Call) :
      AtBroker work (.inSubmit work order call switched)
  | inDrain (drain : Drain) : AtBroker work (.inDrain work drain)
  | inCancel (targetId : ClientOrderId) : AtBroker work (.inCancel work targetId)
  | inRedrain (drain : Drain) : AtBroker work (.inRedrain work drain)

theorem Task.AtBroker.phase {work : Work} {task : Task} (h : task.AtBroker work) :
    task.phase = .waiting work.rebalance.bar work.bars := by
  cases h <;> rfl

/-! ## What a step lets the loop hear -/

/-- An order is done with when the loop goes on, or does not. -/
def Task.leaving : Task → List Heard
  | .raised _ => [.answered .raised]
  | .atOrder _ => [.answered .unfilled]
  | _ => []

/-- The first drain has come this far. -/
def Drain.settled (drain : Drain) (task : Task) : List Heard :=
  match drain.bookedFill with
  | some fill => [.answered (.filled fill.signedQty fill.val.price fill.val.commission)]
  | none => task.leaving

/-- What is heard in a step from `s` to `t`. -/
def heard (s : State) (a : Action) (t : State) : List Heard :=
  match a with
  | .proceed _ artefact =>
      match s.task with
      | .atOrder ⟨_, _ :: _, _⟩ =>
          .asked s.killSwitch artefact ::
            (if s.submitted.length < t.submitted.length then t.task.leaving else [])
      | _ => [.turned]
  | .getEvent =>
      match s.task, s.broker.events[s.cursor]? with
      | .inDrain _ drain, some event => (drain.read event).settled t.task
      | _, _ => t.task.leaving
  | .timeout =>
      match s.task with
      | .inDrain _ drain => drain.settled t.task
      | _ => t.task.leaving
  | .priceRules _ _ | .acquired _ _ | .canceled _ => t.task.leaving
  | .killSwitch _ | .venue _ => []

/-! ## The invariant -/

/-- The work of a task is at a rebalance of the leg, with one candidate at most. -/
def Task.OnLeg (leg : SingleLeg) (key : String) : Task → Prop
  | .atBar _ | .finished | .raised _ => True
  | .atOrder work =>
      (∃ bar weight, work.rebalance = rebalanceOf leg key bar weight) ∧
        work.orders.length ≤ 1 ∧
        ∀ order ∈ work.orders, order.val.instrument = leg.instrument ∧ order.val.orderType = .mkt
  | .inSubmit work _ _ _ | .inDrain work _ | .inCancel work _ | .inRedrain work _ =>
      (∃ bar weight, work.rebalance = rebalanceOf leg key bar weight) ∧ work.orders = []

structure State.OnLeg (leg : SingleLeg) (key : String) (s : State) : Prop where
  keys : ∀ k ∈ s.positions, k = key
  held : ∀ position ∈ s.positions.get? key,
    position.val.strategyId = leg.liveConfig.val.strategyId ∧
      position.val.instrument = leg.instrument
  task : s.task.OnLeg leg key
  submitted : ∀ submission ∈ s.submitted, submission.order.val.instrument = leg.instrument

/-- The loop has come from `s` to `t` by what it has heard. -/
structure Moves (leg : SingleLeg) (key : String) (s t : State) (hears : List Heard) : Prop where
  view : t.view key = hears.foldl leg.hear (s.view key)
  onLeg : t.OnLeg leg key
  canHear : Throughout leg.hear CanHear (s.view key) hears

theorem Task.AtBroker.onLeg_iff {leg : SingleLeg} {key : String} {work : Work} {task : Task}
    (h : task.AtBroker work) : task.OnLeg leg key ↔
      (∃ bar weight, work.rebalance = rebalanceOf leg key bar weight) ∧ work.orders = [] := by
  cases h <;> rfl

/-- The ledger is as it was. -/
structure SameLedger (s t : State) : Prop where
  cash : t.cash = s.cash := by rfl
  positions : t.positions = s.positions := by rfl
  curve : t.result.equityCurve = s.result.equityCurve := by rfl
  breaches : t.result.breaches = s.result.breaches := by rfl
  fillsCount : t.result.fillsCount = s.result.fillsCount := by rfl
  submitted : t.submitted = s.submitted := by rfl

section Step

variable {loop : RebalanceLoop} {leg : SingleLeg} {key : String} {s t : State}

theorem SameLedger.view (h : SameLedger s t) :
    t.view key = { s.view key with phase := t.task.phase } := by
  simp only [State.view, h.cash, h.positions, h.curve, h.breaches, h.fillsCount, h.submitted]

theorem SameLedger.onLeg (h : SameLedger s t) (hs : s.OnLeg leg key)
    (hon : t.task.OnLeg leg key) : t.OnLeg leg key :=
  ⟨h.positions ▸ hs.keys, h.positions ▸ hs.held, hon, h.submitted ▸ hs.submitted⟩

/-- The loop stays where it is. -/
theorem SameLedger.stays (h : SameLedger s t) (hs : s.OnLeg leg key) (hon : t.task.OnLeg leg key)
    (hphase : t.task.phase = s.task.phase) : Moves leg key s t [] := by
  refine ⟨?_, h.onLeg hs hon, trivial⟩
  rw [h.view, hphase]
  rfl

/-- The loop still waits for the broker. -/
theorem SameLedger.waits (h : SameLedger s t) (hs : s.OnLeg leg key) {work : Work}
    (hbefore : s.task.AtBroker work) (hafter : t.task.AtBroker work) : Moves leg key s t [] :=
  h.stays hs (hafter.onLeg_iff.mpr (hbefore.onLeg_iff.mp hs.task))
    (hafter.phase.trans hbefore.phase.symm)

/-- An order is done with and leaves the ledger alone. -/
theorem SameLedger.leaves (h : SameLedger s t) (hs : s.OnLeg leg key) {work : Work}
    (hbefore : s.task.AtBroker work) (ht : t.task = .atOrder work ∨ ∃ e, t.task = .raised e) :
    Moves leg key s t t.task.leaving := by
  have hphase : (s.view key).phase = .waiting work.rebalance.bar work.bars := hbefore.phase
  obtain ⟨hrebalance, hnone⟩ := hbefore.onLeg_iff.mp hs.task
  have hon : (Task.atOrder work).OnLeg leg key :=
    ⟨hrebalance, by simp [hnone], by simp [hnone]⟩
  rcases ht with ht | ⟨e, ht⟩
  · refine ⟨?_, h.onLeg hs (ht ▸ hon), ?_⟩
    · rw [h.view, ht]
      simp only [Task.leaving, List.foldl_cons, List.foldl_nil, hear, View.answer, hphase,
        Task.phase, hnone]
      rfl
    · rw [ht]
      exact ⟨by simp only [CanHear, hphase], trivial⟩
  · refine ⟨?_, h.onLeg hs (ht ▸ trivial), ?_⟩
    · rw [h.view, ht]
      simp only [Task.leaving, List.foldl_cons, List.foldl_nil, hear, View.answer, hphase,
        Task.phase]
    · rw [ht]
      exact ⟨by simp only [CanHear, hphase], trivial⟩

theorem openRebalance_moves (hloop : loop.Trades leg key) (hs : s.OnLeg leg key) {bar : Bar}
    {bars : List Bar} (htask : s.task = .atBar (bar :: bars)) (ids : Nat → UUID) :
    Moves leg key s (loop.openRebalance s bar bars ids) [.turned] := by
  have hphase : (s.view key).phase = .atBar (bar :: bars) := by
    simp only [State.view, htask, Task.phase]
  have hcan : Throughout leg.hear CanHear (s.view key) [.turned] :=
    ⟨by simp only [CanHear, hphase], trivial⟩
  unfold RebalanceLoop.openRebalance
  rw [hloop.rebalance]
  cases hweight : leg.targetWeight bar with
  | none =>
    refine ⟨?_, ⟨hs.keys, hs.held, trivial, hs.submitted⟩, hcan⟩
    simp only [List.foldl_cons, List.foldl_nil, hear, turn, hphase, hweight]
    rfl
  | some weight =>
    have hequity : (loop.sizerInput s (rebalanceOf leg key bar weight)).equity =
        leg.equity (s.view key) bar := hloop.equity s.cash s.positions bar weight hs.keys
    have hsizes : leg.Sizes (s.view key) bar weight key
        (loop.sizerInput s (rebalanceOf leg key bar weight)) :=
      { targetWeights := rfl
        equity := hequity
        navSlice := by rw [RebalanceLoop.sizerInput, hloop.liveConfig]
        held := rfl
        instrument := hloop.instrument
        price := hloop.price bar weight
        strategyId := by rw [RebalanceLoop.sizerInput, hloop.liveConfig]
        now := rfl }
    simp only [Option.map_some]
    rcases hsizes.cases ids with ⟨e, e', hsized, hdesired⟩ |
      ⟨orders, desired, hsized, hdesired, hhead, hlength, horders⟩
    · simp only [hsized]
      refine ⟨?_, ⟨hs.keys, hs.held, trivial, hs.submitted⟩, hcan⟩
      simp only [List.foldl_cons, List.foldl_nil, hear, turn, hphase, hweight, hdesired]
      rfl
    · simp only [hsized]
      refine ⟨?_, ⟨hs.keys, hs.held, ⟨⟨bar, weight, rfl⟩, hlength, horders⟩, hs.submitted⟩, hcan⟩
      simp only [List.foldl_cons, List.foldl_nil, hear, turn, hphase, hweight, hdesired]
      simp only [State.view, Task.phase, hhead]
      rfl

theorem closeRebalance_moves (hloop : loop.Trades leg key) (hs : s.OnLeg leg key)
    {rebalance : Rebalance} {bars : List Bar} (htask : s.task = .atOrder ⟨rebalance, [], bars⟩) :
    Moves leg key s (loop.closeRebalance s rebalance bars) [.turned] := by
  have hon := hs.task
  rw [htask] at hon
  obtain ⟨⟨bar, weight, hrebalance⟩, -, -⟩ := hon
  dsimp only at hrebalance
  subst hrebalance
  have hphase : (s.view key).phase = .atOrder bar none bars := by
    simp only [State.view, htask, Task.phase]
    rfl
  have hequity : loop.computeEquity s.cash s.positions (rebalanceOf leg key bar weight) =
      leg.equity (s.view key) bar := hloop.equity s.cash s.positions bar weight hs.keys
  have hmark : ((rebalanceOf leg key bar weight).markPrices.get? key).getD 0 = leg.price bar := by
    simp [rebalanceOf, Dict.get?_set]
  have hquantity : ((s.positions.mapValues (·.val.quantity)).get? key).getD 0 =
      quantityOf (s.positions.get? key) := by
    rw [Dict.get?_mapValues, quantityOf]
  refine ⟨?_, ⟨hs.keys, hs.held, trivial, hs.submitted⟩, by simp only [CanHear, hphase], trivial⟩
  simp only [List.foldl_cons, List.foldl_nil, hear, turn, hphase, mark]
  simp only [State.view, RebalanceLoop.closeRebalance, List.map_append, List.map_cons,
    List.map_nil, EquityPoint.point, hmark, hquantity, hequity]
  rfl

/-- Promotion keeps the instrument. -/
theorem promoted_instrument {desired order : Order} {bar : Bar} {orderType : OrderType}
    {limitPriceOffsetBps : Decimal} {id : UUID}
    (h : ibOrderFromDesired desired bar orderType limitPriceOffsetBps id = .ok order) :
    order.val.instrument = desired.val.instrument := by
  cases ibOrderFromDesired_promoted h with
  | market _ _ _ _ hinstrument => exact hinstrument
  | limit _ _ _ _ _ hinstrument => exact hinstrument

theorem submitOrder_moves (hloop : loop.Trades leg key) (hs : s.OnLeg leg key)
    {rebalance : Rebalance} {desired : Order} {orders : List Order} {bars : List Bar}
    (htask : s.task = .atOrder ⟨rebalance, desired :: orders, bars⟩) (ids : Nat → UUID)
    (artefact : String → Artefact) :
    Moves leg key s (loop.submitOrder s ⟨rebalance, orders, bars⟩ desired (ids 0) artefact)
      (heard s (.proceed ids artefact)
        (loop.submitOrder s ⟨rebalance, orders, bars⟩ desired (ids 0) artefact)) := by
  have hon := hs.task
  rw [htask] at hon
  obtain ⟨⟨bar, weight, hrebalance⟩, hlength, horders⟩ := hon
  dsimp only at hrebalance
  subst hrebalance
  obtain rfl : orders = [] := by
    cases orders with
    | nil => rfl
    | cons => simp at hlength
  obtain ⟨hinstrument, htype⟩ := horders desired List.mem_cons_self
  have hphase : (s.view key).phase = .atOrder bar (some desired.anonymous) bars := by
    simp only [State.view, htask, Task.phase]
    rfl
  have hasked : CanHear (s.view key) (.asked s.killSwitch artefact) := by
    simp only [CanHear, hphase]
  -- What the engine finds does not depend on the reference price.
  have hlast : loop.lastBar (rebalanceOf leg key bar weight) desired.val.instrument = .ok bar :=
    hinstrument ▸ hloop.lastBar bar weight
  have hinputs : loop.riskInputs (rebalanceOf leg key bar weight) desired artefact =
      .ok { leg.riskInputs bar artefact with
        referencePrice :=
          loop.referencePrice (rebalanceOf leg key bar weight) desired.val.instrument } := by
    simp only [RebalanceLoop.riskInputs, hlast, hloop.liveConfig]
    rfl
  have hengine : loop.riskEngine s.killSwitch = leg.riskEngine s.killSwitch := by
    rw [RebalanceLoop.riskEngine, hloop.liveConfig, hloop.riskConfig]
    rfl
  have hpromote : leg.promote bar desired.anonymous = Order.anonymous <$>
      loop.promote (rebalanceOf leg key bar weight) desired (ids 0) := by
    simp only [RebalanceLoop.promote, hlast]
    rw [hloop.promote, ← ibOrderFromDesired_anonymous _ _ _ _ (ids 0), hinstrument]
    rfl
  have hkept : ∀ order, loop.promote (rebalanceOf leg key bar weight) desired (ids 0) = .ok order →
      order.val.instrument = leg.instrument := by
    intro order horder
    simp only [RebalanceLoop.promote, hlast] at horder
    exact (promoted_instrument horder).trans hinstrument
  -- Both sides, once the engine has answered.
  generalize hverdict : (leg.riskEngine s.killSwitch).approve desired (leg.riskInputs bar artefact)
    bar.val.closeTimeUtc = verdict
  have hverdict' : (loop.riskEngine s.killSwitch).approve desired
      { leg.riskInputs bar artefact with
        referencePrice :=
          loop.referencePrice (rebalanceOf leg key bar weight) desired.val.instrument }
      (rebalanceOf leg key bar weight).time = verdict := by
    rw [hengine, approve_of_mkt htype]
    exact hverdict
  obtain ⟨approved, breaches⟩ := verdict
  cases approved with
  | none =>
    have ht : loop.submitOrder s ⟨rebalanceOf leg key bar weight, [], bars⟩ desired (ids 0)
        artefact = { s with
          result := { s.result with breaches := s.result.breaches ++ breaches }
          task := .atOrder ⟨rebalanceOf leg key bar weight, [], bars⟩ } := by
      simp only [RebalanceLoop.submitOrder, hinputs, hverdict']
    rw [ht]
    have hheard : heard s (.proceed ids artefact) { s with
          result := { s.result with breaches := s.result.breaches ++ breaches }
          task := .atOrder ⟨rebalanceOf leg key bar weight, [], bars⟩ } =
        [.asked s.killSwitch artefact] := by
      simp only [heard, htask, lt_irrefl, if_false]
    rw [hheard]
    refine ⟨?_, ⟨hs.keys, hs.held, ⟨⟨bar, weight, rfl⟩, Nat.zero_le _, by simp⟩, hs.submitted⟩,
      hasked, trivial⟩
    simp only [List.foldl_cons, List.foldl_nil, hear, ask, hphase, approve_anonymous, hverdict]
    rfl
  | some approved =>
    obtain rfl : approved = desired := by
      have hsome : ((leg.riskEngine s.killSwitch).approve desired (leg.riskInputs bar artefact)
          bar.val.closeTimeUtc).1 = some approved := by rw [hverdict]
      exact (RiskEngine.approve_eq_some_iff.mp hsome).1
    cases horder : loop.promote (rebalanceOf leg key bar weight) approved (ids 0) with
    | error e =>
      rw [horder] at hpromote
      have ht : loop.submitOrder s ⟨rebalanceOf leg key bar weight, [], bars⟩ approved (ids 0)
          artefact = { s with
            result := { s.result with breaches := s.result.breaches ++ breaches }
            task := .raised e } := by
        simp only [RebalanceLoop.submitOrder, hinputs, hverdict', horder]
        rfl
      rw [ht]
      have hheard : heard s (.proceed ids artefact) { s with
            result := { s.result with breaches := s.result.breaches ++ breaches }
            task := .raised e } = [.asked s.killSwitch artefact] := by
        simp only [heard, htask, lt_irrefl, if_false]
      rw [hheard]
      refine ⟨?_, ⟨hs.keys, hs.held, trivial, hs.submitted⟩, hasked, trivial⟩
      simp only [List.foldl_cons, List.foldl_nil, hear, ask, hphase, approve_anonymous, hverdict,
        Option.map_some, hpromote]
      rfl
    | ok order =>
      rw [horder] at hpromote
      have honLeg : ∀ submission ∈ s.submitted ++ [(⟨approved, order,
          { leg.riskInputs bar artefact with
            referencePrice :=
              loop.referencePrice (rebalanceOf leg key bar weight) approved.val.instrument },
          (rebalanceOf leg key bar weight).time, s.killSwitch⟩ : Submission)],
          submission.order.val.instrument = leg.instrument := by
        intro submission hmem
        rcases List.mem_append.mp hmem with hold | hnew
        · exact hs.submitted submission hold
        · rw [List.mem_singleton.mp hnew]
          exact hkept order horder
      simp only [RebalanceLoop.submitOrder, hinputs, hverdict', horder, RebalanceLoop.callSubmit]
      cases s.broker.submit order with
      | error e =>
        simp only [heard, htask, State.raise, List.length_append, List.length_singleton,
          Nat.lt_succ_self, if_true, Task.leaving]
        refine ⟨?_, ⟨hs.keys, hs.held, trivial, honLeg⟩, hasked, ?_, trivial⟩
        · simp only [List.foldl_cons, List.foldl_nil, hear, ask, hphase, approve_anonymous,
            hverdict, Option.map_some, hpromote]
          simp only [State.view, Task.phase, List.map_append]
          rfl
        · simp only [hear, ask, hphase, approve_anonymous, hverdict, Option.map_some, hpromote]
          trivial
      | ok call =>
        simp only [heard, htask, List.length_append, List.length_singleton, Nat.lt_succ_self,
          if_true, Task.leaving]
        refine ⟨?_, ⟨hs.keys, hs.held, ⟨⟨bar, weight, rfl⟩, rfl⟩, honLeg⟩, hasked, trivial⟩
        simp only [List.foldl_cons, List.foldl_nil, hear, ask, hphase, approve_anonymous,
          hverdict, Option.map_some, hpromote]
        simp only [State.view, Task.phase, List.map_append]
        rfl

/-- The engine's cancel settles nothing yet, unless it raises. -/
theorem engineCancel_moves (hs : s.OnLeg leg key) {work : Work} (hbroker : s.task.AtBroker work)
    (targetId : ClientOrderId) : Moves leg key s (RebalanceLoop.engineCancel s work targetId)
      (RebalanceLoop.engineCancel s work targetId).task.leaving := by
  simp only [RebalanceLoop.engineCancel]
  split
  · exact SameLedger.waits {} hs hbroker (.inCancel targetId)
  · exact SameLedger.waits {} hs hbroker (.inRedrain _)
  · rename_i e _ _
    exact SameLedger.leaves {} hs hbroker (.inr ⟨e, rfl⟩)

theorem settle_moves (hloop : loop.Trades leg key) (hs : s.OnLeg leg key) {work : Work}
    (hbroker : s.task.AtBroker work) {drain : Drain}
    (hfill : ∀ fill ∈ drain.bookedFill, fill.val.instrument = leg.instrument) :
    Moves leg key s (loop.settle s work drain) (drain.settled (loop.settle s work drain).task) := by
  unfold RebalanceLoop.settle Drain.settled
  cases hbooked : drain.bookedFill with
  | some fill =>
    have hphase : (s.view key).phase = .waiting work.rebalance.bar work.bars := hbroker.phase
    obtain ⟨hrebalance, hnone⟩ := hbroker.onLeg_iff.mp hs.task
    have hrest : (Task.atOrder work).OnLeg leg key :=
      ⟨hrebalance, by simp [hnone], by simp [hnone]⟩
    have hhead : work.orders.head?.map Order.anonymous = none := by rw [hnone]; rfl
    have hinstrument := hfill fill hbooked
    have hutc : work.rebalance.time.utcOffset = some 0 :=
      ((Bar.valid_iff _).mp work.rebalance.bar.valid).2.1
    obtain ⟨position, hposition, hsame, hposinst⟩ :=
      exists_applyFill hs.held work.rebalance.time hinstrument hutc
    simp only [RebalanceLoop.bookFill, hloop.bookingKey fill hinstrument, hloop.liveConfig,
      hposition]
    refine ⟨?_, ⟨keys_booked hs.keys position, ?_, hrest, hs.submitted⟩,
      by simp only [CanHear, hphase], trivial⟩
    · simp only [List.foldl_cons, List.foldl_nil, hear, View.answer, hphase]
      simp only [State.view, Task.phase, hhead, quantityOf_booked hposition]
    · intro held hheld
      rw [Dict.get?_set, if_pos rfl] at hheld
      cases hheld
      exact ⟨hsame, hposinst⟩
  | none =>
    cases drain.state with
    | canceled => exact SameLedger.leaves {} hs hbroker (.inl rfl)
    | rejected => exact SameLedger.leaves {} hs hbroker (.inl rfl)
    | _ =>
      let counted : State := { s with result := { s.result with
        acceptedCount := s.result.acceptedCount + drain.reachedAccepted.toNat } }
      have hcounted : counted.OnLeg leg key := ⟨hs.keys, hs.held, hs.task, hs.submitted⟩
      have hcancel := engineCancel_moves hcounted hbroker drain.targetId
      exact ⟨hcancel.view, hcancel.onLeg, hcancel.canHear⟩

/-- The fill an event of the first drain brings is on the instrument. -/
theorem fill_onLeg (hs : s.OnLeg leg key) (hcoherent : Coherent s) {work : Work} {drain : Drain}
    {event : BrokerEvent} (htask : s.task = .inDrain work drain)
    (hevent : s.broker.events[s.cursor]? = some event) :
    ∀ fill ∈ (drain.read event).bookedFill, fill.val.instrument = leg.instrument := by
  intro fill hfill
  obtain ⟨hopen, htarget⟩ := hcoherent.draining work drain htask
  have hdone : (drain.read event).done = true := by
    by_contra hnot
    rw [bookedFill_of_open (by simpa using hnot)] at hfill
    cases hfill
  have hfilled := filledFills_of_done hopen hdone
  rw [Option.mem_def.mp hfill] at hfilled
  cases event with
  | connection _ => cases hfilled
  | account _ => cases hfilled
  | order e =>
    rw [filledFills_order] at hfilled
    split at hfilled
    · rename_i hours
      have hcarried : e.val.fill = some fill := by
        cases hcarried : e.val.fill with
        | none =>
          rw [hcarried] at hfilled
          cases hfilled
        | some carried =>
          rw [hcarried] at hfilled
          cases hfilled
          rfl
      obtain ⟨p, hp, hcid, hon⟩ :=
        hcoherent.origin.events e (List.mem_of_getElem? hevent) fill hcarried
      have hplaced : p.cid ∈ s.submittedIds := by
        rw [hcid, hours.1]
        exact htarget
      obtain ⟨submission, hsubmission, hsame⟩ := hcoherent.placedOn p hp hplaced
      rw [← hon, ← hsame]
      exact hs.submitted submission hsubmission
    · cases hfilled

theorem not_raised_of_inDrain {work : Work} {drain : Drain} (htask : s.task = .inDrain work drain) :
    ¬ s.Raised := by
  rintro ⟨e, he⟩
  rw [htask] at he
  cases he

/-- A step moves the loop by what is heard in it. -/
theorem step_moves {policy : RoundingPolicy} {a : Action} (hloop : loop.Trades leg key)
    (hs : s.OnLeg leg key) (hcoherent : s.Raised ∨ Coherent s)
    (h : step loop policy s a = some t) : Moves leg key s t (heard s a t) := by
  have hon := hs.task
  cases a with
  | proceed ids artefact =>
    simp only [step] at h
    split at h
    · rename_i htask
      cases h
      have hphase : (s.view key).phase = .atBar [] := by simp only [State.view, htask, Task.phase]
      simp only [heard, htask]
      refine ⟨?_, ⟨hs.keys, hs.held, trivial, hs.submitted⟩, by simp only [CanHear, hphase],
        trivial⟩
      simp only [List.foldl_cons, List.foldl_nil, hear, turn, hphase]
      rfl
    · rename_i bar bars htask
      cases h
      simp only [heard, htask]
      exact openRebalance_moves hloop hs htask ids
    · rename_i rebalance bars htask
      cases h
      simp only [heard, htask]
      exact closeRebalance_moves hloop hs htask
    · rename_i rebalance desired orders bars htask
      cases h
      exact submitOrder_moves hloop hs htask ids artefact
    · cases h
  | priceRules result now =>
    simp only [step] at h
    split at h
    · rename_i work order wired switched htask
      cases h
      have hbroker : s.task.AtBroker work := by rw [htask]; constructor
      simp only [heard]
      cases (s.broker.afterPriceRules policy wired result now).2 with
      | suspended call => exact SameLedger.waits {} hs hbroker (by constructor)
      | returned => exact SameLedger.waits {} hs hbroker (by constructor)
      | raised e => exact SameLedger.leaves {} hs hbroker (.inr ⟨e, rfl⟩)
    · cases h
  | acquired result now =>
    simp only [step] at h
    split at h
    · rename_i work order wired contract ibOrder switched htask
      have hbroker : s.task.AtBroker work := by rw [htask]; constructor
      cases result with
      | error e =>
        cases h
        exact SameLedger.leaves {} hs hbroker (.inr ⟨e, rfl⟩)
      | ok orderId =>
        cases h
        exact SameLedger.waits {} hs hbroker (by constructor)
    · cases h
  | canceled result =>
    simp only [step] at h
    split at h
    · rename_i work targetId htask
      have hbroker : s.task.AtBroker work := by rw [htask]; constructor
      split at h
      · cases h
        exact SameLedger.waits {} hs hbroker (by constructor)
      · cases h
        exact SameLedger.waits {} hs hbroker (by constructor)
      · rename_i e _
        cases h
        exact SameLedger.leaves {} hs hbroker (.inr ⟨e, rfl⟩)
    · cases h
  | getEvent =>
    simp only [step] at h
    split at h
    · rename_i work drain event htask hevent
      cases h
      have hfill := fill_onLeg hs (hcoherent.resolve_left (not_raised_of_inDrain htask)) htask
        hevent
      have hbroker : s.task.AtBroker work := by rw [htask]; constructor
      simp only [heard, htask, hevent]
      by_cases hdone : (drain.read event).done = true
      · rw [if_pos hdone]
        have hread : State.OnLeg leg key { s with cursor := s.cursor + 1 } :=
          ⟨hs.keys, hs.held, hs.task, hs.submitted⟩
        have hsettle := settle_moves hloop hread hbroker hfill
        exact ⟨hsettle.view, hsettle.onLeg, hsettle.canHear⟩
      · rw [if_neg hdone, Drain.settled, bookedFill_of_open (by simpa using hdone)]
        exact SameLedger.waits {} hs hbroker (by constructor)
    · rename_i work drain event htask hevent
      cases h
      have hbroker : s.task.AtBroker work := by rw [htask]; constructor
      simp only [heard, htask, hevent]
      split
      · exact SameLedger.leaves {} hs hbroker (.inl rfl)
      · exact SameLedger.waits {} hs hbroker (by constructor)
    · cases h
  | timeout =>
    simp only [step] at h
    split at h
    · rename_i work drain htask
      cases h
      have hcoherent := hcoherent.resolve_left (not_raised_of_inDrain htask)
      have hnone := bookedFill_of_open (hcoherent.draining work drain htask).1
      have hbroker : s.task.AtBroker work := by rw [htask]; constructor
      simp only [heard, htask]
      exact settle_moves hloop hs hbroker (by simp [hnone])
    · rename_i work drain htask
      cases h
      have hbroker : s.task.AtBroker work := by rw [htask]; constructor
      simp only [heard, htask]
      exact SameLedger.leaves {} hs hbroker (.inl rfl)
    · cases h
  | killSwitch call =>
    cases h
    have hsame : (s.task.noteSwitch call).phase = s.task.phase := by cases s.task <;> rfl
    refine SameLedger.stays {} hs ?_ hsame
    dsimp only
    revert hon
    cases s.task <;> exact id
  | venue action =>
    simp only [step] at h
    split at h
    · obtain ⟨system, -, rfl⟩ := Option.map_eq_some_iff.mp h
      exact SameLedger.stays {} hs hon rfl
    · cases h

end Step

/-- What a run has made of the ledger, and where it has come to, is what the leg makes of what
the run has heard. -/
structure RunsAs (leg : SingleLeg) (key : String) (start : View) (s : State) (hears : List Heard) :
    Prop where
  view : s.view key = hears.foldl leg.hear start
  canHear : Throughout leg.hear CanHear start hears

theorem run_runsAs {loop : RebalanceLoop} {leg : SingleLeg} {key : String} {policy : RoundingPolicy}
    {history : List IBSystem.Action} {broker : IBBroker} {placed : List PlacedOrder}
    {killSwitch : KillSwitch} {as : List Action} {s : State} (hloop : loop.Trades leg key)
    (hhistory : run (IBSystem.step policy) IBSystem.init history = some ⟨broker, [], placed⟩)
    (hrun : run (step loop policy) (loop.start broker placed killSwitch) as = some s) :
    RunsAs leg key (.start loop.bars loop.startingCash) s
      (trace (step loop policy) heard (loop.start broker placed killSwitch) as) := by
  let Known (s : State) : Prop := s.OnLeg leg key ∧ (s.Raised ∨ Coherent s)
  have hstep (s : State) (a : Action) (t : State) (hs : Known s)
      (h : step loop policy s a = some t) : Known t := by
    refine ⟨(step_moves hloop hs.1 hs.2 h).onLeg, ?_⟩
    by_cases hraised : t.Raised
    · exact .inl hraised
    · refine .inr ((hs.2.resolve_left fun hbefore => hraised (hbefore.step h)).step hraised h)
  have hstart : Known (loop.start broker placed killSwitch) := by
    refine ⟨⟨?_, ?_, trivial, ?_⟩, .inr (Coherent.start hhistory)⟩
    all_goals simp [RebalanceLoop.start]
  have hview (s : State) (a : Action) (t : State) (hs : Known s)
      (h : step loop policy s a = some t) := (step_moves hloop hs.1 hs.2 h).view
  have hcanHear (s : State) (a : Action) (t : State) (hs : Known s)
      (h : step loop policy s a = some t) := (step_moves hloop hs.1 hs.2 h).canHear
  exact ⟨run_view hstep hview hstart hrun, run_throughout hstep hview hcanHear hstart hrun⟩

end IbPipeline

end Blive
