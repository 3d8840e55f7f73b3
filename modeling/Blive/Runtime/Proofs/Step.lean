import Blive.Runtime.IbPipeline

/-!
# What one step of an IB pipeline does

`StepCase` lists what a step can do, guards included; the proofs about runs go through it and
leave the definition of the step alone. Seen from the broker a step of the pipeline is a step of
the broker's system or none at all, so what holds along the runs of that system holds here.
-/

namespace Blive.IbPipeline

open Transition

/-! ## Where the coroutine stands -/

/-- Not in `submit` and not in a first drain. -/
def Task.idle : Task → Bool
  | .inSubmit _ _ _ _ | .inDrain _ _ => false
  | _ => true

def Task.work? : Task → Option Work
  | .atBar _ | .finished | .raised _ => none
  | .atOrder work | .inSubmit work _ _ _ | .inDrain work _ | .inCancel work _
  | .inRedrain work _ => some work

/-- The rebalance was read from a bar, and its candidates come from the sizer. -/
structure RebalanceLoop.Opened (loop : RebalanceLoop) (work : Work) : Prop where
  rebalance : ∃ bar, loop.rebalance bar = .ok (some work.rebalance)
  sized : ∀ order ∈ work.orders, ∃ s, SizedOrder (loop.sizerInput s work.rebalance) order

/-- What is left of `old` once some of its candidates are dealt with. -/
def Work.RestOf (work old : Work) : Prop :=
  work.rebalance = old.rebalance ∧ work.orders ⊆ old.orders

/-- The work of the next task is what is left of the present one, or newly opened. -/
def RebalanceLoop.Carries (loop : RebalanceLoop) (old new : Task) : Prop :=
  ∀ work ∈ new.work?, loop.Opened work ∨ ∃ before ∈ old.work?, work.RestOf before

theorem RebalanceLoop.Carries.of_same {loop : RebalanceLoop} {old new : Task}
    (h : new.work? = old.work?) : loop.Carries old new :=
  fun work hwork => .inr ⟨work, h ▸ hwork, rfl, fun _ => id⟩

theorem RebalanceLoop.Carries.of_none {loop : RebalanceLoop} {old new : Task}
    (h : new.work? = none) : loop.Carries old new :=
  fun work hwork => by rw [h] at hwork; cases hwork

/-- The order of a submission is the promoted candidate the engine approved. -/
structure RebalanceLoop.Made (loop : RebalanceLoop) (work : Work) (submission : Submission) :
    Prop where
  inputs : ∃ artefact,
    loop.riskInputs work.rebalance submission.desired artefact = .ok submission.inputs
  approved : ((loop.riskEngine submission.killSwitch).approve submission.desired
    submission.inputs submission.now).1 = some submission.desired
  promoted : ∃ id, loop.promote work.rebalance submission.desired id = .ok submission.order
  now : submission.now = work.rebalance.time

/-- A drain looks at the events of its order. -/
theorem Drain.read_own {drain : Drain} {e : OrderEvent}
    (hcid : e.val.clientOrderId = drain.targetId) : drain.read (.order e) = drain.observe e := by
  simp [Drain.read, BrokerEvent.order?, hcid]

theorem Drain.read_other {drain : Drain} {e : OrderEvent}
    (hcid : e.val.clientOrderId ≠ drain.targetId) : drain.read (.order e) = drain := by
  simp [Drain.read, BrokerEvent.order?, hcid]

/-! ## The promoted order and the two loops -/

/-- What promotion does to an approved candidate. -/
inductive Promoted (desired : Order) (bar : Bar) (limitPriceOffsetBps : Decimal) :
    OrderType → Order → Prop
  | market (orderType : OrderType) (order : Order)
      (htype : orderType = .mkt ∨ orderType = .adaptiveMkt)
      (horder : order.val.orderType = orderType)
      (hinstrument : order.val.instrument = desired.val.instrument) :
      Promoted desired bar limitPriceOffsetBps orderType order
  | limit (order : Order) (ibReference : Decimal)
      (hreference :
        eodhdToIbPrice desired.val.instrument.val.symbol bar.val.close = .ok ibReference)
      (horder : order.val.orderType = .lmt)
      (hlimit : order.val.limitPrice =
        some (limitPriceOf desired.val.side ibReference limitPriceOffsetBps))
      (hinstrument : order.val.instrument = desired.val.instrument) :
      Promoted desired bar limitPriceOffsetBps .lmt order

theorem ibOrderFromDesired_promoted {desired order : Order} {bar : Bar} {orderType : OrderType}
    {limitPriceOffsetBps : Decimal} {id : UUID}
    (h : ibOrderFromDesired desired bar orderType limitPriceOffsetBps id = .ok order) :
    Promoted desired bar limitPriceOffsetBps orderType order := by
  cases orderType with
  | mkt =>
    have hfields := Frozen.make_eq_ok_iff.mp h
    have htype : order.val.orderType = .mkt := by rw [hfields]; rfl
    have hinstrument : order.val.instrument = desired.val.instrument := by rw [hfields]; rfl
    exact .market _ order (.inl rfl) htype hinstrument
  | adaptiveMkt =>
    have hfields := Frozen.make_eq_ok_iff.mp h
    have htype : order.val.orderType = .adaptiveMkt := by rw [hfields]; rfl
    have hinstrument : order.val.instrument = desired.val.instrument := by rw [hfields]; rfl
    exact .market _ order (.inr rfl) htype hinstrument
  | lmt =>
    obtain ⟨ibReference, hreference, h⟩ := bind_eq_ok_iff.mp h
    have hfields := Frozen.make_eq_ok_iff.mp h
    have htype : order.val.orderType = .lmt := by rw [hfields]; rfl
    have hinstrument : order.val.instrument = desired.val.instrument := by rw [hfields]; rfl
    have hlimit : order.val.limitPrice =
        some (limitPriceOf desired.val.side ibReference limitPriceOffsetBps) := by
      rw [hfields]
      rfl
    exact .limit order ibReference hreference htype hlimit hinstrument
  | moc => cases h
  | loc => cases h
  | stp => cases h
  | stpLmt => cases h

/-- Promotion keeps the instrument. -/
theorem RebalanceLoop.Made.instrument_eq {loop : RebalanceLoop} {work : Work}
    {submission : Submission} (h : loop.Made work submission) :
    submission.order.val.instrument = submission.desired.val.instrument := by
  obtain ⟨id, hpromoted⟩ := h.promoted
  obtain ⟨bar, -, hpromoted⟩ := bind_eq_ok_iff.mp hpromoted
  have hshape := ibOrderFromDesired_promoted hpromoted
  generalize loop.orderTypeOf submission.desired.val.instrument.val.symbol = orderType at hshape
  cases hshape with
  | market _ _ _ _ hinstrument => exact hinstrument
  | limit _ _ _ _ _ hinstrument => exact hinstrument

/-- The submission was made at a rebalance of the loop, from a candidate of the sizer. -/
def RebalanceLoop.Recorded (loop : RebalanceLoop) (submission : Submission) : Prop :=
  ∃ work, (∃ bar, loop.rebalance bar = .ok (some work.rebalance)) ∧
    (∃ s, SizedOrder (loop.sizerInput s work.rebalance) submission.desired) ∧
    loop.Made work submission

/-- The loop of the single-instrument pipeline. -/
theorem runIbPipeline_eq {args : IbPipelineArgs} {broker : IBBroker} {loop : RebalanceLoop}
    (h : runIbPipeline args broker = .ok loop) :
    loop.instrumentResolver = (fun _ => .ok args.instrument) ∧
      loop.bookingKey = (fun _ => args.instrument.val.symbol) := by
  obtain ⟨-, h⟩ := require_bind_eq_ok_iff.mp h
  obtain ⟨bars, -, h⟩ := bind_eq_ok_iff.mp h
  obtain ⟨-, h⟩ := require_bind_eq_ok_iff.mp h
  cases h
  exact ⟨rfl, rfl⟩

/-- The loop of the multi-instrument pipeline. -/
theorem runIbMultiPipeline_eq {args : IbMultiPipelineArgs} {broker : IBBroker}
    {loop : RebalanceLoop} (h : runIbMultiPipeline args broker = .ok loop) :
    (∃ canonical others, loop.rebalance = args.rebalance canonical others) ∧
      loop.lastBar = Rebalance.barOf ∧ loop.orderTypeOf = args.orderTypeOf ∧
      loop.limitPriceOffsetBps = args.limitPriceOffsetBps ∧
      loop.referencePrice = (fun rebalance instrument =>
        rebalance.markPrices.get? instrument.val.symbol) ∧
      loop.bookingKey = (fun fill => fill.val.instrument.val.symbol) := by
  obtain ⟨-, h⟩ := require_bind_eq_ok_iff.mp h
  split at h
  · cases h
  · rename_i canonical others _
    obtain ⟨-, h⟩ := require_bind_eq_ok_iff.mp h
    obtain ⟨bars, -, h⟩ := bind_eq_ok_iff.mp h
    obtain ⟨-, h⟩ := require_bind_eq_ok_iff.mp h
    cases h
    exact ⟨⟨canonical, others, rfl⟩, rfl, rfl, rfl, rfl, rfl⟩

/-! ## The cases of a step -/

inductive StepCase (loop : RebalanceLoop) (policy : RoundingPolicy) (s : State) :
    Action → State → Prop
  /-- The coroutine moves outside `submit` and the first drain. -/
  | moved (a : Action) (task : Task) (cursor : Nat) (result : RunResult)
      (cancels : List ClientOrderId) (hfrom : ∀ work drain, s.task ≠ .inDrain work drain)
      (hto : task.idle) (hcarries : loop.Carries s.task task) (hcursor : s.cursor ≤ cursor)
      (hqueue : cursor ≤ s.broker.events.length ∨ cursor = s.cursor)
      (ha : ∀ call, a ≠ .killSwitch call) (hpush : ∀ push, a ≠ .venue push) :
      StepCase loop policy s a { s with task, cursor, result, cancels }
  /-- A candidate is approved, promoted and passed to `submit`. -/
  | submitted (ids : Nat → UUID) (artefact : String → Artefact) (rebalance : Rebalance)
      (desired : Order) (orders : List Order) (bars : List Bar) (result : RunResult)
      (submission : Submission)
      (hfrom : s.task = .atOrder ⟨rebalance, desired :: orders, bars⟩)
      (hdesired : submission.desired = desired) (hswitch : submission.killSwitch = s.killSwitch)
      (hmade : loop.Made ⟨rebalance, orders, bars⟩ submission) :
      StepCase loop policy s (.proceed ids artefact)
        (RebalanceLoop.callSubmit { s with result } ⟨rebalance, orders, bars⟩ submission)
  /-- The price rules answer. -/
  | ruled (result : Except PyError (List PriceIncrement)) (now : Utc) (work : Work)
      (order wired : Order) (switched : List KillSwitch.Call)
      (hfrom : s.task = .inSubmit work order ⟨wired, .priceRules⟩ switched) :
      StepCase loop policy s (.priceRules result now)
        (RebalanceLoop.submitEnded
          { s with broker := (s.broker.afterPriceRules policy wired result now).1 } work order
          switched (s.broker.afterPriceRules policy wired result now).2)
  /-- The order is placed. -/
  | placed (orderId : Int) (now : Utc) (work : Work) (order wired : Order) (contract : Contract)
      (ibOrder : IbOrder) (switched : List KillSwitch.Call)
      (hfrom : s.task = .inSubmit work order ⟨wired, .token contract ibOrder⟩ switched) :
      StepCase loop policy s (.acquired (.ok orderId) now)
        (RebalanceLoop.submitReturned { s with
          broker := s.broker.afterPlaceOrder ⟨wired, contract, ibOrder, orderId⟩ now
          placed := s.placed ++ [⟨wired, contract, ibOrder, orderId⟩] } work order)
  /-- The first drain reads an event and goes on. -/
  | read (work : Work) (drain : Drain) (event : BrokerEvent)
      (hfrom : s.task = .inDrain work drain) (hevent : s.broker.events[s.cursor]? = some event)
      (hdone : (drain.read event).done = false) :
      StepCase loop policy s .getEvent
        { s with cursor := s.cursor + 1, task := .inDrain work (drain.read event) }
  /-- The first drain reads the event that ends it. -/
  | ended (work : Work) (drain : Drain) (event : BrokerEvent)
      (hfrom : s.task = .inDrain work drain) (hevent : s.broker.events[s.cursor]? = some event)
      (hdone : (drain.read event).done = true) :
      StepCase loop policy s .getEvent
        (loop.settle { s with cursor := s.cursor + 1 } work (drain.read event))
  /-- The first drain runs out of time. -/
  | timedOut (work : Work) (drain : Drain) (hfrom : s.task = .inDrain work drain) :
      StepCase loop policy s .timeout (loop.settle s work drain)
  | switched (call : KillSwitch.Call) :
      StepCase loop policy s (.killSwitch call)
        { s with killSwitch := s.killSwitch.after call, task := s.task.noteSwitch call }
  | pushed (action : IBSystem.Action) (system : IBSystem) (hpush : isPush action)
      (hstep : IBSystem.step policy s.toSystem action = some system) :
      StepCase loop policy s (.venue action) { s with broker := system.broker }

section Cases

variable {loop : RebalanceLoop} {policy : RoundingPolicy} {s t : State}

theorem openRebalance_cases (loop : RebalanceLoop) (s : State) (bar : Bar) (bars : List Bar)
    (ids : Nat → UUID) :
    ∃ task, loop.openRebalance s bar bars ids = { s with task } ∧ task.idle ∧
      loop.Carries s.task task := by
  unfold RebalanceLoop.openRebalance
  cases hbar : loop.rebalance bar with
  | error e => exact ⟨.raised e, rfl, rfl, .of_none rfl⟩
  | ok opened =>
    cases opened with
    | none => exact ⟨.atBar bars, rfl, rfl, .of_none rfl⟩
    | some rebalance =>
      dsimp only
      cases hsized : sizeOrders .exact (loop.sizerInput s rebalance) ids with
      | error e => exact ⟨.raised e, rfl, rfl, .of_none rfl⟩
      | ok orders =>
        refine ⟨.atOrder ⟨rebalance, orders, bars⟩, rfl, rfl, ?_⟩
        intro work hwork
        cases hwork
        exact .inl ⟨⟨bar, hbar⟩, fun order horder => ⟨s, sizeOrders_sized hsized order horder⟩⟩

/-- A candidate is dropped or fails, or it is submitted. -/
theorem submitOrder_cases (loop : RebalanceLoop) (s : State) (work : Work) (desired : Order)
    (id : UUID) (artefact : String → Artefact) :
    (∃ task result, loop.submitOrder s work desired id artefact = { s with task, result } ∧
        (task = .atOrder work ∨ ∃ e, task = .raised e)) ∨
      ∃ submission result, loop.submitOrder s work desired id artefact =
          RebalanceLoop.callSubmit { s with result } work submission ∧
        submission.desired = desired ∧ submission.killSwitch = s.killSwitch ∧
        loop.Made work submission := by
  unfold RebalanceLoop.submitOrder
  cases hinputs : loop.riskInputs work.rebalance desired artefact with
  | error e => exact .inl ⟨.raised e, s.result, rfl, .inr ⟨e, rfl⟩⟩
  | ok inputs =>
    dsimp only
    generalize hverdict :
      (loop.riskEngine s.killSwitch).approve desired inputs work.rebalance.time = verdict
    obtain ⟨approved, breaches⟩ := verdict
    cases approved with
    | none => exact .inl ⟨.atOrder work, _, rfl, .inl rfl⟩
    | some approved =>
      have happroved : ((loop.riskEngine s.killSwitch).approve desired inputs
          work.rebalance.time).1 = some approved := by rw [hverdict]
      obtain rfl : approved = desired := (RiskEngine.approve_eq_some_iff.mp happroved).1
      dsimp only
      cases hpromoted : loop.promote work.rebalance approved id with
      | error e => exact .inl ⟨.raised e, _, rfl, .inr ⟨e, rfl⟩⟩
      | ok order =>
        exact .inr ⟨⟨approved, order, inputs, work.rebalance.time, s.killSwitch⟩, _, rfl, rfl, rfl,
          ⟨artefact, hinputs⟩, happroved, ⟨id, hpromoted⟩, rfl⟩

theorem step_cases {a : Action} (h : step loop policy s a = some t) :
    StepCase loop policy s a t := by
  have notDrain {task : Task} (hs : s.task = task)
      (hne : ∀ work drain, task ≠ .inDrain work drain) :
      ∀ work drain, s.task ≠ .inDrain work drain := by rw [hs]; exact hne
  cases a with
  | proceed ids artefact =>
    simp only [step] at h
    split at h
    · rename_i hs
      cases h
      exact .moved _ .finished s.cursor _ s.cancels (notDrain hs (by simp)) rfl (.of_none rfl)
        le_rfl (.inr rfl) (by simp) (by simp)
    · rename_i bar bars hs
      cases h
      obtain ⟨task, heq, hidle, hcarries⟩ := openRebalance_cases loop s bar bars ids
      rw [heq]
      exact .moved _ task s.cursor s.result s.cancels (notDrain hs (by simp)) hidle hcarries le_rfl
        (.inr rfl) (by simp) (by simp)
    · rename_i rebalance bars hs
      cases h
      exact .moved _ (.atBar bars) s.cursor _ s.cancels (notDrain hs (by simp)) rfl (.of_none rfl)
        le_rfl (.inr rfl) (by simp) (by simp)
    · rename_i rebalance desired orders bars hs
      cases h
      obtain ⟨task, result, heq, htask⟩ | ⟨submission, result, heq, hdesired, hswitch, hmade⟩ :=
        submitOrder_cases loop s ⟨rebalance, orders, bars⟩ desired (ids 0) artefact
      · rw [heq]
        refine .moved _ task s.cursor result s.cancels (notDrain hs (by simp)) ?_ ?_ le_rfl
          (.inr rfl) (by simp) (by simp)
        · rcases htask with rfl | ⟨e, rfl⟩ <;> rfl
        · rcases htask with rfl | ⟨e, rfl⟩
          · intro work hwork
            cases hwork
            have hbefore : ⟨rebalance, desired :: orders, bars⟩ ∈ s.task.work? := by rw [hs]; rfl
            exact .inr ⟨_, hbefore, rfl, List.subset_cons_self _ _⟩
          · exact .of_none rfl
      · rw [heq]
        exact .submitted ids artefact rebalance desired orders bars result submission hs hdesired
          hswitch hmade
    · cases h
  | priceRules result now =>
    simp only [step] at h
    split at h
    · rename_i work order wired switched hs
      cases h
      exact .ruled result now work order wired switched hs
    · cases h
  | acquired result now =>
    simp only [step] at h
    split at h
    · rename_i work order wired contract ibOrder switched hs
      cases result with
      | error e =>
        cases h
        exact .moved _ (.raised e) s.cursor s.result s.cancels (notDrain hs (by simp)) rfl
          (.of_none rfl) le_rfl (.inr rfl) (by simp) (by simp)
      | ok orderId =>
        cases h
        exact .placed orderId now work order wired contract ibOrder switched hs
    · cases h
  | canceled result =>
    simp only [step] at h
    split at h
    · rename_i work targetId hs
      split at h
      · cases h
        exact .moved _ (.inRedrain work { targetId }) s.cursor s.result s.cancels
          (notDrain hs (by simp)) rfl (.of_same (by rw [hs]; rfl)) le_rfl (.inr rfl) (by simp)
          (by simp)
      · cases h
        exact .moved _ (.inRedrain work { targetId }) s.cursor s.result s.cancels
          (notDrain hs (by simp)) rfl (.of_same (by rw [hs]; rfl)) le_rfl (.inr rfl) (by simp)
          (by simp)
      · rename_i e _
        cases h
        exact .moved _ (.raised e) s.cursor s.result s.cancels (notDrain hs (by simp)) rfl
          (.of_none rfl) le_rfl (.inr rfl) (by simp) (by simp)
    · cases h
  | getEvent =>
    simp only [step] at h
    split at h
    · rename_i work drain event hs hevent
      cases h
      by_cases hdone : (drain.read event).done = true
      · rw [if_pos hdone]
        exact .ended work drain event hs hevent hdone
      · rw [if_neg hdone]
        exact .read work drain event hs hevent (by simpa using hdone)
    · rename_i work drain event hs hevent
      have hcursor : s.cursor + 1 ≤ s.broker.events.length :=
        (List.getElem?_eq_some_iff.mp hevent).1
      cases h
      by_cases hdone : (drain.read event).done = true
      · rw [if_pos hdone]
        exact .moved _ (.atOrder work) (s.cursor + 1) _ s.cancels (notDrain hs (by simp)) rfl
          (.of_same (by rw [hs]; rfl)) (Nat.le_succ _) (.inl hcursor) (by simp) (by simp)
      · rw [if_neg hdone]
        exact .moved _ (.inRedrain work (drain.read event)) (s.cursor + 1) s.result s.cancels
          (notDrain hs (by simp)) rfl (.of_same (by rw [hs]; rfl)) (Nat.le_succ _) (.inl hcursor)
          (by simp) (by simp)
    · cases h
  | timeout =>
    simp only [step] at h
    split at h
    · rename_i work drain hs
      cases h
      exact .timedOut work drain hs
    · rename_i work drain hs
      cases h
      exact .moved _ (.atOrder work) s.cursor _ s.cancels (notDrain hs (by simp)) rfl
        (.of_same (by rw [hs]; rfl)) le_rfl (.inr rfl) (by simp) (by simp)
    · cases h
  | killSwitch call =>
    cases h
    exact .switched call
  | venue action =>
    simp only [step] at h
    split at h
    · rename_i hpush
      obtain ⟨system, hstep, rfl⟩ := Option.map_eq_some_iff.mp h
      exact .pushed action system hpush hstep
    · cases h

/-- What becomes of an ended drain: its fill is booked, or cannot be booked, or there is none and
the order counts as canceled or rejected, or is canceled. -/
theorem settle_cases (loop : RebalanceLoop) (s : State) (work : Work) (drain : Drain) :
    (∃ fill position result, drain.bookedFill = some fill ∧
        applyFill (s.positions.get? (loop.bookingKey fill)) fill loop.liveConfig.val.strategyId
          work.rebalance.time = .ok position ∧
        loop.settle s work drain = { s with
          task := .atOrder work
          positions := s.positions.set (loop.bookingKey fill) position
          cash := s.cash - (fill.signedQty * fill.val.price + fill.val.commission)
          booked := s.booked ++ [fill]
          result }) ∨
      (∃ e result, drain.bookedFill.isSome ∧
        loop.settle s work drain = { s with task := .raised e, result }) ∨
      ∃ task result cancels, drain.bookedFill = none ∧ task.idle ∧
        (task.work? = none ∨ task.work? = some work) ∧
        loop.settle s work drain = { s with task, result, cancels } := by
  unfold RebalanceLoop.settle
  cases hfill : drain.bookedFill with
  | some fill =>
    simp only [RebalanceLoop.bookFill]
    cases hposition : applyFill (s.positions.get? (loop.bookingKey fill)) fill
        loop.liveConfig.val.strategyId work.rebalance.time with
    | error e => exact .inr (.inl ⟨e, _, rfl, rfl⟩)
    | ok position => exact .inl ⟨fill, position, _, rfl, hposition, rfl⟩
  | none =>
    refine .inr (.inr ?_)
    split
    · contradiction
    · exact ⟨.atOrder work, _, _, rfl, rfl, .inr rfl, rfl⟩
    · exact ⟨.atOrder work, _, _, rfl, rfl, .inr rfl, rfl⟩
    · simp only [RebalanceLoop.engineCancel]
      split
      · exact ⟨.inCancel work drain.targetId, _, _, trivial, rfl, .inr rfl, rfl⟩
      · exact ⟨.inRedrain work { targetId := drain.targetId }, _, _, trivial, rfl, .inr rfl, rfl⟩
      · rename_i e _ _
        exact ⟨.raised e, _, _, trivial, rfl, .inl rfl, rfl⟩

/-- An ended drain leaves the broker, the wire and the switch alone. -/
theorem settle_frame (loop : RebalanceLoop) (s : State) (work : Work) (drain : Drain) :
    (loop.settle s work drain).broker = s.broker ∧ (loop.settle s work drain).placed = s.placed ∧
      (loop.settle s work drain).killSwitch = s.killSwitch ∧
      (loop.settle s work drain).submitted = s.submitted ∧
      (loop.settle s work drain).task.idle ∧
      ((loop.settle s work drain).task.work? = none ∨
        (loop.settle s work drain).task.work? = some work) := by
  rcases settle_cases loop s work drain with ⟨_, _, _, -, -, heq⟩ | ⟨_, _, -, heq⟩ |
    ⟨_, _, _, -, hidle, hwork, heq⟩
  · rw [heq]
    exact ⟨rfl, rfl, rfl, rfl, rfl, .inr rfl⟩
  · rw [heq]
    exact ⟨rfl, rfl, rfl, rfl, rfl, .inl rfl⟩
  · rw [heq]
    exact ⟨rfl, rfl, rfl, rfl, hidle, hwork⟩

theorem settle_cursor (loop : RebalanceLoop) (s : State) (work : Work) (drain : Drain) :
    (loop.settle s work drain).cursor = s.cursor := by
  rcases settle_cases loop s work drain with ⟨_, _, _, -, -, heq⟩ | ⟨_, _, -, heq⟩ |
    ⟨_, _, _, -, -, -, heq⟩ <;> rw [heq]

/-! ## The pipeline as a run of the broker's system -/

theorem submits_of_idle {task : Task} (h : task.idle) : task.submits = [] := by
  cases task <;> first | rfl | cases h

theorem submits_noteSwitch (call : KillSwitch.Call) (task : Task) :
    (task.noteSwitch call).submits = task.submits := by
  cases task <;> rfl

/-- A push leaves the calls of `submit` and the wire alone. -/
theorem push_frame {s t : IBSystem} {action : IBSystem.Action} (hpush : isPush action)
    (h : IBSystem.step policy s action = some t) : t.submits = s.submits ∧ t.placed = s.placed := by
  cases action with
  | submit _ => cases hpush
  | priceRules _ _ _ => cases hpush
  | acquired _ _ _ => cases hpush
  | tick log whyHeld now =>
    obtain ⟨broker, -, rfl⟩ := Option.map_eq_some_iff.mp h
    exact ⟨rfl, rfl⟩
  | _ => cases h; exact ⟨rfl, rfl⟩

/-- The coroutine leaves `submit` without a trace when its answer is an exception. -/
theorem exists_step_abandon (policy : RoundingPolicy) (broker : IBBroker)
    (placed : List PlacedOrder) (call : IBBroker.SubmitCall) : ∃ action,
      IBSystem.step policy ⟨broker, [call], placed⟩ action = some ⟨broker, [], placed⟩ := by
  obtain ⟨order, point⟩ := call
  cases point with
  | priceRules => exact ⟨.priceRules 0 (.error (.other "")) ⟨0⟩, rfl⟩
  | token contract ibOrder => exact ⟨.acquired 0 (.error (.other "")) ⟨0⟩, rfl⟩

/-- A step of the pipeline is a step of the broker's system, or none. -/
theorem toSystem_step {a : Action} (h : step loop policy s a = some t) :
    t.toSystem = s.toSystem ∨
      ∃ action, IBSystem.step policy s.toSystem action = some t.toSystem := by
  have hsettle (s' : State) (work : Work) (drain : Drain) (hs : s.task = .inDrain work drain)
      (hbroker : s'.broker = s.broker) (hplaced : s'.placed = s.placed) (drain' : Drain) :
      (loop.settle s' work drain').toSystem = s.toSystem := by
    obtain ⟨hb, hp, -, -, hidle, -⟩ := settle_frame loop s' work drain'
    simp only [State.toSystem, hb, hp, submits_of_idle hidle, hbroker, hplaced, hs]
    rfl
  cases step_cases h with
  | moved _ task cursor result cancels hfrom hto =>
    cases hs : s.task with
    | inSubmit work order call switched =>
      obtain ⟨action, haction⟩ := exists_step_abandon policy s.broker s.placed call
      refine .inr ⟨action, ?_⟩
      simp only [State.toSystem, submits_of_idle hto, hs]
      exact haction
    | _ =>
      refine .inl ?_
      simp only [State.toSystem, submits_of_idle hto, hs]
      rfl
  | submitted ids artefact rebalance desired orders bars result submission hfrom =>
    refine .inr ⟨.submit submission.order, ?_⟩
    simp only [RebalanceLoop.callSubmit, State.toSystem, hfrom, Task.submits, IBSystem.step]
    cases s.broker.submit submission.order <;> rfl
  | ruled result now work order wired switched hfrom =>
    refine .inr ⟨.priceRules 0 result now, ?_⟩
    simp only [State.toSystem, hfrom, Task.submits, IBSystem.step, List.getElem?_cons_zero]
    cases s.broker.afterPriceRules policy wired result now with
    | mk broker ended => cases ended <;> rfl
  | placed orderId now work order wired contract ibOrder switched hfrom =>
    refine .inr ⟨.acquired 0 (.ok orderId) now, ?_⟩
    simp only [State.toSystem, hfrom, Task.submits, IBSystem.step, List.getElem?_cons_zero]
    rfl
  | read work drain event hfrom =>
    exact .inl (by simp only [State.toSystem, hfrom, Task.submits])
  | ended work drain event hfrom =>
    exact .inl (hsettle { s with cursor := s.cursor + 1 } work drain hfrom rfl rfl _)
  | timedOut work drain hfrom => exact .inl (hsettle s work drain hfrom rfl rfl _)
  | switched call => exact .inl (by simp only [State.toSystem, submits_noteSwitch])
  | pushed action system hpush hstep =>
    refine .inr ⟨action, ?_⟩
    obtain ⟨hsubmits, hplaced⟩ := push_frame hpush hstep
    rw [hstep]
    obtain ⟨broker, submits, placed⟩ := system
    cases hsubmits
    cases hplaced
    rfl

/-- What the steps of the broker's system preserve, a step of the pipeline preserves. -/
theorem system_invariant_step {I : IBSystem → Prop}
    (hI : ∀ s a t, I s → IBSystem.step policy s a = some t → I t) {a : Action}
    (hs : I s.toSystem) (h : step loop policy s a = some t) : I t.toSystem := by
  rcases toSystem_step h with heq | ⟨action, haction⟩
  · rw [heq]
    exact hs
  · exact hI _ _ _ hs haction

/-- The candidates of a run come from the sizer. -/
theorem opened_step {a : Action} (hs : ∀ work ∈ s.task.work?, loop.Opened work)
    (h : step loop policy s a = some t) : ∀ work ∈ t.task.work?, loop.Opened work := by
  have hsettle (s' : State) (work : Work) (drain drain' : Drain)
      (hfrom : s.task = .inDrain work drain) :
      ∀ w ∈ (loop.settle s' work drain').task.work?, loop.Opened w := by
    intro w hw
    obtain ⟨-, -, -, -, -, hnone | hsome⟩ := settle_frame loop s' work drain'
    · rw [hnone] at hw
      cases hw
    · rw [hsome] at hw
      apply hs w
      rw [hfrom]
      exact hw
  cases step_cases h with
  | moved _ task cursor result cancels hfrom hto hcarries =>
    intro work hwork
    rcases hcarries work hwork with hopened | ⟨before, hbefore, hsame, hrest⟩
    · exact hopened
    · obtain ⟨hbar, hsized⟩ := hs before hbefore
      rw [← hsame] at hbar hsized
      exact ⟨hbar, fun order horder => hsized order (hrest horder)⟩
  | submitted ids artefact rebalance desired orders bars result submission hfrom =>
    have hwork : ⟨rebalance, desired :: orders, bars⟩ ∈ s.task.work? := by rw [hfrom]; rfl
    obtain ⟨hbar, hsized⟩ := hs _ hwork
    intro work hwork
    have hwork' : work = ⟨rebalance, orders, bars⟩ := by
      revert hwork
      simp only [RebalanceLoop.callSubmit]
      cases s.broker.submit submission.order with
      | error e =>
        intro hwork
        cases hwork
      | ok call =>
        intro hwork
        exact (Option.some.inj hwork).symm
    rw [hwork']
    exact ⟨hbar, fun order horder => hsized order (List.mem_cons_of_mem _ horder)⟩
  | ruled result now work order wired switched hfrom =>
    intro w hw
    apply hs w
    rw [hfrom]
    revert hw
    cases (s.broker.afterPriceRules policy wired result now).2 with
    | suspended call => exact id
    | returned => exact id
    | raised e =>
      intro hw
      cases hw
  | placed orderId now work order wired contract ibOrder switched hfrom =>
    intro w hw
    apply hs w
    rw [hfrom]
    exact hw
  | read work drain event hfrom =>
    intro w hw
    apply hs w
    rw [hfrom]
    exact hw
  | ended work drain event hfrom => exact hsettle _ work drain _ hfrom
  | timedOut work drain hfrom => exact hsettle s work drain _ hfrom
  | switched call =>
    intro w hw
    apply hs w
    revert hw
    cases s.task <;> exact id
  | pushed action system hpush hstep => exact hs

theorem callSubmit_submitted (s : State) (work : Work) (submission : Submission) :
    (RebalanceLoop.callSubmit s work submission).submitted = s.submitted ++ [submission] := by
  simp only [RebalanceLoop.callSubmit]
  cases s.broker.submit submission.order <;> rfl

theorem submitEnded_submitted (s : State) (work : Work) (order : Order)
    (switched : List KillSwitch.Call) (ended : IBBroker.SubmitResult) :
    (RebalanceLoop.submitEnded s work order switched ended).submitted = s.submitted := by
  cases ended <;> rfl

/-- Every submission of a run is recorded as it was made. -/
theorem recorded_step {a : Action} (hopened : ∀ work ∈ s.task.work?, loop.Opened work)
    (hs : ∀ submission ∈ s.submitted, loop.Recorded submission)
    (h : step loop policy s a = some t) :
    ∀ submission ∈ t.submitted, loop.Recorded submission := by
  cases step_cases h with
  | submitted ids artefact rebalance desired orders bars result submission hfrom hdesired _ hmade =>
    have hwork : ⟨rebalance, desired :: orders, bars⟩ ∈ s.task.work? := by rw [hfrom]; rfl
    obtain ⟨hbar, hsized⟩ := hopened _ hwork
    rw [callSubmit_submitted]
    intro other hother
    rcases List.mem_append.mp hother with hold | hnew
    · exact hs other hold
    · obtain rfl := List.mem_singleton.mp hnew
      have hmem : other.desired ∈ desired :: orders := by rw [hdesired]; exact List.mem_cons_self
      have hcandidate := hsized other.desired hmem
      exact ⟨⟨rebalance, orders, bars⟩, hbar, hcandidate, hmade⟩
  | ruled result now work order wired switched hfrom =>
    rw [submitEnded_submitted]
    exact hs
  | ended work drain event hfrom =>
    rw [(settle_frame loop { s with cursor := s.cursor + 1 } work _).2.2.2.1]
    exact hs
  | timedOut work drain hfrom =>
    rw [(settle_frame loop s work _).2.2.2.1]
    exact hs
  | _ => exact hs

end Cases

/-- What is known of the candidates and submissions of a run, from its start on. -/
theorem recorded_of_run {loop : RebalanceLoop} {policy : RoundingPolicy} {broker : IBBroker}
    {placed : List PlacedOrder} {killSwitch : KillSwitch} {as : List Action} {s : State}
    (hrun : run (step loop policy) (loop.start broker placed killSwitch) as = some s) :
    ∀ submission ∈ s.submitted, loop.Recorded submission := by
  let Known (s : State) : Prop := (∀ work ∈ s.task.work?, loop.Opened work) ∧
    ∀ submission ∈ s.submitted, loop.Recorded submission
  have hstep (s : State) (a : Action) (t : State) (hs : Known s)
      (h : step loop policy s a = some t) : Known t :=
    ⟨opened_step hs.1 h, recorded_step hs.1 hs.2 h⟩
  have hstart : Known (loop.start broker placed killSwitch) :=
    ⟨(fun _ hwork => nomatch hwork), fun _ hmem => nomatch hmem⟩
  exact (run_invariant hstep hstart hrun).2

def Task.isFinished : Task → Bool
  | .finished => true
  | _ => false

theorem Task.eq_finished {task : Task} (h : task.isFinished = true) : task = .finished := by
  cases task <;> first | rfl | cases h

/-- What holds at the end of a concrete run is decided by evaluating it. -/
theorem Pipeline.exists_run (pipeline : Pipeline) (as : List Action)
    (P : RebalanceLoop → State → Bool)
    (h : ((pipeline.enter sampleBroker).toOption.bind fun loop =>
      (run (step loop .nearest) (loop.start sampleBroker [] {}) as).map (P loop)) = some true) :
    ∃ loop s, pipeline.enter sampleBroker = .ok loop ∧
      run (step loop .nearest) (loop.start sampleBroker [] {}) as = some s ∧ P loop s := by
  cases henter : pipeline.enter sampleBroker with
  | error e =>
    rw [henter] at h
    cases h
  | ok loop =>
    rw [henter] at h
    obtain ⟨s, hrun, hP⟩ := Option.map_eq_some_iff.mp h
    exact ⟨loop, s, rfl, hrun, hP⟩

end Blive.IbPipeline
