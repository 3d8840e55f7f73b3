import Blive.Adapters.Ib.Broker

/-!
# What one step of the IB broker does

The handlers change the tracking record of one order and queue tasks for it. `StatusEffect`
and `FillEffect` list what a push can do, guards included; every proof about pushes goes
through them. The remaining actions are calls and their resumptions, which have a case lemma
each.
-/

namespace Blive.IBBroker

/-- The tracking record of `cid` becomes `tracking` and the tasks are queued; the map of
placed trades and the event log stay. -/
structure Handled (cid : ClientOrderId) (tracking : OrderTrackingState) (jobs : List Job)
    (b b' : IBBroker) : Prop where
  tracking : ∀ c, b'.orderTracking.get? c = if c = cid then some tracking else
    b.orderTracking.get? c
  ready : b'.ready = b.ready ++ jobs
  events : b'.events = b.events
  trades : b'.tradesByClientId = b.tradesByClientId

/-- A status that ends the order for the handlers. -/
def closingStatus (status : String) : Prop :=
  status ∈ cancelledStatuses ∨ status = rejectedStatus

instance (status : String) : Decidable (closingStatus status) :=
  inferInstanceAs (Decidable (_ ∨ _))

/-- What a `statusEvent` push can do. -/
inductive StatusEffect (cid : ClientOrderId) (trade : Trade) (now : Utc) (b : IBBroker) :
    IBBroker → Prop
  | untracked (h : b.orderTracking.get? cid = none) : StatusEffect cid trade now b b
  | closed (tracking : OrderTrackingState) (h : b.orderTracking.get? cid = some tracking)
      (ht : tracking.terminalEmitted = true) : StatusEffect cid trade now b b
  | ignored (tracking : OrderTrackingState) (h : b.orderTracking.get? cid = some tracking)
      (ht : tracking.terminalEmitted = false) (hs : ¬ closingStatus trade.status) :
      StatusEffect cid trade now b b
  | accepted (tracking : OrderTrackingState) (b' : IBBroker)
      (h : b.orderTracking.get? cid = some tracking) (ht : tracking.terminalEmitted = false)
      (ha : tracking.acceptedEmitted = false) (hs : ¬ closingStatus trade.status)
      (heffect : Handled cid { tracking with acceptedEmitted := true }
        [.put (acceptedEvent cid trade now)] b b') : StatusEffect cid trade now b b'
  | cancelled (tracking : OrderTrackingState) (b' : IBBroker)
      (h : b.orderTracking.get? cid = some tracking) (ht : tracking.terminalEmitted = false)
      (hs : trade.status ∈ cancelledStatuses)
      (heffect : Handled cid { tracking with terminalEmitted := true }
        [.put (cancelledEvent cid tracking.acceptedEmitted trade now)] b b') :
      StatusEffect cid trade now b b'
  | inactive (tracking : OrderTrackingState) (b' : IBBroker)
      (h : b.orderTracking.get? cid = some tracking) (ht : tracking.terminalEmitted = false)
      (hs : trade.status = rejectedStatus)
      (heffect : Handled cid { tracking with terminalEmitted := true }
        [.emitRejectedViaInactive 3 cid trade.orderId] b b') : StatusEffect cid trade now b b'

theorem not_closingStatus_of_accepted {status : String} (h : status ∈ acceptedStatuses) :
    ¬ closingStatus status := by
  simp only [acceptedStatuses, List.mem_cons, List.not_mem_nil, or_false] at h
  rcases h with rfl | rfl <;> decide

theorem onOrderStatus_effect (b : IBBroker) (cid : ClientOrderId) (trade : Trade) (now : Utc) :
    StatusEffect cid trade now b (b.onOrderStatus cid trade now) := by
  unfold onOrderStatus
  cases h : b.orderTracking.get? cid with
  | none => exact .untracked h
  | some tracking =>
    dsimp only
    by_cases ht : tracking.terminalEmitted = true
    · rw [if_pos ht]
      exact .closed tracking h ht
    · rw [if_neg ht]
      replace ht : tracking.terminalEmitted = false := by simpa using ht
      by_cases hacc : trade.status ∈ acceptedStatuses ∧ tracking.acceptedEmitted = false
      · rw [if_pos hacc]
        exact .accepted tracking _ h ht hacc.2 (not_closingStatus_of_accepted hacc.1)
          ⟨fun c => Dict.get?_set _ _ c _, rfl, rfl, rfl⟩
      · rw [if_neg hacc]
        by_cases hcan : trade.status ∈ cancelledStatuses
        · rw [if_pos hcan]
          exact .cancelled tracking _ h ht hcan ⟨fun c => Dict.get?_set _ _ c _, rfl, rfl, rfl⟩
        · rw [if_neg hcan]
          by_cases hrej : trade.status = rejectedStatus
          · rw [if_pos hrej]
            exact .inactive tracking _ h ht hrej ⟨fun c => Dict.get?_set _ _ c _, rfl, rfl, rfl⟩
          · rw [if_neg hrej]
            exact .ignored tracking h ht (not_or.mpr ⟨hcan, hrej⟩)

/-- The tracking record once an execution has been seen: the order counts as accepted. -/
def seeExecution (tracking : OrderTrackingState) (execId : String) : OrderTrackingState :=
  { tracking with acceptedEmitted := true, seenExecIds := insert execId tracking.seenExecIds }

/-- The tracking record once the fill of a seen execution has been emitted. -/
def countFill (tracking : OrderTrackingState) (quantity : Decimal) : OrderTrackingState :=
  { tracking with
    cumulativeFilled := tracking.cumulativeFilled + quantity
    terminalEmitted := decide (tracking.cumulativeFilled + quantity ≥ tracking.totalQuantity) }

/-- The ACCEPTED event of an order that was not accepted before its first fill. -/
def acceptJobs (tracking : OrderTrackingState) (cid : ClientOrderId) (trade : Trade) (now : Utc) :
    List Job :=
  if tracking.acceptedEmitted then [] else [.put (acceptedEvent cid trade now)]

/-- The event of an emitted fill. -/
def fillEvent (tracking : OrderTrackingState) (cid : ClientOrderId) (trade : Trade) (fill : Fill)
    (now : Utc) : OrderEvent :=
  if tracking.cumulativeFilled + fill.val.quantity ≥ tracking.totalQuantity then
    .withFill cid (venueOrderIdOf trade.orderId) .filled fill now filled_needsFill
  else .withFill cid (venueOrderIdOf trade.orderId) .partialFill fill now partialFill_needsFill

/-- What a `fillEvent` push can do. -/
inductive FillEffect (cid : ClientOrderId) (trade : Trade) (fill : IbFill) (now : Utc)
    (b : IBBroker) : IBBroker → Prop
  | untracked (h : b.orderTracking.get? cid = none) : FillEffect cid trade fill now b b
  | closed (tracking : OrderTrackingState) (h : b.orderTracking.get? cid = some tracking)
      (ht : tracking.terminalEmitted = true) : FillEffect cid trade fill now b b
  | noExecId (tracking : OrderTrackingState) (h : b.orderTracking.get? cid = some tracking)
      (ht : tracking.terminalEmitted = false)
      (hx : ∀ execution ∈ fill.execution, execution.execId = "") :
      FillEffect cid trade fill now b b
  | seen (tracking : OrderTrackingState) (execution : Execution)
      (h : b.orderTracking.get? cid = some tracking) (ht : tracking.terminalEmitted = false)
      (hx : fill.execution = some execution) (hid : execution.execId ≠ "")
      (hseen : execution.execId ∈ tracking.seenExecIds) : FillEffect cid trade fill now b b
  | raised (tracking : OrderTrackingState) (execution : Execution) (e : PyError) (b' : IBBroker)
      (h : b.orderTracking.get? cid = some tracking) (ht : tracking.terminalEmitted = false)
      (hx : fill.execution = some execution) (hid : execution.execId ≠ "")
      (hnew : execution.execId ∉ tracking.seenExecIds)
      (hfill : Frozen.make (fillFields tracking cid trade execution fill now) = .error e)
      (heffect : Handled cid (seeExecution tracking execution.execId)
        (acceptJobs tracking cid trade now) b b') : FillEffect cid trade fill now b b'
  | emitted (tracking : OrderTrackingState) (execution : Execution) (bliveFill : Fill)
      (b' : IBBroker) (h : b.orderTracking.get? cid = some tracking)
      (ht : tracking.terminalEmitted = false) (hx : fill.execution = some execution)
      (hid : execution.execId ≠ "") (hnew : execution.execId ∉ tracking.seenExecIds)
      (hfill : Frozen.make (fillFields tracking cid trade execution fill now) = .ok bliveFill)
      (heffect : Handled cid
        (countFill (seeExecution tracking execution.execId) bliveFill.val.quantity)
        (acceptJobs tracking cid trade now ++ [.put (fillEvent tracking cid trade bliveFill now)])
        b b') : FillEffect cid trade fill now b b'

/-- The first part of `_on_order_fill`: the execution is seen and the order accepted. -/
theorem acceptFirstFill_spec (b : IBBroker) (cid : ClientOrderId) (tracking : OrderTrackingState)
    (execId : String) (trade : Trade) (now : Utc) :
    let seen := { tracking with seenExecIds := insert execId tracking.seenExecIds }
    ∃ b', (b.setTracking cid seen).acceptFirstFill cid seen trade now =
        (b', seeExecution tracking execId) ∧
      Handled cid (seeExecution tracking execId) (acceptJobs tracking cid trade now) b b' := by
  intro seen
  unfold acceptFirstFill
  cases ha : tracking.acceptedEmitted with
  | true =>
    have hsee : seeExecution tracking execId = seen := by simp [seeExecution, seen, ha]
    have hjobs : acceptJobs tracking cid trade now = [] := by simp [acceptJobs, ha]
    refine ⟨b.setTracking cid seen, ?_, ?_, ?_, rfl, rfl⟩
    · simp [seen, hsee, ha]
    · intro c
      rw [hsee]
      exact Dict.get?_set _ _ _ _
    · simp [hjobs, setTracking]
  | false =>
    have hjobs : acceptJobs tracking cid trade now = [.put (acceptedEvent cid trade now)] := by
      simp [acceptJobs, ha]
    refine ⟨_, if_neg (by simp), ?_, ?_, rfl, rfl⟩
    · intro c
      by_cases hc : c = cid <;> simp [createTask, setTracking, seeExecution, seen, hc]
    · rw [hjobs]
      rfl

/-- The second part of `_on_order_fill`: the fill is counted and its event queued. -/
theorem emitFill_spec (b : IBBroker) (cid : ClientOrderId) (tracking : OrderTrackingState)
    (trade : Trade) (fill : Fill) (now : Utc) (ht : tracking.terminalEmitted = false) :
    Handled cid (countFill tracking fill.val.quantity)
      [.put (fillEvent tracking cid trade fill now)] b
      (b.emitFill cid tracking trade fill now) := by
  unfold emitFill fillEvent
  by_cases hfull : tracking.cumulativeFilled + fill.val.quantity ≥ tracking.totalQuantity
  · simp only [hfull, if_true]
    refine ⟨?_, rfl, rfl, rfl⟩
    intro c
    by_cases hc : c = cid <;> simp [createTask, popError, setTracking, countFill, hfull, hc]
  · simp only [hfull, if_false]
    refine ⟨?_, rfl, rfl, rfl⟩
    intro c
    by_cases hc : c = cid <;> simp [createTask, setTracking, countFill, hfull, hc, ht]

theorem Handled.trans {b b' b'' : IBBroker} {cid : ClientOrderId}
    {tracking tracking' : OrderTrackingState} {jobs jobs' : List Job}
    (h : Handled cid tracking jobs b b') (h' : Handled cid tracking' jobs' b' b'') :
    Handled cid tracking' (jobs ++ jobs') b b'' where
  tracking c := by
    rw [h'.tracking, h.tracking]
    by_cases hc : c = cid <;> simp [hc]
  ready := by rw [h'.ready, h.ready, List.append_assoc]
  events := h'.events.trans h.events
  trades := h'.trades.trans h.trades

theorem onOrderFill_effect (b : IBBroker) (cid : ClientOrderId) (trade : Trade) (fill : IbFill)
    (now : Utc) : FillEffect cid trade fill now b (b.onOrderFill cid trade fill now).1 := by
  unfold onOrderFill
  cases h : b.orderTracking.get? cid with
  | none => exact .untracked h
  | some tracking =>
    dsimp only
    by_cases ht : tracking.terminalEmitted = true
    · rw [if_pos ht]
      exact .closed tracking h ht
    · rw [if_neg ht]
      replace ht : tracking.terminalEmitted = false := by simpa using ht
      cases hx : fill.execution with
      | none => exact .noExecId tracking h ht (by simp [hx])
      | some execution =>
        dsimp only
        by_cases hid : execution.execId = ""
        · rw [if_pos hid]
          exact .noExecId tracking h ht (by simp [hx, hid])
        · rw [if_neg hid]
          by_cases hseen : execution.execId ∈ tracking.seenExecIds
          · rw [if_pos hseen]
            exact .seen tracking execution h ht hx hid hseen
          · rw [if_neg hseen]
            obtain ⟨b', hb', heffect⟩ :=
              acceptFirstFill_spec b cid tracking execution.execId trade now
            rw [hb']
            -- The fields of the fill do not depend on what the first part changed.
            have hfields : fillFields (seeExecution tracking execution.execId) cid trade execution
                fill now = fillFields tracking cid trade execution fill now := rfl
            dsimp only
            rw [hfields]
            cases hfill : Frozen.make (fillFields tracking cid trade execution fill now) with
            | error e => exact .raised tracking execution e b' h ht hx hid hseen hfill heffect
            | ok bliveFill =>
              exact .emitted tracking execution bliveFill _ h ht hx hid hseen hfill
                (heffect.trans (emitFill_spec b' cid _ trade bliveFill now ht))

/-! ## Calls of `submit` -/

theorem prepareOrder_call {order : Order} {call : SubmitCall} (h : prepareOrder order = .ok call) :
    ∃ contract ibOrder, call = ⟨order, .token contract ibOrder⟩ := by
  obtain ⟨contract, -, h⟩ := bind_eq_ok_iff.mp h
  obtain ⟨ibOrder, -, h⟩ := bind_eq_ok_iff.mp h
  cases h
  exact ⟨contract, _, rfl⟩

/-- A call that does not raise at once: the id is not registered, and an order without prices is
prepared at once. -/
theorem submit_cases {b : IBBroker} {order : Order} {call : SubmitCall}
    (h : b.submit order = .ok call) :
    order.val.clientOrderId ∉ b.tradesByClientId ∧
      (((order.val.limitPrice = none ∧ order.val.stopPrice = none) ∧
          prepareOrder order = .ok call) ∨ call = ⟨order, .priceRules⟩) := by
  obtain ⟨-, h⟩ := require_bind_eq_ok_iff.mp h
  obtain ⟨hnew, h⟩ := require_bind_eq_ok_iff.mp h
  refine ⟨hnew, ?_⟩
  split at h
  · rename_i hunpriced
    exact .inl ⟨hunpriced, h⟩
  · cases h
    exact .inr rfl

/-- A call that does not raise at once submits its order under an id that is not registered. -/
theorem submit_eq_ok {b : IBBroker} {order : Order} {call : SubmitCall}
    (h : b.submit order = .ok call) :
    call.order = order ∧ order.val.clientOrderId ∉ b.tradesByClientId := by
  obtain ⟨hnew, ⟨-, hprepared⟩ | rfl⟩ := submit_cases h
  · obtain ⟨contract, ibOrder, rfl⟩ := prepareOrder_call hprepared
    exact ⟨rfl, hnew⟩
  · exact ⟨rfl, hnew⟩

/-- Without prices there is nothing to snap. -/
theorem snapOrderPrices_unpriced {policy : RoundingPolicy} {order : Order}
    {increments : List PriceIncrement}
    (h : order.val.limitPrice = none ∧ order.val.stopPrice = none) :
    snapOrderPrices policy order increments = .ok order := by
  simp [snapOrderPrices, h.1, h.2]
  rfl

/-- Snapping changes the prices, each to its snapped one, and nothing else. -/
theorem snapOrderPrices_fields {policy : RoundingPolicy} {order snapped : Order}
    {increments : List PriceIncrement} (h : snapOrderPrices policy order increments = .ok snapped) :
    (order.val.limitPrice.mapM fun p => snapPrice .default p increments order.val.side policy) =
        .ok snapped.val.limitPrice ∧
      (order.val.stopPrice.mapM fun p => snapPrice .default p increments order.val.side policy) =
        .ok snapped.val.stopPrice ∧
      snapped.val = { order.val with
        limitPrice := snapped.val.limitPrice, stopPrice := snapped.val.stopPrice } := by
  obtain ⟨newLimit, hlimit, h⟩ := bind_eq_ok_iff.mp h
  obtain ⟨newStop, hstop, h⟩ := bind_eq_ok_iff.mp h
  split at h
  · rename_i hsame
    cases h
    rw [hlimit, hstop, hsame.1, hsame.2]
    exact ⟨rfl, rfl, rfl⟩
  · rw [Frozen.make_eq_ok_iff.mp h, hlimit, hstop]
    exact ⟨rfl, rfl, rfl⟩

theorem snapOrderPrices_eq_ok {policy : RoundingPolicy} {order snapped : Order}
    {increments : List PriceIncrement} (h : snapOrderPrices policy order increments = .ok snapped) :
    snapped.val.clientOrderId = order.val.clientOrderId ∧
      snapped.val.instrument = order.val.instrument := by
  obtain ⟨-, -, hrest⟩ := snapOrderPrices_fields h
  rw [hrest]
  exact ⟨rfl, rfl⟩

/-- A call that goes on from the price rules to the rate limiter still submits its order. -/
theorem afterPriceRules_suspended {policy : RoundingPolicy} {b : IBBroker} {order : Order}
    {result : Except PyError (List PriceIncrement)} {now : Utc} {call : SubmitCall}
    (h : (b.afterPriceRules policy order result now).2 = .suspended call) :
    call.cid = order.val.clientOrderId ∧ call.order.val.instrument = order.val.instrument := by
  unfold afterPriceRules at h
  split at h
  · cases h
  · cases h
  · rename_i increments
    cases hprepared : snapOrderPrices policy order increments >>= prepareOrder with
    | error e =>
      rw [hprepared] at h
      cases h
    | ok call' =>
      rw [hprepared] at h
      cases h
      obtain ⟨snapped, hsnapped, hcall⟩ := bind_eq_ok_iff.mp hprepared
      obtain ⟨contract, ibOrder, rfl⟩ := prepareOrder_call hcall
      exact snapOrderPrices_eq_ok hsnapped

/-- The answer of the price rules adds no more than a rejection to the queue. -/
theorem afterPriceRules_broker (policy : RoundingPolicy) (b : IBBroker) (order : Order)
    (result : Except PyError (List PriceIncrement)) (now : Utc) :
    (b.afterPriceRules policy order result now).1 = b ∨
      ∃ text, (b.afterPriceRules policy order result now).1 =
        b.put (.order (priceRuleRejection order text now)) := by
  unfold afterPriceRules
  split
  · exact .inr ⟨_, rfl⟩
  · exact .inl rfl
  · exact .inl rfl

end Blive.IBBroker

namespace Blive.IBSystem

open IBBroker

/-- The suspended call that emits the first event of its order in the step: it places the
order, or rejects it for want of price rules. -/
def emittingCall (s : IBSystem) : Action → Option SubmitCall
  | .priceRules i (.error (.priceRuleUnavailable _)) _ =>
      s.submits[i]?.filter fun call => call.point = .priceRules
  | .acquired i (.ok _) _ => s.submits[i]?.filter fun call => call.point ≠ .priceRules
  | _ => none

variable {policy : RoundingPolicy} {s t : IBSystem}

/-- The price rules answer: either they are unavailable and the order is rejected, or the
broker is left alone. -/
theorem step_priceRules_cases {i : Nat} {result : Except PyError (List PriceIncrement)} {now : Utc}
    (h : step policy s (.priceRules i result now) = some t) :
    ∃ order, s.submits[i]? = some ⟨order, .priceRules⟩ ∧ t.placed = s.placed ∧
      ((∃ text, result = .error (.priceRuleUnavailable text) ∧
          t.broker = s.broker.put (.order (priceRuleRejection order text now))) ∨
        ((∀ text, result ≠ .error (.priceRuleUnavailable text)) ∧ t.broker = s.broker)) := by
  simp only [step] at h
  split at h
  · rename_i order hcall
    cases h
    refine ⟨order, hcall, rfl, ?_⟩
    unfold afterPriceRules
    split
    · rename_i text
      exact .inl ⟨text, rfl, rfl⟩
    · rename_i e hne
      refine .inr ⟨?_, rfl⟩
      intro text heq
      cases heq
      exact hne text rfl
    · refine .inr ⟨?_, rfl⟩
      intro text heq
      cases heq
  · cases h

/-- The limiter and `placeOrder` answer: the call ends without a trace, or its order is placed
and registered. -/
theorem step_acquired_cases {i : Nat} {result : Except PyError Int} {now : Utc}
    (h : step policy s (.acquired i result now) = some t) :
    ∃ order contract ibOrder, s.submits[i]? = some ⟨order, .token contract ibOrder⟩ ∧
      ((∃ e, result = .error e ∧ t.broker = s.broker ∧ t.placed = s.placed) ∨
        ∃ orderId, result = .ok orderId ∧
          t.broker = s.broker.afterPlaceOrder ⟨order, contract, ibOrder, orderId⟩ now ∧
          t.placed = s.placed ++ [⟨order, contract, ibOrder, orderId⟩]) := by
  simp only [step] at h
  split at h
  · rename_i order contract ibOrder hcall
    refine ⟨order, contract, ibOrder, hcall, ?_⟩
    cases result with
    | error e => cases h; exact .inl ⟨e, rfl, rfl, rfl⟩
    | ok orderId => cases h; exact .inr ⟨orderId, rfl, rfl, rfl⟩
  · cases h

end Blive.IBSystem
