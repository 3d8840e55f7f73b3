import Blive.Runtime.Proofs.Coherence

/-!
# How a submission is settled

A submission that has returned is in its first drain, in the engine's cancel or in the drain after
it, until the run counts it as filled, canceled or rejected. `StageCase` lists what a step does to
it, to the counters of the run and to the orders the engine asks to cancel.
-/

namespace Blive.IbPipeline

/-- The counters of a run. -/
structure Counters where
  submitted : Nat
  accepted : Nat
  fills : Nat
  canceled : Nat
  rejected : Nat
  submittedBySymbol : Dict String Nat
  fillsBySymbol : Dict String Nat

def RunResult.counters (result : RunResult) : Counters where
  submitted := result.submittedCount
  accepted := result.acceptedCount
  fills := result.fillsCount
  canceled := result.canceledCount
  rejected := result.rejectedCount
  submittedBySymbol := result.submittedBySymbol
  fillsBySymbol := result.fillsBySymbol

/-- Where the submission stands that has returned and is not counted yet. -/
inductive Stage where
  | none
  | draining (drain : Drain)
  | canceling (targetId : ClientOrderId)
  | redraining (drain : Drain)

def Task.stage : Task → Stage
  | .inDrain _ drain => .draining drain
  | .inCancel _ targetId => .canceling targetId
  | .inRedrain _ drain => .redraining drain
  | .atBar _ | .atOrder _ | .inSubmit _ _ _ _ | .finished | .raised _ => .none

/-- The counters after the acceptance is counted. -/
def Counters.settling (c : Counters) (drain : Drain) : Counters :=
  { c with accepted := c.accepted + drain.reachedAccepted.toNat }

/-- What becomes of the order whose first drain has ended, given the counters and the orders the
engine has asked to cancel so far. -/
inductive Outcome (loop : RebalanceLoop) (counters : Counters) (cancels : List ClientOrderId)
    (work : Work) (drain : Drain) (t : State) : Prop
  | filled (fill : Fill) (hfill : drain.bookedFill = some fill) (htask : t.task = .atOrder work)
      (hcounters : t.result.counters = { counters.settling drain with
        fills := counters.fills + 1
        fillsBySymbol := RebalanceLoop.increment counters.fillsBySymbol
          (loop.bookingKey fill) })
      (hcancels : t.cancels = cancels)
  /-- The fill cannot be booked. -/
  | unbooked (fill : Fill) (hfill : drain.bookedFill = some fill) (hraised : t.Raised)
      (hcounters : t.result.counters = counters.settling drain)
      (hcancels : t.cancels = cancels)
  | canceled (hstate : drain.state = .canceled) (htask : t.task = .atOrder work)
      (hcounters : t.result.counters = { counters.settling drain with
        canceled := counters.canceled + 1 })
      (hcancels : t.cancels = cancels)
  | rejected (hstate : drain.state = .rejected) (htask : t.task = .atOrder work)
      (hcounters : t.result.counters = { counters.settling drain with
        rejected := counters.rejected + 1 })
      (hcancels : t.cancels = cancels)
  /-- The engine asks the broker to cancel it. -/
  | engineCanceled (hfill : drain.bookedFill = none) (hcanceled : drain.state ≠ .canceled)
      (hrejected : drain.state ≠ .rejected)
      (htask : t.task = .inCancel work drain.targetId ∨
        t.task = .inRedrain work { targetId := drain.targetId } ∨ t.Raised)
      (hcounters : t.result.counters = counters.settling drain)
      (hcancels : t.cancels = cancels ++ [drain.targetId])

theorem settle_outcome (loop : RebalanceLoop) (s : State) (work : Work) (drain : Drain) :
    Outcome loop s.result.counters s.cancels work drain (loop.settle s work drain) := by
  unfold RebalanceLoop.settle
  cases hfill : drain.bookedFill with
  | some fill =>
    simp only [RebalanceLoop.bookFill]
    cases hposition : applyFill (s.positions.get? (loop.bookingKey fill)) fill
        loop.liveConfig.val.strategyId work.rebalance.time with
    | error e => exact .unbooked fill hfill ⟨e, rfl⟩ rfl rfl
    | ok position => exact .filled fill hfill rfl rfl rfl
  | none =>
    split
    · contradiction
    · rename_i hstate
      exact .canceled hstate rfl rfl rfl
    · rename_i hstate
      exact .rejected hstate rfl rfl rfl
    · rename_i hcanceled hrejected
      simp only [RebalanceLoop.engineCancel]
      split
      · exact .engineCanceled hfill hcanceled hrejected (.inl rfl) rfl rfl
      · exact .engineCanceled hfill hcanceled hrejected (.inr (.inl rfl)) rfl rfl
      · rename_i e _ _
        exact .engineCanceled hfill hcanceled hrejected (.inr (.inr ⟨e, rfl⟩)) rfl rfl

/-- What a step does to the submission that is being settled. -/
inductive StageCase (loop : RebalanceLoop) (s : State) (t : State) : Action → Prop
  | kept (a : Action) (hstage : t.task.stage = s.task.stage)
      (hcounters : t.result.counters = s.result.counters) (hcancels : t.cancels = s.cancels)
      (hcursor : t.cursor = s.cursor) (hplaced : t.placed = s.placed)
      (ha : a ≠ .timeout ∧ a ≠ .getEvent) :
      StageCase loop s t a
  | raised (a : Action) (hraised : t.Raised) (hcounters : t.result.counters = s.result.counters)
      (hcancels : t.cancels = s.cancels) (hcursor : t.cursor = s.cursor)
      (ha : a ≠ .timeout ∧ a ≠ .getEvent) :
      StageCase loop s t a
  /-- `submit` has returned, with the order placed or not. -/
  | returned (a : Action) (work : Work) (order wired : Order) (point : IBBroker.SubmitPoint)
      (switched : List KillSwitch.Call)
      (hfrom : s.task = .inSubmit work order ⟨wired, point⟩ switched)
      (htask : t.task = .inDrain work { targetId := order.val.clientOrderId })
      (hcounters : t.result.counters = { s.result.counters with
        submitted := s.result.counters.submitted + 1
        submittedBySymbol := RebalanceLoop.increment s.result.counters.submittedBySymbol
          order.val.instrument.val.symbol })
      (hcancels : t.cancels = s.cancels) (hcursor : t.cursor = s.cursor)
      (hplaced : t.placed = s.placed ∨ ∃ contract ibOrder orderId,
        t.placed = s.placed ++ [⟨wired, contract, ibOrder, orderId⟩]) : StageCase loop s t a
  | read (work : Work) (drain : Drain) (event : BrokerEvent)
      (hfrom : s.task = .inDrain work drain) (hevent : s.broker.events[s.cursor]? = some event)
      (hdone : (drain.read event).done = false)
      (ht : t = { s with cursor := s.cursor + 1, task := .inDrain work (drain.read event) }) :
      StageCase loop s t .getEvent
  | ended (work : Work) (drain : Drain) (event : BrokerEvent)
      (hfrom : s.task = .inDrain work drain) (hevent : s.broker.events[s.cursor]? = some event)
      (hdone : (drain.read event).done = true)
      (houtcome : Outcome loop s.result.counters s.cancels work (drain.read event) t)
      (hcursor : t.cursor = s.cursor + 1) (hplaced : t.placed = s.placed) :
      StageCase loop s t .getEvent
  | timedOut (work : Work) (drain : Drain) (hfrom : s.task = .inDrain work drain)
      (houtcome : Outcome loop s.result.counters s.cancels work drain t)
      (hcursor : t.cursor = s.cursor) (hplaced : t.placed = s.placed) :
      StageCase loop s t .timeout
  /-- The engine's cancel has returned. -/
  | redrain (a : Action) (work : Work) (targetId : ClientOrderId)
      (hfrom : s.task = .inCancel work targetId) (ht : t = { s with
        task := .inRedrain work { targetId := targetId } }) : StageCase loop s t a
  | reread (work : Work) (drain : Drain) (event : BrokerEvent)
      (hfrom : s.task = .inRedrain work drain) (hevent : s.broker.events[s.cursor]? = some event)
      (hdone : (drain.read event).done = false)
      (ht : t = { s with cursor := s.cursor + 1, task := .inRedrain work (drain.read event) }) :
      StageCase loop s t .getEvent
  | counted (work : Work) (drain : Drain) (event : BrokerEvent)
      (hfrom : s.task = .inRedrain work drain) (hevent : s.broker.events[s.cursor]? = some event)
      (hdone : (drain.read event).done = true)
      (ht : t = RebalanceLoop.settleCancel { s with cursor := s.cursor + 1 } work) :
      StageCase loop s t .getEvent
  | countedLate (work : Work) (drain : Drain) (hfrom : s.task = .inRedrain work drain)
      (ht : t = RebalanceLoop.settleCancel s work) : StageCase loop s t .timeout

section Cases

variable {loop : RebalanceLoop} {policy : RoundingPolicy} {s t : State}

theorem openRebalance_stage (loop : RebalanceLoop) (s : State) (bar : Bar) (bars : List Bar)
    (ids : Nat → UUID) (hs : s.task.stage = .none) {a : Action}
    (ha : a ≠ .timeout ∧ a ≠ .getEvent) :
    StageCase loop s (loop.openRebalance s bar bars ids) a := by
  unfold RebalanceLoop.openRebalance
  cases loop.rebalance bar with
  | error e => exact .raised a ⟨e, rfl⟩ rfl rfl rfl ha
  | ok opened =>
    cases opened with
    | none => exact .kept a hs.symm rfl rfl rfl rfl ha
    | some rebalance =>
      dsimp only
      cases sizeOrders .exact (loop.sizerInput s rebalance) ids with
      | error e => exact .raised a ⟨e, rfl⟩ rfl rfl rfl ha
      | ok orders => exact .kept a hs.symm rfl rfl rfl rfl ha

theorem submitOrder_stage (loop : RebalanceLoop) (s : State) (work : Work) (desired : Order)
    (id : UUID) (artefact : String → Artefact) (hs : s.task.stage = .none) {a : Action}
    (ha : a ≠ .timeout ∧ a ≠ .getEvent) :
    StageCase loop s (loop.submitOrder s work desired id artefact) a := by
  unfold RebalanceLoop.submitOrder
  cases loop.riskInputs work.rebalance desired artefact with
  | error e => exact .raised a ⟨e, rfl⟩ rfl rfl rfl ha
  | ok inputs =>
    dsimp only
    generalize (loop.riskEngine s.killSwitch).approve desired inputs work.rebalance.time = verdict
    obtain ⟨approved, breaches⟩ := verdict
    cases approved with
    | none => exact .kept a hs.symm rfl rfl rfl rfl ha
    | some approved =>
      dsimp only
      cases loop.promote work.rebalance approved id with
      | error e => exact .raised a ⟨e, rfl⟩ rfl rfl rfl ha
      | ok order =>
        simp only [RebalanceLoop.callSubmit]
        cases s.broker.submit order with
        | error e => exact .raised a ⟨e, rfl⟩ rfl rfl rfl ha
        | ok call => exact .kept a hs.symm rfl rfl rfl rfl ha

theorem stage_noteSwitch (call : KillSwitch.Call) (task : Task) :
    (task.noteSwitch call).stage = task.stage := by
  cases task <;> rfl

theorem stage_cases {a : Action} (h : step loop policy s a = some t) : StageCase loop s t a := by
  cases a with
  | proceed ids artefact =>
    simp only [step] at h
    split at h
    · rename_i hs
      cases h
      exact .kept _ (by rw [hs]; rfl) rfl rfl rfl rfl (by simp)
    · rename_i bar bars hs
      cases h
      exact openRebalance_stage loop s bar bars ids (by rw [hs]; rfl) (by simp)
    · rename_i rebalance bars hs
      cases h
      exact .kept _ (by rw [hs]; rfl) rfl rfl rfl rfl (by simp)
    · rename_i rebalance desired orders bars hs
      cases h
      exact submitOrder_stage loop s _ desired _ artefact (by rw [hs]; rfl)
        (by simp)
    · cases h
  | priceRules result now =>
    simp only [step] at h
    split at h
    · rename_i work order wired switched hs
      cases h
      cases hended : (s.broker.afterPriceRules policy wired result now).2 with
      | suspended call =>
        simp only [RebalanceLoop.submitEnded]
        exact .kept _ (by rw [hs]; rfl) rfl rfl rfl rfl (by simp)
      | returned =>
        simp only [RebalanceLoop.submitEnded]
        exact .returned _ work order wired _ switched hs rfl rfl rfl rfl (.inl rfl)
      | raised e =>
        simp only [RebalanceLoop.submitEnded]
        exact .raised _ ⟨e, rfl⟩ rfl rfl rfl (by simp)
    · cases h
  | acquired result now =>
    simp only [step] at h
    split at h
    · rename_i work order wired contract ibOrder switched hs
      cases result with
      | error e =>
        cases h
        exact .raised _ ⟨e, rfl⟩ rfl rfl rfl (by simp)
      | ok orderId =>
        cases h
        exact .returned _ work order wired _ switched hs rfl rfl rfl rfl
          (.inr ⟨contract, ibOrder, orderId, rfl⟩)
    · cases h
  | canceled result =>
    simp only [step] at h
    split at h
    · rename_i work targetId hs
      split at h
      · cases h
        exact .redrain _ work targetId hs rfl
      · cases h
        exact .redrain _ work targetId hs rfl
      · rename_i e _
        cases h
        exact .raised _ ⟨e, rfl⟩ rfl rfl rfl (by simp)
    · cases h
  | getEvent =>
    simp only [step] at h
    split at h
    · rename_i work drain event hs hevent
      cases h
      by_cases hdone : (drain.read event).done = true
      · rw [if_pos hdone]
        exact .ended work drain event hs hevent hdone
          (settle_outcome loop { s with cursor := s.cursor + 1 } work _) (settle_cursor _ _ _ _)
          (settle_frame _ _ _ _).2.1
      · rw [if_neg hdone]
        exact .read work drain event hs hevent (by simpa using hdone) rfl
    · rename_i work drain event hs hevent
      cases h
      by_cases hdone : (drain.read event).done = true
      · rw [if_pos hdone]
        exact .counted work drain event hs hevent hdone rfl
      · rw [if_neg hdone]
        exact .reread work drain event hs hevent (by simpa using hdone) rfl
    · cases h
  | timeout =>
    simp only [step] at h
    split at h
    · rename_i work drain hs
      cases h
      exact .timedOut work drain hs (settle_outcome loop s work drain) (settle_cursor _ _ _ _)
        (settle_frame _ _ _ _).2.1
    · rename_i work drain hs
      cases h
      exact .countedLate work drain hs rfl
    · cases h
  | killSwitch call =>
    cases h
    exact .kept _ (stage_noteSwitch call s.task) rfl rfl rfl rfl (by simp)
  | venue action =>
    simp only [step] at h
    split at h
    · obtain ⟨system, -, rfl⟩ := Option.map_eq_some_iff.mp h
      exact .kept _ rfl rfl rfl rfl rfl (by simp)
    · cases h

end Cases

end Blive.IbPipeline
