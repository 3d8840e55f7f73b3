import Blive.Adapters.Ib.Proofs.Step
import Blive.Domain.OrderFsm

/-!
# Event traces of the IB broker

The events of an order are the ones on the queue and the ones that queued tasks will put
there. `TraceOk` relates the state these lead to in the transition table to the flags of the
order's tracking record. A push or a resumption keeps it unless it starts the trace of an id a
second time, or is an Inactive status of an order that was already accepted.
-/

namespace Blive.IBSystem

open Transition IBBroker

/-- The kind of the event the task will put on the queue for `cid`. -/
def jobKind (cid : ClientOrderId) : Job → Option OrderEventKind
  | .put event => if event.val.clientOrderId = cid then some event.val.kind else none
  | .emitRejectedViaInactive _ c _ => if c = cid then some .rejected else none

/-- The kinds of the events that are still to be put on the queue for `cid`. -/
def pendingKinds (cid : ClientOrderId) (ready : List Job) : List OrderEventKind :=
  ready.filterMap (jobKind cid)

@[simp] theorem pendingKinds_nil (cid : ClientOrderId) : pendingKinds cid [] = [] := rfl

@[simp] theorem pendingKinds_append (cid : ClientOrderId) (xs ys : List Job) :
    pendingKinds cid (xs ++ ys) = pendingKinds cid xs ++ pendingKinds cid ys :=
  List.filterMap_append

theorem pendingKinds_cons (cid : ClientOrderId) (job : Job) (rest : List Job) :
    pendingKinds cid (job :: rest) = (jobKind cid job).toList ++ pendingKinds cid rest := by
  unfold pendingKinds
  cases h : jobKind cid job <;> simp [h]

/-- The event kinds of `cid`, put or still to be put. -/
def trace (cid : ClientOrderId) (b : IBBroker) : List OrderEventKind :=
  kindsOf cid b.events ++ pendingKinds cid b.ready

/-- What the tracking record says about the order's state. -/
def PhaseOk : Option OrderTrackingState → OrderState → Prop
  | none, st => st = .submitPending ∨ st = .rejected
  | some tracking, st =>
      if tracking.terminalEmitted then isTerminal st = true
      else if tracking.acceptedEmitted then st = .accepted ∨ st = .partiallyFilled
      else st = .submitted

structure TraceOk (b : IBBroker) : Prop where
  legal : ∀ cid, ∃ st, observeAll .submitPending (trace cid b) = some st ∧
    PhaseOk (b.orderTracking.get? cid) st
  untracked : ∀ cid, b.orderTracking.get? cid = none → pendingKinds cid b.ready = []
  tracked : ∀ cid, b.orderTracking.get? cid ≠ none → kindsOf cid b.events ≠ []

/-- A submission starts the trace of its id only if no event of the id went out before, and an
Inactive status finds its order closed or not yet accepted. -/
def StartsOnce (s : IBSystem) (a : Action) : Prop :=
  (∀ call ∈ s.emittingCall a, kindsOf call.cid s.broker.events = []) ∧
    match a with
    | .statusEvent cid trade _ => trade.status = rejectedStatus →
        ∀ tracking ∈ s.broker.orderTracking.get? cid,
          tracking.terminalEmitted = false → tracking.acceptedEmitted = false
    | _ => True

instance (s : IBSystem) (a : Action) : Decidable (StartsOnce s a) := by
  unfold StartsOnce
  exact match a with
    | .statusEvent _ _ _ => inferInstanceAs (Decidable (_ ∧ (_ → ∀ tracking ∈ _, _ → _)))
    | .connect _ | .disconnect _ | .submit _ | .priceRules _ _ _ | .acquired _ _ _
    | .fillEvent _ _ _ _ | .errorEvent _ _ _ | .tick _ _ _ =>
        inferInstanceAs (Decidable (_ ∧ True))

section Emission

variable {b b' : IBBroker} {cid : ClientOrderId}

/-- An id without events is not tracked and nothing is pending for it. -/
theorem TraceOk.noEvents (hb : TraceOk b) (h : kindsOf cid b.events = []) :
    b.orderTracking.get? cid = none ∧ pendingKinds cid b.ready = [] := by
  have hnone : b.orderTracking.get? cid = none := by
    by_contra hsome
    exact hb.tracked cid hsome h
  exact ⟨hnone, hb.untracked cid hnone⟩

/-- A handler that moves one order along the table. -/
theorem TraceOk.handled {tracking tracking' : OrderTrackingState} {jobs : List Job}
    (hb : TraceOk b) (h : b.orderTracking.get? cid = some tracking)
    (heffect : Handled cid tracking' jobs b b')
    (hother : ∀ c, c ≠ cid → pendingKinds c jobs = [])
    (hmove : ∀ st, PhaseOk (some tracking) st → ∃ st',
      observeAll st (pendingKinds cid jobs) = some st' ∧ PhaseOk (some tracking') st') :
    TraceOk b' := by
  have htrace (c : ClientOrderId) : trace c b' = trace c b ++ pendingKinds c jobs := by
    simp [trace, heffect.events, heffect.ready]
  refine ⟨?_, ?_, ?_⟩
  · intro c
    obtain ⟨st, hst, hphase⟩ := hb.legal c
    rw [htrace, observeAll_append, hst, heffect.tracking]
    by_cases hc : c = cid
    · subst hc
      rw [h] at hphase
      rw [if_pos rfl]
      exact hmove st hphase
    · rw [if_neg hc, hother c hc]
      exact ⟨st, rfl, hphase⟩
  · intro c hc
    rw [heffect.tracking] at hc
    by_cases heq : c = cid
    · rw [if_pos heq] at hc
      cases hc
    · rw [if_neg heq] at hc
      rw [heffect.ready, pendingKinds_append, hb.untracked c hc, hother c heq]
      rfl
  · intro c hc
    rw [heffect.events]
    rw [heffect.tracking] at hc
    by_cases heq : c = cid
    · rw [heq]
      exact hb.tracked cid (by simp [h])
    · rw [if_neg heq] at hc
      exact hb.tracked c hc

/-- A rejection by the price rules leaves its order untracked. -/
theorem get?_priceRuleRejection {order : Order} {text : String} {now : Utc}
    (h : b' = b.put (.order (priceRuleRejection order text now)))
    (hnone : b.orderTracking.get? order.val.clientOrderId = none) (c : ClientOrderId) :
    b'.orderTracking.get? c =
      if c = (priceRuleRejection order text now).val.clientOrderId then none
      else b.orderTracking.get? c := by
  have hcid : (priceRuleRejection order text now).val.clientOrderId =
    order.val.clientOrderId := rfl
  rw [h, hcid]
  by_cases hc : c = order.val.clientOrderId
  · rw [if_pos hc, hc]
    exact hnone
  · rw [if_neg hc]
    rfl

/-- An event put on the queue directly, for an id that has none so far. -/
theorem TraceOk.start (event : OrderEvent) (tracking : Option OrderTrackingState)
    (hb : TraceOk b) (hfirst : kindsOf event.val.clientOrderId b.events = [])
    (hevents : b'.events = b.events ++ [.order event]) (hready : b'.ready = b.ready)
    (htracking : ∀ c, b'.orderTracking.get? c =
      if c = event.val.clientOrderId then tracking else b.orderTracking.get? c)
    (hphase : ∃ st, observe .submitPending event.val.kind = some st ∧ PhaseOk tracking st) :
    TraceOk b' := by
  obtain ⟨hnone, hpending⟩ := hb.noEvents hfirst
  have hkinds (c : ClientOrderId) : kindsOf c b'.events =
      kindsOf c b.events ++ if event.val.clientOrderId = c then [event.val.kind] else [] := by
    rw [hevents, kindsOf_append, kindsOf_order]
  refine ⟨?_, ?_, ?_⟩
  · intro c
    rw [htracking]
    by_cases hc : c = event.val.clientOrderId
    · subst hc
      simp only [trace, hkinds, hfirst, hready, hpending, if_true, List.nil_append,
        List.append_nil, observeAll_singleton]
      exact hphase
    · rw [if_neg hc, trace, hkinds, if_neg (Ne.symm hc), List.append_nil, hready]
      exact hb.legal c
  · intro c hc
    rw [htracking] at hc
    rw [hready]
    by_cases heq : c = event.val.clientOrderId
    · rw [heq, hpending]
    · rw [if_neg heq] at hc
      exact hb.untracked c hc
  · intro c hc
    rw [hkinds]
    rw [htracking] at hc
    by_cases heq : event.val.clientOrderId = c
    · simp [heq]
    · rw [if_neg (Ne.symm heq)] at hc
      simp [hb.tracked c hc]

end Emission

section Handlers

variable {b : IBBroker} {cid : ClientOrderId} {trade : Trade} {now : Utc}

theorem cancelledEvent_clientOrderId (cid : ClientOrderId) (trade : Trade) (now : Utc)
    (accepted : Bool) :
    (cancelledEvent cid accepted trade now).val.clientOrderId = cid := by
  unfold cancelledEvent
  split <;> rfl

/-- An order that was accepted is canceled, never rejected, by a cancelled status. -/
theorem cancelledEvent_kind (cid : ClientOrderId) (trade : Trade) (now : Utc) (accepted : Bool) :
    (cancelledEvent cid accepted trade now).val.kind = .canceled ∨
      ((cancelledEvent cid accepted trade now).val.kind = .rejected ∧ accepted = false) := by
  unfold cancelledEvent
  cases accepted with
  | true => exact .inl rfl
  | false =>
    split
    · exact .inr ⟨rfl, rfl⟩
    · exact .inl rfl

theorem TraceOk.onOrderStatus (hb : TraceOk b)
    (hinactive : trade.status = rejectedStatus → ∀ tracking ∈ b.orderTracking.get? cid,
      tracking.terminalEmitted = false → tracking.acceptedEmitted = false) :
    TraceOk (b.onOrderStatus cid trade now) := by
  have heffect := onOrderStatus_effect b cid trade now
  generalize b.onOrderStatus cid trade now = b' at heffect ⊢
  cases heffect with
  | untracked h => exact hb
  | closed tracking h ht => exact hb
  | ignored tracking h ht hs => exact hb
  | accepted tracking _ h ht ha hs heffect =>
    refine hb.handled h heffect ?_ ?_
    · intro c hc
      simp [pendingKinds_cons, jobKind, acceptedEvent, OrderEvent.plain, Ne.symm hc]
    · intro st hst
      simp only [PhaseOk, ht, ha] at hst
      subst hst
      exact ⟨.accepted, by simp [pendingKinds_cons, jobKind, acceptedEvent, OrderEvent.plain]; rfl,
        by simp [PhaseOk, ht]⟩
  | cancelled tracking _ h ht hs heffect =>
    have hcid := cancelledEvent_clientOrderId cid trade now tracking.acceptedEmitted
    refine hb.handled h heffect ?_ ?_
    · intro c hc
      simp [pendingKinds_cons, jobKind, hcid, Ne.symm hc]
    · intro st hst
      simp only [pendingKinds_cons, jobKind, hcid, if_true, pendingKinds_nil, List.append_nil,
        Option.toList_some, observeAll_singleton]
      simp only [PhaseOk, ht] at hst
      rcases cancelledEvent_kind cid trade now tracking.acceptedEmitted with hk | ⟨hk, ha⟩
      · refine ⟨.canceled, ?_, by simp [PhaseOk]; decide⟩
        rw [hk]
        cases ha : tracking.acceptedEmitted with
        | true =>
          simp only [ha, if_true] at hst
          rcases hst with rfl | rfl <;> rfl
        | false =>
          simp only [ha] at hst
          subst hst
          rfl
      · simp only [ha] at hst
        subst hst
        exact ⟨.rejected, by rw [hk]; rfl, by simp [PhaseOk]; decide⟩
  | inactive tracking _ h ht hs heffect =>
    have ha := hinactive hs tracking h ht
    refine hb.handled h heffect ?_ ?_
    · intro c hc
      simp [pendingKinds_cons, jobKind, Ne.symm hc]
    · intro st hst
      simp only [PhaseOk, ht, ha] at hst
      subst hst
      exact ⟨.rejected, by simp [pendingKinds_cons, jobKind]; rfl, by simp [PhaseOk]; decide⟩

/-- The ACCEPTED event that a first fill implies brings the order to an accepted state. -/
theorem observeAll_acceptJobs (cid : ClientOrderId) (trade : Trade) (now : Utc)
    {tracking : OrderTrackingState} {st : OrderState}
    (ht : tracking.terminalEmitted = false) (hst : PhaseOk (some tracking) st) :
    ∃ st', observeAll st (pendingKinds cid (acceptJobs tracking cid trade now)) = some st' ∧
      (st' = .accepted ∨ st' = .partiallyFilled) := by
  unfold acceptJobs
  cases ha : tracking.acceptedEmitted with
  | true =>
    simp only [PhaseOk, ht, ha, if_true] at hst
    exact ⟨st, rfl, hst⟩
  | false =>
    simp only [PhaseOk, ht, ha] at hst
    subst hst
    exact ⟨.accepted, by simp [pendingKinds_cons, jobKind, acceptedEvent, OrderEvent.plain]; rfl,
      .inl rfl⟩

theorem pendingKinds_acceptJobs_of_ne {tracking : OrderTrackingState} {c : ClientOrderId}
    (hc : c ≠ cid) : pendingKinds c (acceptJobs tracking cid trade now) = [] := by
  unfold acceptJobs
  split <;> simp [pendingKinds_cons, jobKind, acceptedEvent, OrderEvent.plain, Ne.symm hc]

theorem TraceOk.onOrderFill {fill : IbFill} (hb : TraceOk b) :
    TraceOk (b.onOrderFill cid trade fill now).1 := by
  have heffect := onOrderFill_effect b cid trade fill now
  generalize (b.onOrderFill cid trade fill now).1 = b' at heffect ⊢
  cases heffect with
  | untracked h => exact hb
  | closed tracking h ht => exact hb
  | noExecId tracking h ht hx => exact hb
  | seen tracking execution h ht hx hid hseen => exact hb
  | raised tracking execution e _ h ht hx hid hnew hfill heffect =>
    apply hb.handled h heffect (fun c hc => pendingKinds_acceptJobs_of_ne hc)
    intro st hst
    obtain ⟨st', hst', hworking⟩ := observeAll_acceptJobs cid trade now ht hst
    exact ⟨st', hst', by simpa [PhaseOk, seeExecution, ht] using hworking⟩
  | emitted tracking execution bliveFill _ h ht hx hid hnew hfill heffect =>
    have hcid : (IBBroker.fillEvent tracking cid trade bliveFill now).val.clientOrderId = cid := by
      unfold IBBroker.fillEvent
      split <;> rfl
    refine hb.handled h heffect ?_ ?_
    · intro c hc
      rw [pendingKinds_append, pendingKinds_acceptJobs_of_ne hc, pendingKinds_cons]
      simp [jobKind, hcid, Ne.symm hc]
    · intro st hst
      obtain ⟨st', hst', hworking⟩ := observeAll_acceptJobs cid trade now ht hst
      simp only [pendingKinds_append, pendingKinds_cons, jobKind, hcid, if_true, Option.toList_some,
        pendingKinds_nil, List.append_nil, observeAll_append, hst', Option.bind_some,
        observeAll_singleton]
      unfold IBBroker.fillEvent
      by_cases hfull : tracking.cumulativeFilled + bliveFill.val.quantity ≥ tracking.totalQuantity
      · simp only [hfull, if_true]
        refine ⟨.filled, by rcases hworking with rfl | rfl <;> rfl, ?_⟩
        simp [PhaseOk, countFill, seeExecution, hfull, isTerminal, terminalOrderStates]
      · simp only [hfull, if_false]
        refine ⟨.partiallyFilled, by rcases hworking with rfl | rfl <;> rfl, ?_⟩
        simp [PhaseOk, countFill, seeExecution, hfull]

end Handlers

section Steps

variable {policy : RoundingPolicy} {b b' : IBBroker} {s t : IBSystem}

/-- A step that changes neither the events of any order nor the tracking records. -/
theorem TraceOk.congr (hb : TraceOk b) (htrace : ∀ cid, trace cid b' = trace cid b)
    (hkinds : ∀ cid, kindsOf cid b'.events = kindsOf cid b.events)
    (htracking : b'.orderTracking = b.orderTracking) : TraceOk b' := by
  refine ⟨?_, ?_, ?_⟩
  · intro cid
    rw [htrace, htracking]
    exact hb.legal cid
  · intro cid hc
    rw [htracking] at hc
    have heq := htrace cid
    rw [trace, trace, hkinds, hb.untracked cid hc] at heq
    exact List.append_cancel_left heq
  · intro cid hc
    rw [hkinds]
    rw [htracking] at hc
    exact hb.tracked cid hc

/-- The next task runs: what was pending is put, or waits for another turn. -/
theorem TraceOk.tick {log : List TradeLogEntry} {whyHeld : String} {now : Utc} (hb : TraceOk b)
    (h : b.tick log whyHeld now = some b') : TraceOk b' := by
  have hput {job : Job} {rest : List Job} (event : OrderEvent) {c : IBBroker}
      (hready : b.ready = job :: rest) (hjob : ∀ cid, (jobKind cid job).toList =
        if event.val.clientOrderId = cid then [event.val.kind] else [])
      (hc : c.ready = rest) (hevents : c.events = b.events ++ [.order event])
      (htracking : c.orderTracking = b.orderTracking) : TraceOk c := by
    have htrace (cid : ClientOrderId) : trace cid c = trace cid b := by
      rw [trace, trace, hready, hc, hevents, kindsOf_append, kindsOf_order, pendingKinds_cons,
        hjob, List.append_assoc]
    refine ⟨?_, ?_, ?_⟩
    · intro cid
      rw [htrace, htracking]
      exact hb.legal cid
    · intro cid hcid
      rw [htracking] at hcid
      have hnone := hb.untracked cid hcid
      rw [hready, pendingKinds_cons] at hnone
      rw [hc]
      exact (List.append_eq_nil_iff.mp hnone).2
    · intro cid hcid
      rw [htracking] at hcid
      rw [hevents, kindsOf_append]
      intro hnil
      exact hb.tracked cid hcid (List.append_eq_nil_iff.mp hnil).1
  unfold IBBroker.tick at h
  split at h
  · cases h
  · rename_i event rest hready
    cases h
    refine hput event hready ?_ rfl rfl rfl
    intro cid
    by_cases hc : event.val.clientOrderId = cid <;> simp [jobKind, hc]
  · rename_i yields cid orderId rest hready
    cases h
    -- Nothing may follow a REJECTED event, so the task can go to the end of the queue.
    refine hb.congr ?_ (fun _ => rfl) rfl
    intro c
    obtain ⟨st, hst, -⟩ := hb.legal c
    have hjobs : pendingKinds c (rest ++ [.emitRejectedViaInactive yields cid orderId]) =
        pendingKinds c b.ready := by
      rw [trace, hready, pendingKinds_cons] at hst
      rw [hready, pendingKinds_append, pendingKinds_cons, pendingKinds_cons]
      by_cases hc : cid = c
      · simp only [jobKind, hc, if_true, Option.toList_some, List.singleton_append] at hst ⊢
        have hrest : pendingKinds c rest = [] := by
          cases hk : pendingKinds c rest with
          | nil => rfl
          | cons kind more =>
            rw [hk, observeAll_append] at hst
            obtain ⟨mid, -, hmid⟩ := Option.bind_eq_some_iff.mp hst
            obtain ⟨stRejected, hrejected, hafter⟩ := Transition.run_cons_eq_some.mp hmid
            obtain ⟨last, hlast, -⟩ := Transition.run_cons_eq_some.mp hafter
            have hterminal : isTerminal stRejected = true := isTerminal_of_observe hrejected
            rw [observe_terminal hterminal] at hlast
            cases hlast
        simp [hrest]
      · simp [jobKind, hc]
    simp only [trace, createTask]
    rw [hjobs]
  · rename_i cid orderId rest hready
    cases h
    refine hput _ hready ?_ rfl rfl rfl
    intro c
    by_cases hc : cid = c <;> simp [jobKind, OrderEvent.withReason, hc]

theorem TraceOk.step {a : Action} (hs : TraceOk s.broker) (ha : StartsOnce s a)
    (h : IBSystem.step policy s a = some t) : TraceOk t.broker := by
  cases a with
  | connect now =>
    cases h
    exact hs.congr (fun cid => by simp [trace, IBBroker.connect, IBBroker.put])
      (fun cid => by simp [IBBroker.connect, IBBroker.put]) rfl
  | disconnect now =>
    cases h
    exact hs.congr (fun cid => by simp [trace, IBBroker.disconnect, IBBroker.put])
      (fun cid => by simp [IBBroker.disconnect, IBBroker.put]) rfl
  | submit order => cases h; exact hs
  | priceRules i result now =>
    obtain ⟨order, hcall, -, ⟨text, rfl, hb⟩ | ⟨-, hb⟩⟩ := step_priceRules_cases h
    · have hfirst := ha.1 ⟨order, .priceRules⟩ (by simp [emittingCall, hcall])
      have hnone := (hs.noEvents hfirst).1
      have hevents : t.broker.events =
          s.broker.events ++ [.order (priceRuleRejection order text now)] := by rw [hb]; rfl
      have hready : t.broker.ready = s.broker.ready := by rw [hb]; rfl
      exact hs.start _ none hfirst hevents hready (get?_priceRuleRejection hb hnone)
        ⟨.rejected, rfl, .inr rfl⟩
    · rw [hb]
      exact hs
  | acquired i result now =>
    obtain ⟨order, contract, ibOrder, hcall, ⟨e, -, hb, -⟩ | ⟨orderId, rfl, hb, -⟩⟩ :=
      step_acquired_cases h
    · rw [hb]
      exact hs
    · rw [hb]
      exact hs.start
        (.plain order.val.clientOrderId (venueOrderIdOf orderId) .submitted now submitted_plain) _
        (ha.1 ⟨order, .token contract ibOrder⟩ (by simp [emittingCall, hcall])) rfl rfl
        (fun c => Dict.get?_set _ _ c _) ⟨.submitted, rfl, rfl⟩
  | statusEvent cid trade now => cases h; exact hs.onOrderStatus ha.2
  | fillEvent cid trade fill now => cases h; exact hs.onOrderFill
  | errorEvent reqId errorCode errorString =>
    cases h
    unfold onIbError
    split
    · exact hs
    · exact hs.congr (fun _ => rfl) (fun _ => rfl) rfl
  | tick log whyHeld now =>
    simp only [IBSystem.step, Option.map_eq_some_iff] at h
    obtain ⟨broker, htick, rfl⟩ := h
    exact hs.tick htick

end Steps

theorem TraceOk.init : TraceOk IBBroker.init :=
  ⟨fun _ => ⟨.submitPending, rfl, .inl rfl⟩, fun _ _ => rfl, fun _ h => absurd rfl h⟩

/-- In a run that starts the trace of an id once and gets no Inactive status for an order that
was accepted, all traces follow the transition table. -/
theorem ib_traces_legal (policy : RoundingPolicy) (as : List Action) (s : IBSystem)
    (hstarts : Along (step policy) StartsOnce init as) (hrun : run (step policy) init as = some s)
    (cid : ClientOrderId) : LegalTrace (kindsOf cid s.broker.events) := by
  have htraces : TraceOk s.broker :=
    run_invariant_along (I := fun s => TraceOk s.broker) (fun _ _ _ hs ha h => hs.step ha h)
      TraceOk.init hstarts hrun
  obtain ⟨st, hst, -⟩ := htraces.legal cid
  have hlegal : LegalTrace (trace cid s.broker) := by rw [LegalTrace, hst]; rfl
  exact hlegal.of_append

/-- An order is accepted and later becomes Inactive. -/
def inactiveAfterAcceptRun : List Action :=
  [.connect ⟨0⟩, .submit (sampleOrder 1), .acquired 0 (.ok 7) ⟨1⟩,
    .statusEvent 1 { orderId := 7, status := "Submitted" } ⟨2⟩,
    .statusEvent 1 { orderId := 7, status := "Inactive" } ⟨3⟩, .tick [] "" ⟨4⟩, .tick [] "" ⟨4⟩,
    .tick [] "" ⟨4⟩, .tick [] "" ⟨4⟩, .tick [] "" ⟨4⟩]

theorem not_ib_traces_legal :
    ¬ ∀ (policy : RoundingPolicy) (as : List Action) (s : IBSystem),
      run (step policy) init as = some s →
        ∀ cid, LegalTrace (kindsOf cid s.broker.events) := by
  intro h
  have htrace : ((run (step .nearest) init inactiveAfterAcceptRun).map fun s =>
      kindsOf 1 s.broker.events) = some [.submitted, .accepted, .rejected] := by decide +kernel
  obtain ⟨s, hrun, hkinds⟩ := Option.map_eq_some_iff.mp htrace
  have hlegal := h .nearest inactiveAfterAcceptRun s hrun 1
  rw [hkinds] at hlegal
  exact absurd hlegal (by decide)

/-- An order is accepted, partially filled and canceled; an Inactive status comes too late. -/
def canceledRun : List Action :=
  [.connect ⟨0⟩, .submit (sampleOrder 1), .acquired 0 (.ok 7) ⟨1⟩,
    .fillEvent 1 { orderId := 7, status := "Submitted" }
      ⟨some ⟨"e1", 4, 100, some ⟨2, some 0⟩⟩, none⟩ ⟨2⟩,
    .statusEvent 1 { orderId := 7, status := "Cancelled" } ⟨3⟩,
    .statusEvent 1 { orderId := 7, status := "Inactive" } ⟨4⟩, .tick [] "" ⟨5⟩, .tick [] "" ⟨5⟩,
    .tick [] "" ⟨5⟩]

theorem ib_traces_legal_canceledRun :
    ∃ s, run (step .nearest) init canceledRun = some s ∧
      LegalTrace (kindsOf 1 s.broker.events) := by
  have henabled : (run (step .nearest) init canceledRun).isSome := by decide +kernel
  obtain ⟨s, hrun⟩ := Option.isSome_iff_exists.mp henabled
  exact ⟨s, hrun, ib_traces_legal .nearest canceledRun s (by decide +kernel) hrun 1⟩

end Blive.IBSystem
