import Blive.Adapters.Ib.Proofs.Step

/-!
# Where fills come from

In every run every fill on the queue, or about to be put there, belongs to an order that was
placed, and is on the instrument of such an order.
-/

namespace Blive.IBSystem

open IBBroker

/-- An order on the instrument was placed under the id. -/
def PlacedOn (placed : List PlacedOrder) (cid : ClientOrderId) (instrument : Instrument) : Prop :=
  ∃ p ∈ placed, p.cid = cid ∧ p.order.val.instrument = instrument

/-- The fill of the event, if it carries one, is on the instrument of a placed order. -/
def FillPlaced (placed : List PlacedOrder) (event : OrderEvent) : Prop :=
  ∀ fill ∈ event.val.fill, PlacedOn placed event.val.clientOrderId fill.val.instrument

theorem PlacedOn.mono {placed more : List PlacedOrder} {cid : ClientOrderId}
    {instrument : Instrument} (h : PlacedOn placed cid instrument) :
    PlacedOn (placed ++ more) cid instrument := by
  obtain ⟨p, hp, hcid, hon⟩ := h
  exact ⟨p, List.mem_append_left _ hp, hcid, hon⟩

theorem FillPlaced.mono {placed more : List PlacedOrder} {event : OrderEvent}
    (h : FillPlaced placed event) : FillPlaced (placed ++ more) event :=
  fun fill hfill => (h fill hfill).mono

theorem FillPlaced.of_fill_eq_none {placed : List PlacedOrder} {event : OrderEvent}
    (h : event.val.fill = none) : FillPlaced placed event := by
  intro fill hfill
  rw [h] at hfill
  cases hfill

structure FillsPlaced (s : IBSystem) : Prop where
  registered : ∀ p ∈ s.placed, p.cid ∈ s.broker.tradesByClientId
  tracked : ∀ cid tracking, s.broker.orderTracking.get? cid = some tracking →
    PlacedOn s.placed cid tracking.instrument
  ready : ∀ event, .put event ∈ s.broker.ready → FillPlaced s.placed event
  events : ∀ event, .order event ∈ s.broker.events → FillPlaced s.placed event

theorem FillsPlaced.init : FillsPlaced IBSystem.init := by
  refine ⟨?_, ?_, ?_, ?_⟩ <;> simp [IBSystem.init, IBBroker.init]

/-- A handler keeps the instrument of the record, and the fills of the events it queues are on
it. -/
theorem FillsPlaced.handled {s : IBSystem} {broker : IBBroker} {cid : ClientOrderId}
    {tracking tracking' : OrderTrackingState} {jobs : List Job} (hs : FillsPlaced s)
    (h : s.broker.orderTracking.get? cid = some tracking)
    (heffect : Handled cid tracking' jobs s.broker broker)
    (hsame : tracking'.instrument = tracking.instrument)
    (hjobs : ∀ event, .put event ∈ jobs → event.val.clientOrderId = cid ∧
      ∀ fill ∈ event.val.fill, fill.val.instrument = tracking.instrument) :
    FillsPlaced { s with broker } where
  registered p hp := by
    dsimp only
    rw [heffect.trades]
    exact hs.registered p hp
  tracked c found hfound := by
    dsimp only at hfound
    rw [heffect.tracking] at hfound
    split at hfound
    · rename_i hc
      cases hfound
      rw [hc, hsame]
      exact hs.tracked cid tracking h
    · exact hs.tracked c found hfound
  ready event hevent := by
    dsimp only at hevent
    rw [heffect.ready] at hevent
    rcases List.mem_append.mp hevent with hold | hnew
    · exact hs.ready event hold
    · intro fill hfill
      obtain ⟨hcid, hon⟩ := hjobs event hnew
      rw [hcid, hon fill hfill]
      exact hs.tracked cid tracking h
  events event hevent := by
    dsimp only at hevent
    rw [heffect.events] at hevent
    exact hs.events event hevent

/-- Events without a fill may be added to the queue. -/
theorem FillsPlaced.put {s : IBSystem} (hs : FillsPlaced s) {added : BrokerEvent}
    (hadded : ∀ event, added = .order event → FillPlaced s.placed event) :
    FillsPlaced { s with broker := s.broker.put added } where
  registered := hs.registered
  tracked := hs.tracked
  ready := hs.ready
  events event hevent := by
    rcases List.mem_append.mp hevent with hold | hnew
    · exact hs.events event hold
    · exact hadded event (List.mem_singleton.mp hnew).symm

/-- The events of a status push carry no fill. -/
theorem fill_cancelledEvent (cid : ClientOrderId) (accepted : Bool) (trade : Trade) (now : Utc) :
    (cancelledEvent cid accepted trade now).val.fill = none ∧
      (cancelledEvent cid accepted trade now).val.clientOrderId = cid := by
  unfold cancelledEvent
  cases (if accepted then none else lastErrorLogEntry trade) <;> exact ⟨rfl, rfl⟩

theorem mem_acceptJobs {tracking : OrderTrackingState} {cid : ClientOrderId} {trade : Trade}
    {now : Utc} {event : OrderEvent} (h : .put event ∈ acceptJobs tracking cid trade now) :
    event = acceptedEvent cid trade now := by
  unfold acceptJobs at h
  split at h
  · cases h
  · simpa using h

theorem fill_fillEvent (tracking : OrderTrackingState) (cid : ClientOrderId) (trade : Trade)
    (fill : Fill) (now : Utc) :
    (fillEvent tracking cid trade fill now).val.fill = some fill ∧
      (fillEvent tracking cid trade fill now).val.clientOrderId = cid := by
  unfold fillEvent
  split <;> exact ⟨rfl, rfl⟩

theorem FillsPlaced.statusEvent {s : IBSystem} (hs : FillsPlaced s) (cid : ClientOrderId)
    (trade : Trade) (now : Utc) :
    FillsPlaced { s with broker := s.broker.onOrderStatus cid trade now } := by
  have heffect := onOrderStatus_effect s.broker cid trade now
  generalize s.broker.onOrderStatus cid trade now = broker at heffect ⊢
  cases heffect with
  | accepted tracking _ h _ _ _ heffect =>
    apply hs.handled h heffect rfl
    intro event hevent
    obtain rfl : event = acceptedEvent cid trade now := by simpa using hevent
    exact ⟨rfl, fun fill hfill => nomatch hfill⟩
  | cancelled tracking _ h _ _ heffect =>
    apply hs.handled h heffect rfl
    intro event hevent
    obtain rfl : event = cancelledEvent cid tracking.acceptedEmitted trade now := by
      simpa using hevent
    obtain ⟨hnone, hcid⟩ := fill_cancelledEvent cid tracking.acceptedEmitted trade now
    exact ⟨hcid, fun fill hfill => by rw [hnone] at hfill; cases hfill⟩
  | inactive tracking _ h _ _ heffect => exact hs.handled h heffect rfl (by simp)
  | _ => exact hs

theorem FillsPlaced.fillEvent {s : IBSystem} (hs : FillsPlaced s) (cid : ClientOrderId)
    (trade : Trade) (fill : IbFill) (now : Utc) :
    FillsPlaced { s with broker := (s.broker.onOrderFill cid trade fill now).1 } := by
  have haccept (tracking : OrderTrackingState) (event : OrderEvent)
      (hevent : .put event ∈ acceptJobs tracking cid trade now) :
      event.val.clientOrderId = cid ∧
        ∀ fill ∈ event.val.fill, fill.val.instrument = tracking.instrument := by
    obtain rfl := mem_acceptJobs hevent
    exact ⟨rfl, fun fill hfill => nomatch hfill⟩
  have heffect := onOrderFill_effect s.broker cid trade fill now
  generalize (s.broker.onOrderFill cid trade fill now).1 = broker at heffect ⊢
  cases heffect with
  | raised tracking _ _ _ h _ _ _ _ _ heffect =>
    exact hs.handled h heffect rfl (haccept tracking)
  | emitted tracking execution bliveFill _ h _ _ _ _ hfill heffect =>
    apply hs.handled h heffect rfl
    intro event hevent
    rcases List.mem_append.mp hevent with hold | hnew
    · exact haccept tracking event hold
    · obtain rfl : event = IBBroker.fillEvent tracking cid trade bliveFill now := by
        simpa using hnew
      obtain ⟨hsome, hcid⟩ := fill_fillEvent tracking cid trade bliveFill now
      refine ⟨hcid, ?_⟩
      intro fill' hfill'
      rw [hsome] at hfill'
      cases hfill'
      rw [Frozen.make_eq_ok_iff.mp hfill]
      rfl
  | _ => exact hs

theorem FillsPlaced.tick {s : IBSystem} (hs : FillsPlaced s) {log : List TradeLogEntry}
    {whyHeld : String} {now : Utc} {broker : IBBroker}
    (h : s.broker.tick log whyHeld now = some broker) : FillsPlaced { s with broker } := by
  unfold IBBroker.tick at h
  -- Taking the first task off the loop's queue keeps what is known of the others.
  have hrest {job : Job} {rest : List Job} (hready : s.broker.ready = job :: rest) :
      FillsPlaced { s with broker := { s.broker with ready := rest } } :=
    ⟨hs.registered, hs.tracked,
      fun event hevent => hs.ready event (by rw [hready]; exact List.mem_cons_of_mem _ hevent),
      hs.events⟩
  split at h
  · cases h
  · rename_i event rest hready
    cases h
    apply (hrest hready).put
    intro event' heq
    cases heq
    have hmem : .put event ∈ s.broker.ready := by rw [hready]; exact List.mem_cons_self
    exact hs.ready event hmem
  · rename_i yields cid orderId rest hready
    cases h
    refine ⟨hs.registered, hs.tracked, ?_, hs.events⟩
    intro event hevent
    rcases List.mem_append.mp hevent with hold | hnew
    · exact (hrest hready).ready event hold
    · cases List.mem_singleton.mp hnew
  · rename_i cid orderId rest hready
    cases h
    refine FillsPlaced.put (s := { s with broker := _ }) ?_ ?_
    · exact ⟨hs.registered, hs.tracked, (hrest hready).ready, hs.events⟩
    · intro event' heq
      cases heq
      exact .of_fill_eq_none rfl

/-- Every step keeps the origin of fills. -/
theorem FillsPlaced.step {policy : RoundingPolicy} {s t : IBSystem} {a : Action}
    (hs : FillsPlaced s) (h : IBSystem.step policy s a = some t) : FillsPlaced t := by
  cases a with
  | connect now =>
    cases h
    exact FillsPlaced.put (s := { s with broker := { s.broker with connected := true } })
      ⟨hs.registered, hs.tracked, hs.ready, hs.events⟩ (fun event heq => nomatch heq)
  | disconnect now =>
    cases h
    exact FillsPlaced.put
      (s := { s with broker := { s.broker with connected := false, errorByOrderId := Dict.empty } })
      ⟨hs.registered, hs.tracked, hs.ready, hs.events⟩ (fun event heq => nomatch heq)
  | submit order =>
    cases h
    exact ⟨hs.registered, hs.tracked, hs.ready, hs.events⟩
  | priceRules i result now =>
    obtain ⟨order, -, hplaced, ⟨text, -, hb⟩ | ⟨-, hb⟩⟩ := step_priceRules_cases h
    · obtain ⟨broker, submits, placed⟩ := t
      cases hb
      cases hplaced
      have hput : FillsPlaced
          { s with broker := s.broker.put (.order (priceRuleRejection order text now)) } :=
        hs.put fun event heq => by cases heq; exact .of_fill_eq_none rfl
      exact ⟨hput.registered, hput.tracked, hput.ready, hput.events⟩
    · obtain ⟨broker, submits, placed⟩ := t
      cases hb
      cases hplaced
      exact ⟨hs.registered, hs.tracked, hs.ready, hs.events⟩
  | acquired i result now =>
    obtain ⟨order, contract, ibOrder, -, ⟨e, -, hb, hplaced⟩ | ⟨orderId, -, hb, hplaced⟩⟩ :=
      step_acquired_cases h
    · obtain ⟨broker, submits, placed⟩ := t
      cases hb
      cases hplaced
      exact ⟨hs.registered, hs.tracked, hs.ready, hs.events⟩
    · obtain ⟨broker, submits, placed⟩ := t
      cases hb
      cases hplaced
      refine ⟨?_, ?_,
        fun event hevent => (hs.ready event hevent).mono, ?_⟩
      · intro p hp
        apply (Dict.mem_set _ _ _ _).mpr
        rcases List.mem_append.mp hp with hold | hnew
        · exact .inr (hs.registered p hold)
        · have hcid : p.cid = order.val.clientOrderId := by rw [List.mem_singleton.mp hnew]
          exact .inl hcid
      · intro c tracking htracking
        dsimp only [afterPlaceOrder, IBBroker.put] at htracking
        rw [Dict.get?_set] at htracking
        split at htracking
        · rename_i hc
          cases htracking
          exact ⟨_, List.mem_append_right _ (List.mem_singleton_self _), hc.symm, rfl⟩
        · exact (hs.tracked c tracking htracking).mono
      · intro event hevent
        rcases List.mem_append.mp hevent with hold | hnew
        · exact (hs.events event hold).mono
        · cases List.mem_singleton.mp hnew
          exact .of_fill_eq_none rfl
  | statusEvent cid trade now =>
    cases h
    exact hs.statusEvent cid trade now
  | fillEvent cid trade fill now =>
    cases h
    exact hs.fillEvent cid trade fill now
  | errorEvent reqId errorCode errorString =>
    cases h
    unfold onIbError
    split
    · exact hs
    · exact ⟨hs.registered, hs.tracked, hs.ready, hs.events⟩
  | tick log whyHeld now =>
    simp only [IBSystem.step, Option.map_eq_some_iff] at h
    obtain ⟨broker, htick, rfl⟩ := h
    exact hs.tick htick

end Blive.IBSystem
