import Blive.Adapters.Ib.Proofs.Origin
import Blive.Adapters.Ib.Proofs.Placement
import Blive.Runtime.Proofs.Step

/-!
# The pipeline and its broker agree

What the coroutine believes of its broker holds in every run: the order in `submit` is not
registered yet, the order of a drain was submitted, and what was placed under the id of a
submission is that submission. A run that raises stops there, so the facts are stated for the
states a run passes before that.
-/

namespace Blive.IbPipeline

open Transition

/-- The ids of the orders the run passed to `submit`. -/
def State.submittedIds (s : State) : List ClientOrderId :=
  s.submitted.map fun submission => submission.order.val.clientOrderId

def State.Raised (s : State) : Prop := ∃ e, s.task = .raised e

structure Coherent (s : State) : Prop where
  origin : IBSystem.FillsPlaced s.toSystem
  cursor : s.cursor ≤ s.broker.events.length
  submitting : ∀ work order call switched, s.task = .inSubmit work order call switched →
    (∃ submission ∈ s.submitted, submission.order = order) ∧
      call.cid = order.val.clientOrderId ∧
      call.order.val.instrument = order.val.instrument ∧
      order.val.clientOrderId ∉ s.broker.tradesByClientId
  draining : ∀ work drain, s.task = .inDrain work drain →
    drain.done = false ∧ drain.targetId ∈ s.submittedIds
  placedOn : ∀ p ∈ s.placed, p.cid ∈ s.submittedIds →
    ∃ submission ∈ s.submitted, submission.order.val.instrument = p.order.val.instrument

/-- The event the event loop puts on the queue in the step, when its next task is a `put`. -/
def State.emittedBy (s : State) : Action → Option OrderEvent
  | .venue (.tick _ _ _) =>
      match s.broker.ready with
      | .put event :: _ => some event
      | _ => none
  | _ => none

/-- A run starts with a broker that has a history of its own and no call under way. -/
theorem Coherent.start {loop : RebalanceLoop} {policy : RoundingPolicy}
    {history : List IBSystem.Action} {broker : IBBroker} {placed : List PlacedOrder}
    {killSwitch : KillSwitch}
    (hhistory : run (IBSystem.step policy) IBSystem.init history = some ⟨broker, [], placed⟩) :
    Coherent (loop.start broker placed killSwitch) where
  origin :=
    run_invariant (fun _ _ _ => IBSystem.FillsPlaced.step) IBSystem.FillsPlaced.init hhistory
  cursor := le_rfl
  submitting _ _ _ _ htask := nomatch htask
  draining _ _ htask := nomatch htask
  placedOn _ _ hmem := nomatch hmem

section Step

variable {loop : RebalanceLoop} {policy : RoundingPolicy} {s t : State}

/-- An order that is not registered has no fill on the queue. -/
theorem Coherent.unplaced (hs : Coherent s) {cid : ClientOrderId}
    (h : cid ∉ s.broker.tradesByClientId) (event : OrderEvent)
    (hmem : .order event ∈ s.broker.events) (hcid : event.val.clientOrderId = cid) :
    event.val.fill = none := by
  by_contra hne
  obtain ⟨fill, hfill⟩ := Option.ne_none_iff_exists'.mp hne
  obtain ⟨p, hp, hpcid, -⟩ := hs.origin.events event hmem fill hfill
  exact h (hcid ▸ hpcid ▸ hs.origin.registered p hp)

theorem mem_submittedIds_of_mem {submission : Submission} (h : submission ∈ s.submitted) :
    submission.order.val.clientOrderId ∈ s.submittedIds :=
  List.mem_map_of_mem h

/-- A push registers no order, and puts on the queue at most one event. It carries no fill unless
it is the event of a `put` task. -/
theorem push_events {action : IBSystem.Action} {system : IBSystem} (hpush : isPush action)
    (h : IBSystem.step policy s.toSystem action = some system) :
    system.broker.tradesByClientId = s.broker.tradesByClientId ∧
      ((∃ event, s.emittedBy (.venue action) = some event ∧
          system.broker.events = s.broker.events ++ [.order event]) ∨
        (s.emittedBy (.venue action) = none ∧ ∃ others,
          system.broker.events = s.broker.events ++ others ∧
            ∀ event, .order event ∈ others → event.val.fill = none)) := by
  refine ⟨(IBSystem.registered_eq_of_step h ?_).1, ?_⟩
  · rintro i orderId now rfl
    cases hpush
  have hquiet (hnone : s.emittedBy (.venue action) = none)
      (hevents : system.broker.events = s.broker.events) :
      s.emittedBy (.venue action) = none ∧ ∃ others,
        system.broker.events = s.broker.events ++ others ∧
          ∀ event, .order event ∈ others → event.val.fill = none :=
    ⟨hnone, [], hevents.trans (List.append_nil _).symm, by simp⟩
  cases action with
  | submit _ => cases hpush
  | priceRules _ _ _ => cases hpush
  | acquired _ _ _ => cases hpush
  | connect now =>
    cases h
    exact .inr ⟨rfl, _, rfl, by simp⟩
  | disconnect now =>
    cases h
    exact .inr ⟨rfl, _, rfl, by simp⟩
  | statusEvent cid trade now =>
    cases h
    refine .inr (hquiet rfl ?_)
    have heffect := IBBroker.onOrderStatus_effect s.broker cid trade now
    dsimp only [State.toSystem]
    generalize s.broker.onOrderStatus cid trade now = broker at heffect ⊢
    cases heffect with
    | accepted _ _ _ _ _ _ heffect => exact heffect.events
    | cancelled _ _ _ _ _ heffect => exact heffect.events
    | inactive _ _ _ _ _ heffect => exact heffect.events
    | _ => rfl
  | fillEvent cid trade fill now =>
    cases h
    refine .inr (hquiet rfl ?_)
    have heffect := IBBroker.onOrderFill_effect s.broker cid trade fill now
    dsimp only [State.toSystem]
    generalize (s.broker.onOrderFill cid trade fill now).1 = broker at heffect ⊢
    cases heffect with
    | raised _ _ _ _ _ _ _ _ _ _ heffect => exact heffect.events
    | emitted _ _ _ _ _ _ _ _ _ _ heffect => exact heffect.events
    | _ => rfl
  | errorEvent reqId errorCode errorString =>
    cases h
    refine .inr (hquiet rfl ?_)
    dsimp only [State.toSystem, IBBroker.onIbError]
    split <;> rfl
  | tick log whyHeld now =>
    obtain ⟨broker, htick, rfl⟩ := Option.map_eq_some_iff.mp h
    simp only [State.toSystem, IBBroker.tick] at htick
    dsimp only [State.emittedBy]
    split at htick
    · cases htick
    · rename_i event rest hready
      cases htick
      exact .inl ⟨event, by rw [hready], rfl⟩
    · rename_i yields cid orderId rest hready
      cases htick
      exact .inr ⟨by rw [hready], [], (List.append_nil _).symm, by simp⟩
    · rename_i cid orderId rest hready
      cases htick
      refine .inr ⟨by rw [hready], _, rfl, ?_⟩
      intro event hmem
      cases List.mem_singleton.mp hmem
      rfl

theorem Drain.read_targetId (drain : Drain) (event : BrokerEvent) :
    (drain.read event).targetId = drain.targetId := by
  unfold Drain.read Drain.observe
  split
  · rfl
  · split
    · rfl
    · split <;> rfl

/-- A state with another task, after the same events and submissions. -/
theorem Coherent.of_idle (hs : Coherent s) (horigin : IBSystem.FillsPlaced t.toSystem)
    (hidle : t.task.idle) (hbroker : t.broker = s.broker) (hplaced : t.placed = s.placed)
    (hsubmitted : t.submitted = s.submitted) (hcursor : t.cursor ≤ s.broker.events.length) :
    Coherent t where
  origin := horigin
  cursor := by rw [hbroker]; exact hcursor
  submitting work order call switched htask := by
    rw [htask] at hidle
    cases hidle
  draining work drain htask := by
    rw [htask] at hidle
    cases hidle
  placedOn := by
    rw [hplaced, State.submittedIds, hsubmitted]
    exact hs.placedOn

theorem Coherent.submitted (hs : Coherent s) {work : Work} {submission : Submission}
    {result : RunResult}
    (ht : t = RebalanceLoop.callSubmit { s with result } work submission)
    (hraised : ¬ t.Raised) (horigin : IBSystem.FillsPlaced t.toSystem) : Coherent t := by
  cases hcall : s.broker.submit submission.order with
  | error e =>
    refine absurd ⟨e, ?_⟩ hraised
    rw [ht]
    simp only [RebalanceLoop.callSubmit, hcall]
    rfl
  | ok call =>
    obtain ⟨horder, hnew⟩ := IBBroker.submit_eq_ok hcall
    obtain rfl : t = { s with
        result, submitted := s.submitted ++ [submission]
        task := .inSubmit work submission.order call [] } := by
      rw [ht]
      simp only [RebalanceLoop.callSubmit, hcall]
    refine ⟨horigin, hs.cursor, ?_, ?_, ?_⟩
    · intro work' order call' switched htask
      cases htask
      refine ⟨⟨submission, List.mem_append_right _ (List.mem_singleton_self _), rfl⟩, ?_, ?_, hnew⟩
      · rw [IBBroker.SubmitCall.cid, horder]
      · rw [horder]
    · intro work' drain htask
      cases htask
    · intro p hp hcid
      -- Nothing was placed under the id of the new submission.
      have hold : p.cid ∈ s.submittedIds := by
        simp only [State.submittedIds, List.map_append, List.mem_append, List.map_cons,
          List.map_nil, List.mem_singleton] at hcid
        rcases hcid with hold | heq
        · exact hold
        · exact absurd (heq ▸ hs.origin.registered p hp) hnew
      obtain ⟨submission', hmem, hon⟩ := hs.placedOn p hp hold
      exact ⟨submission', List.mem_append_left _ hmem, hon⟩

theorem Coherent.step {a : Action} (hs : Coherent s) (hraised : ¬ t.Raised)
    (h : IbPipeline.step loop policy s a = some t) : Coherent t := by
  have horigin : IBSystem.FillsPlaced t.toSystem :=
    system_invariant_step (fun _ _ _ => IBSystem.FillsPlaced.step) hs.origin h
  cases step_cases h with
  | moved _ task cursor result cancels hfrom hto hcarries hcursor hqueue =>
    apply hs.of_idle horigin hto rfl rfl rfl
    rcases hqueue with hlt | rfl
    · exact hlt
    · exact hs.cursor
  | submitted ids artefact rebalance desired orders bars result submission hfrom =>
    exact hs.submitted rfl hraised horigin
  | ruled result now work order wired switched hfrom =>
    obtain ⟨hsubmission, hcid, hinstrument, hnew⟩ := hs.submitting _ _ _ _ hfrom
    have hbroker := IBBroker.afterPriceRules_broker policy s.broker wired result now
    have htrades : (s.broker.afterPriceRules policy wired result now).1.tradesByClientId =
        s.broker.tradesByClientId := by
      rcases hbroker with heq | ⟨text, heq⟩ <;> rw [heq]
      rfl
    have hcursor :
        s.cursor ≤ (s.broker.afterPriceRules policy wired result now).1.events.length := by
      rcases hbroker with heq | ⟨text, heq⟩ <;> rw [heq]
      · exact hs.cursor
      · exact hs.cursor.trans (by simp [IBBroker.put])
    cases hended : (s.broker.afterPriceRules policy wired result now).2 with
    | suspended call =>
      rw [hended] at horigin
      obtain ⟨hcid', hinstrument'⟩ := IBBroker.afterPriceRules_suspended hended
      refine ⟨horigin, hcursor, ?_, ?_, hs.placedOn⟩
      · intro work' order' call' switched' htask
        cases htask
        refine ⟨hsubmission, hcid'.trans hcid, hinstrument'.trans hinstrument, ?_⟩
        exact htrades ▸ hnew
      · intro work' drain htask
        cases htask
    | returned =>
      rw [hended] at horigin
      refine ⟨horigin, hcursor, ?_, ?_, hs.placedOn⟩
      · intro work' order' call' switched' htask
        cases htask
      · intro work' drain htask
        cases htask
        obtain ⟨submission, hmem, rfl⟩ := hsubmission
        exact ⟨rfl, mem_submittedIds_of_mem hmem⟩
    | raised e =>
      rw [hended] at hraised
      exact absurd ⟨e, rfl⟩ hraised
  | placed orderId now work order wired contract ibOrder switched hfrom =>
    obtain ⟨⟨submission, hmem, hsubmission⟩, hcid, hinstrument, hnew⟩ := hs.submitting _ _ _ _ hfrom
    refine ⟨horigin, hs.cursor.trans ?_, ?_, ?_, ?_⟩
    · simp [RebalanceLoop.submitReturned, IBBroker.afterPlaceOrder, IBBroker.put]
    · intro work' order' call' switched' htask
      cases htask
    · intro work' drain htask
      cases htask
      exact ⟨rfl, hsubmission ▸ mem_submittedIds_of_mem hmem⟩
    · intro p hp hpcid
      rcases List.mem_append.mp hp with hold | hlast
      · exact hs.placedOn p hold hpcid
      · obtain rfl := List.mem_singleton.mp hlast
        exact ⟨submission, hmem, by rw [hsubmission]; exact hinstrument.symm⟩
  | read work drain event hfrom hevent hdone =>
    have htarget := Drain.read_targetId drain event
    refine ⟨horigin, (List.getElem?_eq_some_iff.mp hevent).1, ?_, ?_, hs.placedOn⟩
    · intro work' order' call' switched' htask
      cases htask
    · intro work' drain' htask
      cases htask
      exact ⟨hdone, htarget ▸ (hs.draining _ _ hfrom).2⟩
  | ended work drain event hfrom hevent hdone =>
    obtain ⟨hb, hp, -, hsub, hidle, -⟩ :=
      settle_frame loop { s with cursor := s.cursor + 1 } work (drain.read event)
    have hcursor := settle_cursor loop { s with cursor := s.cursor + 1 } work (drain.read event)
    exact hs.of_idle horigin hidle hb hp hsub
      (hcursor ▸ (List.getElem?_eq_some_iff.mp hevent).1)
  | timedOut work drain hfrom =>
    obtain ⟨hb, hp, -, hsub, hidle, -⟩ := settle_frame loop s work drain
    exact hs.of_idle horigin hidle hb hp hsub (settle_cursor loop s work drain ▸ hs.cursor)
  | switched call =>
    refine ⟨horigin, hs.cursor, ?_, ?_, hs.placedOn⟩
    · intro work order submitCall switched htask
      cases hs' : s.task with
      | inSubmit work' order' submitCall' switched' =>
        simp only [hs', Task.noteSwitch] at htask
        cases htask
        exact hs.submitting _ _ _ _ hs'
      | _ =>
        simp only [hs', Task.noteSwitch] at htask
        cases htask
    · intro work drain htask
      apply hs.draining work drain
      cases hs' : s.task with
      | inDrain work' drain' =>
        rw [hs'] at htask
        exact htask
      | _ =>
        rw [hs'] at htask
        cases htask
  | pushed action system hpush hstep =>
    obtain ⟨htrades, hevents⟩ := push_events hpush hstep
    refine ⟨horigin, ?_, ?_, hs.draining, hs.placedOn⟩
    · dsimp only
      rcases hevents with ⟨event, -, heq⟩ | ⟨-, others, heq, -⟩ <;> rw [heq] <;>
        exact hs.cursor.trans (by simp)
    · intro work order call switched htask
      dsimp only
      rw [htrades]
      exact hs.submitting work order call switched htask

end Step

end Blive.IbPipeline
