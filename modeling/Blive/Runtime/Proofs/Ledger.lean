import Mathlib.Algebra.BigOperators.Group.List.Basic
import Blive.Runtime.Proofs.Coherence

/-!
# The local ledger

The loop books one fill at most for each order: that of the FILLED event its first drain ends at.
Every other fill the broker emits for the order is given up: the fills of PARTIAL_FILL events,
those that come when the first drain is over, and those it leaves on the queue. The ledger is
complete exactly when no step gives up a fill.
-/

namespace Blive.IbPipeline

open Transition

/-! ## Fills on a queue -/

/-- The fills of the events of the orders `ids`. -/
def emittedFills (ids : List ClientOrderId) (events : List BrokerEvent) : List Fill :=
  ((events.filterMap BrokerEvent.order?).filter fun e => e.val.clientOrderId ∈ ids).filterMap
    fun e => e.val.fill

/-- The fills of the FILLED events of `cid`. -/
def filledFills (cid : ClientOrderId) (events : List BrokerEvent) : List Fill :=
  ((orderEventsOf cid events).filter fun e => e.val.kind = .filled).filterMap fun e => e.val.fill

section Fills

variable {ids : List ClientOrderId} {cid : ClientOrderId} {xs ys : List BrokerEvent}

@[simp] theorem emittedFills_append :
    emittedFills ids (xs ++ ys) = emittedFills ids xs ++ emittedFills ids ys := by
  simp [emittedFills]

@[simp] theorem filledFills_append :
    filledFills cid (xs ++ ys) = filledFills cid xs ++ filledFills cid ys := by
  simp [filledFills]

theorem emittedFills_order (e : OrderEvent) :
    emittedFills ids [.order e] = if e.val.clientOrderId ∈ ids then e.val.fill.toList else [] := by
  by_cases h : e.val.clientOrderId ∈ ids <;> cases hf : e.val.fill <;>
    simp [emittedFills, BrokerEvent.order?, h, hf]

theorem filledFills_order (e : OrderEvent) :
    filledFills cid [.order e] =
      if e.val.clientOrderId = cid ∧ e.val.kind = .filled then e.val.fill.toList else [] := by
  by_cases h : e.val.clientOrderId = cid <;> by_cases hk : e.val.kind = .filled <;>
    cases hf : e.val.fill <;> simp [filledFills, h, hk, hf]

/-- What the events of other orders and events without a fill contribute. -/
theorem emittedFills_eq_nil
    (h : ∀ e, .order e ∈ xs → e.val.clientOrderId ∈ ids → e.val.fill = none) :
    emittedFills ids xs = [] := by
  apply List.filterMap_eq_nil_iff.mpr
  intro e he
  obtain ⟨hmem, hids⟩ := List.mem_filter.mp he
  obtain ⟨event, hevent, horder⟩ := List.mem_filterMap.mp hmem
  cases event with
  | order e' =>
    cases horder
    exact h e hevent (by simpa using hids)
  | connection _ => cases horder
  | account _ => cases horder

theorem filledFills_eq_nil (cid : ClientOrderId)
    (h : ∀ e, .order e ∈ xs → e.val.clientOrderId = cid → e.val.fill = none) :
    filledFills cid xs = [] := by
  have hids : emittedFills [cid] xs = [] :=
    emittedFills_eq_nil fun e he hmem => h e he (by simpa using hmem)
  have hsub : (filledFills cid xs).Sublist (emittedFills [cid] xs) := by
    unfold filledFills emittedFills orderEventsOf
    simp only [List.mem_singleton]
    exact (List.filter_sublist).filterMap _
  rw [hids] at hsub
  exact List.eq_nil_of_sublist_nil hsub

/-- A new id without fills changes nothing. -/
theorem emittedFills_concat_of_none
    (h : ∀ e, .order e ∈ xs → e.val.clientOrderId = cid → e.val.fill = none) :
    emittedFills (ids ++ [cid]) xs = emittedFills ids xs := by
  induction xs with
  | nil => rfl
  | cons x rest ih =>
    have hrest := ih fun e he => h e (List.mem_cons_of_mem _ he)
    rw [← List.singleton_append (l := rest), emittedFills_append, emittedFills_append, hrest]
    congr 1
    cases x with
    | order e =>
      simp only [emittedFills_order, List.mem_append, List.mem_singleton]
      by_cases hcid : e.val.clientOrderId = cid
      · simp [h e List.mem_cons_self hcid]
      · simp [hcid]
    | connection _ => rfl
    | account _ => rfl

end Fills

/-! ## What a drain makes of an event -/

/-- An event that does not end the drain is no FILLED event of its order. -/
theorem filledFills_of_not_done {drain : Drain} {event : BrokerEvent}
    (h : (drain.read event).done = false) : filledFills drain.targetId [event] = [] := by
  cases event with
  | order e =>
    rw [filledFills_order, if_neg]
    rintro ⟨hcid, hkind⟩
    simp [Drain.read, BrokerEvent.order?, hcid, Drain.observe, hkind, Drain.done, isTerminal,
      terminalOrderStates] at h
  | connection _ => rfl
  | account _ => rfl

/-- The drain that ends books the fill of the event, if it is a FILLED event of its order. -/
theorem filledFills_of_done {drain : Drain} {event : BrokerEvent} (hopen : drain.done = false)
    (h : (drain.read event).done = true) :
    filledFills drain.targetId [event] = (drain.read event).bookedFill.toList := by
  cases event with
  | order e =>
    by_cases hcid : e.val.clientOrderId = drain.targetId
    · rw [Drain.read_own hcid] at h ⊢
      rw [filledFills_order]
      cases hkind : e.val.kind <;>
        simp [Drain.observe, hkind, hcid, Drain.done, isTerminal, terminalOrderStates,
          Drain.bookedFill] at h ⊢
    · rw [Drain.read_other hcid, hopen] at h
      cases h
  | connection _ =>
    rw [Drain.read] at h
    simp [BrokerEvent.order?, hopen] at h
  | account _ =>
    rw [Drain.read] at h
    simp [BrokerEvent.order?, hopen] at h

/-- A drain that runs out of time books nothing. -/
theorem bookedFill_of_open {drain : Drain} (h : drain.done = false) : drain.bookedFill = none := by
  unfold Drain.bookedFill
  rw [if_neg]
  intro hfilled
  simp [Drain.done, hfilled, isTerminal, terminalOrderStates] at h

/-! ## The fills a step gives up -/

/-- The fills the first drain would still book. -/
def State.pending (s : State) : List Fill :=
  match s.task with
  | .inDrain _ drain => filledFills drain.targetId s.queue
  | _ => []

/-- The order of the first drain. -/
def State.drainTarget (s : State) : Option ClientOrderId :=
  match s.task with
  | .inDrain _ drain => some drain.targetId
  | _ => none

/-- The fills of FILLED events of its order that the first drain leaves on the queue when the
step ends it. -/
def leftBehind (s : State) : Action → List Fill
  | .timeout => s.pending
  | .getEvent =>
      match s.task, s.queue with
      | .inDrain _ drain, event :: rest =>
          if (drain.read event).done then filledFills drain.targetId rest else []
      | _, _ => []
  | _ => []

/-- No fill is given up: an emitted fill of a submitted order comes in a FILLED event, in time
for the first drain of the order, and the first drain leaves none behind. -/
def KeepsFills (s : State) (a : Action) : Prop :=
  leftBehind s a = [] ∧ ∀ event ∈ s.emittedBy a, event.val.fill.isSome →
    event.val.clientOrderId ∈ s.submittedIds →
      event.val.kind = .filled ∧ s.drainTarget = some event.val.clientOrderId

instance (s : State) (a : Action) : Decidable (KeepsFills s a) := by
  unfold KeepsFills
  infer_instance

/-- Every emitted fill is booked, still to be booked, or among `lost`. -/
def Balanced (s : State) (lost : List Fill) : Prop :=
  (emittedFills s.submittedIds s.broker.events).Perm (s.booked ++ s.pending ++ lost)

section Step

variable {loop : RebalanceLoop} {policy : RoundingPolicy} {s t : State}

theorem pending_of_not_inDrain (h : ∀ work drain, s.task ≠ .inDrain work drain) :
    s.pending = [] := by
  unfold State.pending
  split
  · rename_i work drain htask
    exact absurd htask (h work drain)
  · rfl

theorem not_inDrain_of_idle {task : Task} (h : task.idle) :
    ∀ work drain, task ≠ .inDrain work drain := by
  rintro work drain rfl
  cases h

theorem leftBehind_of_not_inDrain (h : ∀ work drain, s.task ≠ .inDrain work drain) (a : Action) :
    leftBehind s a = [] := by
  cases a with
  | timeout => exact pending_of_not_inDrain h
  | getEvent =>
    simp only [leftBehind]
    split
    · rename_i work drain event rest htask hqueue
      exact absurd htask (h work drain)
    · rfl
  | _ => rfl

/-- A step that leaves no fill behind and lets no `put` run keeps all fills. -/
theorem keepsFills_of_quiet {a : Action} (hleft : leftBehind s a = [])
    (hemitted : s.emittedBy a = none) : KeepsFills s a := by
  refine ⟨hleft, ?_⟩
  rw [hemitted]
  intro event hevent
  cases hevent

theorem queue_cons {event : BrokerEvent} (h : s.broker.events[s.cursor]? = some event) :
    s.queue = event :: s.broker.events.drop (s.cursor + 1) := by
  obtain ⟨hlt, hget⟩ := List.getElem?_eq_some_iff.mp h
  unfold State.queue
  rw [List.drop_eq_getElem_cons hlt, hget]

/-- What is still to be booked, once more events are on the queue. -/
theorem pending_added {broker : IBBroker} {added : List BrokerEvent}
    (hcursor : s.cursor ≤ s.broker.events.length)
    (hevents : broker.events = s.broker.events ++ added) :
    State.pending { s with broker } =
      s.pending ++ (s.drainTarget.map fun target => filledFills target added).getD [] := by
  have hqueue : State.queue { s with broker } = s.queue ++ added := by
    simp only [State.queue, hevents, List.drop_append_of_le_length hcursor]
  unfold State.pending State.drainTarget
  rw [hqueue]
  cases s.task <;> simp

/-- The drain of an order that is not registered has nothing to book. -/
theorem filledFills_of_unplaced (hs : Coherent s) {cid : ClientOrderId}
    (h : cid ∉ s.broker.tradesByClientId) (added : List BrokerEvent)
    (hadded : ∀ e, .order e ∈ added → e.val.fill = none) (n : Nat) :
    filledFills cid ((s.broker.events ++ added).drop n) = [] := by
  apply filledFills_eq_nil _
  intro e hmem hcid
  rcases List.mem_append.mp (List.mem_of_mem_drop hmem) with hold | hnew
  · exact hs.unplaced h e hold hcid
  · exact hadded e hnew

/-- Nothing changes for the fills when the events that come to the queue carry none and the first
drain has as much to book as before. -/
theorem Balanced.of_quiet {added : List BrokerEvent} {lost : List Fill} (hs : Balanced s lost)
    (hids : t.submittedIds = s.submittedIds) (hbooked : t.booked = s.booked)
    (hevents : t.broker.events = s.broker.events ++ added)
    (hnofill : ∀ e, .order e ∈ added → e.val.fill = none) (hpending : t.pending = s.pending) :
    Balanced t lost := by
  have hnone : emittedFills s.submittedIds added = [] := by
    apply emittedFills_eq_nil
    intro e he _
    exact hnofill e he
  unfold Balanced at hs ⊢
  rw [hids, hbooked, hevents, hpending, emittedFills_append, hnone, List.append_nil]
  exact hs

/-- The first drain ends: what it still had to book is booked or lost. -/
theorem balanced_settle {s' : State} {work : Work} {drain : Drain} {rest lost : List Fill}
    (hs : (emittedFills s'.submittedIds s'.broker.events).Perm
      (s'.booked ++ (drain.bookedFill.toList ++ rest) ++ lost))
    (hraised : ¬ (loop.settle s' work drain).Raised) :
    Balanced (loop.settle s' work drain) (lost ++ rest) := by
  have hpending : (loop.settle s' work drain).pending = [] :=
    pending_of_not_inDrain (not_inDrain_of_idle (settle_frame loop s' work drain).2.2.2.2.1)
  have hmove (front : List Fill) :
      (front ++ rest ++ lost).Perm (front ++ [] ++ (lost ++ rest)) := by
    rw [List.append_nil, List.append_assoc]
    exact List.perm_append_comm.append_left front
  unfold Balanced
  rw [hpending]
  rcases settle_cases loop s' work drain with ⟨fill, _, _, hfill, -, heq⟩ |
    ⟨e, _, -, heq⟩ | ⟨_, _, _, hnone, -, -, heq⟩
  · rw [hfill, Option.toList_some, ← List.append_assoc] at hs
    rw [heq]
    exact hs.trans (hmove _)
  · have hraise : (loop.settle s' work drain).Raised := ⟨e, by rw [heq]⟩
    exact absurd hraise hraised
  · rw [hnone, Option.toList_none, List.nil_append] at hs
    rw [heq]
    exact hs.trans (hmove _)

/-- A `put` task has run. Its fill, if it is one of a submitted order, is lost unless the first
drain of the order will book it. -/
theorem balanced_emitted {action : IBSystem.Action} {broker : IBBroker} {event : OrderEvent}
    {lost : List Fill} (hs : Coherent s) (hevent : s.emittedBy (.venue action) = some event)
    (hevents : broker.events = s.broker.events ++ [.order event]) (hbalanced : Balanced s lost) :
    ∃ more, Balanced { s with broker } (lost ++ more) ∧
      (more = [] ↔ KeepsFills s (.venue action)) := by
  have hleft : leftBehind s (.venue action) = [] := by cases action <;> rfl
  have hkeeps : KeepsFills s (.venue action) ↔ (event.val.fill.isSome →
      event.val.clientOrderId ∈ s.submittedIds →
        event.val.kind = .filled ∧ s.drainTarget = some event.val.clientOrderId) := by
    simp [KeepsFills, hleft, hevent]
  have hpending := pending_added hs.cursor hevents
  -- A drain only books the fills of its own order, which is a submitted one.
  have hadded : (s.drainTarget.map fun target => filledFills target [.order event]).getD [] =
      if event.val.kind = .filled ∧ s.drainTarget = some event.val.clientOrderId
        then event.val.fill.toList else [] := by
    cases s.drainTarget with
    | none => simp
    | some target => simp [filledFills_order, and_comm, eq_comm]
  have htarget : s.drainTarget = some event.val.clientOrderId →
      event.val.clientOrderId ∈ s.submittedIds := by
    intro htarget
    unfold State.drainTarget at htarget
    split at htarget
    · rename_i work drain hfrom
      exact Option.some.inj htarget ▸ (hs.draining _ _ hfrom).2
    · cases htarget
  rw [hadded] at hpending
  unfold Balanced at hbalanced ⊢
  rw [hpending, hkeeps]
  simp only [State.submittedIds, hevents, emittedFills_append, emittedFills_order]
  change (emittedFills s.submittedIds s.broker.events).Perm _ at hbalanced
  cases hfill : event.val.fill with
  | none => exact ⟨[], by simpa [State.submittedIds] using hbalanced, by simp⟩
  | some fill =>
    by_cases hmem : event.val.clientOrderId ∈ s.submittedIds
    · have hids : event.val.clientOrderId ∈
          s.submitted.map fun submission => submission.order.val.clientOrderId := hmem
      by_cases hbook : event.val.kind = .filled ∧ s.drainTarget = some event.val.clientOrderId
      · refine ⟨[], ?_, iff_of_true rfl fun _ _ => hbook⟩
        rw [if_pos hbook, if_pos hids]
        simp only [Option.toList_some, List.append_nil]
        apply (hbalanced.append_right [fill]).trans
        simp only [List.append_assoc]
        exact (List.perm_append_comm.append_left _).append_left _
      · refine ⟨[fill], ?_, iff_of_false (by simp) fun h => hbook (h rfl hmem)⟩
        rw [if_neg hbook, if_pos hids]
        simp only [Option.toList_some, List.append_nil]
        rw [← List.append_assoc]
        exact hbalanced.append_right [fill]
    · have hids : event.val.clientOrderId ∉
          s.submitted.map fun submission => submission.order.val.clientOrderId := hmem
      have hbook : ¬ (event.val.kind = .filled ∧
          s.drainTarget = some event.val.clientOrderId) := fun h => hmem (htarget h.2)
      refine ⟨[], ?_, iff_of_true rfl fun _ h => absurd h hmem⟩
      rw [if_neg hbook, if_neg hids]
      simpa [State.submittedIds] using hbalanced

/-- Every step accounts for every fill: what is lost more is nothing exactly when the step keeps
all fills. -/
theorem balanced_step {a : Action} {lost : List Fill} (hs : Coherent s) (hraised : ¬ t.Raised)
    (h : step loop policy s a = some t) (hbalanced : Balanced s lost) :
    ∃ more, Balanced t (lost ++ more) ∧ (more = [] ↔ KeepsFills s a) := by
  have hkept (ha : KeepsFills s a) (hsame : Balanced t lost) :
      ∃ more, Balanced t (lost ++ more) ∧ (more = [] ↔ KeepsFills s a) :=
    ⟨[], by rwa [List.append_nil], iff_of_true rfl ha⟩
  have hsubmit {work : Work} {order : Order} {call : IBBroker.SubmitCall}
      {switched : List KillSwitch.Call} (hfrom : s.task = .inSubmit work order call switched) :
      s.pending = [] ∧ ∀ a, leftBehind s a = [] :=
    have hnot : ∀ work drain, s.task ≠ .inDrain work drain := by rw [hfrom]; simp
    ⟨pending_of_not_inDrain hnot, leftBehind_of_not_inDrain hnot⟩
  cases step_cases h with
  | moved _ task cursor result cancels hfrom hto hcarries hcursor hqueue ha hpush =>
    have hemitted : s.emittedBy a = none := by
      unfold State.emittedBy
      split
      · exact absurd rfl (hpush _)
      · rfl
    apply hkept (keepsFills_of_quiet (leftBehind_of_not_inDrain hfrom a) hemitted)
    have hpending : State.pending { s with task, cursor, result, cancels } = s.pending := by
      rw [pending_of_not_inDrain hfrom]
      exact pending_of_not_inDrain (not_inDrain_of_idle hto)
    exact hbalanced.of_quiet rfl rfl (List.append_nil _).symm (by simp) hpending
  | submitted ids artefact rebalance desired orders bars result submission hfrom =>
    have hnot : ∀ work drain, s.task ≠ .inDrain work drain := by rw [hfrom]; simp
    apply hkept (keepsFills_of_quiet rfl rfl)
    cases hcall : s.broker.submit submission.order with
    | error e =>
      refine absurd ⟨e, ?_⟩ hraised
      simp only [RebalanceLoop.callSubmit, hcall]
      rfl
    | ok call =>
      obtain ⟨horder, hnew⟩ := IBBroker.submit_eq_ok hcall
      have hids : emittedFills (s.submittedIds ++ [submission.order.val.clientOrderId])
          s.broker.events = emittedFills s.submittedIds s.broker.events :=
        emittedFills_concat_of_none (hs.unplaced hnew)
      unfold Balanced at hbalanced ⊢
      rw [pending_of_not_inDrain hnot] at hbalanced
      simp only [RebalanceLoop.callSubmit, hcall, State.submittedIds, List.map_append,
        List.map_cons, List.map_nil, State.pending]
      exact hids ▸ hbalanced
  | ruled result now work order wired switched hfrom =>
    obtain ⟨hpending, hleft⟩ := hsubmit hfrom
    obtain ⟨-, -, -, hnew⟩ := hs.submitting _ _ _ _ hfrom
    apply hkept (keepsFills_of_quiet (hleft _) rfl)
    -- The rejection, if there is one, carries no fill.
    obtain ⟨added, hadded, hnofill⟩ : ∃ added,
        (s.broker.afterPriceRules policy wired result now).1.events = s.broker.events ++ added ∧
          ∀ e, .order e ∈ added → e.val.fill = none := by
      rcases IBBroker.afterPriceRules_broker policy s.broker wired result now with heq | ⟨text, heq⟩
      · exact ⟨[], by rw [heq, List.append_nil], by simp⟩
      · refine ⟨_, by rw [heq]; rfl, ?_⟩
        intro e he
        cases List.mem_singleton.mp he
        rfl
    cases hended : (s.broker.afterPriceRules policy wired result now).2 with
    | suspended call =>
      refine hbalanced.of_quiet rfl rfl hadded hnofill ?_
      rw [hpending]
      rfl
    | returned =>
      refine hbalanced.of_quiet rfl rfl hadded hnofill ?_
      rw [hpending]
      show filledFills order.val.clientOrderId
        ((s.broker.afterPriceRules policy wired result now).1.events.drop s.cursor) = []
      rw [hadded]
      exact filledFills_of_unplaced hs hnew added hnofill s.cursor
    | raised e =>
      rw [hended] at hraised
      exact absurd ⟨e, rfl⟩ hraised
  | placed orderId now work order wired contract ibOrder switched hfrom =>
    obtain ⟨hpending, hleft⟩ := hsubmit hfrom
    obtain ⟨-, hcid, -, hnew⟩ := hs.submitting _ _ _ _ hfrom
    apply hkept (keepsFills_of_quiet (hleft _) rfl)
    have hnofill (e : OrderEvent) (he : BrokerEvent.order e ∈
        [BrokerEvent.order (.plain wired.val.clientOrderId (IBBroker.venueOrderIdOf orderId)
          .submitted now submitted_plain)]) : e.val.fill = none := by
      cases List.mem_singleton.mp he
      rfl
    refine hbalanced.of_quiet rfl rfl rfl hnofill ?_
    rw [hpending]
    exact filledFills_of_unplaced hs hnew _ hnofill s.cursor
  | read work drain event hfrom hevent hdone =>
    have hempty := filledFills_of_not_done hdone
    have htarget : (drain.read event).targetId = drain.targetId := Drain.read_targetId drain event
    refine hkept (keepsFills_of_quiet ?_ rfl) ?_
    · simp [leftBehind, hfrom, queue_cons hevent, hdone]
    · unfold Balanced at hbalanced ⊢
      simp only [State.pending, hfrom, queue_cons hevent] at hbalanced
      rw [← List.singleton_append, filledFills_append, hempty, List.nil_append] at hbalanced
      simp only [State.pending, State.queue, htarget]
      exact hbalanced
  | ended work drain event hfrom hevent hdone =>
    have hopen := (hs.draining _ _ hfrom).1
    refine ⟨filledFills drain.targetId (s.broker.events.drop (s.cursor + 1)), ?_, ?_⟩
    · refine balanced_settle ?_ hraised
      unfold Balanced at hbalanced
      simp only [State.pending, hfrom, queue_cons hevent] at hbalanced
      rw [← List.singleton_append, filledFills_append, filledFills_of_done hopen hdone]
        at hbalanced
      exact hbalanced
    · simp [KeepsFills, leftBehind, hfrom, queue_cons hevent, hdone, State.emittedBy]
  | timedOut work drain hfrom =>
    have hopen := (hs.draining _ _ hfrom).1
    refine ⟨s.pending, ?_, ?_⟩
    · refine balanced_settle ?_ hraised
      rw [bookedFill_of_open hopen]
      exact hbalanced
    · simp [KeepsFills, leftBehind, State.emittedBy]
  | switched call =>
    apply hkept (keepsFills_of_quiet rfl rfl)
    have hpending : State.pending
        { s with killSwitch := s.killSwitch.after call, task := s.task.noteSwitch call } =
          s.pending := by
      unfold State.pending
      cases s.task <;> rfl
    exact hbalanced.of_quiet rfl rfl (List.append_nil _).symm (by simp) hpending
  | pushed action system hpush hstep =>
    obtain ⟨-, ⟨event, hevent, hevents⟩ | ⟨hnone, others, hevents, hnofill⟩⟩ :=
      push_events hpush hstep
    · exact balanced_emitted hs hevent hevents hbalanced
    · refine hkept (keepsFills_of_quiet ?_ hnone) ?_
      · cases action <;> rfl
      · have hpending : State.pending { s with broker := system.broker } = s.pending := by
          rw [pending_added hs.cursor hevents]
          cases s.drainTarget with
          | none => simp
          | some target =>
            simp [filledFills_eq_nil target fun e he _ => hnofill e he]
        exact hbalanced.of_quiet rfl rfl hevents hnofill hpending

/-- Nothing is lost when everything is booked or still to be booked. -/
theorem balanced_nil_iff {lost : List Fill} (h : Balanced s lost) : Balanced s [] ↔ lost = [] := by
  constructor
  · intro hnil
    have hall := h.length_eq
    have hkept := hnil.length_eq
    simp only [List.length_append, List.length_nil] at hall hkept
    exact List.length_eq_zero_iff.mp (by omega)
  · rintro rfl
    exact h

theorem State.Raised.step {a : Action} (hs : s.Raised)
    (h : IbPipeline.step loop policy s a = some t) : t.Raised := by
  obtain ⟨e, htask⟩ := hs
  cases a with
  | killSwitch call =>
    cases h
    exact ⟨e, by simp [htask, Task.noteSwitch]⟩
  | venue action =>
    simp only [IbPipeline.step] at h
    split at h
    · obtain ⟨system, -, rfl⟩ := Option.map_eq_some_iff.mp h
      exact ⟨e, htask⟩
    · cases h
  | _ => simp [IbPipeline.step, htask] at h

end Step

/-! ## The totals of the ledger -/

/-- `Σ signed quantity` -/
def netQuantity (fills : List Fill) : Decimal := (fills.map Fill.signedQty).sum

/-- `Σ (signed quantity * price + commission)` -/
def netCost (fills : List Fill) : Decimal :=
  (fills.map fun fill => fill.signedQty * fill.val.price + fill.val.commission).sum

/-- Positions and cash are those of the booked fills. -/
structure Totals (loop : RebalanceLoop) (s : State) : Prop where
  positions : ∀ key, quantityOf (s.positions.get? key) =
    netQuantity (s.booked.filter fun fill => loop.bookingKey fill = key)
  cash : s.cash = loop.startingCash - netCost s.booked

/-- The final ledger is that of all fills emitted for the submitted orders: each is booked once,
and positions and cash are their sums. -/
structure LedgerComplete (loop : RebalanceLoop) (s : State) : Prop where
  booked : s.booked.Perm (emittedFills s.submittedIds s.broker.events)
  positions : ∀ symbol, quantityOf (s.positions.get? symbol) =
    netQuantity ((emittedFills s.submittedIds s.broker.events).filter fun fill =>
      fill.val.instrument.val.symbol = symbol)
  cash : s.cash = loop.startingCash - netCost (emittedFills s.submittedIds s.broker.events)

/-- A loop books a fill of one of its orders under the symbol of the fill. -/
def RebalanceLoop.KeyedBySymbol (loop : RebalanceLoop) : Prop :=
  ∀ key instrument, loop.instrumentResolver key = .ok instrument →
    ∀ fill : Fill, fill.val.instrument = instrument →
      loop.bookingKey fill = fill.val.instrument.val.symbol

theorem Pipeline.keyedBySymbol {pipeline : Pipeline} {broker : IBBroker} {loop : RebalanceLoop}
    (h : pipeline.enter broker = .ok loop) : loop.KeyedBySymbol := by
  intro key instrument hkey fill hfill
  cases pipeline with
  | single args =>
    obtain ⟨hresolver, hbooking⟩ := runIbPipeline_eq h
    rw [hresolver] at hkey
    cases hkey
    rw [hbooking, hfill]
  | multi args =>
    obtain ⟨-, -, -, -, -, hbooking⟩ := runIbMultiPipeline_eq h
    rw [hbooking]

section Totals

variable {loop : RebalanceLoop} {policy : RoundingPolicy} {s t : State}

theorem netQuantity_perm {xs ys : List Fill} (h : xs.Perm ys) : netQuantity xs = netQuantity ys :=
  (h.map _).sum_eq

theorem netCost_perm {xs ys : List Fill} (h : xs.Perm ys) : netCost xs = netCost ys :=
  (h.map _).sum_eq

theorem Totals.of_same (hs : Totals loop s) (hpositions : t.positions = s.positions)
    (hcash : t.cash = s.cash) (hbooked : t.booked = s.booked) : Totals loop t :=
  ⟨by rw [hpositions, hbooked]; exact hs.positions,
    by rw [hcash, hbooked]; exact hs.cash⟩

theorem Totals.settle (hs : Totals loop s) (work : Work) (drain : Drain) :
    Totals loop (loop.settle s work drain) := by
  rcases settle_cases loop s work drain with ⟨fill, position, _, -, hposition, heq⟩ |
    ⟨_, _, -, heq⟩ | ⟨_, _, _, -, -, -, heq⟩
  · rw [heq]
    constructor
    · intro key
      dsimp only
      rw [Dict.get?_set, List.filter_append]
      by_cases hkey : key = loop.bookingKey fill
      · have hquantity := applyFill_quantity hposition
        rw [← hkey, hs.positions key] at hquantity
        simp [hkey, quantityOf, netQuantity] at hquantity ⊢
        exact hquantity
      · rw [if_neg hkey, hs.positions key]
        simp [Ne.symm hkey]
    · dsimp only
      rw [hs.cash]
      simp only [netCost, List.map_append, List.map_cons, List.map_nil, List.sum_append,
        List.sum_cons, List.sum_nil]
      ring
  · rw [heq]
    exact hs.of_same rfl rfl rfl
  · rw [heq]
    exact hs.of_same rfl rfl rfl

/-- Only a settled drain touches the ledger. -/
theorem Totals.step {a : Action} (hs : Totals loop s)
    (h : IbPipeline.step loop policy s a = some t) : Totals loop t := by
  cases step_cases h with
  | submitted ids artefact rebalance desired orders bars result submission hfrom =>
    cases hcall : s.broker.submit submission.order <;>
      simp only [RebalanceLoop.callSubmit, hcall] <;> exact hs.of_same rfl rfl rfl
  | ruled result now work order wired switched hfrom =>
    cases (s.broker.afterPriceRules policy wired result now).2 <;> exact hs.of_same rfl rfl rfl
  | ended work drain event hfrom =>
    exact Totals.settle (s := { s with cursor := s.cursor + 1 }) (hs.of_same rfl rfl rfl) work _
  | timedOut work drain hfrom => exact hs.settle work drain
  | _ => exact hs.of_same rfl rfl rfl

/-- The fills of the submitted orders are booked under their symbols. -/
theorem bookingKey_of_emitted (hs : Coherent s) (hkeyed : loop.KeyedBySymbol)
    (hrecorded : ∀ submission ∈ s.submitted, loop.Recorded submission) {fill : Fill}
    (h : fill ∈ emittedFills s.submittedIds s.broker.events) :
    loop.bookingKey fill = fill.val.instrument.val.symbol := by
  obtain ⟨event, hevent, hfill⟩ := List.mem_filterMap.mp h
  obtain ⟨hmem, hid⟩ := List.mem_filter.mp hevent
  obtain ⟨queued, hqueued, horder⟩ := List.mem_filterMap.mp hmem
  obtain rfl : queued = .order event := by
    cases queued <;> cases horder
    rfl
  obtain ⟨p, hp, hcid, hon⟩ := hs.origin.events event hqueued fill hfill
  have hours : p.cid ∈ s.submittedIds := by
    rw [hcid]
    simpa using hid
  obtain ⟨submission, hsubmission, hsame⟩ := hs.placedOn p hp hours
  obtain ⟨work, -, ⟨s₀, hsized⟩, hmade⟩ := hrecorded submission hsubmission
  obtain ⟨key, hkey⟩ := hsized.resolved
  apply hkeyed key _ hkey fill
  rw [← hon, ← hsame, hmade.instrument_eq]

/-- Once everything is booked, the totals are those of all emitted fills. -/
theorem ledgerComplete_iff (hs : Coherent s) (htotals : Totals loop s)
    (hkeyed : loop.KeyedBySymbol)
    (hrecorded : ∀ submission ∈ s.submitted, loop.Recorded submission) :
    LedgerComplete loop s ↔ s.booked.Perm (emittedFills s.submittedIds s.broker.events) := by
  refine ⟨LedgerComplete.booked, fun hperm => ⟨hperm, ?_, ?_⟩⟩
  · intro symbol
    rw [htotals.positions, netQuantity_perm (hperm.filter _)]
    congr 1
    apply List.filter_congr
    intro fill hfill
    rw [bookingKey_of_emitted hs hkeyed hrecorded hfill]
  · rw [htotals.cash, netCost_perm hperm]

end Totals

/-- IB reports an execution of the one order, of so many shares at 100. -/
def sampleFill (execId : String) (shares : Decimal) : Action :=
  .venue (.fillEvent 2 { orderId := 7, status := "Submitted" }
    ⟨some ⟨execId, shares, 100, none⟩, some ⟨1, "EUR"⟩⟩ ⟨2⟩)

/-- The event loop runs the next task of the broker. -/
def sampleTick : Action := .venue (.tick [] "" ⟨3⟩)

/-- The order for 1000 shares is placed, filled by the pushes, and the bar closed. -/
def filledRun (pushes : List Action) (events : Nat) : List Action :=
  [sampleProceed 1, sampleProceed 2, .acquired (.ok 7) ⟨1⟩] ++ pushes ++
    List.replicate events .getEvent ++ [sampleProceed 3, sampleProceed 4]

/-- The order is filled in two executions. -/
def splitFillRun : List Action :=
  filledRun [sampleFill "e1" 400, sampleTick, sampleTick, sampleFill "e2" 600, sampleTick] 4

/-- The order is filled in one execution. -/
def wholeFillRun : List Action := filledRun [sampleFill "e1" 1000, sampleTick, sampleTick] 3

end Blive.IbPipeline
