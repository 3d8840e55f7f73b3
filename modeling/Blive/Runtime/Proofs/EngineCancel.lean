import Blive.Runtime.Proofs.Ledger
import Blive.Runtime.Proofs.Settlement

/-!
# The engine's cancel

The engine is to cancel the orders that are live when their first drain runs out of time, and no
others, and to count as canceled no order it has seen filled, rejected or expired. The loops take
the branch of the cancel for an order that has expired, too, and ignore what the drain after the
cancel sees.
-/

namespace Blive.IbPipeline

open Transition

/-! ## What is seen of the settlement of an order -/

/-- What a step shows of the order that is being settled. -/
structure SettleStep where
  /-- The order whose `submit` returns. -/
  returned : Option ClientOrderId
  /-- The order event a drain takes off the queue. -/
  event : Option OrderEvent
  /-- The time of the first drain runs out. -/
  timedOut : Bool
  /-- The orders `broker.cancel` is called for. -/
  cancels : List ClientOrderId
  /-- The orders counted as canceled. -/
  counted : Nat

/-- The order whose drain starts in the step. -/
def returnedIn (s t : State) : Option ClientOrderId :=
  match s.task, t.task with
  | .inSubmit _ _ _ _, .inDrain _ drain => some drain.targetId
  | _, _ => none

/-- The time of the first drain runs out. -/
def timesOut (s : State) (a : Action) : Bool :=
  match s.task, a with
  | .inDrain _ _, .timeout => true
  | _, _ => false

def settleStep (s : State) (a : Action) (t : State) : SettleStep where
  returned := returnedIn s t
  event := if s.cursor < t.cursor then s.broker.events[s.cursor]?.bind BrokerEvent.order? else none
  timedOut := timesOut s a
  cancels := t.cancels.drop s.cancels.length
  counted := t.result.canceledCount - s.result.canceledCount

/-- The order that is being settled, with the first terminal event seen of it. -/
structure Settling where
  id : Option ClientOrderId := none
  terminal : Option OrderEventKind := none
  deriving DecidableEq

namespace Settling

def see (v : Settling) (event : OrderEvent) : Settling :=
  if v.id = some event.val.clientOrderId ∧ v.terminal = none ∧ event.val.kind.isTerminal then
    { v with terminal := some event.val.kind }
  else v

def hear (v : Settling) (o : SettleStep) : Settling :=
  match o.returned, o.event with
  | some id, _ => { id := some id }
  | none, some event => v.see event
  | none, none => v

/-- `broker.cancel` is called for the order exactly when its first drain has run out of time before
a terminal event was seen, and no order is counted as canceled that was seen filled, rejected or
expired. -/
def Proper (v : Settling) (o : SettleStep) : Prop :=
  o.cancels = (if o.timedOut = true ∧ (v.hear o).terminal = none then (v.hear o).id.toList
    else []) ∧
  (0 < o.counted → (v.hear o).terminal ∉ [some .filled, some .rejected, some .expired])

instance (v : Settling) (o : SettleStep) : Decidable (v.Proper o) := by
  unfold Proper
  infer_instance

end Settling

/-- The first drain of an order takes no EXPIRED event of the order off the queue, and the drain
after the engine's cancel none that is FILLED, REJECTED or EXPIRED. -/
def CancelApt (s : State) : Action → Prop
  | .getEvent =>
      match s.task, s.broker.events[s.cursor]? with
      | .inDrain _ drain, some (.order event) =>
          event.val.clientOrderId = drain.targetId → event.val.kind ≠ .expired
      | .inRedrain _ drain, some (.order event) =>
          event.val.clientOrderId = drain.targetId →
            event.val.kind ∉ [.filled, .rejected, .expired]
      | _, _ => True
  | _ => True

instance (s : State) (a : Action) : Decidable (CancelApt s a) := by
  unfold CancelApt
  split
  · split <;> infer_instance
  · infer_instance

/-! ## What a drain has seen -/

/-- The terminal event the drain has ended at. -/
def Drain.terminal (drain : Drain) : Option OrderEventKind :=
  match drain.state with
  | .filled => some .filled
  | .canceled => some .canceled
  | .rejected => some .rejected
  | .expired => some .expired
  | _ => none

/-- The order of the drain, with the terminal event seen of it. -/
def Drain.settling (drain : Drain) : Settling := ⟨some drain.targetId, drain.terminal⟩

theorem Drain.done_eq (drain : Drain) : drain.done = drain.terminal.isSome := by
  unfold Drain.done Drain.terminal
  cases drain.state <;> rfl

theorem Drain.terminal_of_open {drain : Drain} (h : drain.done = false) :
    drain.terminal = none := by
  rw [Drain.done_eq] at h
  exact Option.not_isSome_iff_eq_none.mp (by simp [h])

/-- An open drain sees of an event what whoever watches the order sees of it. -/
theorem Drain.settling_read {drain : Drain} (hopen : drain.done = false) (event : BrokerEvent) :
    (drain.read event).settling =
      (event.order?.map fun e => drain.settling.see e).getD drain.settling := by
  have hnone := Drain.terminal_of_open hopen
  cases event with
  | order e =>
    by_cases hcid : e.val.clientOrderId = drain.targetId
    · rw [Drain.read_own hcid]
      cases hkind : e.val.kind <;>
        simp [BrokerEvent.order?, Drain.settling, Settling.see, hcid, hkind, hnone,
          Drain.observe, OrderEventKind.isTerminal]
      all_goals rfl
    · rw [Drain.read_other hcid]
      simp [BrokerEvent.order?, Drain.settling, Settling.see, Ne.symm hcid]
  | connection _ => rfl
  | account _ => rfl

/-- The order of the task and what is seen of it: none of its terminal events, as long as it is
not counted. -/
def Linked (v : Settling) (s : State) : Prop :=
  match s.task.stage with
  | .none => True
  | .draining drain | .redraining drain => drain.done = false ∧ v = ⟨some drain.targetId, none⟩
  | .canceling targetId => v = ⟨some targetId, none⟩

/-- The step shows what it should exactly when `C` holds, and then leaves the view linked. -/
def StepLinked (v : Settling) (s : State) (a : Action) (t : State) (C : Prop) : Prop :=
  (v.Proper (settleStep s a t) ↔ C) ∧ (C → Linked (v.hear (settleStep s a t)) t)

theorem StepLinked.congr {v : Settling} {s t : State} {a : Action} {C D : Prop}
    (h : StepLinked v s a t C) (hiff : C ↔ D) : StepLinked v s a t D :=
  ⟨h.1.trans hiff, fun hD => h.2 (hiff.mpr hD)⟩

section Step

variable {loop : RebalanceLoop} {policy : RoundingPolicy} {s t : State} {v : Settling}

theorem settleStep_event_of_read {a : Action} {event : BrokerEvent}
    (hevent : s.broker.events[s.cursor]? = some event) (hcursor : t.cursor = s.cursor + 1) :
    (settleStep s a t).event = event.order? := by
  simp only [settleStep]
  rw [if_pos (by omega), hevent]
  rfl

theorem settleStep_event_of_same {a : Action} (hcursor : t.cursor = s.cursor) :
    (settleStep s a t).event = none := if_neg (by omega)

theorem settleStep_returned_of_stage {a : Action}
    (h : s.task.stage = .none → t.task.stage = .none) :
    (settleStep s a t).returned = none := by
  simp only [settleStep, returnedIn]
  split
  · rename_i hfrom hto
    rw [hfrom, hto] at h
    exact nomatch h rfl
  · rfl

theorem settleStep_counted {a : Action} {n : Nat}
    (h : t.result.counters.canceled = s.result.counters.canceled + n) :
    (settleStep s a t).counted = n := by
  change t.result.canceledCount = s.result.canceledCount + n at h
  simp only [settleStep]
  omega

theorem settleStep_cancels {a : Action} {more : List ClientOrderId}
    (h : t.cancels = s.cancels ++ more) : (settleStep s a t).cancels = more := by
  simp only [settleStep]
  rw [h, List.drop_left]

/-- Nothing is asked of a step that leaves the clock, the cancels and the count alone. -/
theorem proper_of_quiet {o : SettleStep} (htimedOut : o.timedOut = false)
    (hcancels : o.cancels = []) (hcounted : o.counted = 0) : v.Proper o := by
  unfold Settling.Proper
  rw [htimedOut, hcancels, hcounted]
  simp

/-- What is seen of the order when a drain of it reads an event. -/
theorem hear_read {drain : Drain} {event : BrokerEvent} {o : SettleStep}
    (hv : v = ⟨some drain.targetId, none⟩) (hopen : drain.done = false)
    (hreturned : o.returned = none) (hevent : o.event = event.order?) :
    v.hear o = (drain.read event).settling := by
  have hsettling : drain.settling = v := by
    rw [hv, Drain.settling, Drain.terminal_of_open hopen]
  rw [Drain.settling_read hopen, hsettling, Settling.hear, hreturned, hevent]
  cases event.order? <;> rfl

/-- A drain ends at the terminal event of its order. -/
theorem terminal_read {drain : Drain} (hopen : drain.done = false) (event : BrokerEvent) :
    (drain.read event).terminal = event.order?.bind fun e =>
      if e.val.clientOrderId = drain.targetId ∧ e.val.kind.isTerminal then some e.val.kind
      else none := by
  have hread := congrArg Settling.terminal (Drain.settling_read hopen event)
  rw [Drain.settling, Drain.settling, Drain.terminal_of_open hopen] at hread
  refine hread.trans ?_
  cases event.order? with
  | none => rfl
  | some e =>
    by_cases hcid : e.val.clientOrderId = drain.targetId
    · cases hkind : e.val.kind.isTerminal <;> simp [Settling.see, hcid, hkind]
    · simp [Settling.see, hcid, Ne.symm hcid]

theorem cancelApt_draining {work : Work} {drain : Drain} {event : BrokerEvent}
    (hfrom : s.task = .inDrain work drain) (hevent : s.broker.events[s.cursor]? = some event)
    (hopen : drain.done = false) :
    CancelApt s .getEvent ↔ (drain.read event).terminal ≠ some .expired := by
  rw [terminal_read hopen]
  simp only [CancelApt, hfrom, hevent]
  cases event with
  | order e =>
    by_cases hcid : e.val.clientOrderId = drain.targetId <;> cases hkind : e.val.kind <;>
      simp [BrokerEvent.order?, hcid, hkind, OrderEventKind.isTerminal]
  | connection _ => simp [BrokerEvent.order?]
  | account _ => simp [BrokerEvent.order?]

theorem cancelApt_redraining {work : Work} {drain : Drain} {event : BrokerEvent}
    (hfrom : s.task = .inRedrain work drain) (hevent : s.broker.events[s.cursor]? = some event)
    (hopen : drain.done = false) :
    CancelApt s .getEvent ↔
      (drain.read event).terminal ∉ [some .filled, some .rejected, some .expired] := by
  rw [terminal_read hopen]
  simp only [CancelApt, hfrom, hevent]
  cases event with
  | order e =>
    by_cases hcid : e.val.clientOrderId = drain.targetId <;> cases hkind : e.val.kind <;>
      simp [BrokerEvent.order?, hcid, hkind, OrderEventKind.isTerminal]
  | connection _ => simp [BrokerEvent.order?]
  | account _ => simp [BrokerEvent.order?]

/-- The order was seen at a terminal state that is not EXPIRED, and is counted as canceled only when
it was canceled. -/
theorem linked_of_settled {a : Action} {drain : Drain} {kind : OrderEventKind}
    (hhear : v.hear (settleStep s a t) = drain.settling) (hkind : drain.terminal = some kind)
    (hne : kind ≠ .expired) (hcancels : t.cancels = s.cancels)
    (hcounted : (settleStep s a t).counted = 0 ∨ kind = .canceled)
    (hstage : t.task.stage = .none) : StepLinked v s a t (drain.terminal ≠ some .expired) := by
  have hnone : (settleStep s a t).cancels = [] := settleStep_cancels (by simpa using hcancels)
  have hapt : drain.terminal ≠ some .expired := by simpa [hkind] using hne
  unfold StepLinked Settling.Proper
  rw [hhear]
  refine ⟨iff_of_true ⟨?_, ?_⟩ hapt, ?_⟩
  · simp [hnone, Drain.settling, hkind]
  · intro hpos
    rcases hcounted with hzero | rfl
    · omega
    · simp [Drain.settling, hkind]
  · intro _
    simp [Linked, hstage]

/-- The engine cancels the order: that is proper when no terminal event of it was seen. -/
theorem linked_of_canceled {a : Action} {work : Work} {drain : Drain}
    (hhear : v.hear (settleStep s a t) = drain.settling)
    (htimedOut : (settleStep s a t).timedOut = !drain.done)
    (hkinds : drain.terminal = none ∨ drain.terminal = some .expired)
    (htask : t.task = .inCancel work drain.targetId ∨
      t.task = .inRedrain work { targetId := drain.targetId } ∨ t.Raised)
    (hcancels : t.cancels = s.cancels ++ [drain.targetId])
    (hcounted : (settleStep s a t).counted = 0) :
    StepLinked v s a t (drain.terminal ≠ some .expired) := by
  have hcalled : (settleStep s a t).cancels = [drain.targetId] := settleStep_cancels hcancels
  unfold StepLinked Settling.Proper
  rw [hhear, hcalled, htimedOut, hcounted, Drain.done_eq]
  rcases hkinds with hnone | hexpired
  · have hv : drain.settling = ⟨some drain.targetId, none⟩ := by rw [Drain.settling, hnone]
    refine ⟨by simp [hv, hnone], ?_⟩
    intro _
    rw [hv]
    rcases htask with htask | htask | ⟨e, htask⟩
    · simp [Linked, htask, Task.stage]
    · simp [Linked, htask, Task.stage, Drain.done, isTerminal, terminalOrderStates]
    · simp [Linked, htask, Task.stage]
  · simp [hexpired]

/-- A drain that books nothing, though it has ended at a FILLED event, does not exist. -/
theorem linked_of_outcome {a : Action} {work : Work} {drain : Drain}
    (hfilled : drain.state = .filled → drain.bookedFill.isSome)
    (hhear : v.hear (settleStep s a t) = drain.settling)
    (htimedOut : (settleStep s a t).timedOut = !drain.done)
    (h : Outcome loop s.result.counters s.cancels work drain t) :
    StepLinked v s a t (drain.terminal ≠ some .expired) := by
  have hkind {fill : Fill} (hfill : drain.bookedFill = some fill) :
      drain.terminal = some .filled := by
    unfold Drain.bookedFill at hfill
    split at hfill
    · rename_i hstate
      rw [Drain.terminal, hstate]
    · cases hfill
  cases h with
  | filled fill hfill htask hcounters hcancels =>
    exact linked_of_settled hhear (hkind hfill) (by simp) hcancels
      (.inl (settleStep_counted (by rw [hcounters]; rfl))) (by rw [htask]; rfl)
  | unbooked fill hfill hraised hcounters hcancels =>
    obtain ⟨e, htask⟩ := hraised
    exact linked_of_settled hhear (hkind hfill) (by simp) hcancels
      (.inl (settleStep_counted (by rw [hcounters]; rfl))) (by rw [htask]; rfl)
  | canceled hstate htask hcounters hcancels =>
    exact linked_of_settled hhear (by rw [Drain.terminal, hstate]) (by simp) hcancels (.inr rfl)
      (by rw [htask]; rfl)
  | rejected hstate htask hcounters hcancels =>
    exact linked_of_settled hhear (by rw [Drain.terminal, hstate]) (by simp) hcancels
      (.inl (settleStep_counted (by rw [hcounters]; rfl))) (by rw [htask]; rfl)
  | engineCanceled hfill hcanceled hrejected htask hcounters hcancels =>
    have hkinds : drain.terminal = none ∨ drain.terminal = some .expired := by
      unfold Drain.terminal
      cases hstate : drain.state with
      | filled =>
        have hsome := hfilled hstate
        rw [hfill] at hsome
        cases hsome
      | canceled => exact absurd hstate hcanceled
      | rejected => exact absurd hstate hrejected
      | expired => exact .inr rfl
      | _ => exact .inl rfl
    exact linked_of_canceled hhear htimedOut hkinds htask hcancels
      (settleStep_counted (by rw [hcounters]; rfl))

/-- The drain after the engine's cancel ends: the order is counted as canceled. -/
theorem linked_of_counted {a : Action} {work : Work} {drain : Drain} {s' : State}
    (ht : t = RebalanceLoop.settleCancel s' work) (hcancels : s'.cancels = s.cancels)
    (hresult : s'.result = s.result) (hhear : v.hear (settleStep s a t) = drain.settling)
    (htimedOut : (settleStep s a t).timedOut = false) :
    StepLinked v s a t (drain.terminal ∉ [some .filled, some .rejected, some .expired]) := by
  have hnone : (settleStep s a t).cancels = [] :=
    settleStep_cancels (by rw [ht, List.append_nil]; exact hcancels)
  have hone : (settleStep s a t).counted = 1 := by
    refine settleStep_counted ?_
    rw [ht, ← hresult]
    rfl
  have hstage : t.task.stage = .none := by rw [ht]; rfl
  unfold StepLinked Settling.Proper
  rw [hhear, hnone, hone, htimedOut]
  refine ⟨by simp [Drain.settling], ?_⟩
  intro _
  simp [Linked, hstage]

theorem cancelApt_of_ne {a : Action} (ha : a ≠ .getEvent) : CancelApt s a := by
  cases a <;> trivial

theorem cancelApt_of_stage {a : Action} (hdraining : ∀ drain, s.task.stage ≠ .draining drain)
    (hredraining : ∀ drain, s.task.stage ≠ .redraining drain) : CancelApt s a := by
  cases a with
  | getEvent =>
    simp only [CancelApt]
    split
    · rename_i hfrom _
      exact absurd (by rw [hfrom]; rfl) (hdraining _)
    · rename_i hfrom _
      exact absurd (by rw [hfrom]; rfl) (hredraining _)
    · trivial
  | _ => trivial

theorem timedOut_of_ne {a : Action} (ha : a ≠ .timeout) : (settleStep s a t).timedOut = false := by
  simp only [settleStep, timesOut]
  split
  · exact absurd rfl ha
  · rfl

theorem timedOut_of_stage {a : Action} (hdraining : ∀ drain, s.task.stage ≠ .draining drain) :
    (settleStep s a t).timedOut = false := by
  simp only [settleStep, timesOut]
  split
  · rename_i hfrom
    exact absurd (by rw [hfrom]; rfl) (hdraining _)
  · rfl

/-- A step that takes no event, cancels nothing and counts nothing is proper. -/
theorem linked_of_quiet {a : Action} (htimedOut : (settleStep s a t).timedOut = false)
    (hcancels : t.cancels = s.cancels)
    (hcanceled : t.result.counters.canceled = s.result.counters.canceled)
    (hapt : CancelApt s a) (hlinked : Linked (v.hear (settleStep s a t)) t) :
    StepLinked v s a t (CancelApt s a) := by
  have hnone : (settleStep s a t).cancels = [] := settleStep_cancels (by simpa using hcancels)
  have hzero : (settleStep s a t).counted = 0 := settleStep_counted hcanceled
  exact ⟨iff_of_true (proper_of_quiet htimedOut hnone hzero) hapt, fun _ => hlinked⟩

/-- Nothing is heard in a step that starts no drain and takes no event. -/
theorem hear_of_same {a : Action} (hreturned : (settleStep s a t).returned = none)
    (hcursor : t.cursor = s.cursor) : v.hear (settleStep s a t) = v := by
  rw [Settling.hear, hreturned, settleStep_event_of_same hcursor]

/-- A drain that ends at a FILLED event has its fill. -/
theorem bookedFill_of_filled {drain : Drain} {event : BrokerEvent} (hopen : drain.done = false)
    (h : (drain.read event).state = .filled) : (drain.read event).bookedFill.isSome := by
  have hterminal := terminal_read hopen event
  rw [Drain.terminal, h] at hterminal
  cases event with
  | order e =>
    simp only [BrokerEvent.order?, Option.bind_some] at hterminal
    split at hterminal
    · rename_i hcond
      have hkind : e.val.kind = .filled := (Option.some.inj hterminal).symm
      have hfill : e.val.fill.isSome :=
        (OrderEvent.isSome_fill_iff e).mpr (hkind ▸ filled_needsFill)
      rw [Drain.read_own hcond.1, Drain.observe, hkind]
      simpa [Drain.bookedFill] using hfill
    · cases hterminal
  | connection _ => cases hterminal
  | account _ => cases hterminal

/-- A drain that goes on after an event is not settled by it. -/
theorem linked_of_read {drain : Drain} {event : BrokerEvent} (hv : v = ⟨some drain.targetId, none⟩)
    (hopen : drain.done = false) (hstage : s.task.stage = .none → t.task.stage = .none)
    (hevent : s.broker.events[s.cursor]? = some event) (hdone : (drain.read event).done = false)
    (hcursor : t.cursor = s.cursor + 1) (hcancels : t.cancels = s.cancels)
    (hcounters : t.result.counters = s.result.counters)
    (hapt : (drain.read event).terminal = none → CancelApt s .getEvent)
    (hlinked : Linked ⟨some (drain.read event).targetId, none⟩ t) :
    StepLinked v s .getEvent t (CancelApt s .getEvent) := by
  have hreturned : (settleStep s .getEvent t).returned = none :=
    settleStep_returned_of_stage hstage
  have hhear := hear_read hv hopen hreturned (settleStep_event_of_read hevent hcursor)
  have hterminal := Drain.terminal_of_open hdone
  have hproper : v.Proper (settleStep s .getEvent t) :=
    proper_of_quiet (timedOut_of_ne (by simp)) (settleStep_cancels (by rw [hcancels]; simp))
      (settleStep_counted (by rw [hcounters]; rfl))
  refine ⟨iff_of_true hproper (hapt hterminal), ?_⟩
  intro _
  rw [hhear, Drain.settling, hterminal]
  exact hlinked

theorem linked_step {a : Action} (hs : Linked v s) (h : step loop policy s a = some t) :
    StepLinked v s a t (CancelApt s a) := by
  cases stage_cases h with
  | kept _ hstage hcounters hcancels hcursor hplaced ha =>
    have hreturned : (settleStep s a t).returned = none :=
      settleStep_returned_of_stage fun hnone => hstage.trans hnone
    refine linked_of_quiet (timedOut_of_ne ha.1) hcancels (by rw [hcounters])
      (cancelApt_of_ne ha.2) ?_
    rw [hear_of_same hreturned hcursor]
    simp only [Linked, hstage]
    exact hs
  | raised _ hraised hcounters hcancels hcursor ha =>
    obtain ⟨e, htask⟩ := hraised
    refine linked_of_quiet (timedOut_of_ne ha.1) hcancels (by rw [hcounters])
      (cancelApt_of_ne ha.2) ?_
    simp [Linked, htask, Task.stage]
  | returned _ work order wired point switched hfrom htask hcounters hcancels hcursor =>
    refine linked_of_quiet (timedOut_of_stage (by simp [hfrom, Task.stage])) hcancels
      (by rw [hcounters]) (cancelApt_of_stage (by simp [hfrom, Task.stage])
        (by simp [hfrom, Task.stage])) ?_
    have hreturned : (settleStep s a t).returned = some order.val.clientOrderId := by
      simp only [settleStep, returnedIn, hfrom, htask]
    simp [Linked, htask, Task.stage, Settling.hear, hreturned, Drain.done, isTerminal,
      terminalOrderStates]
  | read work drain event hfrom hevent hdone ht =>
    simp only [Linked, hfrom, Task.stage] at hs
    obtain ⟨hopen, hv⟩ := hs
    refine linked_of_read hv hopen (by simp [hfrom, Task.stage]) hevent hdone (by rw [ht])
      (by rw [ht]) (by rw [ht]) ?_ (by rw [ht]; exact ⟨hdone, rfl⟩)
    intro hterminal
    rw [cancelApt_draining hfrom hevent hopen, hterminal]
    simp
  | ended work drain event hfrom hevent hdone houtcome hcursor =>
    simp only [Linked, hfrom, Task.stage] at hs
    obtain ⟨hopen, hv⟩ := hs
    have hreturned : (settleStep s .getEvent t).returned = none :=
      settleStep_returned_of_stage (by simp [hfrom, Task.stage])
    have hhear := hear_read hv hopen hreturned (settleStep_event_of_read hevent hcursor)
    have htimedOut : (settleStep s .getEvent t).timedOut = !(drain.read event).done := by
      rw [hdone]
      exact timedOut_of_ne (by simp)
    rw [cancelApt_draining hfrom hevent hopen]
    exact linked_of_outcome (bookedFill_of_filled hopen) hhear htimedOut houtcome
  | timedOut work drain hfrom houtcome hcursor =>
    simp only [Linked, hfrom, Task.stage] at hs
    obtain ⟨hopen, hv⟩ := hs
    have hreturned : (settleStep s .timeout t).returned = none :=
      settleStep_returned_of_stage (by simp [hfrom, Task.stage])
    have hterminal := Drain.terminal_of_open hopen
    have hhear : v.hear (settleStep s .timeout t) = drain.settling := by
      rw [hear_of_same hreturned hcursor, hv, Drain.settling, hterminal]
    have htimedOut : (settleStep s .timeout t).timedOut = !drain.done := by
      simp only [settleStep, timesOut, hfrom, hopen]
      rfl
    have hfilled : drain.state = .filled → drain.bookedFill.isSome := by
      intro hstate
      simp [Drain.terminal, hstate] at hterminal
    exact (linked_of_outcome hfilled hhear htimedOut houtcome).congr
      (iff_of_true (by simp [hterminal]) (cancelApt_of_ne (by simp)))
  | redrain _ work targetId hfrom ht =>
    have hreturned : (settleStep s a t).returned = none :=
      settleStep_returned_of_stage (by simp [hfrom, Task.stage])
    have hcursor : t.cursor = s.cursor := by rw [ht]
    refine linked_of_quiet (timedOut_of_stage (by simp [hfrom, Task.stage])) (by rw [ht])
      (by rw [ht]) (cancelApt_of_stage (by simp [hfrom, Task.stage])
        (by simp [hfrom, Task.stage])) ?_
    simp only [Linked, hfrom, Task.stage] at hs
    rw [hear_of_same hreturned hcursor, hs, ht]
    exact ⟨rfl, rfl⟩
  | reread work drain event hfrom hevent hdone ht =>
    simp only [Linked, hfrom, Task.stage] at hs
    obtain ⟨hopen, hv⟩ := hs
    refine linked_of_read hv hopen (by simp [hfrom, Task.stage]) hevent hdone (by rw [ht])
      (by rw [ht]) (by rw [ht]) ?_ (by rw [ht]; exact ⟨hdone, rfl⟩)
    intro hterminal
    rw [cancelApt_redraining hfrom hevent hopen, hterminal]
    simp
  | counted work drain event hfrom hevent hdone ht =>
    simp only [Linked, hfrom, Task.stage] at hs
    obtain ⟨hopen, hv⟩ := hs
    have hreturned : (settleStep s .getEvent t).returned = none :=
      settleStep_returned_of_stage (by simp [hfrom, Task.stage])
    have hhear := hear_read hv hopen hreturned
      (settleStep_event_of_read hevent (by rw [ht]; rfl))
    rw [cancelApt_redraining hfrom hevent hopen]
    exact linked_of_counted ht rfl rfl hhear (timedOut_of_ne (by simp))
  | countedLate work drain hfrom ht =>
    simp only [Linked, hfrom, Task.stage] at hs
    obtain ⟨hopen, hv⟩ := hs
    have hreturned : (settleStep s .timeout t).returned = none :=
      settleStep_returned_of_stage (by simp [hfrom, Task.stage])
    have hterminal := Drain.terminal_of_open hopen
    have hhear : v.hear (settleStep s .timeout t) = drain.settling := by
      rw [hear_of_same hreturned (by rw [ht]; rfl), hv, Drain.settling, hterminal]
    have hlinked := linked_of_counted ht rfl rfl hhear
      (timedOut_of_stage (by simp [hfrom, Task.stage]))
    exact hlinked.congr (iff_of_true (by simp [hterminal]) (cancelApt_of_ne (by simp)))

end Step

/-- In every run of the loop that both pipelines run, whatever its broker holds, the engine's
cancels and the count of the canceled orders are proper exactly when every event its drains take
off the queue is apt. -/
theorem engine_cancels_iff (loop : RebalanceLoop) (policy : RoundingPolicy) (broker : IBBroker)
    (placed : List PlacedOrder) (killSwitch : KillSwitch) (as : List Action) (s : State)
    (hrun : run (step loop policy) (loop.start broker placed killSwitch) as = some s) :
    Throughout Settling.hear Settling.Proper {}
        (trace (step loop policy) (fun s a t => [settleStep s a t])
          (loop.start broker placed killSwitch) as) ↔
      Along (step loop policy) CancelApt (loop.start broker placed killSwitch) as := by
  have hstep (v : Settling) (s : State) (a : Action) (t : State) (hs : Linked v s)
      (h : step loop policy s a = some t) :
      (Throughout Settling.hear Settling.Proper v [settleStep s a t] ↔ CancelApt s a) ∧
        (CancelApt s a → Linked ([settleStep s a t].foldl Settling.hear v) t) := by
    obtain ⟨hproper, hlinked⟩ := linked_step hs h
    exact ⟨by simpa [Throughout] using hproper, hlinked⟩
  exact throughout_iff_along hstep trivial hrun

/-- The order runs out of time and is canceled by the engine, and canceled or filled by IB. -/
def canceledRun (pushes : List Action) : List Action :=
  [sampleProceed 1, sampleProceed 2, .acquired (.ok 7) ⟨1⟩, .timeout, .canceled (.ok ())] ++
    pushes ++ [.getEvent, .getEvent, sampleProceed 3, sampleProceed 4]

/-- An order that is filled after the engine's cancel is counted as canceled. -/
theorem not_engine_cancels :
    ¬ ∀ (pipeline : Pipeline) (policy : RoundingPolicy) (history : List IBSystem.Action)
      (broker : IBBroker) (placed : List PlacedOrder) (killSwitch : KillSwitch)
      (loop : RebalanceLoop) (as : List Action) (s : State),
      run (IBSystem.step policy) IBSystem.init history = some ⟨broker, [], placed⟩ →
      pipeline.enter broker = .ok loop →
      run (step loop policy) (loop.start broker placed killSwitch) as = some s →
      Throughout Settling.hear Settling.Proper {}
        (trace (step loop policy) (fun s a t => [settleStep s a t])
          (loop.start broker placed killSwitch) as) := by
  intro h
  let filledLate := canceledRun [sampleFill "e1" 1000, sampleTick, sampleTick, .getEvent]
  obtain ⟨loop, s, hloop, hrun, himproper⟩ := Pipeline.exists_run (.single sampleArgs) filledLate
    (fun loop _ => !decide (Throughout Settling.hear Settling.Proper {}
      (trace (step loop .nearest) (fun s a t => [settleStep s a t])
        (loop.start sampleBroker [] {}) filledLate)))
    (by decide +kernel)
  have hproper := h (.single sampleArgs) .nearest [.connect ⟨0⟩] sampleBroker [] {} loop filledLate
    s rfl hloop hrun
  simp [hproper] at himproper

theorem engine_cancels_canceledRun :
    ∃ loop s, (Pipeline.single sampleArgs).enter sampleBroker = .ok loop ∧
      run (step loop .nearest) (loop.start sampleBroker [] {}) (canceledRun [
        .venue (.statusEvent 2 { orderId := 7, status := "Cancelled" } ⟨2⟩), sampleTick]) = some s ∧
      s.cancels = [2] ∧ s.result.canceledCount = 1 ∧
      Throughout Settling.hear Settling.Proper {}
        (trace (step loop .nearest) (fun s a t => [settleStep s a t])
          (loop.start sampleBroker [] {}) (canceledRun [
            .venue (.statusEvent 2 { orderId := 7, status := "Cancelled" } ⟨2⟩), sampleTick])) := by
  obtain ⟨loop, s, hloop, hrun, hshape⟩ := Pipeline.exists_run (.single sampleArgs)
    (canceledRun [.venue (.statusEvent 2 { orderId := 7, status := "Cancelled" } ⟨2⟩), sampleTick])
    (fun loop s => s.cancels == [2] && s.result.canceledCount == 1 &&
      decide (Along (step loop .nearest) CancelApt (loop.start sampleBroker [] {}) (canceledRun [
        .venue (.statusEvent 2 { orderId := 7, status := "Cancelled" } ⟨2⟩), sampleTick])))
    (by decide +kernel)
  simp only [Bool.and_eq_true, beq_iff_eq, decide_eq_true_eq] at hshape
  obtain ⟨⟨hcancels, hcounted⟩, hapt⟩ := hshape
  exact ⟨loop, s, hloop, hrun, hcancels, hcounted,
    (engine_cancels_iff loop .nearest sampleBroker [] {} _ s hrun).mpr hapt⟩

end Blive.IbPipeline
