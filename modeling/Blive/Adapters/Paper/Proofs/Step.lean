import Mathlib.Logic.Relation
import Mathlib.Data.List.Perm.Basic
import Blive.Adapters.Paper.Broker
import Blive.Domain.OrderFsm

/-!
# What one step of the paper broker does

Every proof about runs of the broker takes a step apart with the lemmas of this file and
never unfolds a call. The three calls that may do nothing have a case lemma each. A resumption
runs through the source's segments until a sleep that is really taken: with a latency of zero
the next segment follows at once. `Segment` lists what one segment can do, guards included,
and `lifecycle_invariant` checks an invariant against its six cases whatever the latencies are.
-/

namespace Blive.PaperBroker

open Transition

/-- The broker a submission leaves that is not a no-op. -/
def booked (b : PaperBroker) (order : Order) : PaperBroker :=
  { b with
    nextVenueSeq := b.nextVenueSeq + 1
    openOrders := b.openOrders.set order.val.clientOrderId order
    venueIdByOrder := b.venueIdByOrder.set order.val.clientOrderId b.mintVenueId.1
    lifecycleTasks := b.lifecycleTasks ++ [⟨order, b.mintVenueId.1, .created⟩] }

theorem step_submit_cases {cfg : PaperConfig} {b b' : PaperBroker} {order : Order}
    (h : step cfg b (.submit order) = some b') :
    (b' = b ∧ (b.connected = false ∨ order.val.clientOrderId ∈ b.openOrders)) ∨
      (b' = b.booked order ∧ b.connected = true ∧ order.val.clientOrderId ∉ b.openOrders) := by
  simp only [step, Option.some.injEq] at h
  unfold submit at h
  by_cases hc : b.connected = false
  · rw [if_pos hc] at h
    exact .inl ⟨h.symm, .inl hc⟩
  · rw [if_neg hc] at h
    by_cases ho : order.val.clientOrderId ∈ b.openOrders
    · rw [if_pos ho] at h
      exact .inl ⟨h.symm, .inr ho⟩
    · rw [if_neg ho] at h
      exact .inr ⟨h.symm, by simpa using hc, ho⟩

/-- The broker a cancellation of an open order leaves. -/
def canceled (b : PaperBroker) (cid : ClientOrderId) (now : Utc) : PaperBroker :=
  { b with openOrders := b.openOrders.erase cid }.put
    (.order (.withReason cid (b.venueIdByOrder.get? cid) .canceled "engine" now
      canceled_needsReason engine_ne_empty))

theorem step_cancel_cases {cfg : PaperConfig} {b b' : PaperBroker} {cid : ClientOrderId}
    {now : Utc} (h : step cfg b (.cancel cid now) = some b') :
    (b' = b ∧ cid ∉ b.openOrders) ∨ (b' = b.canceled cid now ∧ cid ∈ b.openOrders) := by
  simp only [step, Option.some.injEq] at h
  unfold cancel at h
  by_cases ho : cid ∈ b.openOrders
  · rw [if_pos ho] at h
    exact .inr ⟨h.symm, ho⟩
  · rw [if_neg ho] at h
    exact .inl ⟨h.symm, ho⟩

theorem step_replace_cases {cfg : PaperConfig} {b b' : PaperBroker} {cid : ClientOrderId}
    {new : OrderUpdate} (h : step cfg b (.replace cid new) = some b') :
    b' = b ∨ ∃ original replaced : Order, b.openOrders.get? cid = some original ∧
      replaced.val = replacedFields original.val new.val ∧
      b' = { b with openOrders := b.openOrders.set cid replaced } := by
  simp only [step, Option.some.injEq] at h
  unfold replace at h
  cases ho : b.openOrders.get? cid with
  | none =>
    rw [ho] at h
    exact .inl h.symm
  | some original =>
    simp only [ho] at h
    cases hr : Frozen.make (replacedFields original.val new.val) with
    | error e =>
      simp only [hr] at h
      exact .inl h.symm
    | ok replaced =>
      simp only [hr] at h
      exact .inr ⟨original, replaced, rfl, Frozen.make_eq_ok_iff.mp hr, h.symm⟩

/-- One segment of the task that is being resumed; `rest` are the tasks it leaves alone. -/
inductive Segment (cfg : PaperConfig) (env : LifecycleEnv) (rest : List LifecycleTask) :
    PaperBroker → PaperBroker → Prop
  /-- The order is not open any more, the sleep raised, or nothing is left to do. -/
  | exit {b : PaperBroker} (task : LifecycleTask) (h : b.lifecycleTasks.Perm (task :: rest)) :
      Segment cfg env rest b { b with lifecycleTasks := rest }
  | ackSleep {b : PaperBroker} (order : Order) (venueId : String)
      (h : b.lifecycleTasks.Perm (⟨order, venueId, .created⟩ :: rest)) :
      Segment cfg env rest b { b with lifecycleTasks := ⟨order, venueId, .ackSleep⟩ :: rest }
  | submitted {b : PaperBroker} (order : Order) (venueId : String) (point : LifecyclePoint)
      (hp : point = .created ∨ point = .ackSleep)
      (h : b.lifecycleTasks.Perm (⟨order, venueId, point⟩ :: rest))
      (ho : order.val.clientOrderId ∈ b.openOrders) :
      Segment cfg env rest b
        ({ b with lifecycleTasks := ⟨order, venueId, .acceptSleep⟩ :: rest }.put
          (.order
            (.plain order.val.clientOrderId (some venueId) .submitted env.now submitted_plain)))
  | accepted {b : PaperBroker} (order : Order) (venueId : String)
      (h : b.lifecycleTasks.Perm (⟨order, venueId, .acceptSleep⟩ :: rest))
      (ho : order.val.clientOrderId ∈ b.openOrders) :
      Segment cfg env rest b
        ({ b with lifecycleTasks := ⟨order, venueId, .fillSleep⟩ :: rest }.put
          (.order (.plain order.val.clientOrderId (some venueId) .accepted env.now accepted_plain)))
  | filled {b : PaperBroker} (order : Order) (venueId : String) (fill : Fill)
      (h : b.lifecycleTasks.Perm (⟨order, venueId, .fillSleep⟩ :: rest))
      (ho : order.val.clientOrderId ∈ b.openOrders)
      (hf : computeFill cfg env ⟨order, venueId, .fillSleep⟩ = .ok fill) :
      Segment cfg env rest b
        ({ b with
            openOrders := b.openOrders.erase order.val.clientOrderId
            lifecycleTasks := rest }.put
          (.order (.withFill order.val.clientOrderId (some venueId) .filled fill env.now
            filled_needsFill)))
  /-- The price lookup or the fill raised, after the order had left the book. -/
  | lost {b : PaperBroker} (order : Order) (venueId : String) (e : PyError)
      (h : b.lifecycleTasks.Perm (⟨order, venueId, .fillSleep⟩ :: rest))
      (ho : order.val.clientOrderId ∈ b.openOrders)
      (hf : computeFill cfg env ⟨order, venueId, .fillSleep⟩ = .error e) :
      Segment cfg env rest b
        { b with
          openOrders := b.openOrders.erase order.val.clientOrderId
          lifecycleTasks := rest }

section Decomposition

variable {cfg : PaperConfig} {env : LifecycleEnv} {rest : List LifecycleTask}

/-- The broker a resumption leaves, with the task at its next sleep or gone. -/
def settle (rest : List LifecycleTask) (task : LifecycleTask)
    (out : PaperBroker × Option LifecyclePoint) : PaperBroker :=
  { out.1 with lifecycleTasks := (out.2.toList.map fun point => { task with point }) ++ rest }

/-- The segments do not read the task list: `settle` puts the remaining tasks back. -/
theorem settle_afterFill_tasks (task : LifecycleTask) (b : PaperBroker)
    (tasks : List LifecycleTask) (next : Option LifecyclePoint) :
    settle rest task (afterFill cfg env task { b with lifecycleTasks := tasks }, next) =
      settle rest task (afterFill cfg env task b, next) := by
  unfold afterFill
  by_cases ho : task.cid ∈ b.openOrders
  · simp only [ho, if_true]
    cases computeFill cfg env task <;> rfl
  · simp only [ho, if_false]
    rfl

theorem settle_afterAccept_tasks (task : LifecycleTask) (b : PaperBroker)
    (tasks : List LifecycleTask) :
    settle rest task (afterAccept cfg env task { b with lifecycleTasks := tasks }) =
      settle rest task (afterAccept cfg env task b) := by
  unfold afterAccept
  by_cases ho : task.cid ∈ b.openOrders
  · simp only [ho, if_true]
    split
    · rfl
    · split
      · rfl
      · exact settle_afterFill_tasks task (b.put _) tasks none
  · simp only [ho, if_false]
    rfl

theorem afterFill_segment {b : PaperBroker} (task : LifecycleTask)
    (h : b.lifecycleTasks.Perm ({ task with point := .fillSleep } :: rest)) :
    Segment cfg env rest b (settle rest task (afterFill cfg env task b, none)) := by
  unfold afterFill
  by_cases ho : task.cid ∈ b.openOrders
  · simp only [ho, if_true]
    cases hf : computeFill cfg env task with
    | error e => exact .lost task.order task.venueId e h ho hf
    | ok fill => exact .filled task.order task.venueId fill h ho hf
  · simp only [ho, if_false]
    exact .exit _ h

theorem afterAccept_segments {b : PaperBroker} (task : LifecycleTask)
    (h : b.lifecycleTasks.Perm ({ task with point := .acceptSleep } :: rest)) :
    Relation.ReflTransGen (Segment cfg env rest) b
      (settle rest task (afterAccept cfg env task b)) := by
  unfold afterAccept
  by_cases ho : task.cid ∈ b.openOrders
  · simp only [ho, if_true]
    -- ACCEPTED goes out with the task moved to its last sleep, which may not be taken.
    refine .head (.accepted task.order task.venueId h ho) ?_
    split
    · exact .single (.exit ⟨task.order, task.venueId, .fillSleep⟩ (.refl _))
    · split
      · exact .refl
      · rw [← settle_afterFill_tasks task _ (⟨task.order, task.venueId, .fillSleep⟩ :: rest)]
        exact .single (afterFill_segment task (.refl _))
  · simp only [ho, if_false]
    exact .single (.exit _ h)

theorem afterAck_segments {b : PaperBroker} (task : LifecycleTask) {point : LifecyclePoint}
    (hp : point = .created ∨ point = .ackSleep)
    (h : b.lifecycleTasks.Perm ({ task with point } :: rest)) :
    Relation.ReflTransGen (Segment cfg env rest) b
      (settle rest task (afterAck cfg env task b)) := by
  unfold afterAck
  by_cases ho : task.cid ∈ b.openOrders
  · simp only [ho, if_true]
    refine .head (.submitted task.order task.venueId point hp h ho) ?_
    split
    · exact .refl
    · rw [← settle_afterAccept_tasks task _ (⟨task.order, task.venueId, .acceptSleep⟩ :: rest)]
      exact afterAccept_segments task (.refl _)
  · simp only [ho, if_false]
    exact .single (.exit _ h)

/-- A resumption is a sequence of segments of the resumed task. -/
theorem simulateLifecycle_segments (cfg : PaperConfig) (env : LifecycleEnv) {b : PaperBroker}
    {task : LifecycleTask}
    (h : b.lifecycleTasks.Perm (task :: rest)) :
    Relation.ReflTransGen (Segment cfg env rest) b
      (settle rest task (simulateLifecycle cfg env task b)) := by
  obtain ⟨order, venueId, point⟩ := task
  unfold simulateLifecycle
  cases point with
  | created =>
    dsimp only
    split
    · exact .single (.ackSleep order venueId h)
    · exact afterAck_segments ⟨order, venueId, .created⟩ (.inl rfl) h
  | ackSleep =>
    cases env.sleepRaises with
    | false => exact afterAck_segments ⟨order, venueId, .ackSleep⟩ (.inr rfl) h
    | true => exact .single (.exit _ h)
  | acceptSleep =>
    cases env.sleepRaises with
    | false => exact afterAccept_segments ⟨order, venueId, .acceptSleep⟩ h
    | true => exact .single (.exit _ h)
  | fillSleep =>
    cases env.sleepRaises with
    | false => exact .single (afterFill_segment ⟨order, venueId, .fillSleep⟩ h)
    | true => exact .single (.exit _ h)

end Decomposition

theorem getElem?_perm_cons_eraseIdx {α : Type*} {xs : List α} {i : Nat} {x : α}
    (h : xs[i]? = some x) : xs.Perm (x :: xs.eraseIdx i) := by
  obtain ⟨hi, rfl⟩ := List.getElem?_eq_some_iff.mp h
  exact (List.getElem_cons_eraseIdx_perm hi).symm

theorem step_lifecycle_eq_some {cfg : PaperConfig} {env : LifecycleEnv} {b b' : PaperBroker}
    {i : Nat} : step cfg b (.lifecycle i env) = some b' ↔ ∃ task, b.lifecycleTasks[i]? = some task ∧
      b' = settle (b.lifecycleTasks.eraseIdx i) task (simulateLifecycle cfg env task b) := by
  simp only [step]
  cases h : b.lifecycleTasks[i]? with
  | none => simp
  | some task =>
    simp only [Option.some.injEq, exists_eq_left']
    exact eq_comm

/-- An invariant of the six segments is an invariant of every resumption. -/
theorem lifecycle_invariant {cfg : PaperConfig} {env : LifecycleEnv} {I : PaperBroker → Prop}
    (hseg : ∀ rest b c, I b → Segment cfg env rest b c → I c) {b b' : PaperBroker} {i : Nat}
    (hb : I b) (hstep : step cfg b (.lifecycle i env) = some b') : I b' := by
  obtain ⟨task, htask, rfl⟩ := step_lifecycle_eq_some.mp hstep
  have hrun := simulateLifecycle_segments cfg env (getElem?_perm_cons_eraseIdx htask)
  generalize settle _ task _ = target at hrun ⊢
  induction hrun with
  | refl => exact hb
  | tail _ hlast ih => exact hseg _ _ _ ih hlast

/-! ## The fill step of a resumption -/

/-- The resumption runs through to the fill step, if the order is still open. -/
def fillDue (cfg : PaperConfig) (task : LifecycleTask) (sleepRaises : Bool) : Bool :=
  match task.point with
  | .created => cfg.ackLatency = 0 ∧ cfg.acceptLatency = 0 ∧
      task.order.val.orderType = .mkt ∧ cfg.fillLatency = 0
  | .ackSleep => sleepRaises = false ∧ cfg.acceptLatency = 0 ∧
      task.order.val.orderType = .mkt ∧ cfg.fillLatency = 0
  | .acceptSleep => sleepRaises = false ∧ task.order.val.orderType = .mkt ∧ cfg.fillLatency = 0
  | .fillSleep => sleepRaises = false

/-- `price_lookup` returned a positive price. -/
def PricePositive : Except PyError Decimal → Prop
  | .ok price => 0 < price
  | .error _ => False

instance : (price : Except PyError Decimal) → Decidable (PricePositive price)
  | .ok price => inferInstanceAs (Decidable (0 < price))
  | .error _ => isFalse id

/-- A fill exists exactly for a positive price and a rate that is not negative: the order's
quantity is positive, its currency is an ISO code and the clock runs in UTC. -/
theorem computeFill_ok_iff {cfg : PaperConfig} {env : LifecycleEnv} {task : LifecycleTask} :
    (∃ fill, computeFill cfg env task = .ok fill) ↔
      PricePositive env.price ∧ 0 ≤ cfg.commissionPerShare := by
  unfold computeFill
  cases hprice : env.price with
  | error e => simp [PricePositive, bind, Except.bind]
  | ok price =>
    have hq := task.order.quantity_pos
    have hcommission : 0 ≤ cfg.commissionPerShare * task.order.val.quantity ↔
        0 ≤ cfg.commissionPerShare := mul_nonneg_iff_of_pos_right hq
    have hvalid : postInit (fillFields cfg task price env.now) = .ok () ↔
        0 < price ∧ 0 ≤ cfg.commissionPerShare := by
      rw [Fill.valid_iff]
      simp only [fillFields, hcommission, hq, true_and, Instrument.iso_currency,
        Utc.toDatetime, and_true]
      exact and_iff_right (by simp)
    simp only [PricePositive, ← hvalid, bind, Except.bind]
    constructor
    · rintro ⟨fill, hfill⟩
      rw [← Frozen.make_eq_ok_iff.mp hfill]
      exact fill.valid
    · intro h
      exact ⟨_, Frozen.make_of_valid h⟩

theorem computeFill_val {cfg : PaperConfig} {env : LifecycleEnv} {task : LifecycleTask}
    {fill : Fill} (h : computeFill cfg env task = .ok fill) :
    ∃ price, fill.val = fillFields cfg task price env.now := by
  unfold computeFill at h
  cases hprice : env.price with
  | error e => rw [hprice] at h; cases h
  | ok price =>
    rw [hprice] at h
    exact ⟨price, Frozen.make_eq_ok_iff.mp h⟩

/-- Only SUBMITTED and ACCEPTED events of `cid`. -/
def ProgressOnly (cid : ClientOrderId) (events : List BrokerEvent) : Prop :=
  ∀ event ∈ events, ∃ e : OrderEvent, event = .order e ∧ e.val.clientOrderId = cid ∧
    (e.val.kind = .submitted ∨ e.val.kind = .accepted)

/-- The FILLED event of a fill step that got its fill. -/
def filledEvents (env : LifecycleEnv) (task : LifecycleTask) :
    Option (Except PyError Fill) → List BrokerEvent
  | some (.ok fill) =>
      [.order (.withFill task.cid (some task.venueId) .filled fill env.now filled_needsFill)]
  | _ => []

/-- What a resumption changes besides the tasks: `outcome` is the result of its fill step,
`none` when it does not get there. -/
def Effects (env : LifecycleEnv) (task : LifecycleTask) (outcome : Option (Except PyError Fill))
    (b b' : PaperBroker) : Prop :=
  b'.openOrders = (if outcome.isSome then b.openOrders.erase task.cid else b.openOrders) ∧
    ∃ progress, ProgressOnly task.cid progress ∧
      b'.events = b.events ++ progress ++ filledEvents env task outcome

section Effects

variable {cfg : PaperConfig} {env : LifecycleEnv} {task : LifecycleTask} {b : PaperBroker}

theorem Effects.none : Effects env task none b b :=
  ⟨rfl, [], by simp [ProgressOnly], by simp [filledEvents]⟩

theorem Effects.of_put {e : OrderEvent} {outcome : Option (Except PyError Fill)}
    {b' : PaperBroker} (hcid : e.val.clientOrderId = task.cid)
    (hkind : e.val.kind = .submitted ∨ e.val.kind = .accepted)
    (h : Effects env task outcome (b.put (.order e)) b') : Effects env task outcome b b' := by
  obtain ⟨hbook, progress, hprogress, hevents⟩ := h
  refine ⟨hbook, .order e :: progress, ?_, by simp [hevents]⟩
  intro event hevent
  rcases List.mem_cons.mp hevent with rfl | hevent
  · exact ⟨e, rfl, hcid, hkind⟩
  · exact hprogress event hevent

theorem afterFill_effects (ho : task.cid ∈ b.openOrders) :
    Effects env task (some (computeFill cfg env task)) b (afterFill cfg env task b) := by
  unfold afterFill
  simp only [ho, if_true]
  cases computeFill cfg env task with
  | error e => exact ⟨rfl, [], by simp [ProgressOnly], by simp [filledEvents]⟩
  | ok fill => exact ⟨rfl, [], by simp [ProgressOnly], by simp [filledEvents]⟩

theorem afterAccept_effects (ho : task.cid ∈ b.openOrders) :
    Effects env task
      (if task.order.val.orderType = .mkt ∧ cfg.fillLatency = 0 then some (computeFill cfg env task)
        else none) b (afterAccept cfg env task b).1 := by
  unfold afterAccept
  simp only [ho, if_true]
  by_cases hmkt : task.order.val.orderType = .mkt
  · by_cases hfill : cfg.fillLatency = 0
    · simp only [hmkt, hfill, ne_eq, not_true_eq_false, if_false, and_self, if_true]
      exact (afterFill_effects (b := b.put _) ho).of_put rfl (.inr rfl)
    · simp only [hmkt, hfill, ne_eq, not_true_eq_false, if_false, not_false_eq_true, if_true,
        and_false]
      exact Effects.none.of_put rfl (.inr rfl)
  · simp only [hmkt, ne_eq, not_false_eq_true, if_true, false_and, if_false]
    exact Effects.none.of_put rfl (.inr rfl)

theorem afterAck_effects (ho : task.cid ∈ b.openOrders) :
    Effects env task
      (if cfg.acceptLatency = 0 ∧ task.order.val.orderType = .mkt ∧ cfg.fillLatency = 0 then
        some (computeFill cfg env task) else none) b (afterAck cfg env task b).1 := by
  unfold afterAck
  simp only [ho, if_true]
  by_cases haccept : cfg.acceptLatency = 0
  · simp only [haccept, ne_eq, not_true_eq_false, if_false, true_and]
    exact (afterAccept_effects (b := b.put _) ho).of_put rfl (.inl rfl)
  · simp only [haccept, ne_eq, not_false_eq_true, if_true, false_and, if_false]
    exact Effects.none.of_put rfl (.inl rfl)

/-- What a resumption does to the book and the events. -/
theorem simulateLifecycle_effects (cfg : PaperConfig) (env : LifecycleEnv) (task : LifecycleTask)
    (b : PaperBroker) :
    Effects env task
      (if task.cid ∈ b.openOrders ∧ fillDue cfg task env.sleepRaises then
        some (computeFill cfg env task) else none) b (simulateLifecycle cfg env task b).1 := by
  obtain ⟨order, venueId, point⟩ := task
  by_cases ho : order.val.clientOrderId ∈ b.openOrders
  · simp only [ho, true_and]
    cases point with
    | created =>
      by_cases hack : cfg.ackLatency = 0
      · simpa [simulateLifecycle, fillDue, hack] using afterAck_effects ho
      · simpa [simulateLifecycle, fillDue, hack] using Effects.none
    | ackSleep =>
      cases hraises : env.sleepRaises with
      | false => simpa [simulateLifecycle, fillDue, hraises] using afterAck_effects ho
      | true => simpa [simulateLifecycle, fillDue, hraises] using Effects.none
    | acceptSleep =>
      cases hraises : env.sleepRaises with
      | false => simpa [simulateLifecycle, fillDue, hraises] using afterAccept_effects ho
      | true => simpa [simulateLifecycle, fillDue, hraises] using Effects.none
    | fillSleep =>
      cases hraises : env.sleepRaises with
      | false => simpa [simulateLifecycle, fillDue, hraises] using afterFill_effects ho
      | true => simpa [simulateLifecycle, fillDue, hraises] using Effects.none
  · simp only [ho, false_and, if_false]
    have hsame : (simulateLifecycle cfg env ⟨order, venueId, point⟩ b).1 = b := by
      unfold simulateLifecycle afterAck afterAccept afterFill
      simp only [ho, if_false]
      cases point <;> cases env.sleepRaises <;> by_cases hack : cfg.ackLatency = 0 <;> simp [hack]
    rw [hsame]
    exact Effects.none

end Effects

theorem ProgressOnly.kinds {cid : ClientOrderId} {events : List BrokerEvent}
    (h : ProgressOnly cid events) (other : ClientOrderId) :
    ∀ kind ∈ kindsOf other events, kind = .submitted ∨ kind = .accepted := by
  induction events with
  | nil => simp
  | cons event rest ih =>
    obtain ⟨e, rfl, -, hkind⟩ := h event (.head _)
    intro kind hmem
    rw [← List.singleton_append, kindsOf_append, kindsOf_order, List.mem_append] at hmem
    rcases hmem with hmem | hmem
    · by_cases hc : e.val.clientOrderId = other
      · rw [if_pos hc, List.mem_singleton] at hmem
        exact hmem ▸ hkind
      · rw [if_neg hc] at hmem
        cases hmem
    · exact ih (fun event hevent => h event (.tail _ hevent)) kind hmem

theorem ProgressOnly.terminalCount_eq {cid : ClientOrderId} {events : List BrokerEvent}
    (h : ProgressOnly cid events) (other : ClientOrderId) : terminalCount other events = 0 := by
  apply List.countP_eq_zero.mpr
  intro kind hmem
  rcases h.kinds other kind hmem with rfl | rfl <;> decide

theorem ProgressOnly.fillsOf_eq {cid : ClientOrderId} {events : List BrokerEvent}
    (h : ProgressOnly cid events) (other : ClientOrderId) : fillsOf other events = [] := by
  have hnone (kind : OrderEventKind) (hk : kind = .partialFill ∨ kind = .filled) :
      (kindsOf other events).count kind = 0 := by
    apply List.count_eq_zero.mpr
    intro hmem
    rcases h.kinds other kind hmem with rfl | rfl <;> simp at hk
  apply List.eq_nil_of_length_eq_zero
  rw [length_fillsOf, hnone _ (.inl rfl), hnone _ (.inr rfl)]

end Blive.PaperBroker
