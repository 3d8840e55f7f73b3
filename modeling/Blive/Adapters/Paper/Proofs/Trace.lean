import Blive.Adapters.Paper.Proofs.Resubmit
import Blive.Domain.OrderFsm

/-!
# Event traces of the paper broker

The broker never consults the transition table of `domain/order_fsm.py`; its traces are legal
when the cancel handler and the sleeping lifecycle task happen not to cross. `Consistent`
ties the trace of an open order to the sleep its task is in. It holds in every run that
submits an id once, and from it a step keeps all traces legal exactly when it does not cancel
an order whose SUBMITTED event is still to come.
-/

namespace Blive.PaperBroker

open Transition

/-- The event kinds a lifecycle task has emitted when it is at the point. -/
def LifecyclePoint.trace : LifecyclePoint → List OrderEventKind
  | .created | .ackSleep => []
  | .acceptSleep => [.submitted]
  | .fillSleep => [.submitted, .accepted]

theorem LifecyclePoint.legalTrace (point : LifecyclePoint) :
    LegalTrace (LifecyclePoint.trace point) := by
  cases point <;> decide

/-- An open order can be canceled once its SUBMITTED event is out. -/
theorem LifecyclePoint.legalTrace_canceled_iff (point : LifecyclePoint) :
    LegalTrace (LifecyclePoint.trace point ++ [.canceled]) ↔
      .submitted ∈ LifecyclePoint.trace point := by
  cases point <;> decide

structure Consistent (b : PaperBroker) : Prop where
  single : ∀ cid, taskCount cid b ≤ 1
  fresh : ∀ cid, cid ∉ b.venueIdByOrder →
    cid ∉ b.openOrders ∧ taskCount cid b = 0 ∧ kindsOf cid b.events = []
  atPoint : ∀ task ∈ b.lifecycleTasks, task.cid ∈ b.openOrders →
    kindsOf task.cid b.events = LifecyclePoint.trace task.point
  openTrace : ∀ cid ∈ b.openOrders, ∃ point : LifecyclePoint,
    kindsOf cid b.events = LifecyclePoint.trace point

/-- Every trace read off the broker's events follows the transition table. -/
def TracesLegal (b : PaperBroker) : Prop := ∀ cid, LegalTrace (kindsOf cid b.events)

/-- An id is submitted once: not again over a connection after it has a venue id. -/
def FreshSubmit (b : PaperBroker) : Action → Prop
  | .submit order => b.connected = true → order.val.clientOrderId ∉ b.venueIdByOrder
  | _ => True

/-- An open order is canceled only after its SUBMITTED event. -/
def CancelAfterSubmitted (b : PaperBroker) : Action → Prop
  | .cancel cid _ => cid ∈ b.openOrders → .submitted ∈ kindsOf cid b.events
  | _ => True

instance (b : PaperBroker) : (a : Action) → Decidable (FreshSubmit b a)
  | .submit _ => inferInstanceAs (Decidable (_ → _))
  | .connect _ | .disconnect _ | .cancel _ _ | .replace _ _ | .lifecycle _ _ => isTrue trivial

instance (b : PaperBroker) : (a : Action) → Decidable (CancelAfterSubmitted b a)
  | .cancel _ _ => inferInstanceAs (Decidable (_ → _))
  | .connect _ | .disconnect _ | .submit _ | .replace _ _ | .lifecycle _ _ => isTrue trivial

/-- A change to the trace of one order that keeps its legality keeps that of all traces. -/
theorem tracesLegal_congr {b c : PaperBroker} (cid : ClientOrderId)
    (hother : ∀ other, other ≠ cid → kindsOf other c.events = kindsOf other b.events)
    (hcid : LegalTrace (kindsOf cid c.events) ↔ LegalTrace (kindsOf cid b.events)) :
    TracesLegal c ↔ TracesLegal b := by
  apply forall_congr'
  intro other
  by_cases h : other = cid
  · rw [h, hcid]
  · rw [hother other h]

section Segments

variable {cfg : PaperConfig} {env : LifecycleEnv} {rest : List LifecycleTask}
  {b c : PaperBroker}

/-- No second task of the same order is running. -/
theorem Consistent.other {task other : LifecycleTask} (hb : Consistent b)
    (h : b.lifecycleTasks.Perm (task :: rest)) (hother : other ∈ rest) : other.cid ≠ task.cid := by
  intro hcid
  have hone := hb.single task.cid
  rw [taskCount_eq_of_perm h, if_pos rfl] at hone
  have hpos : 0 < rest.countP fun t => t.cid = task.cid :=
    List.countP_pos_iff.mpr ⟨other, hother, by simpa using hcid⟩
  omega

/-- A task that moves on or ends adds none of its order. -/
theorem taskCount_le {task : LifecycleTask} (next : Option LifecyclePoint)
    (h : b.lifecycleTasks.Perm (task :: rest))
    (htasks : c.lifecycleTasks = (next.toList.map fun point => { task with point }) ++ rest)
    (cid : ClientOrderId) : taskCount cid c ≤ taskCount cid b := by
  rw [taskCount_eq_of_perm h]
  cases next <;> simp [taskCount, htasks, List.countP_cons, LifecycleTask.cid]

/-- The running task emits the next kind of its order and moves on, or ends. -/
theorem Consistent.emit {task : LifecycleTask} (next : Option LifecyclePoint) {e : OrderEvent}
    (hb : Consistent b) (h : b.lifecycleTasks.Perm (task :: rest)) (ho : task.cid ∈ b.openOrders)
    (he : e.val.clientOrderId = task.cid)
    (hvenue : c.venueIdByOrder = b.venueIdByOrder)
    (hbook : ∀ cid, cid ∈ c.openOrders → cid ∈ b.openOrders ∧ (cid = task.cid → next ≠ none))
    (htasks : c.lifecycleTasks = (next.toList.map fun point => { task with point }) ++ rest)
    (hevents : c.events = b.events ++ [.order e])
    (hnext : ∀ point ∈ next, LifecyclePoint.trace point =
      LifecyclePoint.trace task.point ++ [e.val.kind]) :
    Consistent c := by
  have hkinds (cid : ClientOrderId) : kindsOf cid c.events =
      kindsOf cid b.events ++ if task.cid = cid then [e.val.kind] else [] := by
    rw [hevents, kindsOf_append, kindsOf_order, he]
  have hmem : task ∈ b.lifecycleTasks := h.symm.subset (.head _)
  have hpoint : ∀ point ∈ next, kindsOf task.cid c.events = LifecyclePoint.trace point := by
    intro point hp
    rw [hkinds, if_pos rfl, hb.atPoint task hmem ho, hnext point hp]
  have hcount := taskCount_le next h htasks
  refine ⟨fun cid => (hcount cid).trans (hb.single cid), ?_, ?_, ?_⟩
  · intro cid hcid
    rw [hvenue] at hcid
    obtain ⟨hclosed, htasks0, hkinds0⟩ := hb.fresh cid hcid
    refine ⟨fun hopen => hclosed (hbook cid hopen).1, by have := hcount cid; omega, ?_⟩
    rw [hkinds, hkinds0, if_neg fun hc : task.cid = cid => hclosed (hc ▸ ho)]
    rfl
  · intro t ht hopen
    rw [htasks, List.mem_append] at ht
    rcases ht with ht | ht
    · obtain ⟨point, hp, rfl⟩ := List.mem_map.mp ht
      exact hpoint point (Option.mem_toList.mp hp)
    · rw [hkinds, if_neg (Ne.symm (hb.other h ht)), List.append_nil]
      exact hb.atPoint t (h.symm.subset (.tail _ ht)) (hbook _ hopen).1
  · intro cid hopen
    obtain ⟨hopenb, hsome⟩ := hbook cid hopen
    by_cases hc : cid = task.cid
    · obtain ⟨point, hp⟩ := Option.ne_none_iff_exists'.mp (hsome hc)
      exact ⟨point, hc ▸ hpoint point hp⟩
    · rw [hkinds, if_neg (Ne.symm hc), List.append_nil]
      exact hb.openTrace cid hopenb

/-- The task moves without emitting, or ends, and its order may leave the book. -/
theorem Consistent.quiet {task : LifecycleTask} (next : Option LifecyclePoint)
    (hb : Consistent b) (h : b.lifecycleTasks.Perm (task :: rest))
    (hvenue : c.venueIdByOrder = b.venueIdByOrder)
    (hbook : ∀ cid, cid ∈ c.openOrders → cid ∈ b.openOrders)
    (htasks : c.lifecycleTasks = (next.toList.map fun point => { task with point }) ++ rest)
    (hevents : c.events = b.events)
    (hnext : ∀ point ∈ next, LifecyclePoint.trace point = LifecyclePoint.trace task.point) :
    Consistent c := by
  have hcount := taskCount_le next h htasks
  refine ⟨fun cid => (hcount cid).trans (hb.single cid), ?_, ?_, ?_⟩
  · intro cid hcid
    rw [hvenue] at hcid
    obtain ⟨hclosed, htasks0, hkinds0⟩ := hb.fresh cid hcid
    exact ⟨fun hopen => hclosed (hbook cid hopen), by have := hcount cid; omega,
      by rw [hevents, hkinds0]⟩
  · intro t ht hopen
    rw [hevents]
    rw [htasks, List.mem_append] at ht
    rcases ht with ht | ht
    · obtain ⟨point, hp, rfl⟩ := List.mem_map.mp ht
      rw [hnext point (Option.mem_toList.mp hp)]
      exact hb.atPoint task (h.symm.subset (.head _)) (hbook _ hopen)
    · exact hb.atPoint t (h.symm.subset (.tail _ ht)) (hbook _ hopen)
  · intro cid hopen
    rw [hevents]
    exact hb.openTrace cid (hbook cid hopen)

theorem Consistent.segment (hb : Consistent b) (h : Segment cfg env rest b c) : Consistent c := by
  cases h with
  | exit task h => exact hb.quiet none h rfl (fun _ => id) rfl rfl (by simp)
  | ackSleep order venueId h =>
    exact hb.quiet (some .ackSleep) h rfl (fun _ => id) rfl rfl (by simp [LifecyclePoint.trace])
  | submitted order venueId point hp h ho =>
    refine hb.emit (some .acceptSleep) h ho rfl rfl (fun _ hc => ⟨hc, by simp⟩) rfl rfl ?_
    rcases hp with rfl | rfl <;> simp [LifecyclePoint.trace, OrderEvent.plain]
  | accepted order venueId h ho =>
    exact hb.emit (some .fillSleep) h ho rfl rfl (fun _ hc => ⟨hc, by simp⟩) rfl rfl
      (by simp [LifecyclePoint.trace, OrderEvent.plain])
  | filled order venueId fill h ho hf =>
    refine hb.emit none h ho rfl rfl ?_ rfl rfl (by simp)
    intro cid hc
    obtain ⟨hne, hopen⟩ := (Dict.mem_erase _ _ _).mp hc
    exact ⟨hopen, fun heq => absurd heq hne⟩
  | lost order venueId e h ho hf =>
    exact hb.quiet none h rfl (fun cid hc => ((Dict.mem_erase _ _ _).mp hc).2) rfl rfl
      (by simp)

theorem Consistent.tracesLegal_emit {task : LifecycleTask} {e : OrderEvent} (hb : Consistent b)
    (h : b.lifecycleTasks.Perm (task :: rest)) (ho : task.cid ∈ b.openOrders)
    (he : e.val.clientOrderId = task.cid) (hevents : c.events = b.events ++ [.order e])
    (hlegal : LegalTrace (LifecyclePoint.trace task.point ++ [e.val.kind])) :
    TracesLegal c ↔ TracesLegal b := by
  have hat := hb.atPoint task (h.symm.subset (.head _)) ho
  refine tracesLegal_congr task.cid ?_ ?_
  · intro other hother
    rw [hevents, kindsOf_append, kindsOf_order, he, if_neg (Ne.symm hother), List.append_nil]
  · rw [hevents, kindsOf_append, kindsOf_order, he, if_pos rfl, hat]
    exact iff_of_true hlegal (LifecyclePoint.legalTrace _)

/-- Lifecycle tasks emit in the order of the table. -/
theorem Consistent.tracesLegal_segment (hb : Consistent b) (h : Segment cfg env rest b c) :
    TracesLegal c ↔ TracesLegal b := by
  cases h with
  | submitted order venueId point hp h ho =>
    exact hb.tracesLegal_emit h ho rfl rfl (by rcases hp with rfl | rfl <;> rfl)
  | accepted order venueId h ho => exact hb.tracesLegal_emit h ho rfl rfl rfl
  | filled order venueId fill h ho hf => exact hb.tracesLegal_emit h ho rfl rfl rfl
  | _ => exact Iff.rfl

end Segments

section Steps

variable {cfg : PaperConfig} {b b' : PaperBroker}

theorem Consistent.booked (hb : Consistent b) {order : Order}
    (hfresh : order.val.clientOrderId ∉ b.venueIdByOrder) : Consistent (b.booked order) := by
  obtain ⟨-, hnone, hkinds⟩ := hb.fresh _ hfresh
  refine ⟨?_, ?_, ?_, ?_⟩
  · intro cid
    rw [taskCount_booked]
    by_cases hc : order.val.clientOrderId = cid
    · rw [if_pos hc, ← hc, hnone]
    · rw [if_neg hc]
      exact hb.single cid
  · intro cid hcid
    simp only [PaperBroker.booked, Dict.mem_set, not_or] at hcid
    obtain ⟨hclosed, hnone, hkinds⟩ := hb.fresh cid hcid.2
    rw [taskCount_booked, if_neg (Ne.symm hcid.1)]
    exact ⟨by simp [PaperBroker.booked, hcid.1, hclosed], hnone, hkinds⟩
  · intro task ht hopen
    simp only [PaperBroker.booked, List.mem_append, List.mem_singleton] at ht
    rcases ht with ht | rfl
    · have hne : task.cid ≠ order.val.clientOrderId := by
        intro hc
        have hpos : 0 < taskCount order.val.clientOrderId b :=
          List.countP_pos_iff.mpr ⟨task, ht, by simpa using hc⟩
        omega
      simp only [PaperBroker.booked, Dict.mem_set, hne, false_or] at hopen
      exact hb.atPoint task ht hopen
    · exact hkinds
  · intro cid hopen
    simp only [PaperBroker.booked, Dict.mem_set] at hopen
    rcases hopen with rfl | hopen
    · exact ⟨.created, hkinds⟩
    · exact hb.openTrace cid hopen

theorem kindsOf_canceled (cid : ClientOrderId) (now : Utc) (other : ClientOrderId) :
    kindsOf other (b.canceled cid now).events =
      kindsOf other b.events ++ if cid = other then [.canceled] else [] := by
  simp [canceled, OrderEvent.withReason]

theorem Consistent.canceled (hb : Consistent b) {cid : ClientOrderId} (now : Utc)
    (ho : cid ∈ b.openOrders) : Consistent (b.canceled cid now) := by
  have hkinds (other : ClientOrderId) (hother : other ≠ cid) :
      kindsOf other (b.canceled cid now).events = kindsOf other b.events := by
    rw [kindsOf_canceled, if_neg (Ne.symm hother), List.append_nil]
  refine ⟨hb.single, ?_, ?_, ?_⟩
  · intro other hvenue
    obtain ⟨hclosed, hnone, hempty⟩ := hb.fresh other hvenue
    have hne : other ≠ cid := fun hc => hclosed (hc ▸ ho)
    exact ⟨fun hmem => hclosed ((Dict.mem_erase _ _ _).mp hmem).2, hnone,
      (hkinds other hne).trans hempty⟩
  · intro task ht hopen
    obtain ⟨hne, hopen⟩ := (Dict.mem_erase _ _ _).mp hopen
    rw [hkinds _ hne]
    exact hb.atPoint task ht hopen
  · intro other hopen
    obtain ⟨hne, hopen⟩ := (Dict.mem_erase _ _ _).mp hopen
    rw [hkinds _ hne]
    exact hb.openTrace other hopen

theorem Consistent.step {a : Action} (hb : Consistent b) (ha : FreshSubmit b a)
    (h : PaperBroker.step cfg b a = some b') : Consistent b' := by
  cases a with
  | connect now =>
    cases h
    refine ⟨hb.single, ?_, ?_, ?_⟩
    · intro cid hcid
      simpa [connect, taskCount] using hb.fresh cid hcid
    · intro task ht ho
      simpa [connect] using hb.atPoint task ht ho
    · intro cid ho
      simpa [connect] using hb.openTrace cid ho
  | disconnect now =>
    cases h
    refine ⟨fun _ => Nat.zero_le 1, ?_, fun task ht _ => (by cases ht),
      ?_⟩
    · intro cid hcid
      obtain ⟨hclosed, -, hempty⟩ := hb.fresh cid hcid
      exact ⟨hclosed, rfl, by simpa [disconnect] using hempty⟩
    · intro cid ho
      simpa [disconnect] using hb.openTrace cid ho
  | submit order =>
    rcases step_submit_cases h with ⟨rfl, -⟩ | ⟨rfl, hconn, -⟩
    · exact hb
    · exact hb.booked (ha hconn)
  | cancel cid now =>
    rcases step_cancel_cases h with ⟨rfl, -⟩ | ⟨rfl, ho⟩
    · exact hb
    · exact hb.canceled now ho
  | replace cid new =>
    rcases step_replace_cases h with rfl | ⟨original, replaced, ho, -, rfl⟩
    · exact hb
    · have hbook (c : ClientOrderId) : c ∈ b.openOrders.set cid replaced ↔ c ∈ b.openOrders := by
        rw [Dict.mem_set, or_iff_right_iff_imp]
        rintro rfl
        exact Dict.mem_of_get? ho
      refine ⟨hb.single, ?_, ?_, ?_⟩
      · intro c hc
        obtain ⟨hclosed, hrest⟩ := hb.fresh c hc
        exact ⟨fun hmem => hclosed ((hbook c).mp hmem), hrest⟩
      · intro task ht hopen
        exact hb.atPoint task ht ((hbook _).mp hopen)
      · intro c hopen
        exact hb.openTrace c ((hbook c).mp hopen)
  | lifecycle i env => exact lifecycle_invariant (fun _ _ _ => Consistent.segment) hb h

/-- A step keeps all traces legal exactly when it cancels no order before its SUBMITTED. -/
theorem Consistent.tracesLegal_step {a : Action} (hb : Consistent b)
    (h : PaperBroker.step cfg b a = some b') :
    TracesLegal b' ↔ TracesLegal b ∧ CancelAfterSubmitted b a := by
  cases a with
  | connect now => cases h; simp [TracesLegal, CancelAfterSubmitted, connect]
  | disconnect now => cases h; simp [TracesLegal, CancelAfterSubmitted, disconnect]
  | submit order =>
    rcases step_submit_cases h with ⟨rfl, -⟩ | ⟨rfl, -, -⟩ <;>
      simp [TracesLegal, CancelAfterSubmitted, PaperBroker.booked]
  | cancel cid now =>
    rcases step_cancel_cases h with ⟨rfl, hclosed⟩ | ⟨rfl, ho⟩
    · simp [CancelAfterSubmitted, hclosed]
    · obtain ⟨point, hpoint⟩ := hb.openTrace cid ho
      simp only [CancelAfterSubmitted, ho, forall_const]
      rw [hpoint, ← LifecyclePoint.legalTrace_canceled_iff]
      constructor
      · intro hlegal
        have hcid := hlegal cid
        rw [kindsOf_canceled, if_pos rfl, hpoint] at hcid
        refine ⟨?_, hcid⟩
        intro other
        have hother := hlegal other
        rw [kindsOf_canceled] at hother
        exact hother.of_append
      · rintro ⟨hlegal, hcid⟩ other
        rw [kindsOf_canceled]
        by_cases hc : cid = other
        · rw [if_pos hc, ← hc, hpoint]
          exact hcid
        · rw [if_neg hc, List.append_nil]
          exact hlegal other
  | replace cid new =>
    rcases step_replace_cases h with rfl | ⟨original, replaced, -, -, rfl⟩ <;>
      simp [TracesLegal, CancelAfterSubmitted]
  | lifecycle i env =>
    have hkeep : Consistent b' ∧ (TracesLegal b' ↔ TracesLegal b) :=
      lifecycle_invariant (I := fun c => Consistent c ∧ (TracesLegal c ↔ TracesLegal b))
        (fun _ _ _ hc hseg => ⟨hc.1.segment hseg, (hc.1.tracesLegal_segment hseg).trans hc.2⟩)
        ⟨hb, Iff.rfl⟩ h
    simp [CancelAfterSubmitted, hkeep.2]

end Steps

theorem Consistent.init : Consistent PaperBroker.init where
  single _ := Nat.zero_le 1
  fresh cid _ := ⟨Dict.notMem_empty cid, rfl, rfl⟩
  atPoint _ ht := by cases ht
  openTrace cid ho := absurd ho (Dict.notMem_empty cid)

/-- In a run that submits every id once, the traces follow the transition table exactly when
no open order is canceled before its SUBMITTED event. -/
theorem paper_traces_legal_iff (cfg : PaperConfig) (as : List Action) (b : PaperBroker)
    (hfresh : Along (step cfg) FreshSubmit init as) (hrun : run (step cfg) init as = some b) :
    (∀ cid, LegalTrace (kindsOf cid b.events)) ↔
      Along (step cfg) CancelAfterSubmitted init as := by
  have hiff := run_iff_along (P := TracesLegal) (fun _ _ _ hb ha => hb.step ha)
    (fun _ _ _ hb _ => hb.tracesLegal_step) Consistent.init hfresh hrun
  have hinit : TracesLegal PaperBroker.init := fun _ => legalTrace_nil
  rw [and_iff_right hinit] at hiff
  exact hiff

/-- An order is canceled before its lifecycle task has run. -/
def earlyCancelRun : List Action :=
  [.connect ⟨0⟩, .submit (sampleOrder 1), .cancel 1 ⟨1⟩]

theorem not_paper_traces_legal :
    ¬ ∀ (cfg : PaperConfig) (as : List Action) (b : PaperBroker),
      Along (step cfg) FreshSubmit init as → run (step cfg) init as = some b →
        ∀ cid, LegalTrace (kindsOf cid b.events) := by
  intro h
  have htrace : ((run (step {}) init earlyCancelRun).map fun b => kindsOf 1 b.events) =
      some [.canceled] := by decide +kernel
  obtain ⟨b, hrun, hkinds⟩ := Option.map_eq_some_iff.mp htrace
  have hlegal := h {} earlyCancelRun b (by decide +kernel) hrun 1
  rw [hkinds] at hlegal
  exact absurd hlegal (by decide)

/-- The order is canceled between its SUBMITTED and its ACCEPTED event. -/
def lateCancelRun : List Action :=
  [.connect ⟨0⟩, .submit (sampleOrder 1), .lifecycle 0 ⟨⟨1⟩, .ok 100, false⟩,
    .cancel 1 ⟨2⟩, .lifecycle 0 ⟨⟨3⟩, .ok 100, false⟩]

theorem paper_traces_legal_lateCancelRun : ∃ b,
    run (step { acceptLatency := 1 }) init lateCancelRun = some b ∧
      ∀ cid, LegalTrace (kindsOf cid b.events) := by
  have henabled : (run (step { acceptLatency := 1 }) init lateCancelRun).isSome := by
    decide +kernel
  obtain ⟨b, hrun⟩ := Option.isSome_iff_exists.mp henabled
  exact ⟨b, hrun, (paper_traces_legal_iff _ lateCancelRun b (by decide +kernel) hrun).mpr
    (by decide +kernel)⟩

end Blive.PaperBroker
