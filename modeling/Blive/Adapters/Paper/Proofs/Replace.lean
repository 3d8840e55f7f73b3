import Blive.Adapters.Paper.Proofs.Step

/-!
# Replacements and later fills

`replace` swaps the book's copy of an order; the lifecycle task holds the copy it was started
with and fills that one. A fill therefore has the side, the instrument and the id that were
submitted, and the quantity and commission of the book's version exactly when the book still
holds the submitted quantity.
-/

namespace Blive.PaperBroker

open Transition

/-- Every fill emitted between the two states has the quantity, and the commission on it, of
the version of its order that the book held, and is otherwise the order as submitted. -/
def FillsHonourBook (cfg : PaperConfig) (past : List Action) (b b' : PaperBroker) : Prop :=
  ∀ emitted, b'.events = b.events ++ emitted → ∀ cid, ∀ fill ∈ fillsOf cid emitted,
    ∃ version submitted : Order, b.openOrders.get? cid = some version ∧
      .submit submitted ∈ past ∧ submitted.val.clientOrderId = cid ∧
      fill.val.quantity = version.val.quantity ∧
      fill.val.commission = cfg.commissionPerShare * version.val.quantity ∧
      fill.val.side = submitted.val.side ∧ fill.val.instrument = submitted.val.instrument ∧
      fill.val.clientOrderId = cid

/-- When a fill step that can build its fill is due, the book holds the submitted quantity:
no replacement changed it, or a later one restored it. -/
def QuantityKept (cfg : PaperConfig) (b : PaperBroker) : Action → Prop
  | .lifecycle i env => ∀ task ∈ b.lifecycleTasks[i]?, ∀ version ∈ b.openOrders.get? task.cid,
      fillDue cfg task env.sleepRaises → PricePositive env.price → 0 ≤ cfg.commissionPerShare →
        version.val.quantity = task.order.val.quantity
  | _ => True

instance (cfg : PaperConfig) (b : PaperBroker) : (a : Action) → Decidable (QuantityKept cfg b a)
  | .lifecycle _ _ => inferInstanceAs (Decidable (∀ task ∈ _, ∀ version ∈ _, _ → _ → _ → _))
  | .connect _ | .disconnect _ | .submit _ | .cancel _ _ | .replace _ _ => isTrue trivial

/-- Every running task carries an order that an action of the run submitted. -/
def TasksSubmitted (past : List Action) (b : PaperBroker) : Prop :=
  ∀ task ∈ b.lifecycleTasks, .submit task.order ∈ past

section Step

variable {cfg : PaperConfig} {past : List Action} {b b' : PaperBroker}

theorem TasksSubmitted.segment {env : LifecycleEnv} {rest : List LifecycleTask}
    {c : PaperBroker} (hb : TasksSubmitted past b) (h : Segment cfg env rest b c) :
    TasksSubmitted past c := by
  have hold {task : LifecycleTask} (hperm : b.lifecycleTasks.Perm (task :: rest)) :
      ∀ t ∈ task :: rest, .submit t.order ∈ past := fun t ht => hb t (hperm.symm.subset ht)
  have hmoved {order : Order} {venueId : String} {point : LifecyclePoint}
      (hperm : b.lifecycleTasks.Perm (⟨order, venueId, point⟩ :: rest)) (next : LifecyclePoint) :
      ∀ t ∈ (⟨order, venueId, next⟩ : LifecycleTask) :: rest, .submit t.order ∈ past := by
    intro t ht
    rcases List.mem_cons.mp ht with rfl | ht
    · exact hold hperm ⟨order, venueId, point⟩ (.head _)
    · exact hold hperm t (.tail _ ht)
  cases h with
  | exit task hperm =>
    intro t ht
    exact hold hperm t (.tail _ ht)
  | ackSleep order venueId hperm => exact hmoved hperm .ackSleep
  | submitted order venueId point hp hperm ho => exact hmoved hperm .acceptSleep
  | accepted order venueId hperm ho => exact hmoved hperm .fillSleep
  | filled order venueId fill hperm ho hf =>
    intro t ht
    exact hold hperm t (.tail _ ht)
  | lost order venueId e hperm ho hf =>
    intro t ht
    exact hold hperm t (.tail _ ht)

theorem TasksSubmitted.mono (hb : TasksSubmitted past b) (a : Action) :
    TasksSubmitted (past ++ [a]) b :=
  fun task ht => List.mem_append_left _ (hb task ht)

theorem TasksSubmitted.step {a : Action} (hb : TasksSubmitted past b)
    (h : PaperBroker.step cfg b a = some b') : TasksSubmitted (past ++ [a]) b' := by
  cases a with
  | connect now => cases h; exact hb.mono _
  | disconnect now =>
    cases h
    intro task ht
    cases ht
  | submit order =>
    rcases step_submit_cases h with ⟨rfl, -⟩ | ⟨rfl, -, -⟩
    · exact hb.mono _
    · intro task ht
      rcases List.mem_append.mp ht with ht | ht
      · exact hb.mono _ task ht
      · rw [List.mem_singleton.mp ht]
        exact List.mem_append_right _ (.head _)
  | cancel cid now =>
    rcases step_cancel_cases h with ⟨rfl, -⟩ | ⟨rfl, -⟩ <;> exact hb.mono _
  | replace cid new =>
    rcases step_replace_cases h with rfl | ⟨original, replaced, -, -, rfl⟩ <;> exact hb.mono _
  | lifecycle i env => exact lifecycle_invariant (fun _ _ _ => TasksSubmitted.segment) (hb.mono _) h

theorem tasksSubmitted_of_run (hrun : run (step cfg) init past = some b) :
    TasksSubmitted past b := by
  have hinit : TasksSubmitted [] init := fun task ht => by cases ht
  exact run_invariant_history (fun _ _ _ _ hb h => hb.step h) hinit hrun

/-- A step that resumes no task emits no fill. -/
theorem fillsOf_emitted_eq_nil {a : Action} (h : step cfg b a = some b')
    (ha : ∀ i env, a ≠ .lifecycle i env) {emitted : List BrokerEvent}
    (hemitted : b'.events = b.events ++ emitted) (cid : ClientOrderId) :
    fillsOf cid emitted = [] := by
  have hquiet {c : PaperBroker} (hc : c.events = b.events)
      (hemitted : c.events = b.events ++ emitted) : emitted = [] :=
    List.self_eq_append_right.mp (hc.symm.trans hemitted)
  cases a with
  | connect now =>
    cases h
    rw [← List.append_cancel_left hemitted]
    rfl
  | disconnect now =>
    cases h
    rw [← List.append_cancel_left hemitted]
    rfl
  | submit order =>
    rcases step_submit_cases h with ⟨rfl, -⟩ | ⟨rfl, -, -⟩ <;> simp [hquiet rfl hemitted]
  | cancel c now =>
    rcases step_cancel_cases h with ⟨rfl, -⟩ | ⟨rfl, -⟩
    · simp [hquiet rfl hemitted]
    · rw [← List.append_cancel_left hemitted, fillsOf_order]
      split <;> rfl
  | replace c new =>
    rcases step_replace_cases h with rfl | ⟨original, replaced, -, -, rfl⟩ <;>
      simp [hquiet rfl hemitted]
  | lifecycle i env => exact absurd rfl (ha i env)

/-- The fills a resumption emits: the one of its fill step, if it gets there. -/
theorem mem_fillsOf_emitted_iff {env : LifecycleEnv} {task : LifecycleTask}
    {outcome : Option (Except PyError Fill)} (heffects : Effects env task outcome b b')
    {emitted : List BrokerEvent} (hemitted : b'.events = b.events ++ emitted)
    {cid : ClientOrderId} {fill : Fill} :
    fill ∈ fillsOf cid emitted ↔ cid = task.cid ∧ outcome = some (.ok fill) := by
  obtain ⟨-, progress, hprogress, hevents⟩ := heffects
  have hsplit : emitted = progress ++ filledEvents env task outcome := by
    rw [hevents, List.append_assoc] at hemitted
    exact (List.append_cancel_left hemitted).symm
  rw [hsplit, fillsOf_append, hprogress.fillsOf_eq, List.nil_append]
  rcases outcome with _ | e | filled
  · simp [filledEvents]
  · simp [filledEvents]
  · by_cases hc : task.cid = cid <;> simp [filledEvents, OrderEvent.withFill, hc, eq_comm]
    intro heq
    exact absurd heq.symm hc

theorem fillsHonourBook_iff {a : Action} (hb : TasksSubmitted past b)
    (h : step cfg b a = some b') : FillsHonourBook cfg past b b' ↔ QuantityKept cfg b a := by
  cases a with
  | lifecycle i env =>
    obtain ⟨task, htask, rfl⟩ := step_lifecycle_eq_some.mp h
    have heffects := simulateLifecycle_effects cfg env task b
    set b' := settle (b.lifecycleTasks.eraseIdx i) task (simulateLifecycle cfg env task b)
    have hsub := hb task (List.mem_of_getElem? htask)
    simp only [QuantityKept, htask, Option.mem_def, Option.some.injEq, forall_eq']
    constructor
    · intro hhonour version hversion hdue hprice hrate
      obtain ⟨fill, hfill⟩ := computeFill_ok_iff.mpr ⟨hprice, hrate⟩
      have hopen : task.cid ∈ b.openOrders := Dict.mem_of_get? hversion
      rw [if_pos ⟨hopen, hdue⟩, hfill] at heffects
      obtain ⟨-, progress, -, hevents⟩ := id heffects
      rw [List.append_assoc] at hevents
      have hmem := (mem_fillsOf_emitted_iff heffects hevents).mpr ⟨rfl, rfl⟩
      obtain ⟨version', submitted, hversion', -, -, hquantity, -⟩ :=
        hhonour _ hevents task.cid fill hmem
      obtain ⟨price, hval⟩ := computeFill_val hfill
      rw [hversion, Option.some.injEq] at hversion'
      rw [hversion', ← hquantity, hval]
      rfl
    · intro hkept emitted hemitted cid fill hfill
      obtain ⟨rfl, houtcome⟩ := (mem_fillsOf_emitted_iff heffects hemitted).mp hfill
      by_cases hreach : task.cid ∈ b.openOrders ∧ fillDue cfg task env.sleepRaises
      · rw [if_pos hreach, Option.some.injEq] at houtcome
        obtain ⟨version, hversion⟩ := Dict.exists_get?_of_mem hreach.1
        obtain ⟨hprice, hrate⟩ := computeFill_ok_iff.mp ⟨fill, houtcome⟩
        obtain ⟨price, hval⟩ := computeFill_val houtcome
        have hquantity := hkept version hversion hreach.2 hprice hrate
        refine ⟨version, task.order, hversion, hsub, rfl, ?_, ?_, ?_, ?_, ?_⟩ <;>
          simp [hval, fillFields, hquantity]
      · rw [if_neg hreach] at houtcome
        cases houtcome
  | _ =>
    refine iff_of_true ?_ trivial
    intro emitted hemitted cid fill hfill
    rw [fillsOf_emitted_eq_nil h (by simp) hemitted] at hfill
    cases hfill

end Step

/-- Each fill of a run honours the version the book held when it was filled, exactly when the
book holds the submitted quantity whenever a fill is due. -/
theorem fills_honour_book_iff (cfg : PaperConfig) (as : List Action) :
    (∀ past a future b b', as = past ++ a :: future → run (step cfg) init past = some b →
        step cfg b a = some b' → FillsHonourBook cfg past b b') ↔
      Along (step cfg) (QuantityKept cfg) init as := by
  rw [along_iff_prefixes]
  constructor
  · intro hhonour past a future b has hrun
    cases hstep : step cfg b a with
    | none =>
      cases a with
      | lifecycle i env =>
        intro task htask
        have hsome : step cfg b (.lifecycle i env) = some _ :=
          step_lifecycle_eq_some.mpr ⟨task, htask, rfl⟩
        rw [hstep] at hsome
        cases hsome
      | _ => trivial
    | some b' =>
      exact (fillsHonourBook_iff (tasksSubmitted_of_run hrun) hstep).mp
        (hhonour past a future b b' has hrun hstep)
  · intro hkept past a future b b' has hrun hstep
    exact (fillsHonourBook_iff (tasksSubmitted_of_run hrun) hstep).mpr
      (hkept past a future b has hrun)

/-- A market order for ten shares is replaced by one for twenty. -/
def replacedRun : List Action :=
  [.connect ⟨0⟩, .submit (sampleOrder 1),
    .replace 1 ⟨{ quantity := some 20 }, by decide +kernel⟩]

theorem not_fills_honour_book :
    ¬ ∀ (cfg : PaperConfig) (as past : List Action) (a : Action) (future : List Action)
      (b b' : PaperBroker), as = past ++ a :: future → run (step cfg) init past = some b →
        step cfg b a = some b' → FillsHonourBook cfg past b b' := by
  intro h
  have hfilled : ((run (step {}) init replacedRun).any fun b =>
      (step {} b (.lifecycle 0 ⟨⟨1⟩, .ok 100, false⟩)).isSome &&
        !decide (QuantityKept {} b (.lifecycle 0 ⟨⟨1⟩, .ok 100, false⟩))) = true := by
    decide +kernel
  obtain ⟨b, hrun, hlast⟩ := (Option.any_eq_true _ _).mp hfilled
  rw [Bool.and_eq_true, Bool.not_eq_true', decide_eq_false_iff_not] at hlast
  obtain ⟨b', hstep⟩ := Option.isSome_iff_exists.mp hlast.1
  exact hlast.2 ((fillsHonourBook_iff (tasksSubmitted_of_run hrun) hstep).mp
    (h {} _ replacedRun _ [] b b' rfl hrun hstep))

end Blive.PaperBroker
