import Blive.Adapters.Paper.Proofs.Step

/-!
# Re-submission and exactly-once execution

`submit` decides whether it has seen an id by looking into the book of open orders, which an
order leaves when it is filled or canceled. The venue-id map, which is never cleared, is the
record of the ids submitted so far. A run executes every id at most once, and every
re-submission is a no-op, exactly when ids are re-submitted only while their order is open.
-/

namespace Blive.PaperBroker

open Transition

/-- The fills emitted for `cid` so far. -/
def fillCount (cid : ClientOrderId) (b : PaperBroker) : Nat := (fillsOf cid b.events).length

/-- The lifecycle tasks of `cid` that are still running. -/
def taskCount (cid : ClientOrderId) (b : PaperBroker) : Nat :=
  b.lifecycleTasks.countP fun task => task.cid = cid

/-- No id has been filled twice, and none can be: a running task stands for the one fill its
id may still get, and an id that was never submitted has neither. -/
structure FilledOnce (b : PaperBroker) : Prop where
  unique : ∀ cid, fillCount cid b + taskCount cid b ≤ 1
  fresh : ∀ cid, cid ∉ b.venueIdByOrder → fillCount cid b = 0 ∧ taskCount cid b = 0

/-- A submission of an id that was submitted before changes neither the book nor the venue
ids, and no continuation can tell that it took place. -/
def ResubmitIsNoop (cfg : PaperConfig) (b : PaperBroker) : Action → Prop
  | .submit order => order.val.clientOrderId ∈ b.venueIdByOrder →
      ∀ b', step cfg b (.submit order) = some b' →
        b'.openOrders = b.openOrders ∧ b'.venueIdByOrder = b.venueIdByOrder ∧
          ∀ future, (run (step cfg) b' future).map events = (run (step cfg) b future).map events
  | _ => True

/-- An id is re-submitted over a connection only while its order is open. -/
def ResubmitsOnlyOpen (b : PaperBroker) : Action → Prop
  | .submit order => order.val.clientOrderId ∈ b.venueIdByOrder → b.connected = true →
      order.val.clientOrderId ∈ b.openOrders
  | _ => True

instance (b : PaperBroker) : (a : Action) → Decidable (ResubmitsOnlyOpen b a)
  | .submit _ => inferInstanceAs (Decidable (_ → _ → _))
  | .connect _ | .disconnect _ | .cancel _ _ | .replace _ _ | .lifecycle _ _ => isTrue trivial

section Counting

variable {cfg : PaperConfig} {env : LifecycleEnv} {rest : List LifecycleTask}

theorem taskCount_eq_of_perm {b : PaperBroker} {task : LifecycleTask}
    (h : b.lifecycleTasks.Perm (task :: rest)) (cid : ClientOrderId) :
    taskCount cid b = rest.countP (fun t => t.cid = cid) + if task.cid = cid then 1 else 0 := by
  unfold taskCount
  rw [h.countP_eq, List.countP_cons]
  simp

/-- A segment leaves the venue ids alone and never adds to fills and tasks taken together. -/
theorem Segment.counts {b c : PaperBroker} (h : Segment cfg env rest b c) :
    c.venueIdByOrder = b.venueIdByOrder ∧
      ∀ cid, fillCount cid c + taskCount cid c ≤ fillCount cid b + taskCount cid b := by
  cases h with
  | exit task h =>
    refine ⟨rfl, ?_⟩
    intro cid
    rw [taskCount_eq_of_perm h]
    simp only [fillCount, taskCount]
    omega
  | ackSleep order venueId h =>
    refine ⟨rfl, ?_⟩
    intro cid
    rw [taskCount_eq_of_perm h, taskCount_eq_of_perm (.refl _)]
    exact Nat.le_refl _
  | submitted order venueId point hp h ho =>
    refine ⟨rfl, ?_⟩
    intro cid
    rw [taskCount_eq_of_perm h, taskCount_eq_of_perm (.refl _)]
    by_cases hc : order.val.clientOrderId = cid <;>
      simp [fillCount, OrderEvent.plain, LifecycleTask.cid, hc]
  | accepted order venueId h ho =>
    refine ⟨rfl, ?_⟩
    intro cid
    rw [taskCount_eq_of_perm h, taskCount_eq_of_perm (.refl _)]
    by_cases hc : order.val.clientOrderId = cid <;>
      simp [fillCount, OrderEvent.plain, LifecycleTask.cid, hc]
  | filled order venueId fill h ho hf =>
    refine ⟨rfl, ?_⟩
    intro cid
    rw [taskCount_eq_of_perm h]
    by_cases hc : order.val.clientOrderId = cid <;>
      simp [fillCount, taskCount, OrderEvent.withFill, LifecycleTask.cid, hc]
    omega
  | lost order venueId e h ho hf =>
    refine ⟨rfl, ?_⟩
    intro cid
    rw [taskCount_eq_of_perm h]
    simp only [fillCount, taskCount]
    omega

end Counting

theorem FilledOnce.segment {cfg : PaperConfig} {env : LifecycleEnv} {rest : List LifecycleTask}
    {b c : PaperBroker} (hb : FilledOnce b) (h : Segment cfg env rest b c) : FilledOnce c := by
  obtain ⟨hvenue, hcount⟩ := h.counts
  refine ⟨fun cid => (hcount cid).trans (hb.unique cid), ?_⟩
  intro cid hcid
  rw [hvenue] at hcid
  have hle := hcount cid
  obtain ⟨hfilled, htasks⟩ := hb.fresh cid hcid
  omega

theorem taskCount_booked (b : PaperBroker) (order : Order) (cid : ClientOrderId) :
    taskCount cid (b.booked order) =
      taskCount cid b + if order.val.clientOrderId = cid then 1 else 0 := by
  simp [taskCount, PaperBroker.booked, List.countP_append, List.countP_cons, LifecycleTask.cid]

theorem FilledOnce.booked {b : PaperBroker} (hb : FilledOnce b) {order : Order}
    (hfresh : order.val.clientOrderId ∉ b.venueIdByOrder) : FilledOnce (b.booked order) := by
  refine ⟨?_, ?_⟩
  · intro cid
    rw [taskCount_booked]
    by_cases hc : order.val.clientOrderId = cid
    · obtain ⟨hfilled, hnone⟩ := hb.fresh cid (hc ▸ hfresh)
      simp only [fillCount, PaperBroker.booked] at hfilled ⊢
      simp [hfilled, hnone, hc]
    · rw [if_neg hc]
      exact hb.unique cid
  · intro cid hcid
    simp only [PaperBroker.booked, Dict.mem_set, not_or] at hcid
    rw [taskCount_booked, if_neg (Ne.symm hcid.1)]
    exact hb.fresh cid hcid.2

/-- A step that re-submits open orders only keeps the invariant. -/
theorem FilledOnce.step {cfg : PaperConfig} {b b' : PaperBroker} {a : Action}
    (hb : FilledOnce b) (ha : ResubmitsOnlyOpen b a)
    (h : PaperBroker.step cfg b a = some b') : FilledOnce b' := by
  cases a with
  | connect now =>
    cases h
    exact ⟨fun cid => by simpa [fillCount, taskCount, connect] using hb.unique cid,
      fun cid hcid => by simpa [fillCount, taskCount, connect] using hb.fresh cid hcid⟩
  | disconnect now =>
    cases h
    refine ⟨?_, ?_⟩
    · intro cid
      have := hb.unique cid
      simp only [fillCount, taskCount, disconnect, put_events, put_lifecycleTasks,
        fillsOf_append, fillsOf_connection, List.append_nil, List.countP_nil] at this ⊢
      omega
    · intro cid hcid
      simpa [fillCount, taskCount, disconnect] using (hb.fresh cid hcid).1
  | submit order =>
    rcases step_submit_cases h with ⟨rfl, -⟩ | ⟨rfl, hconn, hnot⟩
    · exact hb
    · exact hb.booked fun hmem => hnot (ha hmem hconn)
  | cancel cid now =>
    rcases step_cancel_cases h with ⟨rfl, -⟩ | ⟨rfl, -⟩
    · exact hb
    · have hcount (c : ClientOrderId) : fillCount c (b.canceled cid now) = fillCount c b := by
        by_cases hc : cid = c <;> simp [fillCount, canceled, OrderEvent.withReason, hc]
      refine ⟨?_, ?_⟩
      · intro c
        rw [hcount]
        exact hb.unique c
      · intro c hc
        rw [hcount]
        exact hb.fresh c hc
  | replace cid new =>
    rcases step_replace_cases h with rfl | ⟨original, replaced, -, -, rfl⟩
    · exact hb
    · exact ⟨hb.unique, hb.fresh⟩
  | lifecycle i env => exact lifecycle_invariant (fun _ _ _ => FilledOnce.segment) hb h

theorem FilledOnce.init : FilledOnce PaperBroker.init :=
  ⟨fun _ => Nat.zero_le 1, fun _ _ => ⟨rfl, rfl⟩⟩

/-- A re-submission that books its order shows in the book. -/
theorem resubmitIsNoop_iff {cfg : PaperConfig} (b : PaperBroker) (a : Action) :
    ResubmitIsNoop cfg b a ↔ ResubmitsOnlyOpen b a := by
  cases a with
  | submit order =>
    constructor
    · intro h hmem hconn
      by_contra hnot
      obtain ⟨b', hstep⟩ : ∃ b', PaperBroker.step cfg b (.submit order) = some b' := ⟨_, rfl⟩
      have hbook := (h hmem b' hstep).1
      rcases step_submit_cases hstep with ⟨-, hdown | hopen⟩ | ⟨rfl, -, -⟩
      · simp [hconn] at hdown
      · exact hnot hopen
      · apply hnot
        rw [← hbook]
        simp [PaperBroker.booked]
    · intro h hmem b' hstep
      rcases step_submit_cases hstep with ⟨rfl, -⟩ | ⟨-, hconn, hnot⟩
      · exact ⟨rfl, rfl, fun _ => rfl⟩
      · exact absurd (h hmem hconn) hnot
  | _ => exact Iff.rfl

/-- Each open order has a venue id. -/
def OpenHasVenueId (b : PaperBroker) : Prop := ∀ cid ∈ b.openOrders, cid ∈ b.venueIdByOrder

theorem OpenHasVenueId.segment {cfg : PaperConfig} {env : LifecycleEnv}
    {rest : List LifecycleTask} {b c : PaperBroker} (hb : OpenHasVenueId b)
    (h : Segment cfg env rest b c) : OpenHasVenueId c := by
  intro cid hcid
  rw [h.counts.1]
  cases h with
  | filled order venueId fill h ho hf => exact hb cid ((Dict.mem_erase _ _ _).mp hcid).2
  | lost order venueId e h ho hf => exact hb cid ((Dict.mem_erase _ _ _).mp hcid).2
  | _ => exact hb cid hcid

theorem OpenHasVenueId.step {cfg : PaperConfig} {b b' : PaperBroker} {a : Action}
    (hb : OpenHasVenueId b) (h : PaperBroker.step cfg b a = some b') : OpenHasVenueId b' := by
  cases a with
  | connect now => cases h; exact hb
  | disconnect now => cases h; exact hb
  | submit order =>
    rcases step_submit_cases h with ⟨rfl, -⟩ | ⟨rfl, -, -⟩
    · exact hb
    · intro cid hcid
      simp only [PaperBroker.booked, Dict.mem_set] at hcid ⊢
      exact hcid.imp_right (hb cid)
  | cancel cid now =>
    rcases step_cancel_cases h with ⟨rfl, -⟩ | ⟨rfl, -⟩
    · exact hb
    · intro c hc
      exact hb c ((Dict.mem_erase _ _ _).mp hc).2
  | replace cid new =>
    rcases step_replace_cases h with rfl | ⟨original, replaced, ho, -, rfl⟩
    · exact hb
    · intro c hc
      rcases (Dict.mem_set _ _ _ _).mp hc with rfl | hc
      · exact hb c (Dict.mem_of_get? ho)
      · exact hb c hc
  | lifecycle i env => exact lifecycle_invariant (fun _ _ _ => OpenHasVenueId.segment) hb h

/-- The action is no submission of `cid` over a connection. -/
def SubmitsOther (cid : ClientOrderId) (b : PaperBroker) : Action → Prop
  | .submit order => b.connected = true → order.val.clientOrderId ≠ cid
  | _ => True

theorem notMem_venueIdByOrder_step {cfg : PaperConfig} {b b' : PaperBroker} {a : Action}
    (hb : OpenHasVenueId b) (h : step cfg b a = some b') (cid : ClientOrderId) :
    cid ∉ b'.venueIdByOrder ↔ cid ∉ b.venueIdByOrder ∧ SubmitsOther cid b a := by
  cases a with
  | connect now => cases h; simp [SubmitsOther, connect]
  | disconnect now => cases h; simp [SubmitsOther, disconnect]
  | submit order =>
    rcases step_submit_cases h with ⟨rfl, hdown | hopen⟩ | ⟨rfl, hconn, -⟩
    · simp [SubmitsOther, hdown]
    · simp only [SubmitsOther, iff_self_and]
      rintro hcid - rfl
      exact hcid (hb _ hopen)
    · simp [SubmitsOther, PaperBroker.booked, hconn, and_comm, eq_comm]
  | cancel c now =>
    rcases step_cancel_cases h with ⟨rfl, -⟩ | ⟨rfl, -⟩ <;> simp [SubmitsOther, canceled]
  | replace c new =>
    rcases step_replace_cases h with rfl | ⟨original, replaced, -, -, rfl⟩ <;> simp [SubmitsOther]
  | lifecycle i env =>
    have hvenue : b'.venueIdByOrder = b.venueIdByOrder :=
      lifecycle_invariant (I := fun c => c.venueIdByOrder = b.venueIdByOrder)
        (fun _ _ _ hc hseg => hseg.counts.1.trans hc) rfl h
    simp [SubmitsOther, hvenue]

/-- The venue-id map records the ids that a submission over a connection has named. -/
theorem notMem_venueIdByOrder_iff {cfg : PaperConfig} {as : List Action} {b : PaperBroker}
    (hrun : run (step cfg) init as = some b) (cid : ClientOrderId) :
    cid ∉ b.venueIdByOrder ↔ Along (step cfg) (SubmitsOther cid) init as := by
  have hinit : OpenHasVenueId init := fun c hc => absurd hc (Dict.notMem_empty c)
  have hempty : cid ∉ init.venueIdByOrder := Dict.notMem_empty cid
  rw [run_iff_along (D := fun _ _ => True) (fun _ _ _ hb _ => hb.step)
    (fun _ _ _ hb _ h => notMem_venueIdByOrder_step hb h cid) hinit
    (.of_forall fun _ _ => trivial) hrun]
  simp [hempty]

/-- Every id is executed at most once and every re-submission is a no-op, exactly when the run
re-submits an id over a connection only while its order is open. -/
theorem exactly_once_iff (cfg : PaperConfig) (as : List Action) (b : PaperBroker)
    (hrun : run (step cfg) init as = some b) :
    ((∀ cid, (kindsOf cid b.events).count .filled ≤ 1 ∧ (fillsOf cid b.events).length ≤ 1) ∧
        Along (step cfg) (ResubmitIsNoop cfg) init as) ↔
      Along (step cfg) ResubmitsOnlyOpen init as := by
  have hnoop : Along (step cfg) (ResubmitIsNoop cfg) init as ↔
      Along (step cfg) ResubmitsOnlyOpen init as :=
    along_congr (I := fun _ => True) (fun _ _ _ _ _ => trivial)
      (fun b a _ => resubmitIsNoop_iff b a) trivial
  rw [hnoop, and_iff_right_iff_imp]
  intro hopen cid
  have honce : FilledOnce b :=
    run_invariant_along (fun _ _ _ => FilledOnce.step) FilledOnce.init hopen hrun
  have hfills : (fillsOf cid b.events).length ≤ 1 := by
    have := honce.unique cid
    unfold fillCount at this
    omega
  have hkinds := length_fillsOf cid b.events
  exact ⟨by omega, hfills⟩

/-- An order filled without latency is submitted again under its id. -/
def refillRun : List Action :=
  [.connect ⟨0⟩, .submit (sampleOrder 1), .lifecycle 0 ⟨⟨1⟩, .ok 100, false⟩,
    .submit (sampleOrder 1), .lifecycle 0 ⟨⟨2⟩, .ok 100, false⟩]

theorem not_exactly_once :
    ¬ ∀ (cfg : PaperConfig) (as : List Action) (b : PaperBroker),
      run (step cfg) init as = some b →
        (∀ cid, (kindsOf cid b.events).count .filled ≤ 1 ∧ (fillsOf cid b.events).length ≤ 1) ∧
          Along (step cfg) (ResubmitIsNoop cfg) init as := by
  intro h
  have htwice : ((run (step {}) init refillRun).map fun b =>
      (kindsOf 1 b.events).count .filled) = some 2 := by decide +kernel
  obtain ⟨b, hrun, hcount⟩ := Option.map_eq_some_iff.mp htwice
  have hone := ((h {} refillRun b hrun).1 1).1
  omega

/-- The same order submitted again before it is filled. -/
def openResubmitRun : List Action :=
  [.connect ⟨0⟩, .submit (sampleOrder 1), .submit (sampleOrder 1),
    .lifecycle 0 ⟨⟨1⟩, .ok 100, false⟩]

theorem exactly_once_openResubmitRun : ∃ b, run (step {}) init openResubmitRun = some b ∧
    (∀ cid, (kindsOf cid b.events).count .filled ≤ 1 ∧ (fillsOf cid b.events).length ≤ 1) ∧
      Along (step {}) (ResubmitIsNoop {}) init openResubmitRun := by
  have henabled : (run (step {}) init openResubmitRun).isSome := by decide +kernel
  obtain ⟨b, hrun⟩ := Option.isSome_iff_exists.mp henabled
  exact ⟨b, hrun, (exactly_once_iff {} openResubmitRun b hrun).mpr (by decide +kernel)⟩

end Blive.PaperBroker
