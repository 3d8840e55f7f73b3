import Mathlib.Algebra.GroupWithZero.Nat
import Mathlib.Data.List.Induction
import Blive.Adapters.Ib.Proofs.Step

/-!
# Executions of one order

What the handlers make of the pushes for one placed order, in any order and with any
repetition. An order is live until a cancelled or Inactive status, or until its distinct
executions reach its quantity. Every execution that is first reported while the order is live
is emitted once, with the shares that were reported; the `terminal_emitted` guard drops the
ones that come after.
-/

namespace Blive.IBBroker

open Transition

/-- A push for one order. -/
inductive Push where
  | status (trade : Trade) (now : Utc)
  | fill (trade : Trade) (fill : IbFill) (now : Utc)

def receive (cid : ClientOrderId) (b : IBBroker) : Push → IBBroker
  | .status trade now => b.onOrderStatus cid trade now
  | .fill trade fill now => (b.onOrderFill cid trade fill now).1

/-- The broker after the pushes, the first one first. -/
def receiveAll (cid : ClientOrderId) (b : IBBroker) (pushes : List Push) : IBBroker :=
  pushes.foldl (receive cid) b

/-- The fill payload a task will put on the queue for `cid`. -/
def jobFill (cid : ClientOrderId) : Job → Option Fill
  | .put event => if event.val.clientOrderId = cid then event.val.fill else none
  | .emitRejectedViaInactive _ _ _ => none

/-- The fills of `cid` the broker has put on the queue or has tasks to put there. -/
def emittedFills (cid : ClientOrderId) (b : IBBroker) : List Fill :=
  fillsOf cid b.events ++ b.ready.filterMap (jobFill cid)

/-! ## What should be emitted -/

/-- The execution id a push reports, when it reports one. -/
def Push.execId : Push → Option String
  | .status _ _ => none
  | .fill _ report _ => (report.execution.map (·.execId)).filter (· ≠ "")

/-- The push ends the order by its status. -/
def Push.Closes : Push → Prop
  | .status trade _ => closingStatus trade.status
  | .fill _ _ _ => False

instance : (push : Push) → Decidable push.Closes
  | .status _ _ => inferInstanceAs (Decidable (closingStatus _))
  | .fill _ _ _ => isFalse id

/-- The shares a push reports. -/
def Push.shares : Push → Decimal
  | .status _ _ => 0
  | .fill _ report _ => (report.execution.map (·.shares)).getD 0

/-- The fill of a push that reports an execution with an id and data that `Fill` accepts. -/
def Push.fill? (tracking : OrderTrackingState) (cid : ClientOrderId) : Push → Option Fill
  | .status _ _ => none
  | .fill trade report now => do
      let execution ← report.execution
      if execution.execId = "" then none
      else (Frozen.make (fillFields tracking cid trade execution report now)).toOption

section Live

variable (tracking : OrderTrackingState) (cid : ClientOrderId)

/-- The fill of a push whose execution was not reported before. -/
def firstReport (before : List Push) (push : Push) : Option Fill :=
  (push.fill? tracking cid).filter fun fill => ∀ earlier ∈ before,
    ∀ known ∈ earlier.fill? tracking cid, known.val.venueExecId ≠ fill.val.venueExecId

/-- The shares of the distinct executions among the pushes that follow `before`. -/
def reportedAfter (before : List Push) : List Push → Decimal
  | [] => 0
  | push :: rest => ((firstReport tracking cid before push).map (·.val.quantity)).getD 0 +
      reportedAfter (before ++ [push]) rest

/-- No status has ended the order and its distinct executions fall short of its quantity. -/
def Live (pushes : List Push) : Prop :=
  (∀ push ∈ pushes, ¬ push.Closes) ∧
    reportedAfter tracking cid [] pushes < tracking.totalQuantity

instance (pushes : List Push) : Decidable (Live tracking cid pushes) :=
  inferInstanceAs (Decidable (_ ∧ _))

/-- The executions first reported while the order was live, among the pushes that follow
`before`. -/
def liveExecutionsAfter (before : List Push) : List Push → List Fill
  | [] => []
  | push :: rest =>
      (if Live tracking cid before then (firstReport tracking cid before push).toList else []) ++
        liveExecutionsAfter (before ++ [push]) rest

/-- The executions first reported while the order was live. -/
abbrev liveExecutions (pushes : List Push) : List Fill := liveExecutionsAfter tracking cid [] pushes

/-- The shares reported by the pushes that follow `before`, as far as they report an execution
for the first time and find the order live. -/
def liveSharesAfter (before : List Push) : List Push → Decimal
  | [] => 0
  | push :: rest =>
      (if Live tracking cid before ∧ (firstReport tracking cid before push).isSome then
        push.shares else 0) + liveSharesAfter (before ++ [push]) rest

/-- An execution that `Fill` accepts was not refused earlier under its id. -/
def ReportsAgree (pushes : List Push) : Prop :=
  pushes.Pairwise fun earlier push => earlier.execId = push.execId →
    (push.fill? tracking cid).isSome → (earlier.fill? tracking cid).isSome

instance (pushes : List Push) : Decidable (ReportsAgree tracking cid pushes) :=
  inferInstanceAs (Decidable (List.Pairwise _ _))

variable {tracking cid}

theorem reportedAfter_append (before xs ys : List Push) :
    reportedAfter tracking cid before (xs ++ ys) =
      reportedAfter tracking cid before xs + reportedAfter tracking cid (before ++ xs) ys := by
  induction xs generalizing before with
  | nil => simp [reportedAfter]
  | cons x xs ih => simp [reportedAfter, ih, add_assoc]

theorem liveExecutionsAfter_append (before xs ys : List Push) :
    liveExecutionsAfter tracking cid before (xs ++ ys) =
      liveExecutionsAfter tracking cid before xs ++
        liveExecutionsAfter tracking cid (before ++ xs) ys := by
  induction xs generalizing before with
  | nil => simp [liveExecutionsAfter]
  | cons x xs ih => simp [liveExecutionsAfter, ih]

/-- The shares of the next push, when it reports a new execution. -/
theorem reportedAfter_snoc (before : List Push) (push : Push) :
    reportedAfter tracking cid [] (before ++ [push]) = reportedAfter tracking cid [] before +
      ((firstReport tracking cid before push).map (·.val.quantity)).getD 0 := by
  simp [reportedAfter_append, reportedAfter]

theorem liveExecutions_snoc (before : List Push) (push : Push) :
    liveExecutions tracking cid (before ++ [push]) = liveExecutions tracking cid before ++
      if Live tracking cid before then (firstReport tracking cid before push).toList else [] := by
  simp [liveExecutionsAfter_append, liveExecutionsAfter]

theorem firstReport_quantity_nonneg (tracking : OrderTrackingState) (cid : ClientOrderId)
    (before : List Push) (push : Push) :
    0 ≤ ((firstReport tracking cid before push).map (·.val.quantity)).getD 0 := by
  cases h : firstReport tracking cid before push with
  | none => exact le_refl _
  | some fill => exact le_of_lt fill.quantity_pos

theorem live_snoc_iff (before : List Push) (push : Push) :
    Live tracking cid (before ++ [push]) ↔ (∀ p ∈ before, ¬ p.Closes) ∧ ¬ push.Closes ∧
      reportedAfter tracking cid [] before +
        ((firstReport tracking cid before push).map (·.val.quantity)).getD 0 <
          tracking.totalQuantity := by
  unfold Live
  rw [reportedAfter_snoc]
  simp only [List.mem_append, List.mem_singleton, or_imp, forall_and, forall_eq, and_assoc]

/-- An order that is not live does not become live again. -/
theorem Live.of_snoc {before : List Push} {push : Push} (h : Live tracking cid (before ++ [push])) :
    Live tracking cid before := by
  obtain ⟨hopen, -, hshort⟩ := (live_snoc_iff before push).mp h
  have := firstReport_quantity_nonneg tracking cid before push
  exact ⟨hopen, lt_of_le_of_lt (le_add_of_nonneg_right this) hshort⟩

/-- A push that reports no new execution and does not close the order leaves it live. -/
theorem live_snoc_of_quiet {before : List Push} {push : Push} (hquiet : ¬ push.Closes)
    (hnone : firstReport tracking cid before push = none) :
    Live tracking cid (before ++ [push]) ↔ Live tracking cid before := by
  rw [live_snoc_iff, hnone]
  simp [Live, hquiet]

theorem mem_firstReport_iff {before : List Push} {push : Push} {fill : Fill} :
    firstReport tracking cid before push = some fill ↔ push.fill? tracking cid = some fill ∧
      ∀ earlier ∈ before, ∀ known ∈ earlier.fill? tracking cid,
        known.val.venueExecId ≠ fill.val.venueExecId := by
  simp [firstReport, Option.filter_eq_some_iff]

/-- The fill of a push carries the execution's id and shares. -/
theorem Push.fill?_spec {push : Push} {fill : Fill} (h : push.fill? tracking cid = some fill) :
    push.execId = some fill.val.venueExecId ∧ fill.val.quantity = push.shares := by
  cases push with
  | status trade now => cases h
  | fill trade ibFill now =>
    simp only [Push.fill?, Option.bind_eq_bind, Option.bind_eq_some_iff] at h
    obtain ⟨execution, hx, hfill⟩ := h
    by_cases hid : execution.execId = ""
    · simp [hid] at hfill
    · rw [if_neg hid] at hfill
      cases hmake : Frozen.make (fillFields tracking cid trade execution ibFill now) with
      | error e => simp [hmake, Except.toOption] at hfill
      | ok made =>
        simp only [hmake, Except.toOption, Option.some.injEq] at hfill
        have hval := Frozen.make_eq_ok_iff.mp hmake
        rw [← hfill, hval]
        simp [Push.execId, Push.shares, hx, hid, fillFields]

theorem Push.execId_of_fill? {push : Push} {fill : Fill}
    (h : push.fill? tracking cid = some fill) : push.execId = some fill.val.venueExecId :=
  (Push.fill?_spec h).1

theorem sum_liveExecutionsAfter (before pushes : List Push) :
    ((liveExecutionsAfter tracking cid before pushes).map (·.val.quantity)).sum =
      liveSharesAfter tracking cid before pushes := by
  induction pushes generalizing before with
  | nil => rfl
  | cons push rest ih =>
    simp only [liveExecutionsAfter, liveSharesAfter, List.map_append, List.sum_append, ih]
    congr 1
    by_cases hlive : Live tracking cid before
    · cases hreport : firstReport tracking cid before push with
      | none => simp
      | some fill =>
        have hquantity := (Push.fill?_spec (mem_firstReport_iff.mp hreport).1).2
        simp [hlive, hquantity]
    · simp [hlive]

/-- No execution is reported as new twice. -/
theorem liveExecutionsAfter_nodup (before pushes : List Push) :
    ((liveExecutionsAfter tracking cid before pushes).map (·.val.venueExecId)).Nodup ∧
      ∀ fill ∈ liveExecutionsAfter tracking cid before pushes, ∀ earlier ∈ before,
        ∀ known ∈ earlier.fill? tracking cid, known.val.venueExecId ≠ fill.val.venueExecId := by
  induction pushes generalizing before with
  | nil => exact ⟨List.nodup_nil, fun _ h => by cases h⟩
  | cons push rest ih =>
    obtain ⟨hnodup, hfresh⟩ := ih (before ++ [push])
    have hold : ∀ fill ∈ liveExecutionsAfter tracking cid (before ++ [push]) rest,
        ∀ earlier ∈ before, ∀ known ∈ earlier.fill? tracking cid,
          known.val.venueExecId ≠ fill.val.venueExecId :=
      fun fill hfill earlier hearlier =>
        hfresh fill hfill earlier (List.mem_append_left _ hearlier)
    cases hreport : firstReport tracking cid before push with
    | none =>
      have hskip : liveExecutionsAfter tracking cid before (push :: rest) =
          liveExecutionsAfter tracking cid (before ++ [push]) rest := by
        simp [liveExecutionsAfter, hreport]
      rw [hskip]
      exact ⟨hnodup, hold⟩
    | some new =>
      obtain ⟨hnew, hunseen⟩ := mem_firstReport_iff.mp hreport
      by_cases hlive : Live tracking cid before
      · have hcons : liveExecutionsAfter tracking cid before (push :: rest) =
            new :: liveExecutionsAfter tracking cid (before ++ [push]) rest := by
          simp [liveExecutionsAfter, hreport, hlive]
        rw [hcons]
        refine ⟨?_, ?_⟩
        · rw [List.map_cons, List.nodup_cons]
          refine ⟨?_, hnodup⟩
          intro hmem
          obtain ⟨fill, hfill, heq⟩ := List.mem_map.mp hmem
          exact hfresh fill hfill push (by simp) new hnew heq.symm
        · intro fill hfill
          rcases List.mem_cons.mp hfill with rfl | hfill
          · exact hunseen
          · exact hold fill hfill
      · have hskip : liveExecutionsAfter tracking cid before (push :: rest) =
            liveExecutionsAfter tracking cid (before ++ [push]) rest := by
          simp [liveExecutionsAfter, hlive]
        rw [hskip]
        exact ⟨hnodup, hold⟩

end Live

/-! ## What is emitted -/

/-- The state of the handlers after the pushes `before`: `current` is the tracking record that
started as `tracking`. -/
structure Received (tracking current : OrderTrackingState) (cid : ClientOrderId)
    (before : List Push) (emitted : List Fill) (b : IBBroker) : Prop where
  tracked : b.orderTracking.get? cid = some current
  instrument : current.instrument = tracking.instrument
  side : current.side = tracking.side
  total : current.totalQuantity = tracking.totalQuantity
  terminal : current.terminalEmitted = false ↔ Live tracking cid before
  cumulative : Live tracking cid before →
    current.cumulativeFilled = reportedAfter tracking cid [] before
  seen : Live tracking cid before →
    ∀ id, id ∈ current.seenExecIds ↔ ∃ push ∈ before, push.execId = some id
  fills : emittedFills cid b = emitted ++ liveExecutions tracking cid before

section Receive

variable {tracking current : OrderTrackingState} {cid : ClientOrderId} {before : List Push}
  {emitted : List Fill} {b b' : IBBroker} {push : Push}

theorem Handled.emittedFills {jobs : List Job} (h : Handled cid current jobs b b') :
    emittedFills cid b' = IBBroker.emittedFills cid b ++ jobs.filterMap (jobFill cid) := by
  simp [IBBroker.emittedFills, h.events, h.ready]

theorem Received.fillFields_eq (hb : Received tracking current cid before emitted b)
    (trade : Trade) (execution : Execution) (fill : IbFill) (now : Utc) :
    fillFields current cid trade execution fill now =
      fillFields tracking cid trade execution fill now := by
  simp only [fillFields, hb.instrument, hb.side]

/-- A push that changes neither the tracking record, except for the accepted flag, nor the
liveness of the order. -/
theorem Received.quiet {current' : OrderTrackingState}
    (hb : Received tracking current cid before emitted b)
    (hlive : Live tracking cid (before ++ [push]) ↔ Live tracking cid before)
    (hreport : Live tracking cid before → firstReport tracking cid before push = none)
    (htracked : b'.orderTracking.get? cid = some current')
    (hsame : current' = { current with
      acceptedEmitted := current'.acceptedEmitted, seenExecIds := current'.seenExecIds })
    (hseen : Live tracking cid before → ∀ id, id ∈ current'.seenExecIds ↔
      id ∈ current.seenExecIds ∨ push.execId = some id)
    (hfills : emittedFills cid b' = emittedFills cid b) :
    Received tracking current' cid (before ++ [push]) emitted b' where
  tracked := htracked
  instrument := by rw [hsame]; exact hb.instrument
  side := by rw [hsame]; exact hb.side
  total := by rw [hsame]; exact hb.total
  terminal := by rw [hsame, hlive]; exact hb.terminal
  cumulative h := by
    have h := hlive.mp h
    rw [hsame, reportedAfter_snoc, hreport h]
    simpa using hb.cumulative h
  seen h id := by
    have h := hlive.mp h
    rw [hseen h, hb.seen h]
    simp [or_and_right, exists_or]
  fills := by
    rw [hfills, hb.fills, liveExecutions_snoc]
    by_cases h : Live tracking cid before
    · simp [h, hreport h]
    · simp [h]

/-- A status that ends the order. -/
theorem Received.close {jobs : List Job} (hb : Received tracking current cid before emitted b)
    (hcloses : push.Closes) (hreport : firstReport tracking cid before push = none)
    (heffect : Handled cid { current with terminalEmitted := true } jobs b b')
    (hjobs : jobs.filterMap (jobFill cid) = []) :
    Received tracking { current with terminalEmitted := true } cid (before ++ [push]) emitted
      b' := by
  have hclosed : ¬ Live tracking cid (before ++ [push]) :=
    fun h => h.1 push (List.mem_append_right _ (.head _)) hcloses
  refine ⟨?_, hb.instrument, hb.side, hb.total, by simp [hclosed], fun h => absurd h hclosed,
    fun h => absurd h hclosed, ?_⟩
  · rw [heffect.tracking, if_pos rfl]
  · rw [heffect.emittedFills, hjobs, hb.fills, liveExecutions_snoc, hreport]
    simp

theorem Received.not_live (hb : Received tracking current cid before emitted b)
    (hterminal : current.terminalEmitted = true) : ¬ Live tracking cid before := by
  rw [← hb.terminal, hterminal]
  simp

/-- A push after the last event of an order changes nothing. -/
theorem Received.of_closed (hb : Received tracking current cid before emitted b)
    (hterminal : current.terminalEmitted = true) (push : Push) :
    Received tracking current cid (before ++ [push]) emitted b := by
  have hclosed := hb.not_live hterminal
  exact hb.quiet (iff_of_false (fun h => hclosed h.of_snoc) hclosed)
    (fun h => absurd h hclosed) hb.tracked rfl (fun h => absurd h hclosed) rfl

theorem Received.status {trade : Trade} {now : Utc}
    (hb : Received tracking current cid before emitted b) :
    ∃ current', Received tracking current' cid (before ++ [.status trade now]) emitted
      (b.onOrderStatus cid trade now) := by
  have hnone : firstReport tracking cid before (.status trade now) = none := rfl
  have heffect := onOrderStatus_effect b cid trade now
  generalize b.onOrderStatus cid trade now = b' at heffect ⊢
  cases heffect with
  | untracked h =>
    rw [hb.tracked] at h
    cases h
  | closed tracking' h ht =>
    obtain rfl := Option.some.inj (hb.tracked.symm.trans h)
    exact ⟨current, hb.of_closed ht _⟩
  | ignored tracking' h ht hs =>
    exact ⟨current, hb.quiet (live_snoc_of_quiet hs hnone) (fun _ => hnone) hb.tracked rfl
      (fun _ id => by simp [Push.execId]) rfl⟩
  | accepted tracking' _ h ht ha hs heffect =>
    obtain rfl := Option.some.inj (hb.tracked.symm.trans h)
    have htracked : b'.orderTracking.get? cid = some { current with acceptedEmitted := true } := by
      rw [heffect.tracking, if_pos rfl]
    refine ⟨_, hb.quiet (live_snoc_of_quiet hs hnone) (fun _ => hnone) htracked rfl
      (fun _ id => by simp [Push.execId]) ?_⟩
    rw [heffect.emittedFills]
    simp [jobFill, acceptedEvent, OrderEvent.plain]
  | cancelled tracking' _ h ht hs heffect =>
    obtain rfl := Option.some.inj (hb.tracked.symm.trans h)
    refine ⟨_, hb.close (.inl hs) hnone heffect ?_⟩
    have hfill : (cancelledEvent cid current.acceptedEmitted trade now).val.fill = none := by
      unfold cancelledEvent
      split <;> rfl
    simp [jobFill, hfill]
  | inactive tracking' _ h ht hs heffect =>
    obtain rfl := Option.some.inj (hb.tracked.symm.trans h)
    exact ⟨_, hb.close (.inr hs) hnone heffect rfl⟩

theorem filterMap_jobFill_acceptJobs (tracking : OrderTrackingState) (trade : Trade) (now : Utc) :
    (acceptJobs tracking cid trade now).filterMap (jobFill cid) = [] := by
  unfold acceptJobs
  split <;> simp [jobFill, acceptedEvent, OrderEvent.plain]

/-- A push whose execution id was reported by an earlier push reports nothing new. -/
theorem firstReport_of_reported {earlier : Push} {id : String}
    (hagree : ReportsAgree tracking cid (before ++ [push])) (hearlier : earlier ∈ before)
    (hid : earlier.execId = some id) (hpush : push.execId = some id) :
    firstReport tracking cid before push = none := by
  by_contra hsome
  obtain ⟨fill, hfill⟩ := Option.ne_none_iff_exists'.mp hsome
  obtain ⟨hpushFill, hunseen⟩ := mem_firstReport_iff.mp hfill
  have haccepted := (List.pairwise_append.mp hagree).2.2 earlier hearlier push
    (List.mem_singleton_self push) (hid.trans hpush.symm)
    (Option.isSome_iff_exists.mpr ⟨_, hpushFill⟩)
  obtain ⟨known, hknown⟩ := Option.isSome_iff_exists.mp haccepted
  apply hunseen earlier hearlier known hknown
  have hids : some known.val.venueExecId = some fill.val.venueExecId := by
    rw [← Push.execId_of_fill? hknown, ← Push.execId_of_fill? hpushFill, hid, hpush]
  exact Option.some.inj hids

theorem Received.fill {trade : Trade} {ibFill : IbFill} {now : Utc}
    (hb : Received tracking current cid before emitted b)
    (hagree : ReportsAgree tracking cid (before ++ [.fill trade ibFill now])) :
    ∃ current', Received tracking current' cid (before ++ [.fill trade ibFill now]) emitted
      (b.onOrderFill cid trade ibFill now).1 := by
  have hopen : ¬ (Push.fill trade ibFill now).Closes := id
  have heffect := onOrderFill_effect b cid trade ibFill now
  generalize (b.onOrderFill cid trade ibFill now).1 = b' at heffect ⊢
  cases heffect with
  | untracked h =>
    rw [hb.tracked] at h
    cases h
  | closed tracking' h ht =>
    obtain rfl := Option.some.inj (hb.tracked.symm.trans h)
    exact ⟨current, hb.of_closed ht _⟩
  | noExecId tracking' h ht hx =>
    have hnoId : (Push.fill trade ibFill now).execId = none := by
      cases hexec : ibFill.execution with
      | none => simp [Push.execId, hexec]
      | some execution => simp [Push.execId, hexec, hx execution hexec]
    have hnone : firstReport tracking cid before (.fill trade ibFill now) = none := by
      by_contra hsome
      obtain ⟨fill, hfill⟩ := Option.ne_none_iff_exists'.mp hsome
      have hid := Push.execId_of_fill? (mem_firstReport_iff.mp hfill).1
      rw [hnoId] at hid
      cases hid
    exact ⟨current, hb.quiet (live_snoc_of_quiet hopen hnone) (fun _ => hnone) hb.tracked rfl
      (fun _ id => by simp [hnoId]) rfl⟩
  | seen tracking' execution h ht hx hid hseen =>
    obtain rfl := Option.some.inj (hb.tracked.symm.trans h)
    have hlive := hb.terminal.mp ht
    have hpush : (Push.fill trade ibFill now).execId = some execution.execId := by
      simp [Push.execId, hx, hid]
    obtain ⟨earlier, hearlier, hearlierId⟩ := (hb.seen hlive _).mp hseen
    have hnone := firstReport_of_reported hagree hearlier hearlierId hpush
    refine ⟨current, hb.quiet (live_snoc_of_quiet hopen hnone) (fun _ => hnone) hb.tracked rfl
      ?_ rfl⟩
    intro _ id
    rw [hpush, Option.some.injEq, iff_self_or]
    rintro rfl
    exact hseen
  | raised tracking' execution e _ h ht hx hid hnew hfill heffect =>
    obtain rfl := Option.some.inj (hb.tracked.symm.trans h)
    have hnone : firstReport tracking cid before (.fill trade ibFill now) = none := by
      rw [hb.fillFields_eq] at hfill
      simp [firstReport, Push.fill?, hx, hid, hfill, Except.toOption]
    refine ⟨_, hb.quiet (live_snoc_of_quiet hopen hnone) (fun _ => hnone)
      (by rw [heffect.tracking, if_pos rfl]) rfl ?_ ?_⟩
    · intro _ id
      have hpush : (Push.fill trade ibFill now).execId = some execution.execId := by
        simp [Push.execId, hx, hid]
      rw [hpush, seeExecution, Finset.mem_insert, Option.some.injEq, or_comm, eq_comm]
    · rw [heffect.emittedFills, filterMap_jobFill_acceptJobs, List.append_nil]
  | emitted tracking' execution bliveFill _ h ht hx hid hnew hfill heffect =>
    obtain rfl := Option.some.inj (hb.tracked.symm.trans h)
    have hlive := hb.terminal.mp ht
    have hpush : (Push.fill trade ibFill now).execId = some execution.execId := by
      simp [Push.execId, hx, hid]
    have hval : bliveFill.val.venueExecId = execution.execId := by
      rw [Frozen.make_eq_ok_iff.mp hfill]
      rfl
    have hreport : firstReport tracking cid before (.fill trade ibFill now) = some bliveFill := by
      rw [mem_firstReport_iff]
      constructor
      · rw [hb.fillFields_eq] at hfill
        simp [Push.fill?, hx, hid, hfill, Except.toOption]
      · intro earlier hearlier known hknown heq
        refine hnew ((hb.seen hlive _).mpr ⟨earlier, hearlier, ?_⟩)
        rw [Push.execId_of_fill? hknown, heq, hval]
    have hlive' : Live tracking cid (before ++ [.fill trade ibFill now]) ↔
        ¬ (current.cumulativeFilled + bliveFill.val.quantity ≥ current.totalQuantity) := by
      rw [live_snoc_iff, hreport, ← hb.cumulative hlive, ← hb.total, ge_iff_le, not_le]
      exact ⟨fun h => h.2.2, fun h => ⟨hlive.1, hopen, h⟩⟩
    refine ⟨countFill (seeExecution current execution.execId) bliveFill.val.quantity,
      by rw [heffect.tracking, if_pos rfl], hb.instrument, hb.side, hb.total, ?_, ?_, ?_, ?_⟩
    · rw [hlive']
      simp [countFill, seeExecution]
    · intro _
      rw [reportedAfter_snoc, hreport, ← hb.cumulative hlive]
      rfl
    · intro _ id
      simp only [countFill, seeExecution, Finset.mem_insert, hb.seen hlive, List.mem_append,
        List.mem_singleton, or_and_right, exists_or, exists_eq_left, hpush, Option.some.injEq]
      rw [or_comm, eq_comm]
    · have hjob : jobFill cid (.put (fillEvent current cid trade bliveFill now)) =
          some bliveFill := by
        unfold fillEvent
        split <;> simp [jobFill, OrderEvent.withFill]
      rw [heffect.emittedFills, List.filterMap_append, filterMap_jobFill_acceptJobs, hb.fills,
        liveExecutions_snoc, if_pos hlive, hreport]
      simp [hjob]

/-- All pushes together, by adding one push at the end after the other. -/
theorem Received.all (hb : Received tracking current cid [] emitted b) (pushes : List Push)
    (hagree : ReportsAgree tracking cid pushes) :
    ∃ current', Received tracking current' cid pushes emitted (receiveAll cid b pushes) := by
  induction pushes using List.reverseRecOn with
  | nil => exact ⟨current, hb⟩
  | append_singleton before push ih =>
    obtain ⟨current', hcurrent⟩ := ih (List.pairwise_append.mp hagree).1
    rw [receiveAll, List.foldl_append]
    cases push with
    | status trade now => exact hcurrent.status
    | fill trade ibFill now => exact hcurrent.fill hagree

end Receive

/-! ## The event loop -/

/-- The turns a task needs. -/
def jobTurns : Job → Nat
  | .put _ => 1
  | .emitRejectedViaInactive yields _ _ => yields + 1

/-- The turns all queued tasks need. -/
def pendingTurns (b : IBBroker) : Nat := (b.ready.map jobTurns).sum

/-- One turn of the event loop, with what the trade of a deferred rejection holds. -/
abbrev turn (b : IBBroker) (answer : List TradeLogEntry × String × Utc) : Option IBBroker :=
  b.tick answer.1 answer.2.1 answer.2.2

/-- A turn brings the queue one turn closer to empty and no fill gets lost in it. -/
theorem turn_spec {b : IBBroker} (answer : List TradeLogEntry × String × Utc)
    (hwork : 0 < b.pendingTurns) : ∃ b', b.turn answer = some b' ∧
      b'.pendingTurns + 1 = b.pendingTurns ∧
        ∀ cid, emittedFills cid b' = emittedFills cid b := by
  unfold turn tick
  cases hready : b.ready with
  | nil => simp [pendingTurns, hready] at hwork
  | cons job rest =>
    cases job with
    | put event =>
      refine ⟨_, rfl, ?_, ?_⟩
      · simp [pendingTurns, hready, put, jobTurns, add_comm]
      · intro cid
        by_cases hc : event.val.clientOrderId = cid <;> cases hf : event.val.fill <;>
          simp [emittedFills, hready, put, jobFill, hc, hf]
    | emitRejectedViaInactive yields c orderId =>
      cases yields with
      | zero =>
        refine ⟨_, rfl, ?_, ?_⟩
        · simp [pendingTurns, hready, emitRejected, put, popError, jobTurns, add_comm]
        · intro cid
          have hjob : jobFill cid (.emitRejectedViaInactive 0 c orderId) = none := rfl
          simp [emittedFills, hready, emitRejected, put, popError, OrderEvent.withReason,
            List.filterMap_cons_none hjob]
      | succ yields =>
        refine ⟨_, rfl, ?_, ?_⟩
        · simp only [pendingTurns, hready, createTask, List.map_append, List.map_cons,
            List.map_nil, List.sum_append, List.sum_cons, List.sum_nil, jobTurns]
          omega
        · intro cid
          have hjob (n : Nat) : jobFill cid (.emitRejectedViaInactive n c orderId) = none := rfl
          simp [emittedFills, hready, createTask, List.filterMap_cons_none (hjob _)]

/-- As many turns as the tasks need empty the queue. -/
theorem run_turns {b : IBBroker} (answers : List (List TradeLogEntry × String × Utc))
    (hwork : answers.length = b.pendingTurns) : ∃ b', run turn b answers = some b' ∧
      b'.ready = [] ∧ ∀ cid, fillsOf cid b'.events = emittedFills cid b := by
  induction answers generalizing b with
  | nil =>
    have hready : b.ready = [] := by
      cases hready : b.ready with
      | nil => rfl
      | cons job rest =>
        have hturns : 0 < jobTurns job := by cases job <;> simp [jobTurns]
        simp only [pendingTurns, hready, List.map_cons, List.sum_cons, List.length_nil] at hwork
        omega
    exact ⟨b, rfl, hready, fun cid => by simp [emittedFills, hready]⟩
  | cons answer answers ih =>
    rw [List.length_cons] at hwork
    obtain ⟨m, hturn, hless, hfills⟩ := turn_spec (b := b) answer (by omega)
    obtain ⟨b', hrun, hready, hfills'⟩ := ih (b := m) (by omega)
    exact ⟨b', run_cons_eq_some.mpr ⟨m, hturn, hrun⟩, hready,
      fun cid => (hfills' cid).trans (hfills cid)⟩

/-- Of a placed order each execution that is first reported while the order is live is emitted
exactly once, with the reported shares, and no other one is. -/
theorem executions_emitted_once (b : IBBroker) (placed : PlacedOrder) (placedAt : Utc)
    (pushes : List Push) (hnew : emittedFills placed.cid b = [])
    (hagree : ReportsAgree (newTracking placed) placed.cid pushes)
    (answers : List (List TradeLogEntry × String × Utc))
    (hanswers : answers.length =
      (receiveAll placed.cid (b.afterPlaceOrder placed placedAt) pushes).pendingTurns) :
    ∃ b', run turn (receiveAll placed.cid (b.afterPlaceOrder placed placedAt) pushes) answers =
        some b' ∧ b'.ready = [] ∧
      fillsOf placed.cid b'.events = liveExecutions (newTracking placed) placed.cid pushes ∧
      ((fillsOf placed.cid b'.events).map (·.val.venueExecId)).Nodup ∧
      ((fillsOf placed.cid b'.events).map (·.val.quantity)).sum =
        liveSharesAfter (newTracking placed) placed.cid [] pushes := by
  have hplaced : Received (newTracking placed) (newTracking placed) placed.cid [] []
      (b.afterPlaceOrder placed placedAt) := by
    have hlive : Live (newTracking placed) placed.cid [] :=
      ⟨by simp, placed.order.quantity_pos⟩
    refine ⟨by simp [afterPlaceOrder, put], rfl, rfl, rfl, iff_of_true rfl hlive, fun _ => rfl,
      fun _ id => by simp [newTracking], ?_⟩
    obtain ⟨hevents, hready⟩ := List.append_eq_nil_iff.mp hnew
    simp [emittedFills, afterPlaceOrder, put, OrderEvent.plain, hevents, hready,
      liveExecutionsAfter]
  obtain ⟨current, hreceived⟩ := hplaced.all pushes hagree
  obtain ⟨b', hrun, hready, hfills⟩ := run_turns answers hanswers
  have hlive : fillsOf placed.cid b'.events =
      liveExecutions (newTracking placed) placed.cid pushes := by
    rw [hfills, hreceived.fills, List.nil_append]
  refine ⟨b', hrun, hready, hlive, ?_, ?_⟩
  · rw [hlive]
    exact (liveExecutionsAfter_nodup [] pushes).1
  · rw [hlive]
    exact sum_liveExecutionsAfter [] pushes

/-- A market order for ten shares on the wire. -/
def samplePlaced : PlacedOrder where
  order := sampleOrder 1
  contract := ⟨"CAC", "STK", "EUR", "SBF", "", none⟩
  ibOrder := ⟨.marketOrder, "BUY", ⟨10⟩, "DAY", "", [], some 1⟩
  orderId := 7

/-- The whole order is executed, and the report arrives after the order was cancelled. -/
def lateFillPushes : List Push :=
  [.status { orderId := 7, status := "Cancelled" } ⟨2⟩,
    .fill { orderId := 7, status := "Cancelled" } ⟨some ⟨"e1", 10, 100, some ⟨3, some 0⟩⟩, none⟩
      ⟨3⟩]

theorem not_every_execution_emitted :
    ¬ ∀ (b : IBBroker) (placed : PlacedOrder) (placedAt : Utc) (pushes : List Push),
      emittedFills placed.cid b = [] → ReportsAgree (newTracking placed) placed.cid pushes →
        ∀ push ∈ pushes, ∀ fill ∈ push.fill? (newTracking placed) placed.cid,
          (emittedFills placed.cid (receiveAll placed.cid (b.afterPlaceOrder placed placedAt)
            pushes)).countP (fun f => f.val.venueExecId = fill.val.venueExecId) = 1 := by
  intro h
  have hnone : emittedFills 1 (receiveAll 1 (init.afterPlaceOrder samplePlaced ⟨1⟩)
      lateFillPushes) = [] := by decide +kernel
  have hvalid : ∃ push ∈ lateFillPushes, (push.fill? (newTracking samplePlaced) 1).isSome := by
    decide +kernel
  obtain ⟨push, hpush, hsome⟩ := hvalid
  obtain ⟨fill, hfill⟩ := Option.isSome_iff_exists.mp hsome
  have hone := h init samplePlaced ⟨1⟩ lateFillPushes rfl (by decide +kernel) push hpush fill hfill
  have hzero : emittedFills samplePlaced.cid (receiveAll samplePlaced.cid
      (init.afterPlaceOrder samplePlaced ⟨1⟩) lateFillPushes) = [] := hnone
  rw [hzero] at hone
  cases hone

/-- Two executions fill the order, the first one is reported twice. -/
def filledPushes : List Push :=
  [.fill { orderId := 7, status := "Submitted" } ⟨some ⟨"e1", 4, 100, some ⟨2, some 0⟩⟩, none⟩ ⟨2⟩,
    .fill { orderId := 7, status := "Submitted" } ⟨some ⟨"e1", 4, 100, some ⟨2, some 0⟩⟩, none⟩ ⟨3⟩,
    .fill { orderId := 7, status := "Filled" } ⟨some ⟨"e2", 6, 101, some ⟨4, some 0⟩⟩, none⟩ ⟨4⟩]

theorem executions_emitted_once_filledPushes :
    ∃ b', run turn (receiveAll samplePlaced.cid (init.afterPlaceOrder samplePlaced ⟨1⟩)
        filledPushes) (List.replicate 3 ([], "", ⟨5⟩)) = some b' ∧ b'.ready = [] ∧
      fillsOf samplePlaced.cid b'.events =
        liveExecutions (newTracking samplePlaced) samplePlaced.cid filledPushes ∧
      ((fillsOf samplePlaced.cid b'.events).map (·.val.venueExecId)).Nodup ∧
      ((fillsOf samplePlaced.cid b'.events).map (·.val.quantity)).sum =
        liveSharesAfter (newTracking samplePlaced) samplePlaced.cid [] filledPushes :=
  executions_emitted_once init samplePlaced ⟨1⟩ filledPushes rfl (by decide +kernel)
    (List.replicate 3 ([], "", ⟨5⟩)) (by decide +kernel)

end Blive.IBBroker
