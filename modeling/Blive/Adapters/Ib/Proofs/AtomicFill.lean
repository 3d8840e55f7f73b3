import Blive.Adapters.Ib.Proofs.Step

/-!
# A fill push that raises

`_on_order_fill` records the execution id, and the acceptance a first fill implies, before the
`Fill` it builds is validated. A push whose fields are refused therefore leaves its execution
marked as seen, and the corrected push is dropped as a duplicate.
-/

namespace Blive.IBBroker

/-- The push gets past the guards of the handler: a live order, an execution not seen before. -/
structure Processed (b : IBBroker) (cid : ClientOrderId) (fill : IbFill)
    (tracking : OrderTrackingState) (execution : Execution) : Prop where
  tracked : b.orderTracking.get? cid = some tracking
  live : tracking.terminalEmitted = false
  reported : fill.execution = some execution
  named : execution.execId ≠ ""
  fresh : execution.execId ∉ tracking.seenExecIds

/-- The fields of the push are ones `Fill` accepts. -/
structure WellFormed (tracking : OrderTrackingState) (execution : Execution) (fill : IbFill) :
    Prop where
  shares : 0 < execution.shares
  price : 0 < execution.price
  commission : 0 ≤ commissionOf fill
  currency : (currencyOf fill tracking.instrument).toList.length = 3 ∧
    (currencyOf fill tracking.instrument).toList.all PyStr.isUpperChar
  time : ∀ t ∈ execution.time, t.utcOffset = some 0

variable {b : IBBroker} {cid : ClientOrderId} {trade : Trade} {fill : IbFill}
  {tracking : OrderTrackingState} {execution : Execution} {now : Utc}

theorem fillFields_valid_iff (hnamed : execution.execId ≠ "") :
    postInit (fillFields tracking cid trade execution fill now) = .ok () ↔
      WellFormed tracking execution fill := by
  rw [Fill.valid_iff, requireIsoCurrency_eq_ok_iff]
  have htime : (execution.time.getD now.toDatetime).utcOffset = some 0 ↔
      ∀ t ∈ execution.time, t.utcOffset = some 0 := by
    cases execution.time with
    | none => simp [Utc.toDatetime]
    | some t => simp
  constructor
  · rintro ⟨-, ⟨hshares, hprice⟩, hcommission, hcurrency, hutc⟩
    exact ⟨hshares, hprice, hcommission, hcurrency, htime.mp hutc⟩
  · rintro ⟨hshares, hprice, hcommission, hcurrency, hutc⟩
    exact ⟨hnamed, ⟨hshares, hprice⟩, hcommission, hcurrency, htime.mpr hutc⟩

/-- How a push ends: dropped by a guard, refused by `Fill` after the execution was recorded, or
emitted. -/
inductive FillOutcome (cid : ClientOrderId) (trade : Trade) (fill : IbFill) (now : Utc)
    (b : IBBroker) : IBBroker × Option PyError → Prop where
  | dropped (h : ∀ tracking execution, ¬ Processed b cid fill tracking execution) :
      FillOutcome cid trade fill now b (b, none)
  | refused {tracking : OrderTrackingState} {execution : Execution} {b' : IBBroker} {e : PyError}
      (h : Processed b cid fill tracking execution) (hfields : ¬ WellFormed tracking execution fill)
      (heffect : Handled cid (seeExecution tracking execution.execId)
        (acceptJobs tracking cid trade now) b b') : FillOutcome cid trade fill now b (b', some e)
  | emitted {tracking : OrderTrackingState} {execution : Execution} {b' : IBBroker}
      (h : Processed b cid fill tracking execution) (hfields : WellFormed tracking execution fill) :
      FillOutcome cid trade fill now b (b', none)

theorem onOrderFill_outcome (b : IBBroker) (cid : ClientOrderId) (trade : Trade) (fill : IbFill)
    (now : Utc) : FillOutcome cid trade fill now b (b.onOrderFill cid trade fill now) := by
  unfold onOrderFill
  cases htracked : b.orderTracking.get? cid with
  | none =>
    refine .dropped fun tracking execution h => ?_
    cases htracked.symm.trans h.tracked
  | some tracking =>
    dsimp only
    by_cases hlive : tracking.terminalEmitted = true
    · rw [if_pos hlive]
      refine .dropped fun tracking' execution h => ?_
      cases htracked.symm.trans h.tracked
      exact absurd (hlive.symm.trans h.live) (by decide)
    rw [if_neg hlive]
    cases hreported : fill.execution with
    | none =>
      refine .dropped fun tracking' execution h => ?_
      cases hreported.symm.trans h.reported
    | some execution =>
      dsimp only
      by_cases hnamed : execution.execId = ""
      · rw [if_pos hnamed]
        refine .dropped fun tracking' execution' h => ?_
        cases hreported.symm.trans h.reported
        exact h.named hnamed
      rw [if_neg hnamed]
      by_cases hfresh : execution.execId ∈ tracking.seenExecIds
      · rw [if_pos hfresh]
        refine .dropped fun tracking' execution' h => ?_
        cases htracked.symm.trans h.tracked
        cases hreported.symm.trans h.reported
        exact h.fresh hfresh
      rw [if_neg hfresh]
      have hprocessed : Processed b cid fill tracking execution :=
        ⟨htracked, by simpa using hlive, hreported, hnamed, hfresh⟩
      obtain ⟨b', haccept, heffect⟩ :=
        acceptFirstFill_spec b cid tracking execution.execId trade now
      rw [haccept]
      dsimp only
      have hfields : fillFields (seeExecution tracking execution.execId) cid trade execution fill
          now = fillFields tracking cid trade execution fill now := rfl
      rw [hfields]
      cases hmake : Frozen.make (fillFields tracking cid trade execution fill now) with
      | error e =>
        refine .refused hprocessed (fun hwell => ?_) heffect
        have hvalid : postInit (fillFields tracking cid trade execution fill now) = .ok () :=
          (fillFields_valid_iff hnamed).mpr hwell
        cases hmake.symm.trans (Frozen.make_of_valid hvalid)
      | ok bliveFill =>
        have hvalid : postInit (fillFields tracking cid trade execution fill now) = .ok () := by
          rw [← Frozen.make_eq_ok_iff.mp hmake]
          exact bliveFill.valid
        exact .emitted hprocessed ((fillFields_valid_iff hnamed).mp hvalid)

/-- When the handler raises, the tracking record of the order, the queue and the tasks that put
events on it are as they were. -/
def AtomicOnFailure (b : IBBroker) (cid : ClientOrderId) (trade : Trade) (fill : IbFill)
    (now : Utc) : Prop :=
  (b.onOrderFill cid trade fill now).2 ≠ none →
    (b.onOrderFill cid trade fill now).1.orderTracking.get? cid = b.orderTracking.get? cid ∧
      (b.onOrderFill cid trade fill now).1.events = b.events ∧
      (b.onOrderFill cid trade fill now).1.ready = b.ready

/-- A push is processed atomically exactly when a guard drops it or its fields are well formed:
whenever the handler raises, the state has changed. -/
theorem atomicOnFailure_iff (b : IBBroker) (cid : ClientOrderId) (trade : Trade) (fill : IbFill)
    (now : Utc) : AtomicOnFailure b cid trade fill now ↔
      ∀ tracking execution, Processed b cid fill tracking execution →
        WellFormed tracking execution fill := by
  unfold AtomicOnFailure
  have houtcome := onOrderFill_outcome b cid trade fill now
  generalize b.onOrderFill cid trade fill now = result at houtcome ⊢
  cases houtcome with
  | dropped h =>
    constructor
    · intro _ tracking execution hprocessed
      exact absurd hprocessed (h tracking execution)
    · intro _ hraised
      exact absurd rfl hraised
  | emitted hprocessed hfields =>
    constructor
    · intro _ tracking execution h
      cases hprocessed.tracked.symm.trans h.tracked
      cases hprocessed.reported.symm.trans h.reported
      exact hfields
    · intro _ hraised
      exact absurd rfl hraised
  | @refused tracking execution b' e hprocessed hfields heffect =>
    constructor
    · intro hatomic
      obtain ⟨hsame, -, -⟩ := hatomic (by simp)
      rw [heffect.tracking, if_pos rfl, hprocessed.tracked] at hsame
      have hseen : execution.execId ∈ tracking.seenExecIds := by
        rw [← Option.some.inj hsame]
        exact Finset.mem_insert_self _ _
      exact absurd hseen hprocessed.fresh
    · intro hall
      exact absurd (hall tracking execution hprocessed) hfields

/-- After a push that raised, every later push of its execution is dropped. -/
theorem onOrderFill_lost {b : IBBroker} {cid : ClientOrderId} {trade : Trade} {fill : IbFill}
    {now : Utc} {e : PyError} (h : (b.onOrderFill cid trade fill now).2 = some e)
    {later : IbFill} (hsame : later.execution.map (·.execId) = fill.execution.map (·.execId))
    (trade' : Trade) (now' : Utc) :
    (b.onOrderFill cid trade fill now).1.onOrderFill cid trade' later now' =
      ((b.onOrderFill cid trade fill now).1, none) := by
  have houtcome := onOrderFill_outcome b cid trade fill now
  generalize b.onOrderFill cid trade fill now = result at houtcome h ⊢
  cases houtcome with
  | dropped => cases h
  | emitted => cases h
  | @refused tracking execution b' e' hprocessed _ heffect =>
    have hlater := onOrderFill_outcome b' cid trade' later now'
    have hdropped : ∀ tracking' execution', ¬ Processed b' cid later tracking' execution' := by
      intro tracking' execution' hprocessed'
      have htracked := hprocessed'.tracked
      rw [heffect.tracking, if_pos rfl] at htracked
      have hid : execution'.execId = execution.execId := by
        rw [hprocessed.reported, hprocessed'.reported] at hsame
        exact Option.some.inj hsame
      apply hprocessed'.fresh
      rw [← Option.some.inj htracked, hid]
      exact Finset.mem_insert_self _ _
    dsimp only
    generalize b'.onOrderFill cid trade' later now' = result' at hlater ⊢
    cases hlater with
    | dropped => rfl
    | refused h' => exact absurd h' (hdropped _ _)
    | emitted h' => exact absurd h' (hdropped _ _)

/-- A broker that tracks one order for ten shares. -/
def oneTracked : IBBroker :=
  { init with
    orderTracking := Dict.empty.set 1 ⟨1, 10, sampleInstrument, .buy, false, false, ∅, 0⟩ }

/-- An execution of the given shares at 100. -/
def reportOf (shares : Decimal) : IbFill := ⟨some ⟨"0001", shares, 100, none⟩, none⟩

/-- A push of no shares raises, and leaves its execution seen. -/
theorem not_atomicOnFailure :
    ¬ ∀ (b : IBBroker) (cid : ClientOrderId) (tracking : OrderTrackingState) (trade : Trade)
        (fill : IbFill) (now : Utc), b.orderTracking.get? cid = some tracking →
      AtomicOnFailure b cid trade fill now := by
  intro h
  obtain ⟨-, -, hready⟩ := h oneTracked 1 _ ⟨7, "Submitted", "", []⟩ (reportOf 0) ⟨0⟩ rfl
    (by decide +kernel)
  revert hready
  decide +kernel

end Blive.IBBroker
