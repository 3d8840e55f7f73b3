import Blive.Adapters.Ib.Proofs.Step

/-!
# One placement per client order id

`submit` refuses an id that is in the map of placed trades, but it looks before its two
suspensions and registers the id after `placeOrder`. Two calls of one id that are suspended at
the same time both place. An id is placed at most once exactly when a suspended call goes on
to place, or to reject for want of price rules, only while its id is not registered.
-/

namespace Blive.IBSystem

open Transition IBBroker

/-- How often `placeOrder` was called for `cid`. -/
def placements (cid : ClientOrderId) (s : IBSystem) : Nat := s.placed.countP fun p => p.cid = cid

/-- A submission of an id that was placed before raises `RuntimeError`, and a suspended call of
such an id changes neither the broker nor the wire when it goes on. -/
def LateSubmitNoop (policy : RoundingPolicy) (s : IBSystem) : Action → Prop
  | .submit order => order.val.clientOrderId ∈ s.broker.tradesByClientId →
      ∃ text, s.broker.submit order = .error (.runtimeError text)
  | .priceRules i result now => ∀ call ∈ s.submits[i]?, call.cid ∈ s.broker.tradesByClientId →
      ∀ t, step policy s (.priceRules i result now) = some t →
        t.broker = s.broker ∧ t.placed = s.placed
  | .acquired i result now => ∀ call ∈ s.submits[i]?, call.cid ∈ s.broker.tradesByClientId →
      ∀ t, step policy s (.acquired i result now) = some t →
        t.broker = s.broker ∧ t.placed = s.placed
  | _ => True

/-- A suspended call goes on to place its order, or to reject it for want of price rules, only
while its id is not registered. -/
def ResumesUnregistered (s : IBSystem) (a : Action) : Prop :=
  ∀ call ∈ s.emittingCall a, call.cid ∉ s.broker.tradesByClientId

instance (s : IBSystem) (a : Action) : Decidable (ResumesUnregistered s a) :=
  inferInstanceAs (Decidable (∀ call ∈ _, _))

section Step

variable {policy : RoundingPolicy} {s t : IBSystem}

/-- The handlers and the event loop leave the registered trades and the wire alone. -/
theorem registered_eq_of_step {a : Action} (h : step policy s a = some t)
    (ha : ∀ i orderId now, a ≠ .acquired i (.ok orderId) now) :
    t.broker.tradesByClientId = s.broker.tradesByClientId ∧ t.placed = s.placed := by
  cases a with
  | connect now => cases h; exact ⟨rfl, rfl⟩
  | disconnect now => cases h; exact ⟨rfl, rfl⟩
  | submit order => cases h; exact ⟨rfl, rfl⟩
  | priceRules i result now =>
    obtain ⟨order, -, hplaced, ⟨text, -, hb⟩ | ⟨-, hb⟩⟩ := step_priceRules_cases h
    · refine ⟨?_, hplaced⟩
      rw [hb]
      rfl
    · refine ⟨?_, hplaced⟩
      rw [hb]
  | acquired i result now =>
    obtain ⟨order, contract, ibOrder, -, ⟨e, -, hb, hplaced⟩ | ⟨orderId, rfl, -, -⟩⟩ :=
      step_acquired_cases h
    · refine ⟨?_, hplaced⟩
      rw [hb]
    · exact absurd rfl (ha i orderId now)
  | statusEvent cid trade now =>
    cases h
    refine ⟨?_, rfl⟩
    have heffect := onOrderStatus_effect s.broker cid trade now
    dsimp only
    generalize s.broker.onOrderStatus cid trade now = b at heffect ⊢
    cases heffect with
    | accepted _ _ _ _ _ _ heffect => exact heffect.trades
    | cancelled _ _ _ _ _ heffect => exact heffect.trades
    | inactive _ _ _ _ _ heffect => exact heffect.trades
    | _ => rfl
  | fillEvent cid trade fill now =>
    cases h
    refine ⟨?_, rfl⟩
    have heffect := onOrderFill_effect s.broker cid trade fill now
    dsimp only
    generalize (s.broker.onOrderFill cid trade fill now).1 = b at heffect ⊢
    cases heffect with
    | raised _ _ _ _ _ _ _ _ _ _ heffect => exact heffect.trades
    | emitted _ _ _ _ _ _ _ _ _ _ heffect => exact heffect.trades
    | _ => rfl
  | errorEvent reqId errorCode errorString =>
    cases h
    refine ⟨?_, rfl⟩
    simp only [onIbError]
    split <;> rfl
  | tick log whyHeld now =>
    simp only [step, Option.map_eq_some_iff] at h
    obtain ⟨broker, htick, rfl⟩ := h
    refine ⟨?_, rfl⟩
    unfold IBBroker.tick at htick
    split at htick <;> cases htick <;> rfl

/-- The registered ids are the placed ones, and none was placed twice. -/
structure PlacedOnce (s : IBSystem) : Prop where
  registered : ∀ cid, cid ∈ s.broker.tradesByClientId ↔ 0 < placements cid s
  once : ∀ cid, placements cid s ≤ 1

theorem PlacedOnce.step {a : Action} (hs : PlacedOnce s) (ha : ResumesUnregistered s a)
    (h : IBSystem.step policy s a = some t) : PlacedOnce t := by
  by_cases hplace : ∃ i orderId now, a = .acquired i (.ok orderId) now
  · obtain ⟨i, orderId, now, rfl⟩ := hplace
    obtain ⟨order, contract, ibOrder, hcall, ⟨e, he, -⟩ | ⟨orderId, heq, hb, hplaced⟩⟩ :=
      step_acquired_cases h
    · cases he
    · have hnew : order.val.clientOrderId ∉ s.broker.tradesByClientId :=
        ha ⟨order, .token contract ibOrder⟩ (by simp [emittingCall, hcall])
      have hnone : placements order.val.clientOrderId s = 0 := by
        by_contra hpos
        exact hnew ((hs.registered _).mpr (Nat.pos_of_ne_zero hpos))
      have hcount (cid : ClientOrderId) : placements cid t =
          placements cid s + if order.val.clientOrderId = cid then 1 else 0 := by
        simp [placements, hplaced, List.countP_append, List.countP_cons, PlacedOrder.cid]
      refine ⟨?_, ?_⟩
      · intro cid
        rw [hcount, hb]
        simp only [afterPlaceOrder, IBBroker.put, Dict.mem_set, hs.registered, PlacedOrder.cid]
        by_cases hc : cid = order.val.clientOrderId
        · simp [hc]
        · simp [hc, Ne.symm hc]
      · intro cid
        rw [hcount]
        by_cases hc : order.val.clientOrderId = cid
        · rw [if_pos hc, ← hc, hnone]
        · rw [if_neg hc]
          exact hs.once cid
  · obtain ⟨htrades, hplaced⟩ := registered_eq_of_step h
      fun i orderId now heq => hplace ⟨i, orderId, now, heq⟩
    refine ⟨?_, ?_⟩
    · intro cid
      rw [htrades, hs.registered, placements, placements, hplaced]
    · intro cid
      rw [placements, hplaced]
      exact hs.once cid

theorem submit_registered (b : IBBroker) {order : Order}
    (h : order.val.clientOrderId ∈ b.tradesByClientId) :
    ∃ text, b.submit order = .error (.runtimeError text) := by
  unfold IBBroker.submit require
  by_cases hc : b.connected = true
  · exact ⟨_, by rw [if_pos hc, if_neg (not_not.mpr h)]; rfl⟩
  · exact ⟨_, by rw [if_neg hc]; rfl⟩

/-- A late call leaves a trace exactly when it places or rejects a registered id. -/
theorem lateSubmitNoop_iff (s : IBSystem) (a : Action) :
    LateSubmitNoop policy s a ↔ ResumesUnregistered s a := by
  cases a with
  | submit order =>
    exact iff_of_true (submit_registered s.broker) (by simp [ResumesUnregistered, emittingCall])
  | priceRules i result now =>
    by_cases hreject : ∃ text, result = .error (.priceRuleUnavailable text)
    · obtain ⟨text, rfl⟩ := hreject
      constructor
      · intro h call hcall hmem
        obtain ⟨hcall, hpoint⟩ := Option.filter_eq_some_iff.mp hcall
        obtain ⟨t, ht⟩ : ∃ t, step policy s
            (.priceRules i (.error (.priceRuleUnavailable text)) now) = some t := by
          obtain ⟨order, point⟩ := call
          obtain rfl : point = .priceRules := by simpa using hpoint
          simp [step, hcall]
        have hb := (h call hcall hmem t ht).1
        obtain ⟨order', -, -, ⟨text', -, hrejected⟩ | ⟨hno, -⟩⟩ := step_priceRules_cases ht
        · have hevents := congrArg IBBroker.events (hb.symm.trans hrejected)
          simp [IBBroker.put] at hevents
        · exact absurd rfl (hno text)
      · intro h call hcall hmem t ht
        obtain ⟨order, hpoint, -⟩ := step_priceRules_cases ht
        obtain rfl := Option.some.inj (hcall.symm.trans hpoint)
        exact absurd hmem (h ⟨order, .priceRules⟩ (by simp [emittingCall, hpoint]))
    · have hcond : s.emittingCall (.priceRules i result now) = none := by
        unfold emittingCall
        split <;> simp_all
      refine iff_of_true ?_
        (by simp [ResumesUnregistered, hcond])
      intro call hcall hmem t ht
      obtain ⟨order, -, hplaced, ⟨text, rfl, -⟩ | ⟨-, hb⟩⟩ := step_priceRules_cases ht
      · exact absurd ⟨text, rfl⟩ hreject
      · exact ⟨hb, hplaced⟩
  | acquired i result now =>
    cases result with
    | error e =>
      refine iff_of_true ?_
        (by simp [ResumesUnregistered, emittingCall])
      intro call hcall hmem t ht
      obtain ⟨order, contract, ibOrder, -, ⟨e', -, hb, hplaced⟩ | ⟨orderId, heq, -⟩⟩ :=
        step_acquired_cases ht
      · exact ⟨hb, hplaced⟩
      · cases heq
    | ok orderId =>
      constructor
      · intro h call hcall hmem
        obtain ⟨hcall, hpoint⟩ := Option.filter_eq_some_iff.mp hcall
        obtain ⟨t, ht⟩ : ∃ t, step policy s (.acquired i (.ok orderId) now) = some t := by
          obtain ⟨order, point⟩ := call
          cases point with
          | priceRules => simp at hpoint
          | token contract ibOrder => simp [step, hcall]
        have hplaced := (h call hcall hmem t ht).2
        obtain ⟨_, _, _, -, ⟨e, he, -⟩ | ⟨_, -, -, hnew⟩⟩ := step_acquired_cases ht
        · cases he
        · rw [hnew] at hplaced
          simp at hplaced
      · intro h call hcall hmem t ht
        obtain ⟨order, contract, ibOrder, hpoint, -⟩ := step_acquired_cases ht
        obtain rfl := Option.some.inj (hcall.symm.trans hpoint)
        exact absurd hmem (h ⟨order, .token contract ibOrder⟩ (by simp [emittingCall, hpoint]))
  | _ => exact iff_of_true trivial (by simp [ResumesUnregistered, emittingCall])

end Step

theorem PlacedOnce.init : PlacedOnce IBSystem.init :=
  ⟨fun cid => iff_of_false (Dict.notMem_empty cid) (by simp [placements, IBSystem.init]),
    fun _ => Nat.zero_le 1⟩

/-- Each id is placed at most once and late submissions raise or do nothing, exactly when no
suspended call goes on with an id that is registered by then. -/
theorem placed_once_iff (policy : RoundingPolicy) (as : List Action) (s : IBSystem)
    (hrun : run (step policy) init as = some s) :
    ((∀ cid, placements cid s ≤ 1) ∧ Along (step policy) (LateSubmitNoop policy) init as) ↔
      Along (step policy) ResumesUnregistered init as := by
  have hnoop : Along (step policy) (LateSubmitNoop policy) init as ↔
      Along (step policy) ResumesUnregistered init as :=
    along_congr (I := fun _ => True) (fun _ _ _ _ _ => trivial)
      (fun s a _ => lateSubmitNoop_iff s a) trivial
  rw [hnoop, and_iff_right_iff_imp]
  intro halong
  have honce : PlacedOnce s :=
    run_invariant_along (fun _ _ _ => PlacedOnce.step) PlacedOnce.init halong hrun
  exact honce.once

/-- Two calls of one market order are in the rate limiter at the same time. -/
def concurrentSubmitRun : List Action :=
  [.connect ⟨0⟩, .submit (sampleOrder 1), .submit (sampleOrder 1),
    .acquired 0 (.ok 7) ⟨1⟩, .acquired 0 (.ok 8) ⟨2⟩]

theorem not_placed_once :
    ¬ ∀ (policy : RoundingPolicy) (as : List Action) (s : IBSystem),
      run (step policy) init as = some s →
        (∀ cid, placements cid s ≤ 1) ∧ Along (step policy) (LateSubmitNoop policy) init as := by
  intro h
  have htwice : ((run (step .nearest) init concurrentSubmitRun).map (placements 1)) = some 2 := by
    decide +kernel
  obtain ⟨s, hrun, hcount⟩ := Option.map_eq_some_iff.mp htwice
  have hone := (h .nearest concurrentSubmitRun s hrun).1 1
  omega

/-- The order is submitted again once it is placed. -/
def sequentialSubmitRun : List Action :=
  [.connect ⟨0⟩, .submit (sampleOrder 1), .acquired 0 (.ok 7) ⟨1⟩,
    .submit (sampleOrder 1)]

theorem placed_once_sequentialSubmitRun :
    ∃ s, run (step .nearest) init sequentialSubmitRun = some s ∧
      (∀ cid, placements cid s ≤ 1) ∧
        Along (step .nearest) (LateSubmitNoop .nearest) init sequentialSubmitRun := by
  have henabled : (run (step .nearest) init sequentialSubmitRun).isSome := by decide +kernel
  obtain ⟨s, hrun⟩ := Option.isSome_iff_exists.mp henabled
  exact ⟨s, hrun, (placed_once_iff .nearest sequentialSubmitRun s hrun).mpr (by decide +kernel)⟩

end Blive.IBSystem
