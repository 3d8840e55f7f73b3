import Blive.Adapters.Ib.Proofs.Placement

/-!
# A submission that fails

A call of `submit` that raises, wherever it raises, has changed neither the broker nor the wire:
the run ends as it would have ended without the call. What the other calls do in between stays.
A later submission of the id is refused only if another call placed it.
-/

namespace Blive

/-! ## Erasing two entries of a list -/

/-- The index of the entry at `i` once the entry at `k` is erased. -/
def indexAfterErase (k i : Nat) : Nat := if k < i then i - 1 else i

section EraseIdx

variable {α : Type*} {l : List α} {k i : Nat}

theorem getElem?_eraseIdx_indexAfterErase (h : i ≠ k) :
    (l.eraseIdx k)[indexAfterErase k i]? = l[i]? := by
  rw [List.getElem?_eraseIdx, indexAfterErase]
  by_cases hlt : k < i
  · rw [if_pos hlt, if_neg (by omega), Nat.sub_add_cancel (by omega)]
  · rw [if_neg hlt, if_pos (Nat.lt_of_le_of_ne (Nat.le_of_not_lt hlt) h)]

theorem eraseIdx_eraseIdx_comm :
    (l.eraseIdx k).eraseIdx (indexAfterErase k i) =
      (l.eraseIdx i).eraseIdx (indexAfterErase i k) := by
  apply List.ext_getElem?
  intro j
  simp only [List.getElem?_eraseIdx, indexAfterErase]
  split_ifs <;> first | rfl | omega

theorem indexAfterErase_lt (h : i ≠ k) (hk : k < l.length) :
    indexAfterErase i k < (l.eraseIdx i).length := by
  rw [List.length_eraseIdx, indexAfterErase]
  split_ifs <;> omega

theorem eraseIdx_length_concat (x : α) : (l ++ [x]).eraseIdx l.length = l := by
  rw [List.eraseIdx_append_of_length_le (Nat.le_refl _), Nat.sub_self]
  exact List.append_nil l

end EraseIdx

end Blive

namespace Blive.IBSystem

open Transition IBBroker

/-- The suspended call an action resumes. -/
def Action.resumes : Action → Option Nat
  | .priceRules i _ _ => some i
  | .acquired i _ _ => some i
  | _ => none

/-- The action in a system that lacks the suspended call at place `k`. -/
def Action.skip (k : Nat) : Action → Action
  | .priceRules i result now => .priceRules (indexAfterErase k i) result now
  | .acquired i result now => .acquired (indexAfterErase k i) result now
  | a => a

/-- The place of the call at place `k` once the action has resumed another call. -/
def Action.placeAfter (a : Action) (k : Nat) : Nat :=
  match a.resumes with
  | some i => indexAfterErase i k
  | none => k

/-- How the stretch of `submit` ends that the action starts or resumes. -/
def outcome (policy : RoundingPolicy) (s : IBSystem) : Action → SubmitResult
  | .submit order => .ofExcept (s.broker.submit order)
  | .priceRules i result now =>
      match s.submits[i]? with
      | some ⟨order, .priceRules⟩ => (s.broker.afterPriceRules policy order result now).2
      | _ => .returned
  | .acquired _ (.error e) _ => .raised e
  | _ => .returned

/-- The suspended calls the action does not resume. -/
def others (submits : List SubmitCall) (a : Action) : List SubmitCall :=
  match a.resumes with
  | some i => submits.eraseIdx i
  | none => submits

/-- The run after the call at place `k` was suspended, without the call, once it has raised; `none`
if it does not raise in this run. -/
def withoutCall (policy : RoundingPolicy) : Nat → IBSystem → List Action → Option (List Action)
  | _, _, [] => none
  | k, s, a :: rest =>
      match step policy s a with
      | none => none
      | some t =>
          if a.resumes = some k then
            match outcome policy s a with
            | .raised _ => some rest
            -- The call is suspended again, behind the others.
            | .suspended _ => withoutCall policy (s.submits.length - 1) t rest
            | .returned => none
          else (withoutCall policy (a.placeAfter k) t rest).map (a.skip k :: ·)

/-- The run that follows a call of `submit`, without the call, if the call raises. -/
def withoutSubmit (policy : RoundingPolicy) (s : IBSystem) (order : Order) (as : List Action) :
    Option (List Action) :=
  match s.broker.submit order with
  | .error _ => some as
  | .ok call => withoutCall policy s.submits.length { s with submits := s.submits ++ [call] } as

variable {policy : RoundingPolicy} {s t : IBSystem}

/-! ## One step -/

theorem step_submits {a : Action} (h : step policy s a = some t) :
    t.submits = suspend (others s.submits a) (outcome policy s a) := by
  cases a with
  | submit order =>
    cases h
    rfl
  | priceRules i result now =>
    simp only [step] at h
    split at h
    · rename_i order hcall
      cases h
      simp only [others, Action.resumes, outcome, hcall]
    · cases h
  | acquired i result now =>
    simp only [step] at h
    split at h
    · cases result <;> cases h <;> rfl
    · cases h
  | tick log whyHeld now =>
    obtain ⟨broker, -, rfl⟩ := Option.map_eq_some_iff.mp h
    rfl
  | _ =>
    cases h
    rfl

/-- A stretch of `submit` that does not return leaves the broker and the wire alone. -/
theorem step_unreturned {a : Action} (h : step policy s a = some t)
    (hout : outcome policy s a ≠ .returned) : t.broker = s.broker ∧ t.placed = s.placed := by
  cases a with
  | submit order =>
    cases h
    exact ⟨rfl, rfl⟩
  | priceRules i result now =>
    obtain ⟨order, hcall, hplaced, ⟨text, rfl, -⟩ | ⟨-, hbroker⟩⟩ := step_priceRules_cases h
    · simp only [outcome, hcall, afterPriceRules] at hout
      exact absurd rfl hout
    · exact ⟨hbroker, hplaced⟩
  | acquired i result now =>
    obtain ⟨_, _, _, -, ⟨e, -, hbroker, hplaced⟩ | ⟨orderId, rfl, -⟩⟩ := step_acquired_cases h
    · exact ⟨hbroker, hplaced⟩
    · exact absurd rfl hout
  | _ => exact absurd rfl hout

/-- The system without the suspended call at place `k`. -/
def dropCall (s : IBSystem) (k : Nat) : IBSystem := { s with submits := s.submits.eraseIdx k }

theorem eraseIdx_suspend {submits : List SubmitCall} {k : Nat} (hk : k < submits.length)
    (result : SubmitResult) :
    (suspend submits result).eraseIdx k = suspend (submits.eraseIdx k) result := by
  cases result with
  | suspended call => exact List.eraseIdx_append_of_lt_length hk _
  | returned => rfl
  | raised e => rfl

theorem lt_length_suspend {submits : List SubmitCall} {k : Nat} (hk : k < submits.length)
    (result : SubmitResult) : k < (suspend submits result).length := by
  cases result with
  | suspended call => exact Nat.lt_of_lt_of_le hk (by simp [suspend])
  | returned => exact hk
  | raised e => exact hk

/-- An action that resumes another call does not look at the call at place `k`. -/
theorem step_dropCall {a : Action} {k : Nat} (hk : k < s.submits.length)
    (ha : a.resumes ≠ some k) (h : step policy s a = some t) :
    step policy (s.dropCall k) (a.skip k) = some (t.dropCall (a.placeAfter k)) ∧
      a.placeAfter k < t.submits.length := by
  cases a with
  | submit order =>
    cases h
    refine ⟨?_, lt_length_suspend hk _⟩
    simp only [step, Action.skip, dropCall, Action.placeAfter, Action.resumes]
    rw [eraseIdx_suspend hk]
  | priceRules i result now =>
    have hi : i ≠ k := fun heq => ha (congrArg some heq)
    simp only [step] at h
    split at h
    · rename_i order hcall
      cases h
      have hplace : indexAfterErase i k < (s.submits.eraseIdx i).length := indexAfterErase_lt hi hk
      refine ⟨?_, lt_length_suspend hplace _⟩
      simp only [step, Action.skip, dropCall, Action.placeAfter, Action.resumes,
        getElem?_eraseIdx_indexAfterErase hi, hcall]
      rw [eraseIdx_suspend hplace, eraseIdx_eraseIdx_comm]
    · cases h
  | acquired i result now =>
    have hi : i ≠ k := fun heq => ha (congrArg some heq)
    simp only [step] at h
    split at h
    · rename_i order contract ibOrder hcall
      have hplace : indexAfterErase i k < (s.submits.eraseIdx i).length := indexAfterErase_lt hi hk
      cases result with
      | error e =>
        cases h
        refine ⟨?_, hplace⟩
        simp only [step, Action.skip, dropCall, Action.placeAfter, Action.resumes,
          getElem?_eraseIdx_indexAfterErase hi, hcall]
        rw [eraseIdx_eraseIdx_comm]
      | ok orderId =>
        cases h
        refine ⟨?_, hplace⟩
        simp only [step, Action.skip, dropCall, Action.placeAfter, Action.resumes,
          getElem?_eraseIdx_indexAfterErase hi, hcall]
        rw [eraseIdx_eraseIdx_comm]
    · cases h
  | tick log whyHeld now =>
    obtain ⟨broker, htick, rfl⟩ := Option.map_eq_some_iff.mp h
    refine ⟨?_, hk⟩
    simp only [step, Action.skip, dropCall, htick, Option.map_some]
    rfl
  | _ =>
    cases h
    exact ⟨rfl, hk⟩

/-- A stretch of the call at place `k` that does not return leaves the rest of the system alone:
the call is gone, or suspended again behind the others. -/
theorem step_resumed {a : Action} {k : Nat} (ha : a.resumes = some k)
    (h : step policy s a = some t) :
    (∀ e, outcome policy s a = .raised e → t = s.dropCall k) ∧
      ∀ call, outcome policy s a = .suspended call →
        t.submits = s.submits.eraseIdx k ++ [call] ∧
          t.dropCall (s.submits.eraseIdx k).length = s.dropCall k := by
  have hsubmits : t.submits = suspend (s.submits.eraseIdx k) (outcome policy s a) := by
    rw [step_submits h, others, ha]
  refine ⟨?_, ?_⟩
  · intro e hout
    obtain ⟨hbroker, hplaced⟩ := step_unreturned h (by simp [hout])
    rw [hout, suspend] at hsubmits
    rw [dropCall, ← hbroker, ← hplaced, ← hsubmits]
  · intro call hout
    obtain ⟨hbroker, hplaced⟩ := step_unreturned h (by simp [hout])
    rw [hout, suspend] at hsubmits
    refine ⟨hsubmits, ?_⟩
    rw [dropCall, dropCall, hbroker, hplaced, hsubmits, eraseIdx_length_concat]

/-! ## Whole runs -/

/-- A run in which the suspended call at place `k` raises ends as the run without the call. -/
theorem run_withoutCall {k : Nat} {as as' : List Action} (hk : k < s.submits.length)
    (hwithout : withoutCall policy k s as = some as') (hrun : run (step policy) s as = some t) :
    run (step policy) (s.dropCall k) as' = some t := by
  induction as generalizing s k as' with
  | nil => cases hwithout
  | cons a rest ih =>
    obtain ⟨m, hm, hrest⟩ := run_cons_eq_some.mp hrun
    simp only [withoutCall, hm] at hwithout
    by_cases ha : a.resumes = some k
    · rw [if_pos ha] at hwithout
      obtain ⟨hraised, hsuspended⟩ := step_resumed ha hm
      cases hout : outcome policy s a with
      | raised e =>
        rw [hout] at hwithout
        cases hwithout
        rw [← hraised e hout]
        exact hrest
      | suspended call =>
        rw [hout] at hwithout
        obtain ⟨hsubmits, hdrop⟩ := hsuspended call hout
        have hlen : (s.submits.eraseIdx k).length = s.submits.length - 1 :=
          List.length_eraseIdx_of_lt hk
        have hplace : s.submits.length - 1 < m.submits.length := by
          rw [hsubmits, List.length_append, hlen]
          exact Nat.lt_succ_self _
        rw [hlen] at hdrop
        rw [← hdrop]
        exact ih hplace hwithout hrest
      | returned =>
        rw [hout] at hwithout
        cases hwithout
    · rw [if_neg ha] at hwithout
      obtain ⟨as'', hrestWithout, rfl⟩ := Option.map_eq_some_iff.mp hwithout
      obtain ⟨hstep, hplace⟩ := step_dropCall hk ha hm
      exact run_cons_eq_some.mpr ⟨_, hstep, ih hplace hrestWithout hrest⟩

/-- A run in which a call of `submit` raises ends as the run without the call. -/
theorem run_withoutSubmit {order : Order} {as as' : List Action}
    (hwithout : withoutSubmit policy s order as = some as')
    (hrun : run (step policy) s (.submit order :: as) = some t) :
    run (step policy) s as' = some t := by
  obtain ⟨m, hm, hrest⟩ := run_cons_eq_some.mp hrun
  unfold withoutSubmit at hwithout
  cases hsubmit : s.broker.submit order with
  | error e =>
    simp only [step, hsubmit, SubmitResult.ofExcept, suspend] at hm
    rw [hsubmit] at hwithout
    cases hm
    cases hwithout
    exact hrest
  | ok call =>
    simp only [step, hsubmit, SubmitResult.ofExcept, suspend] at hm
    rw [hsubmit] at hwithout
    cases hm
    have hplace : s.submits.length < (s.submits ++ [call]).length := by simp
    have hdrop : dropCall { s with submits := s.submits ++ [call] } s.submits.length = s := by
      rw [dropCall, eraseIdx_length_concat]
    rw [← hdrop]
    exact run_withoutCall hplace hwithout hrest

/-! ## A later submission -/

/-- The actions of a `submit` call that goes through: the price rules answer with the increments if
the order has prices, and the limiter lets it place. `n` calls are suspended before it. -/
def submission (n : Nat) (order : Order) (increments : List PriceIncrement) (orderId : Int)
    (now now' : Utc) : List Action :=
  .submit order ::
    ((if order.val.limitPrice = none ∧ order.val.stopPrice = none then []
      else [.priceRules n (.ok increments) now]) ++ [.acquired n (.ok orderId) now'])

/-- A valid submission of the order goes through: a connected broker whose increments give a valid
snapped order, with a contract and an IB order for it, places and registers that order. -/
def FirstSubmission (policy : RoundingPolicy) (s : IBSystem) (order : Order) : Prop :=
  ∀ increments snapped contract ibOrder orderId now now', s.broker.connected = true →
    (snapOrderPrices policy order increments >>= prepareOrder) =
      .ok ⟨snapped, .token contract ibOrder⟩ →
    run (step policy) s (submission s.submits.length order increments orderId now now') =
      some {
        broker := s.broker.afterPlaceOrder ⟨snapped, contract, ibOrder, orderId⟩ now'
        submits := s.submits
        placed := s.placed ++ [⟨snapped, contract, ibOrder, orderId⟩] }

theorem firstSubmission_of_unregistered {order : Order}
    (h : order.val.clientOrderId ∉ s.broker.tradesByClientId) : FirstSubmission policy s order := by
  intro increments snapped contract ibOrder orderId now now' hconnected hprepared
  have hsubmit : s.broker.submit order =
      if order.val.limitPrice = none ∧ order.val.stopPrice = none then prepareOrder order
      else .ok ⟨order, .priceRules⟩ := by
    simp only [IBBroker.submit, require, hconnected, h, if_true, not_false_eq_true]
    rfl
  by_cases hunpriced : order.val.limitPrice = none ∧ order.val.stopPrice = none
  · rw [snapOrderPrices_unpriced hunpriced] at hprepared
    replace hprepared : prepareOrder order = .ok ⟨snapped, .token contract ibOrder⟩ := hprepared
    rw [if_pos hunpriced, hprepared] at hsubmit
    rw [submission, if_pos hunpriced]
    simp only [List.nil_append, run, step, hsubmit, SubmitResult.ofExcept, suspend,
      Option.bind_some, List.getElem?_concat_length, eraseIdx_length_concat]
  · rw [if_neg hunpriced] at hsubmit
    rw [submission, if_neg hunpriced]
    simp only [List.cons_append, List.nil_append, run, step, hsubmit, SubmitResult.ofExcept,
      suspend, Option.bind_some, List.getElem?_concat_length, eraseIdx_length_concat,
      afterPriceRules, hprepared]

/-- What a run registers it has placed. -/
theorem registered_of_run {as : List Action} (hrun : run (step policy) s as = some t) :
    ∃ news, t.placed = s.placed ++ news ∧
      ∀ cid ∈ t.broker.tradesByClientId,
        cid ∈ s.broker.tradesByClientId ∨ ∃ p ∈ news, p.cid = cid := by
  refine run_invariant (I := fun t => ∃ news, t.placed = s.placed ++ news ∧
    ∀ cid ∈ t.broker.tradesByClientId,
      cid ∈ s.broker.tradesByClientId ∨ ∃ p ∈ news, p.cid = cid) ?_ ?_ hrun
  · rintro m a n ⟨news, hplaced, hnews⟩ hstep
    by_cases hplace : ∃ i orderId now, a = .acquired i (.ok orderId) now
    · obtain ⟨i, orderId, now, rfl⟩ := hplace
      obtain ⟨order, contract, ibOrder, -, ⟨e, he, -⟩ | ⟨orderId, -, hbroker, hnew⟩⟩ :=
        step_acquired_cases hstep
      · cases he
      · refine ⟨news ++ [⟨order, contract, ibOrder, orderId⟩], ?_, ?_⟩
        · rw [hnew, hplaced, List.append_assoc]
        · intro cid hcid
          rw [hbroker] at hcid
          rcases (Dict.mem_set ..).mp hcid with rfl | hcid
          · exact .inr ⟨_, List.mem_append_right _ (List.mem_singleton_self _), rfl⟩
          · rcases hnews cid hcid with hold | ⟨p, hp, rfl⟩
            · exact .inl hold
            · exact .inr ⟨p, List.mem_append_left _ hp, rfl⟩
    · obtain ⟨htrades, hsame⟩ := registered_eq_of_step hstep
        fun i orderId now heq => hplace ⟨i, orderId, now, heq⟩
      refine ⟨news, hsame.trans hplaced, ?_⟩
      intro cid hcid
      rw [htrades] at hcid
      exact hnews cid hcid
  · exact ⟨[], (List.append_nil _).symm, fun cid hcid => .inl hcid⟩

/-- A call of `submit` that raises leaves no trace: the run ends as it ends without the call, and a
later submission of an id that was not registered before goes through, unless another call placed
it in between. -/
theorem submit_leaves_no_trace {order : Order} {as as' : List Action}
    (hwithout : withoutSubmit policy s order as = some as')
    (hrun : run (step policy) s (.submit order :: as) = some t) :
    run (step policy) s as' = some t ∧
      (order.val.clientOrderId ∉ s.broker.tradesByClientId →
        (∀ p ∈ t.placed.drop s.placed.length, p.cid ≠ order.val.clientOrderId) →
        ∀ later : Order, later.val.clientOrderId = order.val.clientOrderId →
          FirstSubmission policy t later) := by
  refine ⟨run_withoutSubmit hwithout hrun, ?_⟩
  intro hnew hothers later hlater
  apply firstSubmission_of_unregistered
  intro hregistered
  obtain ⟨news, hplaced, hnews⟩ := registered_of_run hrun
  rw [hlater] at hregistered
  rcases hnews _ hregistered with hold | ⟨p, hp, hcid⟩
  · exact hnew hold
  · refine hothers p ?_ hcid
    rw [hplaced, List.drop_left]
    exact hp

/-- A connected broker with nothing placed. -/
def connectedSystem : IBSystem := { init with broker := init.broker.connect ⟨0⟩ }

/-- While the order waits in the limiter, another one is placed; then the limiter raises. -/
def failedSubmitRest : List Action :=
  [.submit (sampleOrder 2), .acquired 1 (.ok 7) ⟨1⟩,
    .acquired 0 (.error (.runtimeError "rate limiter")) ⟨2⟩]

theorem submit_leaves_no_trace_limiter :
    ∃ t, run (step .nearest) connectedSystem [.submit (sampleOrder 2), .acquired 0 (.ok 7) ⟨1⟩] =
        some t ∧ FirstSubmission .nearest t (sampleOrder 1) := by
  have henabled : (run (step .nearest) connectedSystem
      (.submit (sampleOrder 1) :: failedSubmitRest)).isSome := by decide +kernel
  obtain ⟨t, hrun⟩ := Option.isSome_iff_exists.mp henabled
  have hplaced : (run (step .nearest) connectedSystem
      (.submit (sampleOrder 1) :: failedSubmitRest)).map (fun t => t.placed.map (·.cid)) =
        some [2] := by
    decide +kernel
  rw [hrun, Option.map_some, Option.some_inj] at hplaced
  have hwithout : withoutSubmit .nearest connectedSystem (sampleOrder 1) failedSubmitRest =
      some [.submit (sampleOrder 2), .acquired 0 (.ok 7) ⟨1⟩] := rfl
  obtain ⟨hsame, hfirst⟩ := submit_leaves_no_trace hwithout hrun
  refine ⟨t, hsame, hfirst (by decide) ?_ _ rfl⟩
  intro p hp
  have hcid : p.cid ∈ t.placed.map (·.cid) := List.mem_map_of_mem (List.mem_of_mem_drop hp)
  rw [hplaced, List.mem_singleton] at hcid
  rw [hcid]
  decide

end Blive.IBSystem
