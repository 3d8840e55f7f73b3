import Blive.Adapters.Ib.Proofs.Step

/-!
# The error codes the broker has seen

`_on_ib_error` counts the pushes that concern an order; nothing else the broker does touches the
counts.
-/

namespace Blive.IBSystem

open IBBroker

/-- The code of an error push that concerns an order. -/
def orderErrors : Action → List Int
  | .errorEvent reqId errorCode _ => if 0 < reqId then [errorCode] else []
  | _ => []

variable {policy : RoundingPolicy} {s t : IBSystem}

theorem onOrderStatus_observedErrorCodes (b : IBBroker) (cid : ClientOrderId) (trade : Trade)
    (now : Utc) : (b.onOrderStatus cid trade now).observedErrorCodes = b.observedErrorCodes := by
  unfold onOrderStatus
  split
  · rfl
  · split_ifs <;> rfl

theorem onOrderFill_observedErrorCodes (b : IBBroker) (cid : ClientOrderId) (trade : Trade)
    (fill : IbFill) (now : Utc) :
    (b.onOrderFill cid trade fill now).1.observedErrorCodes = b.observedErrorCodes := by
  have haccept (b : IBBroker) (tracking : OrderTrackingState) :
      (b.acceptFirstFill cid tracking trade now).1.observedErrorCodes = b.observedErrorCodes := by
    unfold acceptFirstFill
    split_ifs <;> rfl
  have hemit (b : IBBroker) (tracking : OrderTrackingState) (fill : Fill) :
      (b.emitFill cid tracking trade fill now).observedErrorCodes = b.observedErrorCodes := by
    unfold emitFill
    dsimp only
    split_ifs <;> rfl
  unfold onOrderFill
  split
  · rfl
  · rename_i tracking _
    split_ifs
    · rfl
    · split
      · rfl
      · rename_i execution _
        split_ifs
        · rfl
        · rfl
        · dsimp only
          split
          · rw [haccept]
            rfl
          · rw [hemit, haccept]
            rfl

/-- A step counts the error push it is, if it is one that concerns an order. -/
theorem tally_observedErrorCodes {a : Action} (h : step policy s a = some t) (code : Int) :
    t.broker.observedErrorCodes.tally code =
      s.broker.observedErrorCodes.tally code + (orderErrors a).count code := by
  have hsame {action : Action} (heq : t.broker.observedErrorCodes = s.broker.observedErrorCodes)
      (hnone : orderErrors action = []) :
      t.broker.observedErrorCodes.tally code =
        s.broker.observedErrorCodes.tally code + (orderErrors action).count code := by
    rw [heq, hnone]
    rfl
  cases a with
  | connect now =>
    cases h
    exact hsame rfl rfl
  | disconnect now =>
    cases h
    exact hsame rfl rfl
  | submit order =>
    cases h
    exact hsame rfl rfl
  | priceRules i result now =>
    refine hsame ?_ rfl
    obtain ⟨order, -, -, ⟨text, -, hb⟩ | ⟨-, hb⟩⟩ := step_priceRules_cases h <;> rw [hb]
    rfl
  | acquired i result now =>
    refine hsame ?_ rfl
    obtain ⟨order, contract, ibOrder, -, ⟨e, -, hb, -⟩ | ⟨orderId, -, hb, -⟩⟩ :=
      step_acquired_cases h <;> rw [hb]
    rfl
  | statusEvent cid trade now =>
    cases h
    exact hsame (onOrderStatus_observedErrorCodes s.broker cid trade now) rfl
  | fillEvent cid trade fill now =>
    cases h
    exact hsame (onOrderFill_observedErrorCodes s.broker cid trade fill now) rfl
  | errorEvent reqId errorCode errorString =>
    cases h
    by_cases hreq : reqId ≤ 0
    · simp only [orderErrors, if_neg (Int.not_lt.mpr hreq)]
      simp only [onIbError, if_pos hreq]
      rfl
    · simp only [orderErrors, if_pos (Int.not_le.mp hreq)]
      simp only [onIbError, if_neg hreq]
      show (s.broker.observedErrorCodes.set errorCode
        (s.broker.observedErrorCodes.tally errorCode + 1)).tally code = _
      rw [Dict.tally_set, List.count_singleton]
      by_cases hcode : code = errorCode
      · simp [hcode]
      · simp [hcode, Ne.symm hcode]
  | tick log whyHeld now =>
    obtain ⟨broker, htick, rfl⟩ := Option.map_eq_some_iff.mp h
    refine hsame ?_ rfl
    simp only [tick] at htick
    split at htick <;> cases htick <;> rfl

end Blive.IBSystem
