import Mathlib.Tactic.Ring
import Blive.Domain.Types

/-!
# Position arithmetic

`domain/positions.py`: `apply_fill` and what it does to the signed quantity of a position.
-/

namespace Blive

/-- `position.quantity`, zero for no position. -/
def quantityOf (position : Option Position) : Decimal := (position.map (·.val.quantity)).getD 0

/-- The position a fill opens: the case flat → open. -/
def openPosition (fill : Fill) (strategyId : String) (now : Datetime) : PositionFields where
  instrument := fill.val.instrument
  strategyId := strategyId
  quantity := fill.signedQty
  avgCost := fill.val.price
  currency := fill.val.instrument.val.currency
  openedAt := some fill.val.timeUtc
  updatedAt := now

/-- The other four cases, for a position that is not flat. -/
def adjustPosition (position : PositionFields) (fill : Fill) (now : Datetime) : PositionFields :=
  let signedQty := fill.signedQty
  let newQty := position.quantity + signedQty
  if (position.quantity > 0 ∧ signedQty > 0) ∨ (position.quantity < 0 ∧ signedQty < 0) then
    let notionalExisting := position.quantity * position.avgCost
    let notionalAdded := signedQty * fill.val.price
    { position with
      quantity := newQty
      avgCost := |(notionalExisting + notionalAdded) / newQty|
      updatedAt := now }
  else if newQty = 0 then
    { position with quantity := 0, avgCost := 0, openedAt := none, updatedAt := now }
  else if (position.quantity > 0) ≠ (newQty > 0) then
    { position with
      quantity := newQty
      avgCost := fill.val.price
      openedAt := some fill.val.timeUtc
      updatedAt := now }
  else { position with quantity := newQty, updatedAt := now }

/-- `apply_fill` -/
def applyFill (position : Option Position) (fill : Fill) (strategyId : String) (now : Datetime) :
    Except PyError Position :=
  match position with
  | none => Frozen.make (openPosition fill strategyId now)
  | some position =>
      if position.val.quantity = 0 then Frozen.make (openPosition fill strategyId now)
      else do
        require (position.val.strategyId = strategyId) (.valueError "strategy_id mismatch: ")
        require (position.val.instrument = fill.val.instrument)
          (.valueError "instrument mismatch: ")
        Frozen.make (adjustPosition position.val fill now)

theorem adjustPosition_quantity (position : PositionFields) (fill : Fill) (now : Datetime) :
    (adjustPosition position fill now).quantity = position.quantity + fill.signedQty := by
  unfold adjustPosition
  dsimp only
  split_ifs with _ hzero <;> first | rfl | exact hzero.symm

/-- Whatever the case, the signed quantity of the fill is added to the position's. -/
theorem applyFill_quantity {position : Option Position} {fill : Fill} {strategyId : String}
    {now : Datetime} {result : Position}
    (h : applyFill position fill strategyId now = .ok result) :
    result.val.quantity = quantityOf position + fill.signedQty := by
  cases position with
  | none =>
    rw [Frozen.make_eq_ok_iff.mp h]
    simp [openPosition, quantityOf]
  | some position =>
    simp only [applyFill] at h
    split at h
    · rename_i hzero
      rw [Frozen.make_eq_ok_iff.mp h]
      simp [openPosition, quantityOf, hzero]
    · obtain ⟨-, h⟩ := require_bind_eq_ok_iff.mp h
      obtain ⟨-, h⟩ := require_bind_eq_ok_iff.mp h
      rw [Frozen.make_eq_ok_iff.mp h, adjustPosition_quantity]
      simp [quantityOf]

end Blive
