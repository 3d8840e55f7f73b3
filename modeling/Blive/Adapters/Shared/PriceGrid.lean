import Blive.Domain.Types
import Blive.Misc.DecimalContext

/-!
# Venue price grids

`adapters/shared/price_grid.py`: a price is snapped to a legal tick of the band that governs
it. `quantize` needs the exponent of the increment besides its value, so an increment is held
as coefficient and exponent. What the operations on the prices round to is a parameter.
-/

namespace Blive

inductive RoundingPolicy where
  | nearest | conservative | aggressive
  deriving DecidableEq, Repr

structure PriceIncrementFields where
  lowEdge : Decimal
  coefficient : Int
  exponent : Int
  deriving DecidableEq

/-- The legal tick of the band. -/
def PriceIncrementFields.increment (band : PriceIncrementFields) : Decimal :=
  band.coefficient * (10 : Rat) ^ band.exponent

instance : PostInit PriceIncrementFields where
  postInit band := do
    require (0 < band.increment) (.valueError "PriceIncrement.increment must be > 0, got ")
    require (0 ≤ band.lowEdge) (.valueError "PriceIncrement.low_edge must be >= 0, got ")

abbrev PriceIncrement := Frozen PriceIncrementFields

/-- `min(increments, key=lambda band: band.low_edge)`: the first of the lowest bands. -/
def lowestBand (first : PriceIncrement) (rest : List PriceIncrement) : PriceIncrement :=
  rest.foldl (fun chosen band => if band.val.lowEdge < chosen.val.lowEdge then band else chosen)
    first

/-- `_band_for`, on a table that is not empty. -/
def bandFor (price : Decimal) (first : PriceIncrement) (rest : List PriceIncrement) :
    PriceIncrement :=
  (first :: rest).foldl (fun chosen band =>
    if chosen.val.lowEdge ≤ band.val.lowEdge ∧ band.val.lowEdge ≤ price then band else chosen)
    (lowestBand first rest)

/-- `steps.to_integral_value(rounding=rounding)` with the rounding `snap_price` picks. -/
def roundSteps (policy : RoundingPolicy) (side : OrderSide) (steps : Decimal) : Int :=
  match policy, side with
  | .nearest, _ => roundHalfUp steps
  | .conservative, .buy | .aggressive, .sell => steps.floor
  | .conservative, .sell | .aggressive, .buy => steps.ceil

def snapPrice (arith : Arithmetic) (price : Decimal) (increments : List PriceIncrement)
    (side : OrderSide) (policy : RoundingPolicy) : Except PyError Decimal := do
  require (0 < price) (.valueError "price must be > 0 to snap, got ")
  match increments with
  | [] => .error (.valueError "increments table must be non-empty")
  | first :: rest =>
      let band := bandFor price first rest
      let above ← arith.fix (price - band.val.lowEdge)
      let steps ← arith.fix (above / band.val.increment)
      let k := roundSteps policy side steps
      let scaled ← arith.fix (k * band.val.increment)
      let snapped ← arith.fix (band.val.lowEdge + scaled)
      arith.quantize snapped band.val.exponent roundHalfEven

end Blive
