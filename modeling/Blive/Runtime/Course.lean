import Blive.Misc.Timeline
import Blive.Runtime.IbPipeline
import Blive.Runtime.SingleLeg

/-!
# The course of a rebalance loop

What a `RebalanceLoop` decides, apart from its broker, its queue and its coroutine: its orders up
to their ids, its ledger and its equity curve. The course is moved by what the loop hears, and
where it stands says what it can hear next.
-/

namespace Blive

/-- The fill without its `client_order_id`. -/
def Fill.anonymous (fill : Fill) : Fill := ⟨{ fill.val with clientOrderId := 0 }, fill.valid⟩

namespace IbPipeline

/-- What becomes of an order that was passed to the broker. -/
inductive Fate where
  | filled (fill : Fill)
  /-- The order was canceled or rejected, or the engine gave it up. -/
  | unfilled
  | raised

/-- What the loop hears: that it is its turn, how the switch and the files are when it asks the
risk engine, and what became of an order. -/
inductive Input where
  | turned
  | asked (killSwitch : KillSwitch) (artefact : String → Artefact)
  | answered (fate : Fate)

/-- An input with something in it that the loop does not know by itself. -/
def Input.isResponse : Input → Bool
  | .turned => false
  | .asked _ _ => true
  | .answered _ => true

/-- Where the loop stands: at the head of the loop over the bars, at the head of the loop over the
candidates, or with an order at the broker. -/
inductive Place where
  | atBar (bars : List Bar)
  | atOrder (rebalance : Rebalance) (orders : List Order) (bars : List Bar)
  | waiting (rebalance : Rebalance) (orders : List Order) (bars : List Bar)
  | ended

/-- The orders in `submitted` are with the time of their rebalance. -/
structure Course where
  cash : Decimal
  positions : Dict String Position
  equityCurve : List EquityPoint
  submitted : List (Datetime × Order)
  place : Place

namespace Course

/-- The course can hear this where it stands. -/
def CanHear (course : Course) : Input → Prop
  | .turned =>
      match course.place with
      | .atBar _ | .atOrder _ [] _ => True
      | _ => False
  | .asked _ _ =>
      match course.place with
      | .atOrder _ (_ :: _) _ => True
      | _ => False
  | .answered _ =>
      match course.place with
      | .waiting _ _ _ => True
      | _ => False

def stop (course : Course) : Course := { course with place := .ended }

variable (loop : RebalanceLoop)

/-- The sizer's input. -/
def sizerInput (course : Course) (rebalance : Rebalance) : SizerInput where
  targetWeights := rebalance.targetWeights
  equity := loop.computeEquity course.cash course.positions rebalance
  navSlice := loop.liveConfig.val.navSlice
  currentPositions := course.positions
  instrumentResolver := loop.instrumentResolver
  priceLookup := loop.priceLookup rebalance
  strategyId := loop.liveConfig.val.strategyId
  now := rebalance.time

/-- A rebalance opens, with candidates that have no ids. -/
def openRebalance (course : Course) (bar : Bar) (bars : List Bar) : Course :=
  match loop.rebalance bar with
  | .error _ => course.stop
  | .ok none => { course with place := .atBar bars }
  | .ok (some rebalance) =>
      match sizeOrders .exact (sizerInput loop course rebalance) fun _ => 0 with
      | .error _ => course.stop
      | .ok orders => { course with place := .atOrder rebalance orders bars }

/-- A rebalance ends with its point of the equity curve. -/
def closeRebalance (course : Course) (rebalance : Rebalance) (bars : List Bar) : Course :=
  { course with
    place := .atBar bars
    equityCurve := course.equityCurve ++ [{
      timeUtc := rebalance.time
      cash := course.cash
      positions := course.positions.mapValues (·.val.quantity)
      markPrices := rebalance.markPrices
      equity := loop.computeEquity course.cash course.positions rebalance }] }

/-- An approved candidate is promoted and passed to the broker. -/
def submit (course : Course) (rebalance : Rebalance) (desired : Order) (orders : List Order)
    (bars : List Bar) : Course :=
  match loop.promote rebalance desired 0 with
  | .error _ => course.stop
  | .ok order => { course with
      place := .waiting rebalance orders bars
      submitted := course.submitted ++ [(rebalance.time, order)] }

/-- The risk engine looks at a candidate. -/
def ask (course : Course) (rebalance : Rebalance) (desired : Order) (orders : List Order)
    (bars : List Bar) (killSwitch : KillSwitch) (artefact : String → Artefact) : Course :=
  match loop.riskInputs rebalance desired artefact with
  | .error _ => course.stop
  | .ok inputs =>
      match ((loop.riskEngine killSwitch).approve desired inputs rebalance.time).1 with
      | none => { course with place := .atOrder rebalance orders bars }
      | some approved => submit loop course rebalance approved orders bars

/-- A fill is booked; nothing else reaches the ledger. -/
def answer (course : Course) (rebalance : Rebalance) (orders : List Order) (bars : List Bar) :
    Fate → Course
  | .filled fill =>
      match applyFill (course.positions.get? (loop.bookingKey fill)) fill
          loop.liveConfig.val.strategyId rebalance.time with
      | .error _ => course.stop
      | .ok position => { course with
          place := .atOrder rebalance orders bars
          positions := course.positions.set (loop.bookingKey fill) position
          cash := course.cash - (fill.signedQty * fill.val.price + fill.val.commission) }
  | .unfilled => { course with place := .atOrder rebalance orders bars }
  | .raised => course.stop

def hear (course : Course) : Input → Course
  | .turned =>
      match course.place with
      | .atBar [] => course.stop
      | .atBar (bar :: bars) => openRebalance loop course bar bars
      | .atOrder rebalance [] bars => closeRebalance loop course rebalance bars
      | _ => course
  | .asked killSwitch artefact =>
      match course.place with
      | .atOrder rebalance (desired :: orders) bars =>
          ask loop course rebalance desired orders bars killSwitch artefact
      | _ => course
  | .answered fate =>
      match course.place with
      | .waiting rebalance orders bars => answer loop course rebalance orders bars fate
      | _ => course

end Course

/-! ## Up to a time -/

/-- The loop stands in a rebalance at `t` or before. -/
def Place.within (t : Int) : Place → Bool
  | .atOrder rebalance _ _ => rebalance.time.micros ≤ t
  | .waiting rebalance _ _ => rebalance.time.micros ≤ t
  | _ => false

/-- The loop has done with all rebalances up to `t`. -/
def Place.Past (t : Int) : Place → Prop
  | .atBar bars => ∀ bar ∈ bars, t < bar.val.closeTimeUtc.micros
  | .atOrder rebalance _ bars =>
      t < rebalance.time.micros ∧ ∀ bar ∈ bars, t < bar.val.closeTimeUtc.micros
  | .waiting rebalance _ bars =>
      t < rebalance.time.micros ∧ ∀ bar ∈ bars, t < bar.val.closeTimeUtc.micros
  | .ended => True

instance (t : Int) : (place : Place) → Decidable (place.Past t)
  | .atBar bars => inferInstanceAs (Decidable (∀ bar ∈ bars, _))
  | .atOrder _ _ _ => inferInstanceAs (Decidable (_ ∧ _))
  | .waiting _ _ _ => inferInstanceAs (Decidable (_ ∧ _))
  | .ended => inferInstanceAs (Decidable True)

namespace Course

/-- The orders of the rebalances up to `t`. -/
def ordersUpTo (t : Int) (course : Course) : List (Datetime × Order) :=
  Timeline.upTo (fun row => row.1.micros) t course.submitted

/-- The points of the equity curve up to `t`. -/
def pointsUpTo (t : Int) (course : Course) : List EquityPoint :=
  Timeline.upTo (fun point => point.timeUtc.micros) t course.equityCurve

/-- The responses among the inputs that come in rebalances up to `t`. -/
def responses (loop : RebalanceLoop) (t : Int) : Course → List Input → List Input
  | _, [] => []
  | course, input :: inputs =>
      (if course.place.within t && input.isResponse then [input] else []) ++
        responses loop t (hear loop course input) inputs

end Course

end IbPipeline

end Blive
