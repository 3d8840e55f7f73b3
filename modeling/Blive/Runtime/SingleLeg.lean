import Blive.Misc.Transition
import Blive.Risk.Checks
import Blive.Sizing.Sizer
import Blive.Strategy.Config

/-!
# A rebalance loop over one instrument

What a pipeline of `runtime/` is for when it trades a single leg, apart from its broker, its
queue and its coroutine: at each bar of its schedule it sizes the position at a price, has the
risk engine look at the order, and books what becomes of the order. The loop is a machine that
is moved by what it hears; everything that goes on around the loop is in there.
-/

namespace Blive

/-- The order without its `client_order_id`. -/
def Order.anonymous (order : Order) : Order := ⟨{ order.val with clientOrderId := 0 }, order.valid⟩

/-- The order as far as it says what is traded and for whom: without ids and tags, and as an order
at the market. -/
def Order.bare (order : Order) : Order :=
  ⟨{ order.val with
      clientOrderId := 0
      orderType := .mkt
      limitPrice := none
      stopPrice := none
      parentId := none
      tags := [] }, by
    obtain ⟨hstrategy, hquantity, -, -, -, -, hcreated, -⟩ := (Order.valid_iff _).mp order.valid
    refine (Order.valid_iff _).mpr ⟨hstrategy, hquantity, ?_, fun _ => rfl, ?_, fun _ => rfl,
      hcreated, ?_⟩
    all_goals simp [OrderType.needsLimit, OrderType.needsStop]⟩

/-- `qty` with the sign of the side. -/
def Order.signedQty (order : Order) : Decimal :=
  if order.val.side = .buy then order.val.quantity else -order.val.quantity

structure SingleLeg where
  liveConfig : LiveStrategyConfig
  riskConfig : RiskEngineConfig
  instrument : Instrument
  /-- The target weight at a bar, `none` when the schedule leaves the bar out. -/
  targetWeight : Bar → Option Decimal
  /-- The price the position is sized and marked at. -/
  price : Bar → Decimal
  /-- The order the broker gets for an approved candidate. -/
  promote : Bar → Order → Except PyError Order

namespace SingleLeg

/-- What becomes of an order that was passed to the broker. -/
inductive Response where
  | filled (signedQty price commission : Decimal)
  /-- The order was canceled or rejected, or the engine gave it up. -/
  | unfilled
  | raised
  deriving DecidableEq

/-- What the loop hears: that it is its turn, what the risk engine finds when it looks at a
candidate, and what became of an order. -/
inductive Heard where
  | turned
  | asked (killSwitch : KillSwitch) (artefact : String → Artefact)
  | answered (response : Response)

/-- A row of the equity curve. -/
structure Point where
  timeUtc : Datetime
  cash : Decimal
  quantity : Decimal
  mark : Decimal
  equity : Decimal

inductive Phase where
  | atBar (bars : List Bar)
  /-- The rebalance of a bar, with the candidate that is still to be dealt with. -/
  | atOrder (bar : Bar) (desired : Option Order) (bars : List Bar)
  /-- An order is at the broker. -/
  | waiting (bar : Bar) (bars : List Bar)
  | finished
  | raised

structure View where
  cash : Decimal
  quantity : Decimal
  curve : List Point
  breaches : List RiskBreach
  fillsCount : Nat
  submitted : List Order
  phase : Phase

def View.start (bars : List Bar) (startingCash : Decimal) : View where
  cash := startingCash
  quantity := 0
  curve := []
  breaches := []
  fillsCount := 0
  submitted := []
  phase := .atBar bars

/-- A fill is booked; nothing else reaches the ledger. -/
def View.answer (view : View) (response : Response) : View :=
  match view.phase with
  | .waiting bar bars =>
      match response with
      | .filled signedQty price commission =>
          { view with
            phase := .atOrder bar none bars
            cash := view.cash - (signedQty * price + commission)
            quantity := view.quantity + signedQty
            fillsCount := view.fillsCount + 1 }
      | .unfilled => { view with phase := .atOrder bar none bars }
      | .raised => { view with phase := .raised }
  | _ => view

variable (leg : SingleLeg)

def equity (view : View) (bar : Bar) : Decimal := view.cash + view.quantity * leg.price bar

/-- The candidate for a delta that is not zero. -/
def candidateFields (bar : Bar) (rounded : Decimal) : OrderFields where
  clientOrderId := 0
  strategyId := leg.liveConfig.val.strategyId
  instrument := leg.instrument
  side := if rounded > 0 then .buy else .sell
  quantity := |rounded|
  orderType := .mkt
  timeInForce := .day
  limitPrice := none
  stopPrice := none
  parentId := none
  tags := [("rebalance_at", bar.val.closeTimeUtc.isoformat)]
  createdAt := bar.val.closeTimeUtc

/-- The candidate that moves the position to the target weight, if it is not there. -/
def candidate (view : View) (bar : Bar) (weight : Decimal) : Except PyError (Option Order) := do
  require (0 < leg.liveConfig.val.navSlice) (.valueError "nav_slice must be > 0, got ")
  require (0 < leg.equity view bar) (.valueError "equity must be > 0, got ")
  require (-1 ≤ weight ∧ weight ≤ 1) (.valueError "target_weight for ")
  require (0 < leg.price bar) (.valueError "price for ")
  let capital := leg.equity view bar * leg.liveConfig.val.navSlice
  let target := if weight = 0 then 0 else capital * weight / leg.price bar
  let rounded ← quantizeShareQty .exact (target - view.quantity)
  if rounded = 0 then return none
  else some <$> Frozen.make (leg.candidateFields bar rounded)

def riskEngine (killSwitch : KillSwitch) : RiskEngine :=
  ⟨leg.riskConfig, killSwitch, leg.liveConfig.val.strategyId⟩

def riskInputs (bar : Bar) (artefact : String → Artefact) : RiskInputs where
  lastBar := some bar
  isMarketOpen := true
  artefactPaths := leg.liveConfig.val.artefactPaths.items.map fun path => (path.1, artefact path.2)

/-- The end of a rebalance. -/
def mark (view : View) (bar : Bar) (bars : List Bar) : View :=
  { view with
    phase := .atBar bars
    curve := view.curve ++ [{
      timeUtc := bar.val.closeTimeUtc
      cash := view.cash
      quantity := view.quantity
      mark := leg.price bar
      equity := leg.equity view bar }] }

/-- To the next bar, or out of the rebalance of this one. -/
def turn (view : View) : View :=
  match view.phase with
  | .atBar [] => { view with phase := .finished }
  | .atBar (bar :: bars) =>
      match leg.targetWeight bar with
      | none => { view with phase := .atBar bars }
      | some weight =>
          match leg.candidate view bar weight with
          | .error _ => { view with phase := .raised }
          | .ok desired => { view with phase := .atOrder bar desired bars }
  | .atOrder bar none bars => leg.mark view bar bars
  | _ => view

/-- The risk engine looks at the candidate; the order goes to the broker when it passes. -/
def ask (view : View) (killSwitch : KillSwitch) (artefact : String → Artefact) : View :=
  match view.phase with
  | .atOrder bar (some desired) bars =>
      let (approved, breaches) := (leg.riskEngine killSwitch).approve desired
        (leg.riskInputs bar artefact) bar.val.closeTimeUtc
      let view := { view with breaches := view.breaches ++ breaches }
      match approved with
      | none => { view with phase := .atOrder bar none bars }
      | some approved =>
          match leg.promote bar approved with
          | .error _ => { view with phase := .raised }
          | .ok order =>
              { view with submitted := view.submitted ++ [order], phase := .waiting bar bars }
  | _ => view

def hear (view : View) : Heard → View
  | .turned => leg.turn view
  | .asked killSwitch artefact => leg.ask view killSwitch artefact
  | .answered response => view.answer response

/-! ## The machine in its surroundings -/

/-- What goes on around the loop: the kill switch and the files at a risk check, and what becomes
of an order, in the view the loop has come to. -/
structure Surroundings where
  killSwitch : View → KillSwitch
  artefact : View → String → Artefact
  response : View → Response

/-- What the loop can hear at the place it has come to. -/
def CanHear (view : View) (heard : Heard) : Prop :=
  match view.phase, heard with
  | .atBar _, .turned | .atOrder _ none _, .turned => True
  | .atOrder _ (some _) _, .asked _ _ => True
  | .waiting _ _, .answered _ => True
  | _, _ => False

def Surroundings.Say (around : Surroundings) (view : View) : Heard → Prop
  | .turned => True
  | .asked killSwitch artefact =>
      killSwitch = around.killSwitch view ∧ artefact = around.artefact view
  | .answered response => response = around.response view

/-- The next view. -/
def next (around : Surroundings) (view : View) : View :=
  match view.phase with
  | .atOrder _ (some _) _ => leg.ask view (around.killSwitch view) (around.artefact view)
  | .waiting _ _ => view.answer (around.response view)
  | _ => leg.turn view

/-- The loop has come to its end, or has raised. -/
def View.Stopped (view : View) : Prop := view.phase = .finished ∨ view.phase = .raised

variable {leg}

theorem hear_eq_next {around : Surroundings} {view : View} {heard : Heard}
    (hcan : CanHear view heard) (hsay : around.Say view heard) :
    leg.hear view heard = leg.next around view := by
  cases heard with
  | turned =>
    unfold CanHear at hcan
    unfold hear next
    split at hcan <;> simp_all
  | asked killSwitch artefact =>
    obtain ⟨rfl, rfl⟩ := hsay
    unfold CanHear at hcan
    unfold hear next
    split at hcan <;> simp_all
  | answered response =>
    cases hsay
    unfold CanHear at hcan
    unfold hear next
    split at hcan <;> simp_all

theorem next_of_stopped (around : Surroundings) {view : View} (h : view.Stopped) :
    leg.next around view = view := by
  rcases h with h | h <;> simp only [next, turn, h]

/-- What the loop has come to when it stops is settled by its surroundings. -/
theorem stopped_unique {around : Surroundings} {view : View} {hears hears' : List Heard}
    (hcan : Transition.Throughout leg.hear CanHear view hears)
    (hcan' : Transition.Throughout leg.hear CanHear view hears')
    (hsay : Transition.Throughout leg.hear around.Say view hears)
    (hsay' : Transition.Throughout leg.hear around.Say view hears')
    (hstopped : (hears.foldl leg.hear view).Stopped)
    (hstopped' : (hears'.foldl leg.hear view).Stopped) :
    hears.foldl leg.hear view = hears'.foldl leg.hear view := by
  have hnext (hs : List Heard) (hcan : Transition.Throughout leg.hear CanHear view hs)
      (hsay : Transition.Throughout leg.hear around.Say view hs) :
      hs.foldl leg.hear view = (leg.next around)^[hs.length] view :=
    Transition.foldl_eq_iterate (hcan.and hsay fun _ _ hc hs => hear_eq_next hc hs)
  rw [hnext hears hcan hsay] at hstopped ⊢
  rw [hnext hears' hcan' hsay'] at hstopped' ⊢
  exact Transition.iterate_unique (next_of_stopped around hstopped)
    (next_of_stopped around hstopped')

/-! ## Up to what is traded -/

/-- The view with its orders bare. -/
def View.bare (view : View) : View := { view with submitted := view.submitted.map Order.bare }

/-- The leg whose orders are bare from the start. -/
def bare (leg : SingleLeg) : SingleLeg := { leg with promote := fun _ desired => .ok desired.bare }

/-- The leg passes every candidate on, with nothing changed that is traded. -/
def PassesOn (leg : SingleLeg) : Prop :=
  ∀ bar desired, ∃ order, leg.promote bar desired = .ok order ∧ order.bare = desired.bare

theorem hear_bare (hleg : leg.PassesOn) (view : View) (heard : Heard) :
    (leg.hear view heard).bare = leg.bare.hear view.bare heard := by
  have hphase : view.bare.phase = view.phase := rfl
  cases heard with
  | turned =>
    simp only [hear, turn, hphase]
    cases hview : view.phase with
    | atBar bars =>
      cases bars with
      | nil => rfl
      | cons bar bars =>
        have hweight : leg.bare.targetWeight bar = leg.targetWeight bar := rfl
        have hcandidate (weight : Decimal) : leg.bare.candidate view.bare bar weight =
            leg.candidate view bar weight := rfl
        simp only [hweight, hcandidate]
        cases leg.targetWeight bar with
        | none => rfl
        | some weight =>
          dsimp only
          cases leg.candidate view bar weight <;> rfl
    | atOrder bar desired bars => cases desired <;> rfl
    | waiting bar bars => rfl
    | finished => rfl
    | raised => rfl
  | asked killSwitch artefact =>
    simp only [hear, ask, hphase]
    cases hview : view.phase with
    | atOrder bar desired bars =>
      cases desired with
      | none => rfl
      | some desired =>
        have hengine : (leg.bare.riskEngine killSwitch).approve desired
            (leg.bare.riskInputs bar artefact) bar.val.closeTimeUtc =
              (leg.riskEngine killSwitch).approve desired (leg.riskInputs bar artefact)
                bar.val.closeTimeUtc := rfl
        simp only [hengine]
        generalize (leg.riskEngine killSwitch).approve desired (leg.riskInputs bar artefact)
          bar.val.closeTimeUtc = verdict
        obtain ⟨approved, breaches⟩ := verdict
        cases approved with
        | none => rfl
        | some approved =>
          obtain ⟨order, hpromote, hsame⟩ := hleg bar approved
          simp only [hpromote, View.bare, bare, List.map_append, List.map_cons, List.map_nil, hsame]
    | _ => rfl
  | answered response =>
    simp only [hear, View.answer, hphase]
    cases hview : view.phase with
    | waiting bar bars => cases response <;> rfl
    | _ => rfl

/-- Surroundings in which every order is filled at once and whole, at the close of its bar and for
a commission per share; the switch does not change, and the files are told apart by what the loop
has done so far. -/
def fillsAtClose (killSwitch : KillSwitch) (files : View → String → Artefact)
    (commissionPerShare : Decimal) : Surroundings where
  killSwitch := fun _ => killSwitch
  artefact := fun view => files view.bare
  response := fun view =>
    match view.phase, view.submitted.getLast? with
    | .waiting bar _, some order =>
        .filled order.signedQty bar.val.close (commissionPerShare * order.val.quantity)
    | _, _ => .unfilled

theorem foldl_bare (hleg : leg.PassesOn) (view : View) (hears : List Heard) :
    (hears.foldl leg.hear view).bare = hears.foldl leg.bare.hear view.bare :=
  (List.foldl_hom View.bare fun view heard => (hear_bare hleg view heard).symm).symm

theorem View.bare_bare (view : View) : view.bare.bare = view.bare := by
  simp only [View.bare, List.map_map]
  congr 1

/-- These surroundings do not look at more than what is traded. -/
theorem fillsAtClose_bare {killSwitch : KillSwitch} {files : View → String → Artefact}
    {commissionPerShare : Decimal} {view : View} {heard : Heard}
    (h : (fillsAtClose killSwitch files commissionPerShare).Say view heard) :
    (fillsAtClose killSwitch files commissionPerShare).Say view.bare heard := by
  cases heard with
  | turned => trivial
  | asked killSwitch artefact =>
    refine ⟨h.1, h.2.trans ?_⟩
    simp only [fillsAtClose, View.bare_bare]
  | answered response =>
    refine Eq.trans h ?_
    have hlast : view.bare.submitted.getLast? = view.submitted.getLast?.map Order.bare :=
      List.getLast?_map
    have hphase : view.bare.phase = view.phase := rfl
    simp only [fillsAtClose, hphase, hlast]
    cases view.phase with
    | waiting bar bars => cases view.submitted.getLast? <;> rfl
    | _ => rfl

/-- What is heard makes up the run of the bare leg in its surroundings. -/
theorem hears_bare {around : Surroundings} {view : View} {hears : List Heard}
    (hleg : leg.PassesOn) (hbare : ∀ view heard, around.Say view heard → around.Say view.bare heard)
    (hcan : Transition.Throughout leg.hear CanHear view hears)
    (hsay : Transition.Throughout leg.hear around.Say view hears) :
    Transition.Throughout leg.bare.hear CanHear view.bare hears ∧
      Transition.Throughout leg.bare.hear around.Say view.bare hears :=
  ⟨hcan.map (hear_bare hleg) fun _ _ h => h, hsay.map (hear_bare hleg) hbare⟩

end SingleLeg

end Blive
