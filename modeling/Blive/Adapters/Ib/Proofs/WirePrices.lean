import Blive.Adapters.Ib.Proofs.Step
import Blive.Adapters.Shared.Proofs.SnapPrice

/-!
# Prices on the wire

A `submit` call of a priced order, from its first statement to its end, and which prices it
hands to `placeOrder`. The snapped prices are validated again by the constructor of the
order, outside the only `except` clause around the snapping.
-/

namespace Blive.IBBroker

/-- What a whole `submit` call did. -/
structure SubmitOutcome where
  broker : IBBroker
  placed : List PlacedOrder
  raised : Option PyError

/-- `submit` with no other task in between: `rules` is the answer of the price rules, `orderId`
the id of the trade `placeOrder` returns. -/
def submitToEnd (policy : RoundingPolicy) (b : IBBroker) (order : Order)
    (rules : Except PyError (List PriceIncrement)) (rulesAt : Utc) (orderId : Int)
    (placedAt : Utc) : SubmitOutcome :=
  let place (b : IBBroker) : SubmitResult → SubmitOutcome
    | .suspended ⟨order, .token contract ibOrder⟩ =>
        ⟨b.afterPlaceOrder ⟨order, contract, ibOrder, orderId⟩ placedAt,
          [⟨order, contract, ibOrder, orderId⟩], none⟩
    | .suspended ⟨_, .priceRules⟩ => ⟨b, [], none⟩
    | .returned => ⟨b, [], none⟩
    | .raised e => ⟨b, [], some e⟩
  match b.submit order with
  | .error e => ⟨b, [], some e⟩
  | .ok ⟨order, .priceRules⟩ =>
      let (b, ended) := b.afterPriceRules policy order rules rulesAt
      place b ended
  | .ok call => place b (.suspended call)

end Blive.IBBroker

namespace Blive

/-- The prices of the order. -/
def Order.prices (order : Order) : List Decimal :=
  order.val.limitPrice.toList ++ order.val.stopPrice.toList

/-- The prices the IB order carries. -/
def IbOrderKind.prices : IbOrderKind → List Decimal
  | .marketOrder => []
  | .limitOrder lmtPrice => [lmtPrice.source]
  | .stopOrder stopPrice => [stopPrice.source]
  | .stopLimitOrder lmtPrice stopPrice => [lmtPrice.source, stopPrice.source]

/-- Which prices an order has, by its type. -/
inductive PricedAs (order : OrderFields) : Prop where
  | unpriced (hlimit : order.limitPrice = none) (hstop : order.stopPrice = none)
  | lmt {limit : Decimal} (htype : order.orderType = .lmt) (hlimit : order.limitPrice = some limit)
      (hstop : order.stopPrice = none)
  | stp {stop : Decimal} (htype : order.orderType = .stp) (hlimit : order.limitPrice = none)
      (hstop : order.stopPrice = some stop)
  | stpLmt {limit stop : Decimal} (htype : order.orderType = .stpLmt)
      (hlimit : order.limitPrice = some limit) (hstop : order.stopPrice = some stop)

theorem positivePrice_iff {price : Option Decimal} :
    positivePrice price ↔ ∃ p, price = some p ∧ 0 < p := by
  cases price <;> simp [positivePrice]

theorem Order.pricedAs (order : Order) : PricedAs order.val := by
  obtain ⟨-, -, hlimit, hnoLimit, hstop, hnoStop, -⟩ := (Order.valid_iff order.val).mp order.valid
  by_cases hneedsLimit : order.val.orderType.needsLimit
  · obtain ⟨limit, hlimit, -⟩ := positivePrice_iff.mp (hlimit hneedsLimit)
    by_cases hneedsStop : order.val.orderType.needsStop
    · obtain ⟨stop, hstop, -⟩ := positivePrice_iff.mp (hstop hneedsStop)
      have htype : order.val.orderType = .stpLmt := by
        rcases hneedsLimit with h | h
        · rcases hneedsStop with h' | h' <;> rw [h] at h' <;> cases h'
        · exact h
      exact .stpLmt htype hlimit hstop
    · have htype : order.val.orderType = .lmt :=
        hneedsLimit.resolve_right fun h => hneedsStop (.inr h)
      exact .lmt htype hlimit (hnoStop hneedsStop)
  · by_cases hneedsStop : order.val.orderType.needsStop
    · obtain ⟨stop, hstop, -⟩ := positivePrice_iff.mp (hstop hneedsStop)
      have htype : order.val.orderType = .stp :=
        hneedsStop.resolve_right fun h => hneedsLimit (.inr h)
      exact .stp htype (hnoLimit hneedsLimit) hstop
    · exact .unpriced (hnoLimit hneedsLimit) (hnoStop hneedsStop)

theorem Order.prices_pos (order : Order) : ∀ p ∈ order.prices, 0 < p := by
  obtain ⟨-, -, hlimit, hnoLimit, hstop, hnoStop, -⟩ := (Order.valid_iff order.val).mp order.valid
  intro p hp
  rcases List.mem_append.mp hp with hp | hp <;> rw [Option.mem_toList] at hp
  · by_cases hneeds : order.val.orderType.needsLimit
    · have hpositive := hlimit hneeds
      rw [positivePrice, hp] at hpositive
      simpa using hpositive
    · rw [hnoLimit hneeds] at hp
      cases hp
  · by_cases hneeds : order.val.orderType.needsStop
    · have hpositive := hstop hneeds
      rw [positivePrice, hp] at hpositive
      simpa using hpositive
    · rw [hnoStop hneeds] at hp
      cases hp

/-- The IB order of a priced order carries its prices. -/
theorem bliveToIbOrder_prices {order : Order} (hpriced : order.prices ≠ []) :
    ∃ ibOrder, bliveToIbOrder order = .ok ibOrder ∧ ibOrder.kind.prices = order.prices := by
  unfold Order.prices at hpriced ⊢
  unfold bliveToIbOrder
  cases order.pricedAs with
  | unpriced hlimit hstop => simp [hlimit, hstop] at hpriced
  | lmt htype hlimit hstop =>
    rw [htype, hlimit, hstop]
    exact ⟨_, rfl, rfl⟩
  | stp htype hlimit hstop =>
    rw [htype, hlimit, hstop]
    exact ⟨_, rfl, rfl⟩
  | stpLmt htype hlimit hstop =>
    rw [htype, hlimit, hstop]
    exact ⟨_, rfl, rfl⟩

theorem exists_right_of_forall₂ {α β : Type} {R : α → β → Prop} {xs : List α} {ys : List β}
    (h : List.Forall₂ R xs ys) {x : α} (hx : x ∈ xs) : ∃ y ∈ ys, R x y := by
  induction h with
  | nil => cases hx
  | cons hr _ ih =>
    rcases List.mem_cons.mp hx with rfl | hx
    · exact ⟨_, List.mem_cons_self, hr⟩
    · obtain ⟨y, hy, hxy⟩ := ih hx
      exact ⟨y, List.mem_cons_of_mem _ hy, hxy⟩

section Snap

variable {policy : RoundingPolicy} {increments : List PriceIncrement} {order : Order}

theorem mapM_snapPrice_cases {side : OrderSide} {price snapped : Option Decimal}
    (h : (price.mapM fun p => snapPrice .default p increments side policy) = .ok snapped) :
    price = none ∧ snapped = none ∨
      ∃ p q, price = some p ∧ snapped = some q ∧
        snapPrice .default p increments side policy = .ok q := by
  cases price with
  | none =>
    cases h
    exact .inl ⟨rfl, rfl⟩
  | some p =>
    obtain ⟨q, hq, h⟩ := map_eq_ok_iff.mp h
    exact .inr ⟨p, q, rfl, h.symm, hq⟩

/-- The prices of the snapped order are the snapped prices of the order, one by one. -/
theorem forall₂_snapOrderPrices {snapped : Order}
    (h : IBBroker.snapOrderPrices policy order increments = .ok snapped) :
    List.Forall₂ (fun p q => snapPrice .default p increments order.val.side policy = .ok q)
      order.prices snapped.prices := by
  obtain ⟨hlimit, hstop, -⟩ := IBBroker.snapOrderPrices_fields h
  unfold Order.prices
  apply List.rel_append
  · rcases mapM_snapPrice_cases hlimit with ⟨hp, hq⟩ | ⟨p, q, hp, hq, hsnap⟩ <;> rw [hp, hq]
    · exact .nil
    · exact .cons hsnap .nil
  · rcases mapM_snapPrice_cases hstop with ⟨hp, hq⟩ | ⟨p, q, hp, hq, hsnap⟩ <;> rw [hp, hq]
    · exact .nil
    · exact .cons hsnap .nil

theorem exists_mapM_snapPrice {side : OrderSide} {price : Option Decimal}
    (h : ∀ p ∈ price.toList, ∃ q, snapPrice .default p increments side policy = .ok q ∧ 0 < q) :
    ∃ snapped, (price.mapM fun p => snapPrice .default p increments side policy) = .ok snapped ∧
      (price = none → snapped = none) ∧ (positivePrice price → positivePrice snapped) := by
  cases price with
  | none => exact ⟨none, rfl, id, id⟩
  | some p =>
    obtain ⟨q, hq, hpos⟩ := h p List.mem_cons_self
    exact ⟨some q, map_eq_ok_iff.mpr ⟨q, hq, rfl⟩, nofun,
      fun _ => positivePrice_iff.mpr ⟨q, rfl, hpos⟩⟩

/-- An order whose prices are snapped to positive ones is snapped: the constructor accepts it. -/
theorem exists_snapOrderPrices (h : ∀ p ∈ order.prices,
    ∃ q, snapPrice .default p increments order.val.side policy = .ok q ∧ 0 < q) :
    ∃ snapped, IBBroker.snapOrderPrices policy order increments = .ok snapped := by
  obtain ⟨newLimit, hlimit, hnoLimit, hlimitPos⟩ :=
    exists_mapM_snapPrice fun p hp => h p (List.mem_append_left _ hp)
  obtain ⟨newStop, hstop, hnoStop, hstopPos⟩ :=
    exists_mapM_snapPrice fun p hp => h p (List.mem_append_right _ hp)
  have hvalid : postInit { order.val with limitPrice := newLimit, stopPrice := newStop } =
      .ok () := by
    obtain ⟨hstrategy, hquantity, hneedsLimit, hnoLimit', hneedsStop, hnoStop', hrest⟩ :=
      (Order.valid_iff order.val).mp order.valid
    exact (Order.valid_iff _).mpr ⟨hstrategy, hquantity,
      fun hneeds => hlimitPos (hneedsLimit hneeds), fun hneeds => hnoLimit (hnoLimit' hneeds),
      fun hneeds => hstopPos (hneedsStop hneeds), fun hneeds => hnoStop (hnoStop' hneeds), hrest⟩
  unfold IBBroker.snapOrderPrices
  rw [hlimit, hstop]
  simp only [bind, Except.bind]
  split
  · exact ⟨order, rfl⟩
  · exact ⟨_, Frozen.make_of_valid hvalid⟩

end Snap

/-! ## The claim of the grid -/

/-- Either `placeOrder` was called once, with legal prices only, or nothing was placed and one
REJECTED event says so; and `submit` did not raise. -/
def WireConforms (first : PriceIncrement) (rest : List PriceIncrement) (b : IBBroker)
    (outcome : IBBroker.SubmitOutcome) : Prop :=
  outcome.raised = none ∧
    ((∃ placed, outcome.placed = [placed] ∧
        ∀ p ∈ placed.ibOrder.kind.prices, LegalPrice first rest p) ∨
      (outcome.placed = [] ∧ ∃ event : OrderEvent, event.val.kind = .rejected ∧
        outcome.broker.events = b.events ++ [.order event]))

section Submit

variable {policy : RoundingPolicy} {b : IBBroker} {order : Order} {contract : Contract}
  {first : PriceIncrement} {rest : List PriceIncrement} {rulesAt placedAt : Utc} {orderId : Int}

/-- A priced order under a new id suspends in the price rules first. -/
theorem submit_priced (hconnected : b.connected = true)
    (hnew : order.val.clientOrderId ∉ b.tradesByClientId) (hpriced : order.prices ≠ []) :
    b.submit order = .ok ⟨order, .priceRules⟩ := by
  have hprices : ¬ (order.val.limitPrice = none ∧ order.val.stopPrice = none) := by
    rintro ⟨hlimit, hstop⟩
    simp [Order.prices, hlimit, hstop] at hpriced
  unfold IBBroker.submit
  rw [require, if_pos hconnected, require, if_pos hnew, if_neg hprices]
  rfl

/-- An order that cannot be snapped makes `submit` raise. -/
theorem submitToEnd_raised {increments : List PriceIncrement} {e : PyError}
    (hsubmit : b.submit order = .ok ⟨order, .priceRules⟩)
    (hsnap : IBBroker.snapOrderPrices policy order increments = .error e) :
    (b.submitToEnd policy order (.ok increments) rulesAt orderId placedAt).raised = some e := by
  unfold IBBroker.submitToEnd
  rw [hsubmit]
  simp only [IBBroker.afterPriceRules, hsnap]
  rfl

/-- A call that reaches the rate limiter places what it holds there. -/
theorem submitToEnd_suspended {rules : Except PyError (List PriceIncrement)} {snapped : Order}
    {ibOrder : IbOrder} (hsubmit : b.submit order = .ok ⟨order, .priceRules⟩)
    (hrules : b.afterPriceRules policy order rules rulesAt =
      (b, .suspended ⟨snapped, .token contract ibOrder⟩)) :
    b.submitToEnd policy order rules rulesAt orderId placedAt =
      ⟨b.afterPlaceOrder ⟨snapped, contract, ibOrder, orderId⟩ placedAt,
        [⟨snapped, contract, ibOrder, orderId⟩], none⟩ := by
  unfold IBBroker.submitToEnd
  rw [hsubmit]
  simp only [hrules]

/-- The whole call is a run of the system: its three stretches, one after the other. -/
theorem submitToEnd_run {rules : Except PyError (List PriceIncrement)} {snapped : Order}
    {ibOrder : IbOrder} (hsubmit : b.submit order = .ok ⟨order, .priceRules⟩)
    (hrules : b.afterPriceRules policy order rules rulesAt =
      (b, .suspended ⟨snapped, .token contract ibOrder⟩)) :
    Transition.run (IBSystem.step policy) ⟨b, [], []⟩
        [.submit order, .priceRules 0 rules rulesAt, .acquired 0 (.ok orderId) placedAt] =
      some ⟨(b.submitToEnd policy order rules rulesAt orderId placedAt).broker, [],
        (b.submitToEnd policy order rules rulesAt orderId placedAt).placed⟩ := by
  rw [submitToEnd_suspended hsubmit hrules]
  simp [Transition.run, IBSystem.step, hsubmit, hrules, IBBroker.SubmitResult.ofExcept,
    IBSystem.suspend]

/-- So is a call that ends at the answer of the price rules. -/
theorem submitToEnd_run_ended {rules : Except PyError (List PriceIncrement)}
    (hsubmit : b.submit order = .ok ⟨order, .priceRules⟩)
    (hended : ∀ call, (b.afterPriceRules policy order rules rulesAt).2 ≠ .suspended call) :
    Transition.run (IBSystem.step policy) ⟨b, [], []⟩
        [.submit order, .priceRules 0 rules rulesAt] =
      some ⟨(b.submitToEnd policy order rules rulesAt orderId placedAt).broker, [],
        (b.submitToEnd policy order rules rulesAt orderId placedAt).placed⟩ := by
  unfold IBBroker.submitToEnd
  rw [hsubmit]
  dsimp only
  cases hrules : b.afterPriceRules policy order rules rulesAt with
  | mk b' ended =>
    rw [hrules] at hended
    cases ended with
    | suspended call => exact absurd rfl (hended call)
    | returned =>
      simp [Transition.run, IBSystem.step, hsubmit, hrules, IBBroker.SubmitResult.ofExcept,
        IBSystem.suspend]
    | raised e =>
      simp [Transition.run, IBSystem.step, hsubmit, hrules, IBBroker.SubmitResult.ofExcept,
        IBSystem.suspend]

/-- Otherwise the snapped prices are placed. -/
theorem submitToEnd_placed {increments : List PriceIncrement} {snapped : Order}
    (hsubmit : b.submit order = .ok ⟨order, .priceRules⟩) (hpriced : order.prices ≠ [])
    (hcontract : toContract order.val.instrument = .ok contract)
    (hsnap : IBBroker.snapOrderPrices policy order increments = .ok snapped) :
    ∃ placed : PlacedOrder,
      b.submitToEnd policy order (.ok increments) rulesAt orderId placedAt =
        ⟨b.afterPlaceOrder placed placedAt, [placed], none⟩ ∧
      placed.ibOrder.kind.prices = snapped.prices := by
  have hsnappedPriced : snapped.prices ≠ [] := by
    intro hnone
    have hlength := (forall₂_snapOrderPrices hsnap).length_eq
    rw [hnone, List.length_nil] at hlength
    exact hpriced (List.length_eq_zero_iff.mp hlength)
  obtain ⟨ibOrder, hib, hibPrices⟩ := bliveToIbOrder_prices hsnappedPriced
  have hprepare : IBBroker.prepareOrder snapped = .ok ⟨snapped, .token contract
      { ibOrder with orderRef := some snapped.val.clientOrderId }⟩ := by
    rw [IBBroker.prepareOrder, (IBBroker.snapOrderPrices_eq_ok hsnap).2, hcontract, hib]
    rfl
  have hrules : b.afterPriceRules policy order (.ok increments) rulesAt =
      (b, .suspended ⟨snapped, .token contract
        { ibOrder with orderRef := some snapped.val.clientOrderId }⟩) := by
    show (b, IBBroker.SubmitResult.ofExcept
      (IBBroker.snapOrderPrices policy order increments >>= IBBroker.prepareOrder)) = _
    rw [hsnap]
    show (b, IBBroker.SubmitResult.ofExcept (IBBroker.prepareOrder snapped)) = _
    rw [hprepare]
    rfl
  exact ⟨_, submitToEnd_suspended hsubmit hrules, hibPrices⟩

/-- When the price rules are unavailable the order is rejected and nothing is placed. -/
theorem wireConforms_unavailable (hsubmit : b.submit order = .ok ⟨order, .priceRules⟩)
    (text : String) : WireConforms first rest b
      (b.submitToEnd policy order (.error (.priceRuleUnavailable text)) rulesAt orderId
        placedAt) := by
  have houtcome : b.submitToEnd policy order (.error (.priceRuleUnavailable text)) rulesAt orderId
      placedAt = ⟨b.put (.order (IBBroker.priceRuleRejection order text rulesAt)), [], none⟩ := by
    unfold IBBroker.submitToEnd
    rw [hsubmit]
    rfl
  rw [houtcome]
  exact ⟨rfl, .inr ⟨rfl, _, rfl, rfl⟩⟩

/-- A submitted order reaches the wire with legal prices, or is rejected, exactly when each of
its prices snaps to a legal one. -/
theorem wireConforms_iff (hconnected : b.connected = true)
    (hnew : order.val.clientOrderId ∉ b.tradesByClientId) (hpriced : order.prices ≠ [])
    (hcontract : toContract order.val.instrument = .ok contract) (hgrid : GridTable first rest) :
    (∀ text, WireConforms first rest b
      (b.submitToEnd policy order (.error (.priceRuleUnavailable text)) rulesAt orderId
        placedAt)) ∧
    (WireConforms first rest b
        (b.submitToEnd policy order (.ok (first :: rest)) rulesAt orderId placedAt) ↔
      ∀ p ∈ order.prices, SnapsLegally .default policy order.val.side first rest p) := by
  have hsubmit := submit_priced hconnected hnew hpriced
  have hlegal : ∀ p ∈ order.prices,
      (∃ q, snapPrice .default p (first :: rest) order.val.side policy = .ok q ∧
          LegalPrice first rest q) ↔
        SnapsLegally .default policy order.val.side first rest p :=
    fun p hp => legal_iff_snapsLegally hgrid (order.prices_pos p hp)
  refine ⟨wireConforms_unavailable hsubmit, ?_⟩
  cases hsnap : IBBroker.snapOrderPrices policy order (first :: rest) with
  | error e =>
    constructor
    · rintro ⟨hnone, -⟩
      rw [submitToEnd_raised hsubmit hsnap] at hnone
      cases hnone
    · intro hall
      have hpos : ∀ p ∈ order.prices,
          ∃ q, snapPrice .default p (first :: rest) order.val.side policy = .ok q ∧ 0 < q := by
        intro p hp
        obtain ⟨q, hq, hpositive, -⟩ := (hlegal p hp).mpr (hall p hp)
        exact ⟨q, hq, hpositive⟩
      obtain ⟨snapped, hsnapped⟩ := exists_snapOrderPrices hpos
      cases hsnap.symm.trans hsnapped
  | ok snapped =>
    obtain ⟨placed, houtcome, hprices⟩ := submitToEnd_placed hsubmit hpriced hcontract hsnap
    have hpairs := forall₂_snapOrderPrices hsnap
    rw [houtcome]
    constructor
    · rintro ⟨-, ⟨placed', hplaced, hall⟩ | ⟨hnone, -⟩⟩ p hp
      · cases hplaced
        rw [hprices] at hall
        obtain ⟨q, hq, hsnapped⟩ := exists_right_of_forall₂ hpairs hp
        exact (hlegal p hp).mp ⟨q, hsnapped, hall q hq⟩
      · cases hnone
    · intro hall
      refine ⟨rfl, .inl ⟨placed, rfl, ?_⟩⟩
      rw [hprices]
      intro q hq
      obtain ⟨p, hp, hsnapped⟩ := exists_right_of_forall₂ hpairs.flip hq
      obtain ⟨q', hq', hlegal'⟩ := (hlegal p hp).mpr (hall p hp)
      cases hsnapped.symm.trans hq'
      exact hlegal'

end Submit

/-- A flat tick of one cent. -/
def centTick : PriceIncrement := ⟨⟨0, 1, -2⟩, centBand.valid⟩

theorem centTick_gridTable : GridTable centTick [] where
  covers := ⟨centTick, List.mem_cons_self, rfl⟩
  edges band hband price hprice hlt := by
    rw [List.mem_singleton.mp hband] at hlt
    exact absurd hlt hprice.not_gt

/-- A limit order to buy one share of `sampleInstrument` at four tenths of a cent. -/
def samplePennyOrder : Order :=
  ⟨⟨1, "trend", sampleInstrument, .buy, 1, .lmt, .day, some (1 / 250), none, none, [],
    ⟨0, some 0⟩⟩, by decide +kernel⟩

/-- At least as much as the price: it goes to the wire at one cent. -/
theorem wireConforms_iff_aggressive :
    (∀ text, WireConforms centTick [] (IBBroker.init.connect ⟨0⟩)
      ((IBBroker.init.connect ⟨0⟩).submitToEnd .aggressive samplePennyOrder
        (.error (.priceRuleUnavailable text)) ⟨1⟩ 7 ⟨2⟩)) ∧
    WireConforms centTick [] (IBBroker.init.connect ⟨0⟩)
      ((IBBroker.init.connect ⟨0⟩).submitToEnd .aggressive samplePennyOrder (.ok [centTick]) ⟨1⟩ 7
        ⟨2⟩) ∧
    ∀ p ∈ samplePennyOrder.prices,
      SnapsLegally .default .aggressive samplePennyOrder.val.side centTick [] p := by
  have hcontract : toContract sampleInstrument =
      .ok ⟨"CAC", "STK", "EUR", "SBF", "", none⟩ := by
    decide +kernel
  have hsent : ((IBBroker.init.connect ⟨0⟩).submitToEnd .aggressive samplePennyOrder
      (.ok [centTick]) ⟨1⟩ 7 ⟨2⟩).placed.map (fun placed => placed.ibOrder.kind.prices) =
        [[1 / 100]] := by
    decide +kernel
  have hconforms : WireConforms centTick [] (IBBroker.init.connect ⟨0⟩)
      ((IBBroker.init.connect ⟨0⟩).submitToEnd .aggressive samplePennyOrder (.ok [centTick]) ⟨1⟩ 7
        ⟨2⟩) := by
    obtain ⟨placed, hplaced, hprices⟩ := List.map_eq_singleton_iff.mp hsent
    refine ⟨by decide +kernel, .inl ⟨placed, hplaced, fun p hp => ?_⟩⟩
    rw [hprices] at hp
    rw [List.mem_singleton.mp hp]
    exact ⟨by norm_num, 1, by decide +kernel⟩
  refine And.imp_right ?_ (wireConforms_iff rfl (by decide +kernel) (by decide +kernel) hcontract
    centTick_gridTable)
  intro hiff
  exact ⟨hconforms, hiff.mp hconforms⟩

/-- To the nearest tick it is zero, and `submit` raises. -/
theorem not_wireConforms :
    ¬ ∀ (policy : RoundingPolicy) (b : IBBroker) (order : Order) (contract : Contract)
      (first : PriceIncrement) (rest : List PriceIncrement) (rulesAt placedAt : Utc)
      (orderId : Int),
      b.connected = true → order.val.clientOrderId ∉ b.tradesByClientId → order.prices ≠ [] →
      toContract order.val.instrument = .ok contract → GridTable first rest →
        WireConforms first rest b
          (b.submitToEnd policy order (.ok (first :: rest)) rulesAt orderId placedAt) := by
  intro h
  have hconforms := h .nearest (IBBroker.init.connect ⟨0⟩) samplePennyOrder
    ⟨"CAC", "STK", "EUR", "SBF", "", none⟩ centTick [] ⟨1⟩ ⟨2⟩ 7 rfl (by decide +kernel)
    (by decide +kernel) (by decide +kernel) centTick_gridTable
  have hraises : ((IBBroker.init.connect ⟨0⟩).submitToEnd .nearest samplePennyOrder
      (.ok [centTick]) ⟨1⟩ 7 ⟨2⟩).raised = some
        (.valueError "Order.limit_price required and positive for order_type=") :=
    submitToEnd_raised (submit_priced rfl (by decide +kernel) (by decide +kernel))
      (by decide +kernel)
  exact absurd (hraises.symm.trans hconforms.1) (Option.some_ne_none _)

end Blive
