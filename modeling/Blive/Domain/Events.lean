import Blive.Domain.Types

/-!
# Domain events

The records of `domain/events.py` that reach a broker's event queue, and the risk breach.
Clock ports run in UTC, so an event stamped with a reading of one is built by `plain`,
`withReason` or `withFill`, which carry the proof that `OrderEvent.__post_init__` accepts it.
-/

namespace Blive

structure OrderEventFields where
  clientOrderId : ClientOrderId
  venueOrderId : Option String
  kind : OrderEventKind
  reason : Option String
  timeUtc : Datetime
  fill : Option Fill := none
  deriving DecidableEq

/-- `needs_fill` of `OrderEvent.__post_init__` -/
def OrderEventKind.needsFill (k : OrderEventKind) : Prop := k = .partialFill ∨ k = .filled

/-- The kinds that must carry a reason. -/
def OrderEventKind.needsReason (k : OrderEventKind) : Prop := k = .rejected ∨ k = .canceled

instance (k : OrderEventKind) : Decidable k.needsFill := inferInstanceAs (Decidable (_ ∨ _))

instance (k : OrderEventKind) : Decidable k.needsReason := inferInstanceAs (Decidable (_ ∨ _))

theorem OrderEventKind.not_needsFill {k : OrderEventKind} (h : k.needsReason) : ¬ k.needsFill := by
  rcases h with rfl | rfl <;> decide

theorem rejected_needsReason : OrderEventKind.rejected.needsReason := .inl rfl

theorem canceled_needsReason : OrderEventKind.canceled.needsReason := .inr rfl

theorem partialFill_needsFill : OrderEventKind.partialFill.needsFill := .inl rfl

theorem filled_needsFill : OrderEventKind.filled.needsFill := .inr rfl

/-- A SUBMITTED event carries neither a fill nor a reason. -/
theorem submitted_plain :
    ¬ OrderEventKind.submitted.needsFill ∧ ¬ OrderEventKind.submitted.needsReason := by
  decide

/-- An ACCEPTED event carries neither a fill nor a reason. -/
theorem accepted_plain :
    ¬ OrderEventKind.accepted.needsFill ∧ ¬ OrderEventKind.accepted.needsReason := by
  decide

/-- The reason brokers give for a cancellation is a text. -/
theorem engine_ne_empty : "engine" ≠ "" := by decide

/-- `not reason` is false: the text is there and not empty. -/
def truthy (reason : Option String) : Prop := reason.any (· ≠ "")

instance (reason : Option String) : Decidable (truthy reason) := inferInstanceAs (Decidable (_ = _))

instance : PostInit OrderEventFields where
  postInit e := do
    requireUtc e.timeUtc "OrderEvent.time_utc"
    require (e.kind = .rejected → truthy e.reason)
      (.valueError "OrderEvent.reason required for REJECTED")
    require (e.kind = .canceled → truthy e.reason)
      (.valueError "OrderEvent.reason required for CANCELED")
    require (e.kind.needsFill → e.fill ≠ none) (.valueError "OrderEvent.fill required for ")
    require (¬ e.kind.needsFill → e.fill = none) (.valueError "OrderEvent.fill must be None for ")

/-- One observed transition of an order. -/
abbrev OrderEvent := Frozen OrderEventFields

namespace OrderEvent

theorem valid_iff (e : OrderEventFields) : postInit e = .ok () ↔
    e.timeUtc.utcOffset = some 0 ∧ (e.kind = .rejected → truthy e.reason) ∧
      (e.kind = .canceled → truthy e.reason) ∧ (e.kind.needsFill → e.fill ≠ none) ∧
      (¬ e.kind.needsFill → e.fill = none) := by
  simp only [postInit, requireUtc, require_bind_eq_ok_iff, require_eq_ok_iff]

/-- An event of a kind that carries neither a reason nor a fill. -/
def plain (cid : ClientOrderId) (venueId : Option String) (kind : OrderEventKind) (now : Utc)
    (h : ¬ kind.needsFill ∧ ¬ kind.needsReason) : OrderEvent :=
  ⟨⟨cid, venueId, kind, none, now.toDatetime, none⟩, by
    obtain ⟨hf, hr⟩ := h
    refine (valid_iff _).mpr ⟨rfl, ?_, ?_, fun e => absurd e hf, fun _ => rfl⟩
    · intro e
      exact absurd (Or.inl e) hr
    · intro e
      exact absurd (Or.inr e) hr⟩

/-- A REJECTED or CANCELED event with its reason. -/
def withReason (cid : ClientOrderId) (venueId : Option String) (kind : OrderEventKind)
    (reason : String) (now : Utc) (h : kind.needsReason) (hr : reason ≠ "") : OrderEvent :=
  ⟨⟨cid, venueId, kind, some reason, now.toDatetime, none⟩, by
    have ht : truthy (some reason) := by simpa [truthy] using hr
    exact (valid_iff _).mpr
      ⟨rfl, fun _ => ht, fun _ => ht, fun e => absurd e (OrderEventKind.not_needsFill h),
        fun _ => rfl⟩⟩

/-- A PARTIAL_FILL or FILLED event with its payload. -/
def withFill (cid : ClientOrderId) (venueId : Option String) (kind : OrderEventKind)
    (fill : Fill) (now : Utc) (h : kind.needsFill) : OrderEvent :=
  ⟨⟨cid, venueId, kind, none, now.toDatetime, some fill⟩, by
    refine (valid_iff _).mpr ⟨rfl, ?_, ?_, fun _ => by simp, fun e => absurd h e⟩
    · intro e
      rcases h with rfl | rfl <;> cases e
    · intro e
      rcases h with rfl | rfl <;> cases e⟩

/-- A fill event carries its payload, and no other event does. -/
theorem isSome_fill_iff (e : OrderEvent) : e.val.fill.isSome ↔ e.val.kind.needsFill := by
  obtain ⟨-, -, -, hneeds, hnot⟩ := (valid_iff e.val).mp e.valid
  constructor
  · intro h
    by_contra hk
    rw [hnot hk] at h
    cases h
  · intro hk
    exact Option.isSome_iff_ne_none.mpr (hneeds hk)

end OrderEvent

/-- Broker connectivity state change. -/
structure ConnectionStatus where
  connected : Bool
  detail : String
  timeUtc : Utc
  deriving DecidableEq

/-- A periodic account snapshot on the broker's queue. No consumer modelled here reads the
snapshot, only that the record is not an order event. -/
structure AccountUpdate where
  timeUtc : Utc
  deriving DecidableEq

/-! ## Risk breaches -/

inductive RiskBreachSeverity where
  | block | scale | warn
  deriving DecidableEq, Repr

inductive RiskCheckCode where
  | rc08 | rc09 | rc10 | rc12 | rc13
  deriving DecidableEq, Repr

/-- The text of a `StrEnum` member. -/
def RiskBreachSeverity.value : RiskBreachSeverity → String
  | .block => "block"
  | .scale => "scale"
  | .warn => "warn"

/-- The text of a `StrEnum` member. -/
def RiskCheckCode.value : RiskCheckCode → String
  | .rc08 => "RC-08"
  | .rc09 => "RC-09"
  | .rc10 => "RC-10"
  | .rc12 => "RC-12"
  | .rc13 => "RC-13"

/-- The text of a breach, by the values each of its forms interpolates. -/
inductive BreachDetail where
  /-- `kill-switch armed: {reason}` -/
  | killSwitchArmed (reason : String)
  /-- `no bar received for {symbol}` -/
  | noBar (symbol : String)
  /-- `bar for {symbol} is stale: {age}s old > threshold {threshold}s` -/
  | staleBar (symbol : String) (age threshold : Int)
  /-- `market closed for {symbol} on {venue}; outside_rth not allowed` -/
  | marketClosed (symbol venue : String)
  /-- `model artefact {name!r} missing at {path}` -/
  | artefactMissing (name : String)
  /-- `model artefact {name!r} is {age}d old; hard threshold {threshold}d (ADR-022)` -/
  | artefactExpired (name : String) (ageDays : Decimal) (threshold : Int)
  /-- `model artefact {name!r} is {age}d old; warning threshold {threshold}d (ADR-022)` -/
  | artefactAging (name : String) (ageDays : Decimal) (threshold : Int)
  /-- `price sanity: order price {price} for {symbol} deviates {deviation}% from reference
  {reference} (threshold {threshold}%); check EODHD convention catalogue ...` -/
  | priceSanity (price : Decimal) (symbol : String) (deviation reference threshold : Decimal)
  deriving DecidableEq

structure RiskBreach where
  strategyId : String
  check : RiskCheckCode
  severity : RiskBreachSeverity
  detail : BreachDetail
  timeUtc : Datetime
  deriving DecidableEq

/-- No text of a breach is empty. -/
instance : PostInit RiskBreach where
  postInit breach := do
    require (breach.strategyId ≠ "") (.valueError "RiskBreach.strategy_id must be non-empty")
    requireUtc breach.timeUtc "RiskBreach.time_utc"

/-! ## The broker's event queue -/

/-- `BrokerEvent`: what a broker's event queue holds. -/
inductive BrokerEvent where
  | order (e : OrderEvent)
  | connection (e : ConnectionStatus)
  | account (e : AccountUpdate)
  deriving DecidableEq

/-- The order event, when it is one: `isinstance(event, OrderEvent)`. -/
def BrokerEvent.order? : BrokerEvent → Option OrderEvent
  | .order e => some e
  | _ => none

/-- The order events of a queue that belong to `cid`, oldest first. -/
def orderEventsOf (cid : ClientOrderId) (events : List BrokerEvent) : List OrderEvent :=
  (events.filterMap BrokerEvent.order?).filter fun e => e.val.clientOrderId = cid

/-- The kinds of the events of `cid`, oldest first. -/
def kindsOf (cid : ClientOrderId) (events : List BrokerEvent) : List OrderEventKind :=
  (orderEventsOf cid events).map fun e => e.val.kind

/-- The fill payloads of the events of `cid`, oldest first. -/
def fillsOf (cid : ClientOrderId) (events : List BrokerEvent) : List Fill :=
  (orderEventsOf cid events).filterMap fun e => e.val.fill

@[simp] theorem orderEventsOf_nil (cid : ClientOrderId) : orderEventsOf cid [] = [] := rfl

@[simp] theorem orderEventsOf_append (cid : ClientOrderId) (xs ys : List BrokerEvent) :
    orderEventsOf cid (xs ++ ys) = orderEventsOf cid xs ++ orderEventsOf cid ys := by
  simp [orderEventsOf]

@[simp] theorem orderEventsOf_order (cid : ClientOrderId) (e : OrderEvent) :
    orderEventsOf cid [.order e] = if e.val.clientOrderId = cid then [e] else [] := by
  by_cases h : e.val.clientOrderId = cid <;> simp [orderEventsOf, BrokerEvent.order?, h]

@[simp] theorem orderEventsOf_connection (cid : ClientOrderId) (e : ConnectionStatus) :
    orderEventsOf cid [.connection e] = [] := rfl

@[simp] theorem kindsOf_nil (cid : ClientOrderId) : kindsOf cid [] = [] := rfl

@[simp] theorem kindsOf_append (cid : ClientOrderId) (xs ys : List BrokerEvent) :
    kindsOf cid (xs ++ ys) = kindsOf cid xs ++ kindsOf cid ys := by
  simp [kindsOf]

@[simp] theorem kindsOf_order (cid : ClientOrderId) (e : OrderEvent) :
    kindsOf cid [.order e] = if e.val.clientOrderId = cid then [e.val.kind] else [] := by
  by_cases h : e.val.clientOrderId = cid <;> simp [kindsOf, h]

@[simp] theorem kindsOf_connection (cid : ClientOrderId) (e : ConnectionStatus) :
    kindsOf cid [.connection e] = [] := rfl

@[simp] theorem fillsOf_nil (cid : ClientOrderId) : fillsOf cid [] = [] := rfl

@[simp] theorem fillsOf_append (cid : ClientOrderId) (xs ys : List BrokerEvent) :
    fillsOf cid (xs ++ ys) = fillsOf cid xs ++ fillsOf cid ys := by
  simp [fillsOf]

@[simp] theorem fillsOf_order (cid : ClientOrderId) (e : OrderEvent) :
    fillsOf cid [.order e] = if e.val.clientOrderId = cid then e.val.fill.toList else [] := by
  by_cases h : e.val.clientOrderId = cid <;> cases hf : e.val.fill <;> simp [fillsOf, h, hf]

@[simp] theorem fillsOf_connection (cid : ClientOrderId) (e : ConnectionStatus) :
    fillsOf cid [.connection e] = [] := rfl

/-- Every fill payload comes with a PARTIAL_FILL or FILLED event, one for one. -/
theorem length_fillsOf (cid : ClientOrderId) (events : List BrokerEvent) :
    (fillsOf cid events).length =
      (kindsOf cid events).count .partialFill + (kindsOf cid events).count .filled := by
  unfold fillsOf kindsOf
  induction orderEventsOf cid events with
  | nil => rfl
  | cons e rest ih =>
    have hfill := OrderEvent.isSome_fill_iff e
    cases hk : e.val.fill with
    | none =>
      rw [hk] at hfill
      have hp : e.val.kind ≠ .partialFill := fun h => nomatch hfill.mpr (.inl h)
      have hf : e.val.kind ≠ .filled := fun h => nomatch hfill.mpr (.inr h)
      simp [hk, ih, hp, hf]
    | some fill =>
      rw [hk] at hfill
      rcases hfill.mp rfl with h | h <;> simp [hk, ih, h] <;> omega

end Blive
