import Blive.Domain.Events
import Blive.Misc.Transition

/-!
# The order state machine

`domain/order_fsm.py`: the transition table T1..T14 and `transition`, which looks a trigger
up and builds the event it emits. A broker's consumer sees events, not triggers; `observe`
reads an event kind as the trigger that emits it, so that a broker's event trace can be
checked against the table.
-/

namespace Blive

inductive Trigger where
  | submitCall | wireAck | wireReject | accept | reject | partialFill | fill | cancel | expire
  deriving DecidableEq, Repr

/-- `_TRANSITIONS`: the target state and the kind of the emitted event of each row. -/
def transitions : OrderState → Trigger → Option (OrderState × Option OrderEventKind)
  | .initialized, .submitCall => some (.submitPending, none)               -- T1
  | .submitPending, .wireAck => some (.submitted, some .submitted)         -- T2
  | .submitPending, .wireReject => some (.rejected, some .rejected)        -- T3
  | .submitted, .accept => some (.accepted, some .accepted)                -- T4
  | .submitted, .reject => some (.rejected, some .rejected)                -- T5
  | .submitted, .cancel => some (.canceled, some .canceled)                -- T6
  | .accepted, .partialFill => some (.partiallyFilled, some .partialFill)  -- T7
  | .accepted, .fill => some (.filled, some .filled)                       -- T8
  | .accepted, .cancel => some (.canceled, some .canceled)                 -- T9
  | .accepted, .expire => some (.expired, some .expired)                   -- T10
  | .partiallyFilled, .partialFill =>
      some (.partiallyFilled, some .partialFill)                           -- T11
  | .partiallyFilled, .fill => some (.filled, some .filled)                -- T12
  | .partiallyFilled, .cancel => some (.canceled, some .canceled)          -- T13
  | .partiallyFilled, .expire => some (.expired, some .expired)            -- T14
  | _, _ => none

/-- What `transition` raises. -/
inductive TransitionError where
  | illegalTransition (state : OrderState) (trigger : Trigger)
  | event (e : PyError)
  deriving DecidableEq

/-- `transition` -/
def transition (state : OrderState) (trigger : Trigger) (clientOrderId : ClientOrderId)
    (timeUtc : Datetime) (venueOrderId : Option String) (fill : Option Fill)
    (reason : Option String) : Except TransitionError (OrderState × Option OrderEvent) :=
  match transitions state trigger with
  | none => .error (.illegalTransition state trigger)
  | some (newState, none) => .ok (newState, none)
  | some (newState, some kind) =>
      match Frozen.make ⟨clientOrderId, venueOrderId, kind, reason, timeUtc, fill⟩ with
      | .error e => .error (.event e)
      | .ok event => .ok (newState, some event)

/-- `is_terminal` -/
def isTerminal (state : OrderState) : Bool := state ∈ terminalOrderStates

/-- The event kinds that end an order's life. -/
def OrderEventKind.isTerminal (kind : OrderEventKind) : Bool :=
  kind ∈ [OrderEventKind.filled, .canceled, .rejected, .expired]

/-- The terminal events of `cid` among the events. -/
def terminalCount (cid : ClientOrderId) (events : List BrokerEvent) : Nat :=
  (kindsOf cid events).countP OrderEventKind.isTerminal

@[simp] theorem terminalCount_nil (cid : ClientOrderId) : terminalCount cid [] = 0 := rfl

@[simp] theorem terminalCount_append (cid : ClientOrderId) (xs ys : List BrokerEvent) :
    terminalCount cid (xs ++ ys) = terminalCount cid xs + terminalCount cid ys := by
  simp [terminalCount]

@[simp] theorem terminalCount_order (cid : ClientOrderId) (e : OrderEvent) :
    terminalCount cid [.order e] =
      if e.val.clientOrderId = cid ∧ e.val.kind.isTerminal then 1 else 0 := by
  unfold terminalCount
  rw [kindsOf_order]
  by_cases hc : e.val.clientOrderId = cid <;> by_cases hk : e.val.kind.isTerminal <;> simp [hc, hk]

@[simp] theorem terminalCount_connection (cid : ClientOrderId) (e : ConnectionStatus) :
    terminalCount cid [.connection e] = 0 := rfl

/-- The trigger an event kind stands for: REJECTED is a wire reject while the submission is
pending and a venue reject afterwards. -/
def triggerOf (state : OrderState) : OrderEventKind → Trigger
  | .submitted => .wireAck
  | .accepted => .accept
  | .partialFill => .partialFill
  | .filled => .fill
  | .canceled => .cancel
  | .rejected => if state = .submitPending then .wireReject else .reject
  | .expired => .expire

/-- The state an observed event leads to, when the table allows it. -/
def observe (state : OrderState) (kind : OrderEventKind) : Option OrderState :=
  (transitions state (triggerOf state kind)).map Prod.fst

/-- The state a trace of event kinds leads to from `state`. -/
abbrev observeAll (state : OrderState) (kinds : List OrderEventKind) : Option OrderState :=
  Transition.run observe state kinds

/-- A trace that follows the table from SUBMIT_PENDING. -/
def LegalTrace (kinds : List OrderEventKind) : Prop := (observeAll .submitPending kinds).isSome

instance (kinds : List OrderEventKind) : Decidable (LegalTrace kinds) :=
  inferInstanceAs (Decidable (_ = _))

/-- `observe` picks the row that emits the observed kind. -/
theorem observe_eq_some_iff {s t : OrderState} {k : OrderEventKind} :
    observe s k = some t ↔ ∃ trigger, transitions s trigger = some (t, some k) := by
  constructor
  · intro h
    refine ⟨triggerOf s k, ?_⟩
    revert h
    cases s <;> cases k <;> simp [observe, triggerOf, transitions]
  · rintro ⟨trigger, h⟩
    revert h
    cases s <;> cases trigger <;> simp only [transitions] <;>
      intro h <;> cases h <;> rfl

/-- The terminal kinds are the ones that lead to a terminal state. -/
theorem isTerminal_of_observe {s t : OrderState} {k : OrderEventKind} (h : observe s k = some t) :
    isTerminal t = k.isTerminal := by
  revert h
  cases s <;> cases k <;> simp only [observe, triggerOf, transitions] <;>
    intro h <;> cases h <;> rfl

theorem observe_terminal {s : OrderState} (hs : isTerminal s) (k : OrderEventKind) :
    observe s k = none := by
  cases s <;> first | (cases hs; done) | (cases k <;> rfl)

theorem observeAll_append (s : OrderState) (xs ys : List OrderEventKind) :
    observeAll s (xs ++ ys) = (observeAll s xs).bind fun t => observeAll t ys :=
  Transition.run_append s xs ys

theorem observeAll_singleton (s : OrderState) (k : OrderEventKind) :
    observeAll s [k] = observe s k := by
  simp [observeAll, Transition.run]

/-- Legality is closed under prefixes. -/
theorem LegalTrace.of_append {xs ys : List OrderEventKind} (h : LegalTrace (xs ++ ys)) :
    LegalTrace xs := by
  unfold LegalTrace at *
  rw [observeAll_append] at h
  cases hx : observeAll .submitPending xs with
  | none => rw [hx] at h; cases h
  | some t => rfl

theorem legalTrace_nil : LegalTrace [] := rfl

end Blive
