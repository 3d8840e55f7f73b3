import Blive.Domain.Events
import Blive.Misc.Transition

/-!
# The paper broker

`adapters/paper/broker.py`. A call runs to completion without suspending (`put` on an
unbounded queue does not wait), and so does a lifecycle task between two sleeps. The system
is therefore a step function over the broker: an action is one call, or the resumption of
one lifecycle task up to its next sleep. Which task is resumed, when, and what the clock and
`price_lookup` answer is part of the action, so that every interleaving is a list of actions.

`events` holds every event ever put on the queue, oldest first; a consumer reads along it.
-/

namespace Blive

/-- The constructor arguments the order path reads. -/
structure PaperConfig where
  commissionPerShare : Decimal := 5 / 1000
  ackLatency : Decimal := 0
  acceptLatency : Decimal := 0
  fillLatency : Decimal := 0

/-- Where a lifecycle task stands: not yet started, or suspended in one of its sleeps. -/
inductive LifecyclePoint where
  | created | ackSleep | acceptSleep | fillSleep
  deriving DecidableEq, Repr

/-- A running `_simulate_lifecycle(order, venue_id)`. -/
structure LifecycleTask where
  order : Order
  venueId : String
  point : LifecyclePoint
  deriving DecidableEq

/-- The key of the task's order in the broker's dictionaries. -/
abbrev LifecycleTask.cid (task : LifecycleTask) : ClientOrderId := task.order.val.clientOrderId

structure PaperBroker where
  connected : Bool
  nextVenueSeq : Nat
  openOrders : Dict ClientOrderId Order
  venueIdByOrder : Dict ClientOrderId String
  events : List BrokerEvent
  lifecycleTasks : List LifecycleTask

namespace PaperBroker

/-- A newly constructed broker. -/
def init : PaperBroker where
  connected := false
  nextVenueSeq := 1
  openOrders := Dict.empty
  venueIdByOrder := Dict.empty
  events := []
  lifecycleTasks := []

/-- `self._events.put(event)` -/
def put (b : PaperBroker) (event : BrokerEvent) : PaperBroker :=
  { b with events := b.events ++ [event] }

@[simp] theorem put_connected (b : PaperBroker) (event : BrokerEvent) :
    (b.put event).connected = b.connected := rfl

@[simp] theorem put_openOrders (b : PaperBroker) (event : BrokerEvent) :
    (b.put event).openOrders = b.openOrders := rfl

@[simp] theorem put_venueIdByOrder (b : PaperBroker) (event : BrokerEvent) :
    (b.put event).venueIdByOrder = b.venueIdByOrder := rfl

@[simp] theorem put_events (b : PaperBroker) (event : BrokerEvent) :
    (b.put event).events = b.events ++ [event] := rfl

@[simp] theorem put_lifecycleTasks (b : PaperBroker) (event : BrokerEvent) :
    (b.put event).lifecycleTasks = b.lifecycleTasks := rfl

def connect (b : PaperBroker) (now : Utc) : PaperBroker :=
  { b with connected := true }.put (.connection ⟨true, "paper broker connected", now⟩)

/-- Every unfinished lifecycle task is cancelled: when it runs next it gets a
`CancelledError`, at its start or in its sleep, and ends without touching the broker. -/
def disconnect (b : PaperBroker) (now : Utc) : PaperBroker :=
  { b with connected := false, lifecycleTasks := [] }.put
    (.connection ⟨false, "paper broker disconnected", now⟩)

/-- `_mint_venue_id`: `paper-` and the sequence number padded to eight digits. -/
def mintVenueId (b : PaperBroker) : String × PaperBroker :=
  let digits := toString b.nextVenueSeq
  ("paper-" ++ "".pushn '0' (8 - digits.length) ++ digits,
    { b with nextVenueSeq := b.nextVenueSeq + 1 })

def submit (b : PaperBroker) (order : Order) : Except PyError PaperBroker :=
  if b.connected = false then
    .error (.runtimeError "PaperBroker.submit called before connect()")
  else if order.val.clientOrderId ∈ b.openOrders then
    .ok b
  else
    let b := { b with openOrders := b.openOrders.set order.val.clientOrderId order }
    let (venueId, b) := b.mintVenueId
    .ok { b with
      venueIdByOrder := b.venueIdByOrder.set order.val.clientOrderId venueId
      lifecycleTasks := b.lifecycleTasks ++ [⟨order, venueId, .created⟩] }

def cancel (b : PaperBroker) (cid : ClientOrderId) (now : Utc) : PaperBroker :=
  if cid ∈ b.openOrders then
    { b with openOrders := b.openOrders.erase cid }.put
      (.order (.withReason cid (b.venueIdByOrder.get? cid) .canceled "engine" now
        canceled_needsReason engine_ne_empty))
  else b

/-- The fields `dataclasses.replace` builds from an order and an update. -/
def replacedFields (original : OrderFields) (new : OrderUpdateFields) : OrderFields :=
  { original with
    quantity := new.quantity.getD original.quantity
    limitPrice := new.limitPrice.or original.limitPrice
    stopPrice := new.stopPrice.or original.stopPrice }

def replace (b : PaperBroker) (cid : ClientOrderId) (new : OrderUpdate) :
    Except PyError PaperBroker :=
  match b.openOrders.get? cid with
  | none => .ok b
  | some original => do
      let replaced ← Frozen.make (replacedFields original.val new.val)
      return { b with openOrders := b.openOrders.set cid replaced }

/-- What the surroundings answer a resumed lifecycle task: the clock, `price_lookup` if the
task calls it, and whether the sleep it resumes from raised. -/
structure LifecycleEnv where
  now : Utc
  price : Except PyError Decimal
  sleepRaises : Bool := false

/-- The `Fill(...)` call of the lifecycle, for the order captured at submission. -/
def fillFields (cfg : PaperConfig) (task : LifecycleTask) (price : Decimal) (now : Utc) :
    FillFields where
  clientOrderId := task.cid
  venueOrderId := task.venueId
  venueExecId := task.venueId ++ "-exec-1"
  instrument := task.order.val.instrument
  side := task.order.val.side
  quantity := task.order.val.quantity
  price := price
  commission := cfg.commissionPerShare * task.order.val.quantity
  currency := task.order.val.instrument.val.currency
  timeUtc := now.toDatetime

/-- The price lookup and the validated fill; an exception of either ends the task. -/
def computeFill (cfg : PaperConfig) (env : LifecycleEnv) (task : LifecycleTask) :
    Except PyError Fill := do
  let price ← env.price
  Frozen.make (fillFields cfg task price env.now)

/-- From the fill sleep to the end. The order leaves the book before the fill is computed. -/
def afterFill (cfg : PaperConfig) (env : LifecycleEnv) (task : LifecycleTask)
    (b : PaperBroker) : PaperBroker :=
  if task.cid ∈ b.openOrders then
    let b := { b with openOrders := b.openOrders.erase task.cid }
    match computeFill cfg env task with
    | .error _ => b
    | .ok fill =>
        b.put (.order
          (.withFill task.cid (some task.venueId) .filled fill env.now filled_needsFill))
  else b

/-- From the accept sleep on: the broker, and the sleep the task enters next, if any. -/
def afterAccept (cfg : PaperConfig) (env : LifecycleEnv) (task : LifecycleTask)
    (b : PaperBroker) : PaperBroker × Option LifecyclePoint :=
  if task.cid ∈ b.openOrders then
    let b := b.put (.order (.plain task.cid (some task.venueId) .accepted env.now accepted_plain))
    if task.order.val.orderType ≠ .mkt then (b, none)
    else if cfg.fillLatency ≠ 0 then (b, some .fillSleep)
    else (afterFill cfg env task b, none)
  else (b, none)

/-- From the ack sleep on. -/
def afterAck (cfg : PaperConfig) (env : LifecycleEnv) (task : LifecycleTask)
    (b : PaperBroker) : PaperBroker × Option LifecyclePoint :=
  if task.cid ∈ b.openOrders then
    let b := b.put (.order (.plain task.cid (some task.venueId) .submitted env.now submitted_plain))
    if cfg.acceptLatency ≠ 0 then (b, some .acceptSleep)
    else afterAccept cfg env task b
  else (b, none)

/-- One resumption of `_simulate_lifecycle`, up to its next sleep or its end. -/
def simulateLifecycle (cfg : PaperConfig) (env : LifecycleEnv) (task : LifecycleTask)
    (b : PaperBroker) : PaperBroker × Option LifecyclePoint :=
  match task.point, env.sleepRaises with
  | .created, _ => if cfg.ackLatency ≠ 0 then (b, some .ackSleep) else afterAck cfg env task b
  | .ackSleep, false => afterAck cfg env task b
  | .acceptSleep, false => afterAccept cfg env task b
  | .fillSleep, false => (afterFill cfg env task b, none)
  | _, true => (b, none)

/-- What can happen to the broker next. -/
inductive Action where
  | connect (now : Utc)
  | disconnect (now : Utc)
  | submit (order : Order)
  | cancel (cid : ClientOrderId) (now : Utc)
  | replace (cid : ClientOrderId) (new : OrderUpdate)
  | lifecycle (i : Nat) (env : LifecycleEnv)

/-- A call that raises leaves the broker as it was. -/
def orUnchanged (b : PaperBroker) : Except PyError PaperBroker → PaperBroker
  | .ok b' => b'
  | .error _ => b

def step (cfg : PaperConfig) (b : PaperBroker) : Action → Option PaperBroker
  | .connect now => some (b.connect now)
  | .disconnect now => some (b.disconnect now)
  | .submit order => some (b.orUnchanged (b.submit order))
  | .cancel cid now => some (b.cancel cid now)
  | .replace cid new => some (b.orUnchanged (b.replace cid new))
  | .lifecycle i env =>
      match b.lifecycleTasks[i]? with
      | none => none
      | some task =>
          let (b', next) := simulateLifecycle cfg env task b
          some { b' with
            lifecycleTasks := (next.toList.map fun point => { task with point }) ++
              b.lifecycleTasks.eraseIdx i }

end PaperBroker

end Blive
