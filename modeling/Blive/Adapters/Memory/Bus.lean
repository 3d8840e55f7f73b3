import Blive.Misc.Dict
import Blive.Misc.Transition

/-!
# The in-memory event bus

`adapters/memory/bus.py`. `publish` makes a task of each handler's call; the loop starts the tasks
in the order in which they were made, and a handler may itself publish, subscribe or unsubscribe.
An action is a call on the bus or the start of the next task.
-/

namespace Blive

variable {η ε : Type}

/-- A subscription: its `SubscriptionId` and its handler. -/
abbrev Subscription (η : Type) := Nat × η

/-- A call `handler(event)`. The id is history: the task does not have it. -/
structure Delivery (η ε : Type) where
  sid : Nat
  handler : η
  event : ε
  deriving DecidableEq

structure InMemoryEventBus (η : Type) where
  subscribers : Dict String (List (Subscription η)) := Dict.empty
  nextId : Nat := 0

namespace InMemoryEventBus

/-- `self._subscribers.get(topic, [])` -/
def onTopic (bus : InMemoryEventBus η) (topic : String) : List (Subscription η) :=
  (bus.subscribers.get? topic).getD []

/-- `publish`: the tasks it makes. -/
def publish (bus : InMemoryEventBus η) (topic : String) (event : ε) : List (Delivery η ε) :=
  (bus.onTopic topic).map fun sub => ⟨sub.1, sub.2, event⟩

/-- `subscribe`; the id it returns is `nextId`. -/
def subscribe (bus : InMemoryEventBus η) (topic : String) (handler : η) : InMemoryEventBus η where
  subscribers := bus.subscribers.set topic (bus.onTopic topic ++ [(bus.nextId, handler)])
  nextId := bus.nextId + 1

/-- `unsubscribe` -/
def unsubscribe (bus : InMemoryEventBus η) (sid : Nat) : InMemoryEventBus η :=
  { bus with subscribers := bus.subscribers.mapValues fun subs =>
      subs.filter fun sub => sub.1 ≠ sid }

/-- The bus, the tasks the loop has yet to start and, as history, the calls it has started. -/
structure State (η ε : Type) where
  bus : InMemoryEventBus η := {}
  ready : List (Delivery η ε) := []
  delivered : List (Delivery η ε) := []

inductive Action (η ε : Type) where
  | publish (topic : String) (event : ε)
  | subscribe (topic : String) (handler : η)
  | unsubscribe (sid : Nat)
  /-- The loop starts the next task. -/
  | deliver
  deriving DecidableEq

def step (s : State η ε) : Action η ε → Option (State η ε)
  | .publish topic event => some { s with ready := s.ready ++ s.bus.publish topic event }
  | .subscribe topic handler => some { s with bus := s.bus.subscribe topic handler }
  | .unsubscribe sid => some { s with bus := s.bus.unsubscribe sid }
  | .deliver =>
      match s.ready with
      | [] => none
      | delivery :: ready => some { s with ready, delivered := s.delivered ++ [delivery] }

/-- Every call, in the order in which it was made a task. -/
def State.made (s : State η ε) : List (Delivery η ε) := s.delivered ++ s.ready

end InMemoryEventBus

end Blive
