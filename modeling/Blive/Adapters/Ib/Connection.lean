import Blive.Adapters.Ib.Broker

/-!
# The connection of the IB broker

`connect` and `disconnect` of `adapters/ib/broker.py` and the loop of the account updates, as they
interleave on the event loop. `connect` suspends in the client, `disconnect` while it waits for the
loop it has cancelled; both look at the connected flag before they suspend and set it afterwards.
What the loop emits and what the account cache holds is left to the model of the account. What
`-=` leaves of the registrations of a handler is up to the event: `detach` takes their number to
the number that is left.
-/

namespace Blive

/-- A task that runs `_account_update_loop`: it sleeps between its ticks, its cancellation is under
way, or it is done. -/
inductive UpdateLoop where
  | sleeping
  | cancelling
  | done
  deriving DecidableEq

structure IBConnection where
  broker : IBBroker
  /-- How often the broker's handler is registered on `ib.accountValueEvent`. -/
  accountValueHandlers : Nat
  /-- How often the broker's handler is registered on `ib.errorEvent`. -/
  errorHandlers : Nat
  /-- The tasks that were created, oldest first. -/
  loops : List UpdateLoop
  /-- The index of `_account_update_task`. -/
  accountUpdateTask : Option Nat
  /-- How many calls of `connect` are suspended in the client. -/
  connecting : Nat
  /-- The tasks that the suspended calls of `disconnect` wait for. -/
  disconnecting : List Nat

namespace IBConnection

/-- A newly constructed broker. -/
def init : IBConnection where
  broker := IBBroker.init
  accountValueHandlers := 0
  errorHandlers := 0
  loops := []
  accountUpdateTask := none
  connecting := 0
  disconnecting := []

/-- `connect` up to the client. -/
def connect (s : IBConnection) : IBConnection :=
  if s.broker.connected then s else { s with connecting := s.connecting + 1 }

/-- `connect` from the client to its end. -/
def finishConnect (s : IBConnection) (now : Utc) : IBConnection :=
  { s with
    accountValueHandlers := s.accountValueHandlers + 1
    errorHandlers := s.errorHandlers + 1
    broker := s.broker.connect now
    loops := s.loops ++ [.sleeping]
    accountUpdateTask := some s.loops.length }

section Disconnect

variable (detach : Nat → Nat)

/-- `disconnect` from the detaching of the handlers to its end. -/
def finishDisconnect (s : IBConnection) (now : Utc) : IBConnection :=
  { s with
    accountValueHandlers := detach s.accountValueHandlers
    errorHandlers := detach s.errorHandlers
    broker := s.broker.disconnect now }

/-- `disconnect` up to its suspension; it suspends only if there is a task and it is not done. -/
def disconnect (s : IBConnection) (now : Utc) : IBConnection :=
  if s.broker.connected then
    match s.accountUpdateTask with
    | none => s.finishDisconnect detach now
    | some task =>
        let s := { s with accountUpdateTask := none }
        if s.loops[task]? = some .done then s.finishDisconnect detach now
        else { s with
          loops := s.loops.set task .cancelling
          disconnecting := s.disconnecting ++ [task] }
  else s

/-- What can happen next: a call starts; the client answers a suspended `connect`, with an exception
or not; a cancelled loop ends; the `k`-th suspended `disconnect` goes on; a loop wakes up, and its
tick raises or not. -/
inductive Action where
  | connect
  | clientConnected (success : Bool) (now : Utc)
  | disconnect (now : Utc)
  | loopEnds (task : Nat)
  | loopAwaited (k : Nat) (now : Utc)
  | loopWakes (task : Nat) (raises : Bool)

def step (s : IBConnection) : Action → Option IBConnection
  | .connect => some s.connect
  | .clientConnected success now =>
      match s.connecting with
      | 0 => none
      | connecting + 1 =>
          let s := { s with connecting }
          some (if success then s.finishConnect now else s)
  | .disconnect now => some (s.disconnect detach now)
  | .loopEnds task =>
      if s.loops[task]? = some .cancelling then some { s with loops := s.loops.set task .done }
      else none
  | .loopAwaited k now =>
      match s.disconnecting[k]? with
      | none => none
      | some task =>
          if s.loops[task]? = some .done then
            some <|
              { s with disconnecting := s.disconnecting.eraseIdx k }.finishDisconnect detach now
          else none
  | .loopWakes task raises =>
      if s.loops[task]? = some .sleeping then
        some (if s.broker.connected ∧ raises = false then s
          else { s with loops := s.loops.set task .done })
      else none

end Disconnect

/-! ## What is seen of it -/

/-- The `ConnectionStatus` events, oldest first. -/
def statuses (s : IBConnection) : List Bool :=
  s.broker.events.filterMap fun
    | .connection status => some status.connected
    | _ => none

/-- The loops that are not done. -/
def running (s : IBConnection) : Nat := s.loops.countP fun loop => loop ≠ .done

/-- No call is suspended. -/
def Quiescent (s : IBConnection) : Prop := s.connecting = 0 ∧ s.disconnecting = []

instance (s : IBConnection) : Decidable s.Quiescent := inferInstanceAs (Decidable (_ ∧ _))

end IBConnection

end Blive
