import Mathlib.Data.List.Chain
import Blive.Adapters.Ib.Connection

/-!
# Overlapping calls of `connect` and `disconnect`

A second `connect` that finishes while the broker is connected registers the handlers again and
orphans a loop; a `disconnect` that goes on after another one has finished reports the loss of the
connection again, or takes down the handlers of a connection that was made in between. Where
neither happens, the broker is in one of three phases: idle, running with one loop, or stopping
with one call that waits for it.
-/

namespace Blive

open Transition

/-! ## Alternation -/

/-- The statuses alternate and begin with `True`. -/
structure Alternates (statuses : List Bool) : Prop where
  first : ∀ status ∈ statuses.head?, status = true
  chain : statuses.IsChain (· ≠ ·)

/-- The last status, `False` if there is none. -/
def lastStatus (statuses : List Bool) : Bool := statuses.getLast?.getD false

theorem alternates_concat {statuses : List Bool} {status : Bool} :
    Alternates (statuses ++ [status]) ↔ Alternates statuses ∧ status ≠ lastStatus statuses := by
  rcases List.eq_nil_or_concat' statuses with rfl | ⟨front, last, rfl⟩
  · constructor
    · intro h
      exact ⟨⟨by simp, .nil⟩, by simpa [lastStatus] using h.first⟩
    · rintro ⟨-, hlast⟩
      exact ⟨by simpa [lastStatus] using hlast, .singleton _⟩
  · have hlast : lastStatus (front ++ [last]) = last := by simp [lastStatus]
    have hhead : (front ++ [last] ++ [status]).head? = (front ++ [last]).head? := by
      rw [List.head?_append_of_ne_nil _ (by simp)]
    rw [hlast]
    constructor
    · rintro ⟨hfirst, hchain⟩
      rw [hhead] at hfirst
      obtain ⟨hfront, -, hne⟩ := List.isChain_append.mp hchain
      exact ⟨⟨hfirst, hfront⟩, Ne.symm (hne last (by simp) status (by simp))⟩
    · rintro ⟨⟨hfirst, hchain⟩, hne⟩
      refine ⟨by rwa [hhead], List.isChain_append.mpr ⟨hchain, .singleton _, ?_⟩⟩
      intro x hx y hy
      simp only [List.getLast?_append, List.getLast?_singleton, Option.some_or, Option.mem_def,
        Option.some_inj, List.head?_cons] at hx hy
      rw [← hx, ← hy]
      exact hne.symm

namespace IBConnection

variable {detach : Nat → Nat} {s t : IBConnection}

/-! ## One step -/

/-- What a step can do. Where it is quiet, no more than the number of suspended handshakes
changes. -/
inductive StepEffect (detach : Nat → Nat) (s : IBConnection) : Action → IBConnection → Prop
  | quiet (a : Action) (connecting : Nat) : StepEffect detach s a { s with connecting }
  | connects (connecting : Nat) (now : Utc) :
      StepEffect detach s (.clientConnected true now) ({ s with connecting }.finishConnect now)
  | stops (now : Utc) (task : Nat) (hconnected : s.broker.connected = true)
      (htask : s.accountUpdateTask = some task) (hlive : s.loops[task]? ≠ some .done) :
      StepEffect detach s (.disconnect now) { s with
        accountUpdateTask := none
        loops := s.loops.set task .cancelling
        disconnecting := s.disconnecting ++ [task] }
  | disconnects (now : Utc) (hconnected : s.broker.connected = true)
      (hdone : ∀ task ∈ s.accountUpdateTask, s.loops[task]? = some .done) :
      StepEffect detach s (.disconnect now)
        ({ s with accountUpdateTask := none }.finishDisconnect detach now)
  | ends (task : Nat) (hloop : s.loops[task]? = some .cancelling) :
      StepEffect detach s (.loopEnds task) { s with loops := s.loops.set task .done }
  | leaves (task : Nat) (raises : Bool) (hloop : s.loops[task]? = some .sleeping)
      (hleaves : ¬ (s.broker.connected = true ∧ raises = false)) :
      StepEffect detach s (.loopWakes task raises) { s with loops := s.loops.set task .done }
  | goesOn (k : Nat) (now : Utc) (task : Nat) (hk : s.disconnecting[k]? = some task)
      (hdone : s.loops[task]? = some .done) :
      StepEffect detach s (.loopAwaited k now)
        ({ s with disconnecting := s.disconnecting.eraseIdx k }.finishDisconnect detach now)

theorem step_effect {a : Action} (h : step detach s a = some t) : StepEffect detach s a t := by
  cases a with
  | connect =>
    cases h
    unfold connect
    split
    · exact .quiet _ s.connecting
    · exact .quiet _ _
  | clientConnected success now =>
    simp only [step] at h
    split at h
    · cases h
    · rename_i connecting _
      cases h
      cases success with
      | true => exact .connects connecting now
      | false => exact .quiet _ connecting
  | disconnect now =>
    cases h
    unfold disconnect
    split
    · rename_i hconnected
      cases htask : s.accountUpdateTask with
      | none =>
        have hsame : { s with accountUpdateTask := none } = s := by rw [← htask]
        have heffect : StepEffect detach s (.disconnect now)
            ({ s with accountUpdateTask := none }.finishDisconnect detach now) :=
          .disconnects now hconnected (by simp [htask])
        rw [hsame] at heffect
        exact heffect
      | some task =>
        dsimp only
        split
        · rename_i hdone
          exact .disconnects now hconnected (by simp [htask, hdone])
        · rename_i hlive
          exact .stops now task hconnected htask hlive
    · exact .quiet _ s.connecting
  | loopEnds task =>
    simp only [step] at h
    split at h
    · rename_i hloop
      cases h
      exact .ends task hloop
    · cases h
  | loopAwaited k now =>
    simp only [step] at h
    split at h
    · cases h
    · rename_i task hk
      split at h
      · rename_i hdone
        cases h
        exact .goesOn k now task hk hdone
      · cases h
  | loopWakes task raises =>
    simp only [step] at h
    split at h
    · rename_i hloop
      cases h
      split
      · exact .quiet _ s.connecting
      · rename_i hleaves
        exact .leaves task raises hloop hleaves
    · cases h

/-! ## The events -/

@[simp] theorem statuses_finishConnect (now : Utc) :
    (s.finishConnect now).statuses = s.statuses ++ [true] := by
  simp [statuses, finishConnect, IBBroker.connect, IBBroker.put]

@[simp] theorem statuses_finishDisconnect (now : Utc) :
    (s.finishDisconnect detach now).statuses = s.statuses ++ [false] := by
  simp [statuses, finishDisconnect, IBBroker.disconnect, IBBroker.put]

/-- A step reports nothing and keeps the flag, or it reports what it sets the flag to. -/
theorem step_report {a : Action} (h : step detach s a = some t) :
    (t.statuses = s.statuses ∧ t.broker.connected = s.broker.connected) ∨
      t.statuses = s.statuses ++ [t.broker.connected] := by
  cases step_effect h with
  | quiet _ connecting => exact .inl ⟨rfl, rfl⟩
  | connects connecting now => exact .inr (statuses_finishConnect now)
  | stops now task hconnected htask hlive => exact .inl ⟨rfl, rfl⟩
  | disconnects now hconnected hdone => exact .inr (statuses_finishDisconnect now)
  | ends task hloop => exact .inl ⟨rfl, rfl⟩
  | leaves task raises hloop hleaves => exact .inl ⟨rfl, rfl⟩
  | goesOn k now task hk hdone => exact .inr (statuses_finishDisconnect now)

/-- The flag stays the status reported last. -/
theorem lastStatus_step {a : Action} (hs : s.broker.connected = lastStatus s.statuses)
    (h : step detach s a = some t) : t.broker.connected = lastStatus t.statuses := by
  rcases step_report h with ⟨hstatuses, hconnected⟩ | hstatuses
  · rw [hstatuses, hconnected, hs]
  · rw [hstatuses]
    simp [lastStatus]

/-! ## Phases -/

/-- A handshake succeeds only while the broker is disconnected and no `disconnect` is suspended; a
suspended `disconnect` goes on only while the broker is connected; and no tick raises while it is
connected. -/
def OneAtATime (s : IBConnection) : Action → Prop
  | .clientConnected success _ =>
      success = true → s.broker.connected = false ∧ s.disconnecting = []
  | .loopAwaited _ _ => s.broker.connected = true
  | .loopWakes _ raises => s.broker.connected = true → raises = false
  | _ => True

instance (s : IBConnection) : (a : Action) → Decidable (s.OneAtATime a)
  | .connect => inferInstanceAs (Decidable True)
  | .clientConnected _ _ => inferInstanceAs (Decidable (_ → _ ∧ _))
  | .disconnect _ => inferInstanceAs (Decidable True)
  | .loopEnds _ => inferInstanceAs (Decidable True)
  | .loopAwaited _ _ => inferInstanceAs (Decidable (_ = _))
  | .loopWakes _ _ => inferInstanceAs (Decidable (_ → _))

/-- Each handler is registered once while the broker is connected, and not at all otherwise. -/
structure Registered (s : IBConnection) : Prop where
  accountValue : s.accountValueHandlers = if s.broker.connected then 1 else 0
  error : s.errorHandlers = if s.broker.connected then 1 else 0

/-- The loops that are not done, and who waits for them. -/
inductive Phase (s : IBConnection) : Prop
  | idle (hconnected : s.broker.connected = false) (htask : s.accountUpdateTask = none)
      (hloops : ∀ loop ∈ s.loops, loop = .done) (hwaiting : s.disconnecting = [])
  | running (past : List UpdateLoop) (hconnected : s.broker.connected = true)
      (htask : s.accountUpdateTask = some past.length) (hloops : s.loops = past ++ [.sleeping])
      (hpast : ∀ loop ∈ past, loop = .done) (hwaiting : s.disconnecting = [])
  | stopping (past : List UpdateLoop) (loop : UpdateLoop) (htask : s.accountUpdateTask = none)
      (hloops : s.loops = past ++ [loop]) (hloop : loop ≠ .sleeping)
      (hpast : ∀ loop ∈ past, loop = .done) (hwaiting : s.disconnecting = [past.length])

/-- A step that is taken one at a time reports a change. -/
theorem alternates_step {a : Action} (hs : Alternates s.statuses)
    (hlast : s.broker.connected = lastStatus s.statuses) (ha : s.OneAtATime a)
    (h : IBConnection.step detach s a = some t) : Alternates t.statuses := by
  cases step_effect h with
  | quiet _ connecting => exact hs
  | connects connecting now =>
    rw [statuses_finishConnect]
    refine alternates_concat.mpr ⟨hs, ?_⟩
    show true ≠ lastStatus s.statuses
    rw [← hlast, (ha rfl).1]
    decide
  | stops now task hconnected htask hlive => exact hs
  | disconnects now hconnected hdone =>
    rw [statuses_finishDisconnect]
    refine alternates_concat.mpr ⟨hs, ?_⟩
    show false ≠ lastStatus s.statuses
    rw [← hlast, hconnected]
    decide
  | ends task hloop => exact hs
  | leaves task raises hloop hleaves => exact hs
  | goesOn k now task hk hdone =>
    rw [statuses_finishDisconnect]
    refine alternates_concat.mpr ⟨hs, ?_⟩
    show false ≠ lastStatus s.statuses
    rw [← hlast, ha]
    decide

theorem Registered.step {a : Action} (hdetach : detach 1 = 0) (hs : s.Registered)
    (ha : s.OneAtATime a) (h : IBConnection.step detach s a = some t) : t.Registered := by
  obtain ⟨hvalue, herror⟩ := hs
  cases step_effect h with
  | quiet _ connecting => exact ⟨hvalue, herror⟩
  | connects connecting now =>
    rw [(ha rfl).1] at hvalue herror
    refine ⟨?_, ?_⟩
    · simp [finishConnect, hvalue, IBBroker.connect, IBBroker.put]
    · simp [finishConnect, herror, IBBroker.connect, IBBroker.put]
  | stops now task hconnected htask hlive => exact ⟨hvalue, herror⟩
  | disconnects now hconnected hdone =>
    rw [hconnected] at hvalue herror
    refine ⟨?_, ?_⟩
    · simp [finishDisconnect, hvalue, hdetach, IBBroker.disconnect, IBBroker.put]
    · simp [finishDisconnect, herror, hdetach, IBBroker.disconnect, IBBroker.put]
  | ends task hloop => exact ⟨hvalue, herror⟩
  | leaves task raises hloop hleaves => exact ⟨hvalue, herror⟩
  | goesOn k now task hk hdone =>
    replace ha : s.broker.connected = true := ha
    rw [ha] at hvalue herror
    refine ⟨?_, ?_⟩
    · simp [finishDisconnect, hvalue, hdetach, IBBroker.disconnect, IBBroker.put]
    · simp [finishDisconnect, herror, hdetach, IBBroker.disconnect, IBBroker.put]

/-- Where only the last loop may not be done, a loop that is not done is the last one. -/
theorem eq_last_of_not_done {past : List UpdateLoop} {last loop : UpdateLoop} {task : Nat}
    (hpast : ∀ loop ∈ past, loop = .done) (h : (past ++ [last])[task]? = some loop)
    (hloop : loop ≠ .done) : task = past.length ∧ last = loop := by
  rcases Nat.lt_trichotomy task past.length with hlt | heq | hgt
  · rw [List.getElem?_append_left hlt] at h
    exact absurd (hpast loop (List.mem_of_getElem? h)) hloop
  · subst heq
    rw [List.getElem?_concat_length] at h
    exact ⟨rfl, Option.some.inj h⟩
  · rw [List.getElem?_eq_none (by simp; omega)] at h
    cases h

theorem Phase.step {a : Action} (hs : s.Phase) (ha : s.OneAtATime a)
    (h : IBConnection.step detach s a = some t) : t.Phase := by
  cases step_effect h with
  | quiet _ connecting =>
    cases hs with
    | idle hconnected htask hloops hwaiting => exact .idle hconnected htask hloops hwaiting
    | running past hconnected htask hloops hpast hwaiting =>
      exact .running past hconnected htask hloops hpast hwaiting
    | stopping past loop htask hloops hloop hpast hwaiting =>
      exact .stopping past loop htask hloops hloop hpast hwaiting
  | connects connecting now =>
    obtain ⟨hdisconnected, hnone⟩ := ha rfl
    cases hs with
    | idle hconnected htask hloops hwaiting => exact .running s.loops rfl rfl rfl hloops hwaiting
    | running past hconnected htask hloops hpast hwaiting =>
      cases hdisconnected.symm.trans hconnected
    | stopping past loop htask hloops hloop hpast hwaiting => cases hnone.symm.trans hwaiting
  | stops now task hconnected htask hlive =>
    cases hs with
    | idle hdisconnected htask' hloops hwaiting => cases htask.symm.trans htask'
    | running past hconnected htask' hloops hpast hwaiting =>
      cases htask.symm.trans htask'
      refine .stopping past .cancelling rfl ?_ (by decide) hpast ?_
      · simp [hloops]
      · simp [hwaiting]
    | stopping past loop htask' hloops hloop hpast hwaiting => cases htask.symm.trans htask'
  | disconnects now hconnected hdone =>
    cases hs with
    | idle hdisconnected htask hloops hwaiting => cases hdisconnected.symm.trans hconnected
    | running past hconnected htask hloops hpast hwaiting =>
      -- The loop of a running broker is not done.
      have hlast := hdone past.length htask
      rw [hloops, List.getElem?_concat_length] at hlast
      cases hlast
    | stopping past loop htask hloops hloop hpast hwaiting =>
      exact .stopping past loop rfl hloops hloop hpast hwaiting
  | ends task hcancelling =>
    cases hs with
    | idle hconnected htask hloops hwaiting =>
      cases hloops _ (List.mem_of_getElem? hcancelling)
    | running past hconnected htask hloops hpast hwaiting =>
      rw [hloops] at hcancelling
      obtain ⟨-, hlast⟩ := eq_last_of_not_done hpast hcancelling (by decide)
      cases hlast
    | stopping past loop htask hloops hloop hpast hwaiting =>
      rw [hloops] at hcancelling
      obtain ⟨rfl, -⟩ := eq_last_of_not_done hpast hcancelling (by decide)
      refine .stopping past .done htask ?_ (by decide) hpast hwaiting
      simp [hloops]
  | leaves task raises hsleeping hleaves =>
    cases hs with
    | idle hconnected htask hloops hwaiting =>
      cases hloops _ (List.mem_of_getElem? hsleeping)
    | running past hconnected htask hloops hpast hwaiting =>
      exact absurd ⟨hconnected, ha hconnected⟩ hleaves
    | stopping past loop htask hloops hloop hpast hwaiting =>
      rw [hloops] at hsleeping
      obtain ⟨-, hlast⟩ := eq_last_of_not_done hpast hsleeping (by decide)
      exact absurd hlast hloop
  | goesOn k now task hk hdone =>
    cases hs with
    | idle hconnected htask hloops hwaiting =>
      rw [hwaiting] at hk
      cases hk
    | running past hconnected htask hloops hpast hwaiting =>
      rw [hwaiting] at hk
      cases hk
    | stopping past loop htask hloops hloop hpast hwaiting =>
      rw [hwaiting, List.getElem?_singleton] at hk
      split at hk
      · rename_i hzero
        cases hk
        rw [hloops, List.getElem?_concat_length, Option.some_inj] at hdone
        refine .idle rfl htask ?_ ?_
        · show ∀ loop ∈ s.loops, loop = .done
          rw [hloops, hdone]
          intro loop' hmem
          rcases List.mem_append.mp hmem with hmem | hmem
          · exact hpast loop' hmem
          · exact List.mem_singleton.mp hmem
        · show s.disconnecting.eraseIdx k = []
          rw [hwaiting, hzero]
          rfl
      · cases hk

/-! ## Runs -/

/-- What is expected of a broker at rest: one loop and one handler of each kind if it is connected,
none otherwise. -/
structure Coherent (s : IBConnection) : Prop where
  loops : s.running = if s.broker.connected then 1 else 0
  accountValueHandlers : s.accountValueHandlers = if s.broker.connected then 1 else 0
  errorHandlers : s.errorHandlers = if s.broker.connected then 1 else 0

/-- A phase in which no call is suspended has the loops of a coherent broker. -/
theorem Phase.running_eq (hs : s.Phase) (hquiescent : s.Quiescent) :
    s.running = if s.broker.connected then 1 else 0 := by
  cases hs with
  | idle hconnected htask hloops hwaiting =>
    rw [hconnected, IBConnection.running, List.countP_eq_zero.mpr]
    · rfl
    · intro loop hloop
      simp [hloops loop hloop]
  | running past hconnected htask hloops hpast hwaiting =>
    have hnone : past.countP (fun loop => loop ≠ .done) = 0 := by
      rw [List.countP_eq_zero]
      intro loop hloop
      simp [hpast loop hloop]
    rw [hconnected, IBConnection.running, hloops, List.countP_append, hnone]
    rfl
  | stopping past loop htask hloops hloop hpast hwaiting =>
    rw [hquiescent.2] at hwaiting
    cases hwaiting

/-- In a run whose steps are taken one at a time, the statuses alternate in every state reached, and
the broker is coherent in every quiescent one. Of the events it is assumed that detaching the only
registration of a handler leaves none. -/
theorem coherent_of_oneAtATime (hdetach : detach 1 = 0) {as : List Action}
    (hrun : run (step detach) init as = some s)
    (halong : Along (step detach) OneAtATime init as) :
    Alternates s.statuses ∧ (s.Quiescent → s.Coherent) := by
  have hinvariant : (s.broker.connected = lastStatus s.statuses ∧ Alternates s.statuses) ∧
      s.Registered ∧ s.Phase := by
    refine run_invariant_along (I := fun s : IBConnection =>
      (s.broker.connected = lastStatus s.statuses ∧ Alternates s.statuses) ∧
        s.Registered ∧ s.Phase) ?_ ?_ halong hrun
    · rintro s a t ⟨⟨hlast, halternates⟩, hregistered, hphase⟩ ha h
      exact ⟨⟨lastStatus_step hlast h, alternates_step halternates hlast ha h⟩,
        hregistered.step hdetach ha h, hphase.step ha h⟩
    · exact ⟨⟨rfl, by simp [statuses, init, IBBroker.init], .nil⟩, ⟨rfl, rfl⟩,
        .idle rfl rfl (by simp [init]) rfl⟩
  obtain ⟨⟨-, halternates⟩, hregistered, hphase⟩ := hinvariant
  exact ⟨halternates, fun hquiescent =>
    ⟨hphase.running_eq hquiescent, hregistered.accountValue, hregistered.error⟩⟩

/-- An event whose `-=` drops every registration of the handler. -/
def detachAll : Nat → Nat := fun _ => 0

/-- Two handshakes overlap and the second one fails; the broker disconnects and connects again. -/
def recoveredRun : List Action :=
  [.connect, .connect, .clientConnected true ⟨0⟩, .clientConnected false ⟨1⟩, .loopWakes 0 false,
    .disconnect ⟨2⟩, .loopEnds 0, .connect, .loopAwaited 0 ⟨3⟩, .connect, .clientConnected true ⟨4⟩]

theorem coherent_of_oneAtATime_recoveredRun :
    ∃ s, run (step detachAll) init recoveredRun = some s ∧ s.Quiescent ∧ s.broker.connected = true ∧
      Alternates s.statuses ∧ s.Coherent := by
  have hends : (run (step detachAll) init recoveredRun).map
      (fun s => (decide s.Quiescent, s.broker.connected)) = some (true, true) := by
    decide +kernel
  obtain ⟨s, hrun, hs⟩ := Option.map_eq_some_iff.mp hends
  obtain ⟨hquiescent, hconnected⟩ := Prod.mk.inj hs
  obtain ⟨halternates, hcoherent⟩ := coherent_of_oneAtATime rfl hrun (by decide +kernel)
  exact ⟨s, hrun, of_decide_eq_true hquiescent, hconnected, halternates,
    hcoherent (of_decide_eq_true hquiescent)⟩

/-- Two handshakes overlap and both succeed. -/
def overlappingRun : List Action :=
  [.connect, .connect, .clientConnected true ⟨0⟩, .clientConnected true ⟨1⟩]

theorem not_coherent :
    ¬ ∀ (as : List Action) (s : IBConnection), run (step detachAll) init as = some s →
      Alternates s.statuses ∧ (s.Quiescent → s.Coherent) := by
  intro h
  have hends : (run (step detachAll) init overlappingRun).map
      (fun s => (decide s.Quiescent, s.running, s.broker.connected)) = some (true, 2, true) := by
    decide +kernel
  obtain ⟨s, hrun, hs⟩ := Option.map_eq_some_iff.mp hends
  obtain ⟨hquiescent, hs⟩ := Prod.mk.inj hs
  obtain ⟨hrunning, hconnected⟩ := Prod.mk.inj hs
  have hloops := ((h overlappingRun s hrun).2 (of_decide_eq_true hquiescent)).loops
  rw [hrunning, hconnected] at hloops
  cases hloops

end IBConnection

end Blive
