import Blive.Misc.Transition
import Blive.Adapters.Ig.MarketData

/-!
# The subscription budget of IG

Each permit of the budget is free, or held by a call under way, or stands for an entry of the
book of active subscriptions. Two kinds of step lose a permit for good: a cancellation between
the taking of the permit and the registration, which the handler for an `Exception` does not
see, and a registration that overwrites the entry of another call for the same instrument. A call
of the source that raises, or is cancelled, and leaves a subscription open leaves one behind that
nobody can end.
-/

namespace Blive

open Transition

/-- A call that stands here holds a permit. -/
def CallStage.holdsPermit : CallStage → Bool
  | .acquiring _ => false
  | _ => true

/-- Between the taking of the permit and the registration. -/
def CallStage.beforeRegistration : CallStage → Bool
  | .resolving _ | .connecting _ | .subscribing _ => true
  | _ => false

namespace IGMarketData

/-- The calls past their `acquire`. -/
def held (calls : Dict Nat SubscriptionCall) : Nat :=
  calls.count fun _ call => call.stage.holdsPermit

/-- The calls that hold a permit: those the semaphore has just handed one to, and those past
their `acquire`. -/
def callsHolding (md : IGMarketData) : Nat :=
  Semaphore.handed md.subscriptionBudget.waiters + held md.calls

/-- The permits that are free, held by a call or taken by an active subscription. -/
def accounted (md : IGMarketData) : Nat :=
  md.subscriptionBudget.value + md.active.length + md.callsHolding

/-- The steps that lose a permit. -/
def Loses (md : IGMarketData) : SubscriptionAction → Prop
  | .cancel task _ => ∃ call, md.calls.get? task = some call ∧ call.stage.beforeRegistration
  | .subscribed task .returned =>
      ∃ call, md.calls.get? task = some call ∧ call.instrument ∈ md.active
  | _ => False

/-- The steps that leave a subscription open that nobody holds: `source.subscribe` raises after it
opened one, or `source.unsubscribe` raises or is cancelled before it ended one. -/
def Leaves (md : IGMarketData) : SubscriptionAction → Prop
  | .subscribed _ (.raised effect) => effect = true
  | .unsubscribed _ (.raised effect) => effect = false
  | .cancel task effect => effect = false ∧ ∃ call subscription,
      md.calls.get? task = some call ∧ call.stage = .unsubscribing subscription
  | _ => False

instance (md : IGMarketData) : ∀ a, Decidable (md.Loses a)
  | .cancel task _ => inferInstanceAs (Decidable
      (∃ call ∈ md.calls.get? task, call.stage.beforeRegistration = true))
  | .subscribed task .returned => inferInstanceAs (Decidable
      (∃ call ∈ md.calls.get? task, call.instrument ∈ md.active))
  | .subscribed _ (.raised _) | .subscribeBars .. | .unsubscribe .. | .acquired _ | .resolved ..
  | .connected .. | .unsubscribed .. => isFalse id

instance (stage : CallStage) : Decidable (∃ subscription, stage = .unsubscribing subscription) :=
  match stage with
  | .unsubscribing subscription => isTrue ⟨subscription, rfl⟩
  | .acquiring _ | .resolving _ | .connecting _ | .subscribing _ => isFalse nofun

instance (md : IGMarketData) : ∀ a, Decidable (md.Leaves a)
  | .subscribed _ (.raised effect) => inferInstanceAs (Decidable (effect = true))
  | .unsubscribed _ (.raised effect) => inferInstanceAs (Decidable (effect = false))
  | .cancel task effect => decidable_of_iff
      (effect = false ∧ ∃ call ∈ md.calls.get? task,
        ∃ subscription, call.stage = .unsubscribing subscription)
      (by simp [Leaves])
  | .subscribed _ .returned | .unsubscribed _ .returned | .subscribeBars .. | .unsubscribe ..
  | .acquired _ | .resolved .. | .connected .. => isFalse id

section Held

variable {calls : Dict Nat SubscriptionCall} {task : Nat} {call call' : SubscriptionCall}

theorem held_start (h : calls.get? task = none) (call : SubscriptionCall) :
    held (calls.set task call) = held calls + if call.stage.holdsPermit then 1 else 0 :=
  Dict.count_set_of_none call h

theorem held_move (h : calls.get? task = some call) (hcall : call.stage.holdsPermit = true)
    (hcall' : call'.stage.holdsPermit = true) : held (calls.set task call') = held calls := by
  have hcount : held (calls.set task call') + _ = held calls + _ := Dict.count_set_of_some call' h
  rw [if_pos hcall, if_pos hcall'] at hcount
  omega

theorem held_acquired (h : calls.get? task = some call) (hcall : call.stage.holdsPermit = false)
    (hcall' : call'.stage.holdsPermit = true) :
    held (calls.set task call') = held calls + 1 := by
  have hcount : held (calls.set task call') + _ = held calls + _ := Dict.count_set_of_some call' h
  rw [if_neg (by simp [hcall]), if_pos hcall'] at hcount
  omega

theorem held_erase (h : calls.get? task = some call) :
    held (calls.erase task) + (if call.stage.holdsPermit then 1 else 0) = held calls :=
  Dict.count_erase h

end Held

/-- The permits inside the semaphore and those outside. -/
theorem accounted_eq (md : IGMarketData) : md.accounted =
    md.subscriptionBudget.permits + md.active.length + held md.calls := by
  unfold accounted callsHolding Semaphore.permits
  omega

/-- The call of a task is an `unsubscribe` that ends this subscription. -/
def Ends (calls : Dict Nat SubscriptionCall) (task : Nat) (instrument : Instrument)
    (subscription : LightstreamerSubscription) : Prop :=
  calls.get? task = some ⟨instrument, .unsubscribing subscription⟩

/-- The same calls of `unsubscribe` are under way. -/
def SameEnds (calls calls' : Dict Nat SubscriptionCall) : Prop :=
  ∀ task instrument subscription,
    Ends calls' task instrument subscription ↔ Ends calls task instrument subscription

section SameEnds

variable {calls : Dict Nat SubscriptionCall} {task : Nat} {call : SubscriptionCall}

theorem sameEnds_erase (h : calls.get? task = some call)
    (hcall : ∀ subscription, call.stage ≠ .unsubscribing subscription) :
    SameEnds calls (calls.erase task) := by
  intro task' instrument subscription
  unfold Ends
  rw [Dict.get?_erase]
  by_cases heq : task' = task
  · subst heq
    rw [if_pos rfl, h]
    refine iff_of_false (by simp) ?_
    intro hsame
    cases hsame
    exact hcall subscription rfl
  · rw [if_neg heq]

theorem sameEnds_set (h : ∀ old, calls.get? task = some old →
      ∀ subscription, old.stage ≠ .unsubscribing subscription)
    (hcall : ∀ subscription, call.stage ≠ .unsubscribing subscription) :
    SameEnds calls (calls.set task call) := by
  intro task' instrument subscription
  unfold Ends
  rw [Dict.get?_set]
  by_cases heq : task' = task
  · subst heq
    rw [if_pos rfl]
    refine iff_of_false ?_ fun hsame => h _ hsame subscription rfl
    intro hsame
    cases hsame
    exact hcall subscription rfl
  · rw [if_neg heq]

end SameEnds

/-- What a step does, the permits it loses, and if it leaves a subscription open that nobody
holds. -/
inductive Effect (md : IGMarketData) : Nat → Bool → IGMarketData → Prop
  /-- Only permits and calls before their registration move. -/
  | calls {budget : Semaphore Nat} {calls : Dict Nat SubscriptionCall} {lost : Nat}
      (permits : budget.permits + held calls + lost =
        md.subscriptionBudget.permits + held md.calls)
      (ends : SameEnds md.calls calls)
      (starts : md.source = false → ∀ task, md.calls.get? task = none → calls.get? task = none) :
      Effect md lost false { md with subscriptionBudget := budget, calls }
  /-- `unsubscribe` takes an entry out of the book and asks the source to end it. -/
  | popped {task : Nat} {instrument : Instrument} {subscription : LightstreamerSubscription}
      (source : md.source = true) (active : md.active.get? instrument = some subscription)
      (free : md.calls.get? task = none) :
      Effect md 0 false { md with
        active := md.active.erase instrument
        calls := md.calls.set task ⟨instrument, .unsubscribing subscription⟩ }
  /-- Without a source `unsubscribe` gives the permit back at once. -/
  | dropped {instrument : Instrument} {subscription : LightstreamerSubscription}
      (source : md.source = false) (active : md.active.get? instrument = some subscription) :
      Effect md 0 false { md with
        active := md.active.erase instrument
        subscriptionBudget := md.subscriptionBudget.release }
  | registered {task : Nat} {instrument : Instrument} {item : String}
      (call : md.calls.get? task = some ⟨instrument, .subscribing item⟩) :
      Effect md (if instrument ∈ md.active then 1 else 0) false (md.register task instrument item)
  | released {task : Nat} {instrument : Instrument} {subscription : LightstreamerSubscription}
      (call : Ends md.calls task instrument subscription) :
      Effect md 0 false ((md.closed instrument subscription).released task)
  /-- The source opened a subscription for a call that never sees it. -/
  | opened {task : Nat} {instrument : Instrument} {item : String} {budget : Semaphore Nat}
      {lost : Nat} (call : md.calls.get? task = some ⟨instrument, .subscribing item⟩)
      (permits : budget.permits + held (md.calls.erase task) + lost =
        md.subscriptionBudget.permits + held md.calls) :
      Effect md lost true { md.opened instrument item with
        subscriptionBudget := budget
        calls := md.calls.erase task }
  /-- The source did not end a subscription that was taken out of the book. -/
  | left {task : Nat} {instrument : Instrument} {subscription : LightstreamerSubscription}
      (call : Ends md.calls task instrument subscription) : Effect md 0 true (md.released task)

variable {md md' : IGMarketData} {task : Nat} {call : SubscriptionCall} {instrument : Instrument}

theorem get?_erase_of_none {calls : Dict Nat SubscriptionCall} {task' : Nat}
    (h : calls.get? task' = none) : (calls.erase task).get? task' = none := by
  rw [Dict.get?_erase, h]
  exact ite_self none

theorem get?_set_of_none {calls : Dict Nat SubscriptionCall} {old : SubscriptionCall}
    (hold : calls.get? task = some old) {task' : Nat} (h : calls.get? task' = none) :
    (calls.set task call).get? task' = none := by
  have hne : task' ≠ task := by
    rintro rfl
    cases hold.symm.trans h
  rw [Dict.get?_set, if_neg hne, h]

namespace Effect

/-- A call that ends before its registration and gives its permit back. -/
theorem failed (hcall : md.calls.get? task = some call)
    (hbefore : call.stage.beforeRegistration = true) : Effect md 0 false (md.failed task) := by
  have hheld := held_erase hcall
  have hholds : call.stage.holdsPermit = true := by
    cases hstage : call.stage <;> simp_all [CallStage.beforeRegistration, CallStage.holdsPermit]
  rw [if_pos hholds] at hheld
  refine .calls ?_ (sameEnds_erase hcall ?_) fun _ _ => get?_erase_of_none
  · rw [Semaphore.permits_release]
    omega
  · intro subscription hstage
    rw [hstage] at hbefore
    cases hbefore

/-- A call that moves on with its permit. -/
theorem moved (hcall : md.calls.get? task = some call)
    (hbefore : call.stage.beforeRegistration = true) {call' : SubscriptionCall}
    (hbefore' : call'.stage.beforeRegistration = true) :
    Effect md 0 false { md with calls := md.calls.set task call' } := by
  have hholds : ∀ stage : CallStage, stage.beforeRegistration = true →
      stage.holdsPermit = true ∧ ∀ subscription, stage ≠ .unsubscribing subscription := by
    intro stage hstage
    cases stage <;> simp_all [CallStage.beforeRegistration, CallStage.holdsPermit]
  refine .calls ?_ (sameEnds_set ?_ (hholds _ hbefore').2) fun _ _ => get?_set_of_none hcall
  · rw [held_move hcall (hholds _ hbefore).1 (hholds _ hbefore').1]
    rfl
  · intro old hold
    cases hcall.symm.trans hold
    exact (hholds _ hbefore).2

theorem subscribeBars (htask : md.calls.get? task = none) (freq : BarFreq) :
    Effect md 0 false (md.subscribeBars task instrument freq) := by
  have hidle : Effect md 0 false md := .calls rfl (fun _ _ _ => Iff.rfl) fun _ _ h => h
  have hfree : ∀ old, md.calls.get? task = some old →
      ∀ subscription, old.stage ≠ .unsubscribing subscription := by
    intro old hold
    cases htask.symm.trans hold
  unfold IGMarketData.subscribeBars
  split
  · exact hidle
  · rename_i hchecked
    have hsource : md.source = true := by
      rw [checkSubscribe, require_bind_eq_ok_iff] at hchecked
      exact hchecked.1
    have hstarts : ∀ call', md.source = false → ∀ task', md.calls.get? task' = none →
        (md.calls.set task call').get? task' = none := by
      intro _ hnone
      cases hsource.symm.trans hnone
    split
    · rename_i budget hbudget
      have hpermits := Semaphore.permits_acquire hbudget
      refine .calls ?_ (sameEnds_set hfree (by simp)) (hstarts _)
      rw [held_start htask]
      simp only [CallStage.holdsPermit, if_true]
      omega
    · refine .calls ?_ (sameEnds_set hfree (by simp)) (hstarts _)
      rw [held_start htask, Semaphore.permits_enqueue]
      rfl

theorem unsubscribe (htask : md.calls.get? task = none) :
    Effect md 0 false (md.unsubscribe task instrument) := by
  unfold IGMarketData.unsubscribe
  split
  · exact .calls rfl (fun _ _ _ => Iff.rfl) fun _ _ h => h
  · rename_i subscription hactive
    split
    · rename_i hsource
      exact .popped hsource hactive htask
    · rename_i hsource
      exact .dropped (by simpa using hsource) hactive

/-- An `await` of `source.subscribe` that does not return, with a permit given back or lost. -/
theorem notReturned {item : String} {budget : Semaphore Nat} {lost : Nat}
    (hcall : md.calls.get? task = some ⟨instrument, .subscribing item⟩)
    (hpermits : budget.permits + held (md.calls.erase task) + lost =
      md.subscriptionBudget.permits + held md.calls) (effect : Bool) :
    Effect md lost effect { (if effect then md.opened instrument item else md) with
      subscriptionBudget := budget
      calls := md.calls.erase task } := by
  cases effect with
  | true => exact .opened hcall hpermits
  | false => exact .calls hpermits (sameEnds_erase hcall (by simp)) fun _ _ => get?_erase_of_none

/-- The `finally` of `unsubscribe`. -/
theorem finished {subscription : LightstreamerSubscription}
    (hcall : Ends md.calls task instrument subscription) (effect : Bool) :
    Effect md 0 (!effect)
      ((if effect then md.closed instrument subscription else md).released task) := by
  cases effect with
  | true => exact .released hcall
  | false => exact .left hcall

/-- A cancellation before the registration loses the permit. Of an `unsubscribe` it leaves the
subscription open unless the source ended it. -/
theorem cancelled {effect : Bool} (hcall : md.calls.get? task = some call)
    (h : md.cancelled task call effect = some md') :
    (call.stage.beforeRegistration = true ∧ ∃ leaves, Effect md 1 leaves md') ∨
      (call.stage.beforeRegistration = false ∧
        ∃ leaves, Effect md 0 leaves md' ∧ (leaves = true ↔ effect = false ∧
          ∃ subscription, call.stage = .unsubscribing subscription)) := by
  obtain ⟨instrument, stage⟩ := call
  have hheld := held_erase hcall
  cases stage with
  | acquiring freq =>
    obtain ⟨budget, hbudget, rfl⟩ := Option.map_eq_some_iff.mp h
    refine .inr ⟨rfl, false, .calls ?_ (sameEnds_erase hcall (by simp))
      fun _ _ => get?_erase_of_none, by simp⟩
    rw [Semaphore.permits_cancel hbudget, ← hheld]
    rfl
  | unsubscribing subscription =>
    cases h
    refine .inr ⟨rfl, !effect, finished hcall effect, ?_⟩
    cases effect <;> simp
  | resolving freq =>
    cases h
    exact .inl ⟨rfl, false, .calls (congrArg (md.subscriptionBudget.permits + ·) hheld)
      (sameEnds_erase hcall (by simp)) fun _ _ => get?_erase_of_none⟩
  | connecting item =>
    cases h
    exact .inl ⟨rfl, false, .calls (congrArg (md.subscriptionBudget.permits + ·) hheld)
      (sameEnds_erase hcall (by simp)) fun _ _ => get?_erase_of_none⟩
  | subscribing item =>
    cases h
    have hpermits : md.subscriptionBudget.permits + held (md.calls.erase task) + 1 =
        md.subscriptionBudget.permits + held md.calls := by
      rw [← hheld]
      rfl
    have hlost := notReturned hcall hpermits effect
    refine .inl ⟨rfl, effect, ?_⟩
    cases effect with
    | true => exact hlost
    | false => exact hlost

end Effect

/-- Every step is one of the effects, and it loses a permit, or leaves a subscription open, exactly
when it is one of the steps that do. -/
theorem step_effect {a : SubscriptionAction} (h : md.step a = some md') :
    (¬ md.Loses a ∧ ∃ leaves, Effect md 0 leaves md' ∧ (leaves = true ↔ md.Leaves a)) ∨
      (md.Loses a ∧ ∃ leaves, Effect md 1 leaves md') := by
  have hkeeps : ∀ {md' : IGMarketData}, ¬ md.Loses a → ¬ md.Leaves a → Effect md 0 false md' →
      (¬ md.Loses a ∧ ∃ leaves, Effect md 0 leaves md' ∧ (leaves = true ↔ md.Leaves a)) ∨
        (md.Loses a ∧ ∃ leaves, Effect md 1 leaves md') := fun hloses hleaves heffect =>
    .inl ⟨hloses, false, heffect, iff_of_false Bool.false_ne_true hleaves⟩
  unfold step at h
  cases hcall : md.calls.get? a.task with
  | none =>
    rw [hcall] at h
    cases a with
    | subscribeBars task instrument freq =>
      cases h
      exact hkeeps not_false not_false (.subscribeBars hcall freq)
    | unsubscribe task instrument =>
      cases h
      exact hkeeps not_false not_false (.unsubscribe hcall)
    | _ => cases h
  | some call =>
    rw [hcall] at h
    obtain ⟨instrument, stage⟩ := call
    cases a with
    | subscribeBars task instrument freq => cases h
    | unsubscribe task instrument => cases h
    | acquired task =>
      cases stage with
      | acquiring freq =>
        obtain ⟨budget, hbudget, rfl⟩ := Option.map_eq_some_iff.mp h
        have hpermits := Semaphore.permits_resume hbudget
        have hheld : held (md.calls.set task ⟨instrument, .resolving freq⟩) = held md.calls + 1 :=
          held_acquired hcall rfl rfl
        refine hkeeps not_false not_false (.calls ?_ (sameEnds_set ?_ (by simp))
          fun _ _ => get?_set_of_none hcall)
        · show budget.permits + held (md.calls.set task ⟨instrument, .resolving freq⟩) + 0 = _
          omega
        · intro old hold
          cases hcall.symm.trans hold
          simp
      | _ => cases h
    | resolved task epic =>
      cases stage with
      | resolving freq =>
        cases epic with
        | some epic =>
          cases h
          exact hkeeps not_false not_false (.moved hcall rfl rfl)
        | none =>
          cases h
          exact hkeeps not_false not_false (.failed hcall rfl)
      | _ => cases epic <;> cases h
    | connected task ok =>
      cases stage with
      | connecting item =>
        cases ok with
        | true =>
          cases h
          exact hkeeps not_false not_false (.moved hcall rfl rfl)
        | false =>
          cases h
          exact hkeeps not_false not_false (.failed hcall rfl)
      | _ => cases ok <;> cases h
    | subscribed task outcome =>
      cases stage with
      | subscribing item =>
        cases outcome with
        | returned =>
          cases h
          have hregistered : Effect md _ false (md.register task instrument item) :=
            .registered hcall
          by_cases hmem : instrument ∈ md.active
          · rw [if_pos hmem] at hregistered
            exact .inr ⟨⟨_, hcall, hmem⟩, false, hregistered⟩
          · rw [if_neg hmem] at hregistered
            refine hkeeps ?_ not_false hregistered
            rintro ⟨call, hcall', hmem'⟩
            cases hcall.symm.trans hcall'
            exact hmem hmem'
        | raised effect =>
          cases h
          have hheld : held (md.calls.erase task) + 1 = held md.calls := held_erase hcall
          have hpermits : md.subscriptionBudget.release.permits + held (md.calls.erase task) + 0 =
              md.subscriptionBudget.permits + held md.calls := by
            rw [Semaphore.permits_release]
            omega
          have hraised := Effect.notReturned hcall hpermits effect
          refine .inl ⟨not_false, effect, ?_, Iff.rfl⟩
          cases effect with
          | true => exact hraised
          | false => exact hraised
      | _ => cases outcome <;> cases h
    | unsubscribed task outcome =>
      cases stage with
      | unsubscribing subscription =>
        cases h
        cases outcome with
        | returned => exact hkeeps not_false not_false (.finished hcall true)
        | raised effect =>
          refine .inl ⟨not_false, !effect, ?_, by cases effect <;> simp [Leaves]⟩
          have hfinished := Effect.finished hcall effect
          cases effect with
          | true => exact hfinished
          | false => exact hfinished
      | _ => cases h
    | cancel task effect =>
      rcases Effect.cancelled hcall h with ⟨hbefore, hlost⟩ | ⟨hafter, leaves, heffect, hleaves⟩
      · exact .inr ⟨⟨_, hcall, hbefore⟩, hlost⟩
      · refine .inl ⟨?_, leaves, heffect, hleaves.trans (and_congr_right fun _ => ?_)⟩
        · rintro ⟨call, hcall', hbefore'⟩
          cases hcall.symm.trans hcall'
          exact absurd hbefore' (by simp [hafter])
        · constructor
          · rintro ⟨subscription, hstage⟩
            exact ⟨_, subscription, hcall, hstage⟩
          · rintro ⟨call, subscription, hcall', hstage⟩
            cases hcall.symm.trans hcall'
            exact ⟨subscription, hstage⟩

/-- The book without one of its entries. -/
theorem length_erase {active : Dict Instrument LightstreamerSubscription}
    {subscription : LightstreamerSubscription} (h : active.get? instrument = some subscription) :
    (active.erase instrument).length + 1 = active.length := by
  have hcount := Dict.count_erase (p := fun _ _ => true) h
  rw [if_pos rfl, ← Dict.length_eq_count, ← Dict.length_eq_count] at hcount
  exact hcount

/-- The book after an assignment: one entry more, unless the key was there. -/
theorem length_set (active : Dict Instrument LightstreamerSubscription) (instrument : Instrument)
    (subscription : LightstreamerSubscription) :
    (active.set instrument subscription).length + (if instrument ∈ active then 1 else 0) =
      active.length + 1 := by
  rw [Dict.length_eq_count, Dict.length_eq_count]
  cases hactive : active.get? instrument with
  | none =>
    rw [if_neg (Dict.get?_eq_none_iff.mp hactive), Dict.count_set_of_none _ hactive, if_pos rfl]
  | some old =>
    have hset := Dict.count_set_of_some (p := fun _ _ => true) subscription hactive
    rw [if_pos (Dict.mem_of_get? hactive)]
    simpa using hset

/-- The account falls by what a step loses. -/
theorem Effect.accounted {lost : Nat} {leaves : Bool} (h : Effect md lost leaves md') :
    md'.accounted + lost = md.accounted := by
  rw [accounted_eq, accounted_eq]
  cases h with
  | @calls budget calls lost permits ends starts =>
    show budget.permits + md.active.length + held calls + lost = _
    omega
  | @popped task instrument subscription source active free =>
    show md.subscriptionBudget.permits + (md.active.erase instrument).length +
      held (md.calls.set task _) + 0 = _
    have hlength := length_erase active
    rw [held_start free]
    simp only [CallStage.holdsPermit, if_true]
    omega
  | @dropped instrument subscription source active =>
    show md.subscriptionBudget.release.permits + (md.active.erase instrument).length +
      held md.calls + 0 = _
    have hlength := length_erase active
    rw [Semaphore.permits_release]
    omega
  | @registered task instrument item call =>
    show md.subscriptionBudget.permits + (md.active.set instrument _).length +
      held (md.calls.erase task) + _ = _
    have hlength := length_set md.active instrument (md.newSubscription item)
    have hheld : held (md.calls.erase task) + 1 = held md.calls := held_erase call
    omega
  | @released task instrument subscription call =>
    show md.subscriptionBudget.release.permits + md.active.length +
      held (md.calls.erase task) + 0 = _
    have hheld : held (md.calls.erase task) + 1 = held md.calls := held_erase call
    rw [Semaphore.permits_release]
    omega
  | @opened task instrument item budget lost call permits =>
    show budget.permits + md.active.length + held (md.calls.erase task) + lost = _
    omega
  | @left task instrument subscription call =>
    show md.subscriptionBudget.release.permits + md.active.length +
      held (md.calls.erase task) + 0 = _
    have hheld : held (md.calls.erase task) + 1 = held md.calls := held_erase call
    rw [Semaphore.permits_release]
    omega

/-! ## The subscriptions at the source -/

/-- The book and the calls of `unsubscribe` know every subscription at the source. -/
structure Tidy (md : IGMarketData) : Prop where
  sourced : md.source = false → md.wire = [] ∧ ∀ task, md.calls.get? task = none
  live : ∀ instrument subscription, md.active.get? instrument = some subscription →
    (instrument, subscription) ∈ md.wire
  kept : ∀ instrument subscription, (instrument, subscription) ∈ md.wire →
    md.active.get? instrument = some subscription ∨
      ∃ task, Ends md.calls task instrument subscription
  apart : ∀ task instrument subscription, Ends md.calls task instrument subscription →
    md.active.get? instrument ≠ some subscription
  still : ∀ task instrument subscription, Ends md.calls task instrument subscription →
    (instrument, subscription) ∈ md.wire
  alone : ∀ task task' instrument subscription, Ends md.calls task instrument subscription →
    Ends md.calls task' instrument subscription → task = task'
  wireOlder : ∀ entry ∈ md.wire, entry.2.handle < md.nextHandle

theorem Tidy.init (source : Bool) (max : Nat) : (init source max).Tidy where
  sourced _ := ⟨rfl, fun _ => rfl⟩
  live _ _ h := by cases h
  kept _ _ h := by cases h
  apart _ _ _ h := by cases h
  still _ _ _ h := by cases h
  alone _ _ _ _ h := by cases h
  wireOlder _ h := by cases h

theorem Tidy.older (htidy : md.Tidy) {subscription : LightstreamerSubscription}
    (h : Ends md.calls task instrument subscription) : subscription.handle < md.nextHandle :=
  htidy.wireOlder _ (htidy.still _ _ _ h)

/-- An entry taken out of the book is in the hands of the call that took it. -/
theorem Tidy.popped (htidy : md.Tidy) (hsource : md.source = true)
    {subscription : LightstreamerSubscription}
    (hactive : md.active.get? instrument = some subscription) (hfree : md.calls.get? task = none) :
    ({ md with
      active := md.active.erase instrument
      calls := md.calls.set task ⟨instrument, .unsubscribing subscription⟩ } :
        IGMarketData).Tidy := by
  have hwire := htidy.live instrument subscription hactive
  have hends : ∀ task' instrument' subscription',
      Ends (md.calls.set task ⟨instrument, .unsubscribing subscription⟩) task' instrument'
        subscription' →
      (task' = task ∧ instrument' = instrument ∧ subscription' = subscription) ∨
        Ends md.calls task' instrument' subscription' := by
    intro task' instrument' subscription' h
    unfold Ends at h
    rw [Dict.get?_set] at h
    split at h
    · rename_i htask
      cases h
      exact .inl ⟨htask, rfl, rfl⟩
    · exact .inr h
  refine ⟨?_, ?_, ?_, ?_, ?_, ?_, htidy.wireOlder⟩
  · intro hnone
    cases hsource.symm.trans hnone
  · intro instrument' subscription' h
    rw [Dict.get?_erase] at h
    split at h
    · cases h
    · exact htidy.live instrument' subscription' h
  · intro instrument' subscription' h
    rcases htidy.kept instrument' subscription' h with hget | ⟨task', hends'⟩
    · by_cases heq : instrument' = instrument
      · subst heq
        cases hactive.symm.trans hget
        refine .inr ⟨task, ?_⟩
        show (md.calls.set task _).get? task = _
        rw [Dict.get?_set, if_pos rfl]
      · refine .inl ?_
        rw [Dict.get?_erase, if_neg heq]
        exact hget
    · refine .inr ⟨task', ?_⟩
      have hne : task' ≠ task := by
        rintro rfl
        cases hfree.symm.trans hends'
      show (md.calls.set task _).get? task' = _
      rw [Dict.get?_set, if_neg hne]
      exact hends'
  · intro task' instrument' subscription' h hget
    rw [Dict.get?_erase] at hget
    split at hget
    · cases hget
    · rename_i hne
      rcases hends task' instrument' subscription' h with ⟨-, heq, -⟩ | hold
      · exact hne heq
      · exact htidy.apart task' instrument' subscription' hold hget
  · intro task' instrument' subscription' h
    rcases hends task' instrument' subscription' h with ⟨-, rfl, rfl⟩ | hold
    · exact hwire
    · exact htidy.still task' instrument' subscription' hold
  · intro task' task'' instrument' subscription' h h'
    -- Nobody ends a subscription that is in the book.
    rcases hends task' instrument' subscription' h with ⟨rfl, rfl, rfl⟩ | hold <;>
      rcases hends task'' _ _ h' with ⟨rfl, heq⟩ | hold'
    · rfl
    · exact absurd hactive (htidy.apart _ _ _ hold')
    · obtain ⟨rfl, rfl⟩ := heq
      exact absurd hactive (htidy.apart _ _ _ hold)
    · exact htidy.alone _ _ _ _ hold hold'

/-- A call that ends leaves no other call of `unsubscribe` behind. -/
theorem ends_of_erase {calls : Dict Nat SubscriptionCall} {task' : Nat}
    {subscription : LightstreamerSubscription}
    (h : Ends (calls.erase task) task' instrument subscription) :
    Ends calls task' instrument subscription := by
  unfold Ends at h ⊢
  rw [Dict.get?_erase] at h
  split at h
  · cases h
  · exact h

theorem not_ends_of_erase {calls : Dict Nat SubscriptionCall}
    {subscription : LightstreamerSubscription} :
    ¬ Ends (calls.erase task) task instrument subscription := by
  unfold Ends
  rw [Dict.get?_erase, if_pos rfl]
  simp

/-- A registration under a free instrument. -/
theorem Tidy.registered (htidy : md.Tidy) {item : String}
    (hcall : md.calls.get? task = some ⟨instrument, .subscribing item⟩)
    (hfresh : instrument ∉ md.active) : (md.register task instrument item).Tidy := by
  refine ⟨?_, ?_, ?_, ?_, ?_, ?_, ?_⟩
  · intro hsource
    cases hcall.symm.trans ((htidy.sourced hsource).2 task)
  · intro instrument' subscription' h
    show _ ∈ md.wire ++ _
    rw [List.mem_append]
    have hget : (md.active.set instrument _).get? instrument' = some subscription' := h
    rw [Dict.get?_set] at hget
    split at hget
    · rename_i heq
      cases hget
      exact .inr (by simp [heq])
    · exact .inl (htidy.live instrument' subscription' hget)
  · intro instrument' subscription' h
    show (md.active.set instrument _).get? instrument' = _ ∨ _
    rw [Dict.get?_set]
    rcases List.mem_append.mp h with hwire | hnew
    · rcases htidy.kept instrument' subscription' hwire with hget | ⟨task', hends⟩
      · have hne : instrument' ≠ instrument := by
          rintro rfl
          exact hfresh (Dict.mem_of_get? hget)
        rw [if_neg hne]
        exact .inl hget
      · refine .inr ⟨task', ?_⟩
        have htask : task' ≠ task := by
          rintro rfl
          cases hcall.symm.trans hends
        show (md.calls.erase task).get? task' = _
        rw [Dict.get?_erase, if_neg htask]
        exact hends
    · cases List.mem_singleton.mp hnew
      rw [if_pos rfl]
      exact .inl rfl
  · intro task' instrument' subscription' h hget
    have hends := ends_of_erase h
    have hget' : (md.active.set instrument _).get? instrument' = some subscription' := hget
    rw [Dict.get?_set] at hget'
    split at hget'
    · -- The handle is new, so the call cannot be about it.
      cases hget'
      exact absurd (htidy.older hends) (lt_irrefl _)
    · exact htidy.apart task' instrument' subscription' hends hget'
  · intro task' instrument' subscription' h
    exact List.mem_append_left _ (htidy.still _ _ _ (ends_of_erase h))
  · intro task' task'' instrument' subscription' h h'
    exact htidy.alone _ _ _ _ (ends_of_erase h) (ends_of_erase h')
  · intro entry h
    rcases List.mem_append.mp h with hwire | hnew
    · exact (htidy.wireOlder entry hwire).trans (Nat.lt_succ_self _)
    · cases List.mem_singleton.mp hnew
      exact Nat.lt_succ_self _

/-- The end of a subscription. -/
theorem Tidy.released (htidy : md.Tidy) {subscription : LightstreamerSubscription}
    (hcall : Ends md.calls task instrument subscription) :
    ((md.closed instrument subscription).released task).Tidy := by
  have hmem : ∀ entry, entry ∈ md.wire.filter (· ≠ (instrument, subscription)) ↔
      entry ∈ md.wire ∧ entry ≠ (instrument, subscription) := by
    intro entry
    rw [List.mem_filter, decide_eq_true_iff]
  refine ⟨?_, ?_, ?_, ?_, ?_, ?_, ?_⟩
  · intro hsource
    obtain ⟨hwire, hcalls⟩ := htidy.sourced hsource
    refine ⟨?_, fun task' => get?_erase_of_none (hcalls task')⟩
    show md.wire.filter _ = []
    rw [hwire]
    rfl
  · intro instrument' subscription' h
    refine (hmem _).mpr ⟨htidy.live instrument' subscription' h, ?_⟩
    intro heq
    cases heq
    exact htidy.apart task instrument subscription hcall h
  · intro instrument' subscription' h
    obtain ⟨hwire, hne⟩ := (hmem _).mp h
    rcases htidy.kept instrument' subscription' hwire with hget | ⟨task', hends⟩
    · exact .inl hget
    · refine .inr ⟨task', ?_⟩
      have htask : task' ≠ task := by
        rintro rfl
        cases hcall.symm.trans hends
        exact hne rfl
      show (md.calls.erase task).get? task' = _
      rw [Dict.get?_erase, if_neg htask]
      exact hends
  · intro task' instrument' subscription' h
    exact htidy.apart task' instrument' subscription' (ends_of_erase h)
  · intro task' instrument' subscription' h
    have hends := ends_of_erase h
    refine (hmem _).mpr ⟨htidy.still _ _ _ hends, ?_⟩
    -- The call that ended the subscription was the only one to do so.
    intro heq
    cases heq
    obtain rfl := htidy.alone _ _ _ _ hcall hends
    exact not_ends_of_erase h
  · intro task' task'' instrument' subscription' h h'
    exact htidy.alone _ _ _ _ (ends_of_erase h) (ends_of_erase h')
  · intro entry h
    exact htidy.wireOlder entry ((hmem entry).mp h).1

/-- Steps that lose no permit and leave nothing open keep the book tidy. -/
theorem Effect.tidy {lost : Nat} {leaves : Bool} (h : Effect md lost leaves md') (hlost : lost = 0)
    (hleaves : leaves = false) (htidy : md.Tidy) : md'.Tidy := by
  cases h with
  | @calls budget calls lost permits ends starts =>
    exact
      { sourced := fun hsource => ⟨(htidy.sourced hsource).1,
          fun task => starts hsource task ((htidy.sourced hsource).2 task)⟩
        live := htidy.live
        kept := fun instrument subscription hwire => by
          rcases htidy.kept instrument subscription hwire with hactive | ⟨task, hends⟩
          · exact .inl hactive
          · exact .inr ⟨task, (ends _ _ _).mpr hends⟩
        apart := fun task instrument subscription hends =>
          htidy.apart task instrument subscription ((ends _ _ _).mp hends)
        still := fun task instrument subscription hends =>
          htidy.still task instrument subscription ((ends _ _ _).mp hends)
        alone := fun task task' instrument subscription hends hends' =>
          htidy.alone task task' instrument subscription ((ends _ _ _).mp hends)
            ((ends _ _ _).mp hends')
        wireOlder := htidy.wireOlder }
  | @popped task instrument subscription source active free => exact htidy.popped source active free
  | @dropped instrument subscription source active =>
    -- Without a source there is no subscription, so the book was empty.
    have hwire := htidy.live instrument subscription active
    rw [(htidy.sourced source).1] at hwire
    cases hwire
  | @registered task instrument item call =>
    have hfresh : instrument ∉ md.active := by
      intro hmem
      rw [if_pos hmem] at hlost
      cases hlost
    exact htidy.registered call hfresh
  | @released task instrument subscription call => exact htidy.released call
  | @opened task instrument item budget lost call permits => cases hleaves
  | @left task instrument subscription call => cases hleaves

/-- A subscription is open that is not in the book and that no call of `unsubscribe` ends. -/
def Leaked (md : IGMarketData) : Prop :=
  ∃ instrument subscription, (instrument, subscription) ∈ md.wire ∧
    subscription.handle < md.nextHandle ∧ md.active.get? instrument ≠ some subscription ∧
      ∀ task, ¬ Ends md.calls task instrument subscription

/-- What is leaked stays so. -/
theorem Effect.leaked {lost : Nat} {leaves : Bool} (h : Effect md lost leaves md')
    (hleaked : md.Leaked) : md'.Leaked := by
  obtain ⟨i, sub, hwire, hhandle, hactive, hends⟩ := hleaked
  cases h with
  | @calls budget calls lost permits ends starts =>
    exact ⟨i, sub, hwire, hhandle, hactive, fun task h => hends task ((ends _ _ _).mp h)⟩
  | @popped task instrument subscription source active free =>
    refine ⟨i, sub, hwire, hhandle, ?_, ?_⟩
    · show (md.active.erase instrument).get? i ≠ _
      rw [Dict.get?_erase]
      split
      · simp
      · exact hactive
    · intro task' h
      unfold Ends at h
      rw [Dict.get?_set] at h
      split at h
      · cases h
        exact hactive active
      · exact hends task' h
  | @dropped instrument subscription source active =>
    refine ⟨i, sub, hwire, hhandle, ?_, hends⟩
    show (md.active.erase instrument).get? i ≠ _
    rw [Dict.get?_erase]
    split
    · simp
    · exact hactive
  | @registered task instrument item call =>
    refine ⟨i, sub, List.mem_append_left _ hwire, hhandle.trans (Nat.lt_succ_self _), ?_,
      fun task' h => hends task' (ends_of_erase h)⟩
    show (md.active.set instrument _).get? i ≠ _
    rw [Dict.get?_set]
    split
    · -- The handle is new.
      intro heq
      cases heq
      exact lt_irrefl _ hhandle
    · exact hactive
  | @released task instrument subscription call =>
    refine ⟨i, sub, List.mem_filter.mpr ⟨hwire, decide_eq_true ?_⟩, hhandle, hactive,
      fun task' h => hends task' (ends_of_erase h)⟩
    intro heq
    cases heq
    exact hends task call
  | @opened task instrument item budget lost call permits =>
    exact ⟨i, sub, List.mem_append_left _ hwire, hhandle.trans (Nat.lt_succ_self _), hactive,
      fun task' h => hends task' (ends_of_erase h)⟩
  | @left task instrument subscription call =>
    exact ⟨i, sub, hwire, hhandle, hactive, fun task' h => hends task' (ends_of_erase h)⟩

/-- A step that leaves a subscription open leaks it. -/
theorem Effect.leaks {lost : Nat} {leaves : Bool} (h : Effect md lost leaves md')
    (hleaves : leaves = true) (htidy : md.Tidy) : md'.Leaked := by
  cases h with
  | @calls budget calls lost permits ends starts => cases hleaves
  | @popped task instrument subscription source active free => cases hleaves
  | @dropped instrument subscription source active => cases hleaves
  | @registered task instrument item call => cases hleaves
  | @released task instrument subscription call => cases hleaves
  | @opened task instrument item budget lost call permits =>
    refine ⟨instrument, md.newSubscription item, by simp [IGMarketData.opened],
      Nat.lt_succ_self _, ?_, ?_⟩
    · intro hget
      exact lt_irrefl _ (htidy.wireOlder _ (htidy.live _ _ hget))
    · intro task' h
      exact lt_irrefl _ (htidy.older (ends_of_erase h))
  | @left task instrument subscription call =>
    refine ⟨instrument, subscription, htidy.still _ _ _ call, htidy.older call,
      htidy.apart _ _ _ call, ?_⟩
    intro task' h
    obtain rfl := htidy.alone _ _ _ _ call (ends_of_erase h)
    exact not_ends_of_erase h

/-! ## Runs -/

/-- The budget of `max` permits is kept: every permit is free, held by a call or taken by an
entry of the book; the entries are subscriptions at the source; every subscription at the
source has its entry or a call of `unsubscribe` that is about to end it, and no instrument has
two that nobody is about to end. -/
structure BudgetKept (max : Nat) (md : IGMarketData) : Prop where
  balance : md.subscriptionBudget.value + md.active.length + md.callsHolding = max
  live : ∀ instrument subscription, md.active.get? instrument = some subscription →
    (instrument, subscription) ∈ md.wire
  kept : ∀ instrument subscription, (instrument, subscription) ∈ md.wire →
    md.active.get? instrument = some subscription ∨
      ∃ task, Ends md.calls task instrument subscription
  once : ∀ instrument a b, (instrument, a) ∈ md.wire → (instrument, b) ∈ md.wire →
    (∀ task, ¬ Ends md.calls task instrument a) → (∀ task, ¬ Ends md.calls task instrument b) →
      a = b

theorem Tidy.budgetKept (htidy : md.Tidy) : md.BudgetKept md.accounted where
  balance := rfl
  live := htidy.live
  kept := htidy.kept
  once instrument a b ha hb hna hnb := by
    have hentry : ∀ c, (instrument, c) ∈ md.wire →
        (∀ task, ¬ Ends md.calls task instrument c) → md.active.get? instrument = some c := by
      intro c hc hnc
      rcases htidy.kept instrument c hc with hget | ⟨task, hends⟩
      · exact hget
      · exact (hnc task hends).elim
    exact Option.some.inj ((hentry a ha hna).symm.trans (hentry b hb hnb))

theorem accounted_init (source : Bool) (max : Nat) : (init source max).accounted = max := rfl

/-- Tidy, and no permit lost. -/
def Whole (max : Nat) (md : IGMarketData) : Prop := md.Tidy ∧ md.accounted = max

/-- A permit is lost, or a subscription leaked. -/
def Broken (max : Nat) (md : IGMarketData) : Prop := md.accounted < max ∨ md.Leaked

theorem BudgetKept.not_broken {max : Nat} (hkept : md.BudgetKept max) : ¬ md.Broken max := by
  rintro (hless | ⟨instrument, subscription, hwire, -, hactive, hends⟩)
  · exact absurd hkept.balance hless.ne
  · rcases hkept.kept instrument subscription hwire with hget | ⟨task, h⟩
    · exact hactive hget
    · exact hends task h

theorem Whole.budgetKept {max : Nat} (h : md.Whole max) : md.BudgetKept max := by
  have hkept := h.1.budgetKept
  rwa [h.2] at hkept

/-- What is broken stays so. -/
theorem Broken.step {max : Nat} {a : SubscriptionAction} (hs : md.Broken max)
    (h : md.step a = some md') : md'.Broken max := by
  have heffect : ∃ lost leaves, Effect md lost leaves md' := by
    rcases step_effect h with ⟨-, leaves, heffect, -⟩ | ⟨-, leaves, heffect⟩
    · exact ⟨0, leaves, heffect⟩
    · exact ⟨1, leaves, heffect⟩
  obtain ⟨lost, leaves, heffect⟩ := heffect
  rcases hs with hless | hleaked
  · exact .inl ((heffect.accounted ▸ Nat.le_add_right _ _ : md'.accounted ≤ md.accounted).trans_lt
      hless)
  · exact .inr (heffect.leaked hleaked)

/-- A step from a whole state reaches a whole one, or it is one of the steps that break it. -/
theorem Whole.step {max : Nat} {a : SubscriptionAction} (hs : md.Whole max)
    (h : md.step a = some md') :
    (md'.Whole max ∧ ¬ md.Loses a ∧ ¬ md.Leaves a) ∨
      (md'.Broken max ∧ ¬ (¬ md.Loses a ∧ ¬ md.Leaves a)) := by
  obtain ⟨htidy, hwhole⟩ := hs
  rcases step_effect h with ⟨hkeeps, leaves, heffect, hleaves⟩ | ⟨hloses, leaves, heffect⟩
  · have hsame := heffect.accounted
    cases leaves with
    | true =>
      exact .inr ⟨.inr (heffect.leaks rfl htidy), fun hnot => hnot.2 (hleaves.mp rfl)⟩
    | false =>
      exact .inl ⟨⟨heffect.tidy rfl rfl htidy, by omega⟩, hkeeps,
        fun hleft => Bool.false_ne_true (hleaves.mpr hleft)⟩
  · have hless := heffect.accounted
    exact .inr ⟨.inl (by omega), fun hnot => hnot.1 hloses⟩

/-- A run reaches a whole state exactly when no step lost a permit or left a subscription open;
every other one reaches a broken state. -/
theorem run_whole {source : Bool} {max : Nat} {actions : List SubscriptionAction}
    (hrun : run step (init source max) actions = some md) :
    (md.Whole max ∨ md.Broken max) ∧
      (md.Whole max ↔
        Along step (fun s a => ¬ s.Loses a ∧ ¬ s.Leaves a) (init source max) actions) := by
  have hapart : ∀ {s : IGMarketData}, s.Broken max → ¬ s.Whole max :=
    fun hbroken hwhole => hwhole.budgetKept.not_broken hbroken
  have hkeeps : ∀ (s : IGMarketData) a t, s.Whole max ∨ s.Broken max → True → s.step a = some t →
      t.Whole max ∨ t.Broken max := by
    rintro s a t (hwhole | hbroken) _ h
    · exact (hwhole.step h).imp And.left And.left
    · exact .inr (hbroken.step h)
  have hstep : ∀ (s : IGMarketData) a t, s.Whole max ∨ s.Broken max → True → s.step a = some t →
      (t.Whole max ↔ s.Whole max ∧ (¬ s.Loses a ∧ ¬ s.Leaves a)) := by
    rintro s a t (hwhole | hbroken) _ h
    · rcases hwhole.step h with ⟨ht, hnot⟩ | ⟨ht, hnot⟩
      · exact iff_of_true ht ⟨hwhole, hnot⟩
      · exact iff_of_false (hapart ht) fun hboth => hnot hboth.2
    · exact iff_of_false (hapart (hbroken.step h)) fun hboth => hapart hbroken hboth.1
  have hall : Along step (fun _ _ => True) (init source max) actions :=
    Along.of_forall fun _ _ => trivial
  have hinit : (init source max).Whole max := ⟨Tidy.init source max, accounted_init source max⟩
  refine ⟨run_invariant_along hkeeps (.inl hinit) hall hrun, ?_⟩
  rw [run_iff_along hkeeps hstep (.inl hinit) hall hrun]
  exact and_iff_right hinit

/-- A call that is cancelled while the source connects. -/
def cancelledSubscribe : List SubscriptionAction :=
  [.subscribeBars 1 sampleInstrument .oneMinute, .resolved 1 (some "IX.D.CAC40.CASH.IP"),
    .cancel 1 false]

theorem not_budgetKept : ¬ ∀ (source : Bool) (max : Nat) (actions : List SubscriptionAction)
    (md : IGMarketData), run step (init source max) actions = some md → md.BudgetKept max := by
  intro hkept
  obtain ⟨md, hmd⟩ : ∃ md, run step (init true 1) cancelledSubscribe = some md := by
    apply Option.isSome_iff_exists.mp
    decide +kernel
  have hlost : ∀ md ∈ run step (init true 1) cancelledSubscribe,
      md.subscriptionBudget.value + md.active.length + md.callsHolding = 0 := by
    decide +kernel
  have hbalance := (hkept true 1 cancelledSubscribe md hmd).balance
  rw [hlost md hmd] at hbalance
  cases hbalance

/-- The budget is kept in the state a run reaches exactly when no call was cancelled between the
taking of its permit and its registration, none registered an instrument that was in the book by
then, and the source left no subscription open by a call of it that did not return. -/
theorem budgetKept_iff (source : Bool) (max : Nat) (actions : List SubscriptionAction)
    (md : IGMarketData) (hrun : run step (init source max) actions = some md) :
    md.BudgetKept max ↔
      Along step (fun s a => ¬ s.Loses a ∧ ¬ s.Leaves a) (init source max) actions := by
  obtain ⟨hstate, hwhole⟩ := run_whole hrun
  rw [← hwhole]
  constructor
  · intro hkept
    exact hstate.resolve_right hkept.not_broken
  · exact Whole.budgetKept

/-- The index next to `sampleInstrument`. -/
def sampleNeighbour : Instrument :=
  ⟨{ sampleInstrument.val with symbol := "DAX.DE" }, by decide +kernel⟩

/-- The source ends a subscription by a call that raises, and a call that waits for the permit is
cancelled in the meantime. -/
def endedSubscription : List SubscriptionAction :=
  [.subscribeBars 1 sampleInstrument .oneMinute, .resolved 1 (some "IX.D.CAC40.CASH.IP"),
    .connected 1 true, .subscribed 1 .returned, .subscribeBars 2 sampleNeighbour .oneMinute,
    .unsubscribe 3 sampleInstrument, .cancel 2 false, .unsubscribed 3 (.raised true)]

theorem budgetKept_iff_ended : ∃ md, run step (init true 1) endedSubscription = some md ∧
    md.BudgetKept 1 := by
  obtain ⟨md, hmd⟩ : ∃ md, run step (init true 1) endedSubscription = some md := by
    apply Option.isSome_iff_exists.mp
    decide +kernel
  exact ⟨md, hmd, (budgetKept_iff true 1 endedSubscription md hmd).mpr (by decide +kernel)⟩

end IGMarketData

end Blive
