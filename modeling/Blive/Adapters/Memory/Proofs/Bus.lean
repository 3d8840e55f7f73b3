import Blive.Adapters.Memory.Bus

/-!
# What a subscriber receives

Whatever the order of the calls, a subscription is handed exactly the events published on its topic
from the time it is made to the time it is ended, each once and in their order; a call that was made
a task before the end still takes place after it.
-/

namespace Blive.InMemoryEventBus

open Transition

variable {η ε : Type}

/-! ## One subscription -/

/-- The entries of the subscription on the topic. -/
def entries (bus : InMemoryEventBus η) (sid : Nat) (topic : String) : List (Subscription η) :=
  (bus.onTopic topic).filter fun sub => sub.1 = sid

theorem onTopic_subscribe (bus : InMemoryEventBus η) (topic : String) (handler : η)
    (topic' : String) : (bus.subscribe topic handler).onTopic topic' =
      if topic' = topic then bus.onTopic topic ++ [(bus.nextId, handler)]
      else bus.onTopic topic' := by
  unfold onTopic subscribe
  rw [Dict.get?_set]
  split <;> rfl

theorem onTopic_unsubscribe (bus : InMemoryEventBus η) (sid : Nat) (topic : String) :
    (bus.unsubscribe sid).onTopic topic =
      (bus.onTopic topic).filter fun sub => sub.1 ≠ sid := by
  unfold onTopic unsubscribe
  rw [Dict.get?_mapValues]
  cases bus.subscribers.get? topic <;> rfl

/-- The entries a subscription adds are its own. -/
theorem entries_subscribe (bus : InMemoryEventBus η) (topic : String) (handler : η) (sid : Nat)
    (topic' : String) : (bus.subscribe topic handler).entries sid topic' =
      bus.entries sid topic' ++
        if topic' = topic ∧ bus.nextId = sid then [(bus.nextId, handler)] else [] := by
  unfold entries
  rw [onTopic_subscribe]
  by_cases htopic : topic' = topic
  · subst htopic
    by_cases hsid : bus.nextId = sid <;> simp [hsid]
  · simp [htopic]

theorem entries_unsubscribe (bus : InMemoryEventBus η) (sid sid' : Nat) (topic : String) :
    (bus.unsubscribe sid').entries sid topic =
      if sid' = sid then [] else bus.entries sid topic := by
  unfold entries
  rw [onTopic_unsubscribe, List.filter_filter]
  split
  · rename_i h
    subst h
    exact List.filter_eq_nil_iff.mpr fun sub _ => by simp
  · rename_i h
    refine List.filter_congr fun sub _ => ?_
    by_cases hsub : sub.1 = sid
    · simp [hsub, Ne.symm h]
    · simp [hsub]

/-- What a publication makes for one subscription. -/
theorem filter_publish (bus : InMemoryEventBus η) (topic : String) (event : ε) (sid : Nat) :
    (bus.publish topic event).filter (fun d => d.sid = sid) =
      (bus.entries sid topic).map fun sub => ⟨sub.1, sub.2, event⟩ := by
  unfold publish entries
  rw [List.filter_map]
  rfl

/-- The start of a task changes neither the bus nor what was made a task. -/
theorem step_deliver {s t : State η ε} (h : step s .deliver = some t) :
    t.bus = s.bus ∧ t.made = s.made := by
  simp only [step] at h
  split at h
  · cases h
  · rename_i d ready hready
    cases h
    refine ⟨rfl, ?_⟩
    rw [State.made, State.made, hready, List.append_assoc, List.singleton_append]

/-! ## Ids -/

/-- Every id in use was returned by an earlier call of `subscribe`. -/
def Issued (s : State η ε) : Prop :=
  (∀ topic, ∀ sub ∈ s.bus.onTopic topic, sub.1 < s.bus.nextId) ∧
    ∀ d ∈ s.made, d.sid < s.bus.nextId

theorem step_issued {s t : State η ε} {a : Action η ε} (hs : Issued s)
    (h : step s a = some t) : Issued t := by
  obtain ⟨hsubs, hmade⟩ := hs
  cases a with
  | publish topic event =>
    cases h
    refine ⟨hsubs, fun d hd => ?_⟩
    rw [State.made, ← List.append_assoc] at hd
    rcases List.mem_append.mp hd with hd | hd
    · exact hmade d hd
    · obtain ⟨sub, hsub, rfl⟩ := List.mem_map.mp hd
      exact hsubs topic sub hsub
  | subscribe topic handler =>
    cases h
    refine ⟨fun topic' sub hsub => ?_, fun d hd => Nat.lt_succ_of_lt (hmade d hd)⟩
    rw [onTopic_subscribe] at hsub
    split at hsub
    · rcases List.mem_append.mp hsub with hsub | hsub
      · exact Nat.lt_succ_of_lt (hsubs topic sub hsub)
      · rw [List.mem_singleton.mp hsub]
        exact Nat.lt_succ_self _
    · exact Nat.lt_succ_of_lt (hsubs topic' sub hsub)
  | unsubscribe sid =>
    cases h
    refine ⟨fun topic sub hsub => ?_, hmade⟩
    rw [onTopic_unsubscribe] at hsub
    exact hsubs topic sub (List.mem_of_mem_filter hsub)
  | deliver =>
    obtain ⟨hbus, hsame⟩ := step_deliver h
    rw [Issued, hbus, hsame]
    exact ⟨hsubs, hmade⟩

/-- The number of subscriptions made by the actions. -/
def subscriptions (as : List (Action η ε)) : Nat :=
  as.countP fun a => match a with
    | .subscribe _ _ => true
    | _ => false

theorem step_nextId {s t : State η ε} {a : Action η ε} (h : step s a = some t) :
    t.bus.nextId = s.bus.nextId + subscriptions [a] := by
  cases a with
  | publish topic event => cases h; rfl
  | subscribe topic handler => cases h; rfl
  | unsubscribe sid => cases h; rfl
  | deliver => rw [(step_deliver h).1]; rfl

theorem run_nextId {s t : State η ε} {as : List (Action η ε)} (h : run step s as = some t) :
    t.bus.nextId = s.bus.nextId + subscriptions as := by
  induction as generalizing s with
  | nil => cases h; rfl
  | cons a as ih =>
    obtain ⟨m, hm, hrest⟩ := run_cons_eq_some.mp h
    rw [ih hrest, step_nextId hm, Nat.add_assoc, subscriptions, subscriptions, subscriptions,
      ← List.countP_append]
    rfl

/-! ## A run -/

/-- The events the actions publish on the topic, in their order. -/
def published (topic : String) (as : List (Action η ε)) : List ε :=
  as.filterMap fun a => match a with
    | .publish topic' event => if topic' = topic then some event else none
    | _ => none

/-- The subscription is ended by the action. -/
def ends (sid : Nat) : Action η ε → Bool
  | .unsubscribe sid' => sid' = sid
  | _ => false

/-- The actions up to the end of the subscription. -/
def whileSubscribed (sid : Nat) (as : List (Action η ε)) : List (Action η ε) :=
  as.takeWhile fun a => !ends sid a

theorem whileSubscribed_concat (sid : Nat) (as : List (Action η ε)) (a : Action η ε) :
    whileSubscribed sid (as ++ [a]) =
      whileSubscribed sid as ++ if as.any (ends sid) || ends sid a then [] else [a] := by
  unfold whileSubscribed
  induction as with
  | nil => cases h : ends sid a <;> simp [h]
  | cons b as ih => cases hb : ends sid b <;> simp [hb, ih]

theorem published_append (topic : String) (as bs : List (Action η ε)) :
    published topic (as ++ bs) = published topic as ++ published topic bs :=
  List.filterMap_append

/-- The subscription of the handler on the topic, after the actions taken since it was made. -/
structure Serves (sid : Nat) (topic : String) (handler : η) (as : List (Action η ε))
    (s : State η ε) : Prop where
  issued : sid < s.bus.nextId
  entries : ∀ topic', s.bus.entries sid topic' =
    if topic' = topic ∧ as.any (ends sid) = false then [(sid, handler)] else []
  made : s.made.filter (fun d => d.sid = sid) =
    (published topic (whileSubscribed sid as)).map fun event => ⟨sid, handler, event⟩

theorem step_serves {sid : Nat} {topic : String} {handler : η} {past : List (Action η ε)}
    {s t : State η ε} {a : Action η ε} (hs : Serves sid topic handler past s)
    (h : step s a = some t) : Serves sid topic handler (past ++ [a]) t := by
  obtain ⟨hissued, hentries, hmade⟩ := hs
  -- Only a publication on the topic, while the subscription lasts, adds to what is made for it.
  have hquiet (hnone : published topic [a] = []) :
      published topic (whileSubscribed sid (past ++ [a])) =
        published topic (whileSubscribed sid past) := by
    rw [whileSubscribed_concat, published_append]
    split
    · exact List.append_nil _
    · rw [hnone, List.append_nil]
  have hany : (past ++ [a]).any (ends sid) = (past.any (ends sid) || ends sid a) := by simp
  cases a with
  | publish topic' event =>
    cases h
    have hends : ends sid (.publish topic' event : Action η ε) = false := rfl
    refine ⟨hissued, fun topic'' => ?_, ?_⟩
    · rw [hany, hends, Bool.or_false]
      exact hentries topic''
    · have happend : (State.mk s.bus (s.ready ++ s.bus.publish topic' event) s.delivered).made =
          s.made ++ s.bus.publish topic' event := (List.append_assoc _ _ _).symm
      rw [happend, List.filter_append, hmade, filter_publish, hentries, whileSubscribed_concat,
        published_append, List.map_append, hends, Bool.or_false]
      congr 1
      by_cases htopic : topic' = topic <;> cases hended : past.any (ends sid) <;>
        simp [published, htopic]
  | subscribe topic' handler' =>
    cases h
    refine ⟨Nat.lt_succ_of_lt hissued, fun topic'' => ?_, ?_⟩
    · have hends : ends sid (.subscribe topic' handler' : Action η ε) = false := rfl
      rw [hany, hends, Bool.or_false, entries_subscribe,
        if_neg (fun h => Nat.ne_of_gt hissued h.2), List.append_nil]
      exact hentries topic''
    · rw [hquiet rfl]
      exact hmade
  | unsubscribe sid' =>
    cases h
    refine ⟨hissued, fun topic'' => ?_, ?_⟩
    · rw [hany, ends, entries_unsubscribe, hentries]
      by_cases hsid : sid' = sid <;> simp [hsid]
    · rw [hquiet rfl]
      exact hmade
  | deliver =>
    obtain ⟨hbus, hsame⟩ := step_deliver h
    refine ⟨by rw [hbus]; exact hissued, fun topic'' => ?_, ?_⟩
    · have hends : ends sid (.deliver : Action η ε) = false := rfl
      rw [hbus, hany, hends, Bool.or_false]
      exact hentries topic''
    · rw [hquiet rfl, hsame]
      exact hmade

/-- The state of the bus before any call. -/
def start : State η ε := {}

theorem issued_start : Issued (start : State η ε) :=
  ⟨fun _ _ hsub => absurd hsub List.not_mem_nil, fun _ hd => absurd hd List.not_mem_nil⟩

/-- Just after it was made, a subscription is served from now on. -/
theorem serves_subscribe {s : State η ε} (hs : Issued s) (topic : String) (handler : η) :
    Serves s.bus.nextId topic handler []
      { s with bus := s.bus.subscribe topic handler } := by
  refine ⟨Nat.lt_succ_self _, fun topic' => ?_, ?_⟩
  · have hnone : s.bus.entries s.bus.nextId topic' = [] :=
      List.filter_eq_nil_iff.mpr fun sub hsub => by simp [Nat.ne_of_lt (hs.1 topic' sub hsub)]
    rw [entries_subscribe, hnone]
    simp
  · refine List.filter_eq_nil_iff.mpr fun d hd => ?_
    simp [Nat.ne_of_lt (hs.2 d hd)]

/-- A subscription is handed the events published on its topic from the time it is made to the time
it is ended, each once and in their order. -/
theorem subscription_served {before after : List (Action η ε)} {topic : String} {handler : η}
    {s : State η ε} (h : run step start (before ++ .subscribe topic handler :: after) = some s) :
    (s.delivered ++ s.ready).filter (fun d => d.sid = subscriptions before) =
      (published topic (whileSubscribed (subscriptions before) after)).map fun event =>
        ⟨subscriptions before, handler, event⟩ := by
  rw [run_append] at h
  obtain ⟨m, hm, hrest⟩ := Option.bind_eq_some_iff.mp h
  obtain ⟨m', hm', hafter⟩ := run_cons_eq_some.mp hrest
  cases hm'
  have hissued : Issued m := run_invariant (fun _ _ _ => step_issued) issued_start hm
  have hid : m.bus.nextId = subscriptions before := by
    rw [run_nextId hm]
    exact Nat.zero_add _
  have hserves := run_invariant_history (fun _ _ _ _ => step_serves)
    (serves_subscribe hissued topic handler) hafter
  rw [hid, List.nil_append] at hserves
  exact hserves.made

/-- The calls after the second of two subscriptions, which they end. -/
def afterBars : List (Action String Nat) :=
  [.publish "bars" 2, .deliver, .publish "fills" 3, .publish "bars" 4, .unsubscribe 1,
    .publish "bars" 5, .deliver]

/-- The event published after the end is not for it; the one waiting at the end still is. -/
theorem subscription_served_bars : ∃ s,
    run step start ([.subscribe "fills" "ledger", .publish "bars" 1] ++
      .subscribe "bars" "sizer" :: afterBars) = some s ∧
      (s.delivered ++ s.ready).filter (fun d => d.sid = 1) =
        [⟨1, "sizer", 2⟩, ⟨1, "sizer", 4⟩] := by
  obtain ⟨s, hs⟩ := Option.isSome_iff_exists.mp (show (run step start
    ([.subscribe "fills" "ledger", .publish "bars" 1] ++
      .subscribe "bars" "sizer" :: afterBars)).isSome = true by decide)
  exact ⟨s, hs, subscription_served hs⟩

end Blive.InMemoryEventBus
