import Mathlib.Algebra.Order.Ring.Rat
import Mathlib.Algebra.Field.Rat
import Mathlib.Tactic.Linarith
import Blive.Misc.TokenBucket
import Blive.Adapters.Shared.RateLimiter

/-!
# What the rate limiter grants

For each of its buckets the limiter behaves as the token bucket of the bucket's capacity and
rate: every reading of the clock by a call or by `metrics` is a reading of the token bucket.
The bounds of the token bucket then hold of the limiter, over any interleaving of its callers.
-/

namespace Blive

open Transition

/-- The instant in seconds since the epoch. -/
def Utc.seconds (t : Utc) : Rat := (t.micros : Rat) / 1000000

theorem secondsSince_toDatetime (later earlier : Utc) :
    later.toDatetime.secondsSince earlier.toDatetime = later.seconds - earlier.seconds := by
  unfold Datetime.secondsSince Utc.seconds Utc.toDatetime
  push_cast
  ring

namespace RateLimitBucket

theorem valid_iff (b : RateLimitBucketFields) :
    postInit b = .ok () ↔ 0 < b.capacity ∧ 0 < b.refillPerSecond := by
  simp only [postInit, require_bind_eq_ok_iff, require_eq_ok_iff]

/-- The capacity and rate of a declared bucket. -/
def limit (cfg : RateLimitBucket) : TokenBucket.Limit Rat :=
  ⟨(cfg.val.capacity : Rat), cfg.val.refillPerSecond⟩

theorem rate_pos (cfg : RateLimitBucket) : 0 < cfg.limit.rate :=
  ((valid_iff cfg.val).mp cfg.valid).2

theorem capacity_pos (cfg : RateLimitBucket) : 0 < cfg.limit.capacity :=
  Int.cast_pos.mpr ((valid_iff cfg.val).mp cfg.valid).1

/-- The bucket a limiter starts with. -/
def full (cfg : RateLimitBucket) (start : Utc) : TokenBucket.Bucket Rat :=
  ⟨cfg.limit.capacity, start.seconds⟩

theorem full_within (cfg : RateLimitBucket) (start : Utc) :
    TokenBucket.Within cfg.limit (cfg.full start) :=
  ⟨cfg.capacity_pos.le, le_rfl⟩

end RateLimitBucket

/-! ## A limiter with one bucket, for runs on fixed values -/

/-- Five tokens, two a second. -/
def sampleBucket : RateLimitBucket := ⟨⟨5, 2⟩, by decide +kernel⟩

def sampleRateLimits : RateLimitConfig :=
  ⟨⟨.ofList [("messages", sampleBucket)]⟩, by decide +kernel⟩

namespace TokenBucketRateLimiter

/-- What the limiter holds for a bucket. -/
def bucketState (limiter : TokenBucketRateLimiter) (name : String) :
    Option (TokenBucket.Bucket Rat) :=
  match limiter.available.get? name, limiter.lastRefill.get? name with
  | some available, some last => some ⟨available, last.seconds⟩
  | _, _ => none

theorem bucketState_eq_some {limiter : TokenBucketRateLimiter} {name : String}
    {b : TokenBucket.Bucket Rat} : limiter.bucketState name = some b ↔
      limiter.available.get? name = some b.available ∧
        ∃ last, limiter.lastRefill.get? name = some last ∧ last.seconds = b.last := by
  unfold bucketState
  cases b with
  | mk available seconds =>
    cases limiter.available.get? name <;> cases limiter.lastRefill.get? name <;> simp

/-- `limiter'` is `limiter` with the bucket `name` set to `b`. -/
def Updates (limiter limiter' : TokenBucketRateLimiter) (name : String)
    (b : TokenBucket.Bucket Rat) : Prop :=
  limiter'.config = limiter.config ∧
    ∀ other, limiter'.bucketState other = if other = name then some b else limiter.bucketState other

variable {limiter : TokenBucketRateLimiter} {name : String} {cfg : RateLimitBucket}
  {b : TokenBucket.Bucket Rat}

theorem refill_spec (hcfg : limiter.config.val.buckets.get? name = some cfg)
    (hb : limiter.bucketState name = some b) (now : Utc) :
    ∃ limiter', limiter.refill name now = .ok limiter' ∧
      limiter.Updates limiter' name (b.refill cfg.limit now.seconds) := by
  obtain ⟨havailable, last, hlast, hseconds⟩ := bucketState_eq_some.mp hb
  have helapsed : now.toDatetime.secondsSince last.toDatetime = now.seconds - b.last := by
    rw [secondsSince_toDatetime, hseconds]
  by_cases hle : now.seconds ≤ b.last
  · refine ⟨limiter, ?_, rfl, ?_⟩
    · simp [refill, hcfg, hlast, orRaise, helapsed, hle, bind, Except.bind, pure, Except.pure]
    · intro other
      rw [TokenBucket.refill_of_le hle]
      split
      · rename_i heq
        rw [heq, hb]
      · rfl
  · refine ⟨{ limiter with
      available := limiter.available.set name (b.refill cfg.limit now.seconds).available
      lastRefill := limiter.lastRefill.set name now }, ?_, rfl, ?_⟩
    · simp [refill, hcfg, hlast, havailable, orRaise, helapsed, hle, bind, Except.bind, pure,
        Except.pure, TokenBucket.Bucket.refill, RateLimitBucket.limit]
    · intro other
      have hrefilled : (b.refill cfg.limit now.seconds).last = now.seconds := by
        rw [TokenBucket.refill_last]
        exact max_eq_right (not_le.mp hle).le
      by_cases heq : other = name
      · rw [if_pos heq, bucketState_eq_some]
        simp [heq, hrefilled]
      · simp [bucketState, heq]

/-- Two updates of one bucket are the second one. -/
theorem Updates.trans {m limiter' : TokenBucketRateLimiter} {b' : TokenBucket.Bucket Rat}
    (h : limiter.Updates m name b) (h' : m.Updates limiter' name b') :
    limiter.Updates limiter' name b' := by
  refine ⟨h'.1.trans h.1, ?_⟩
  intro other
  rw [h'.2 other, h.2 other]
  split <;> rfl

theorem Updates.bucketState_self {limiter' : TokenBucketRateLimiter}
    (h : limiter.Updates limiter' name b) : limiter'.bucketState name = some b := by
  rw [h.2 name, if_pos rfl]

/-- Taking tokens out of a bucket leaves its clock and the other buckets alone. -/
theorem updates_available (hb : limiter.bucketState name = some b) (a : Decimal) :
    limiter.Updates { limiter with available := limiter.available.set name a } name
      ⟨a, b.last⟩ := by
  obtain ⟨_, last, hlast, hseconds⟩ := bucketState_eq_some.mp hb
  refine ⟨rfl, ?_⟩
  intro other
  by_cases heq : other = name
  · rw [if_pos heq, bucketState_eq_some]
    simp [heq, hlast, hseconds]
  · simp [bucketState, heq]

/-- What a turn of `acquire` answers on a bucket: nothing when it takes the tokens, else the
seconds the call sleeps. -/
def waitFor (cfg : RateLimitBucket) (b : TokenBucket.Bucket Rat) (tokens : Int) (now : Utc) :
    Option Decimal :=
  let refilled := (b.refill cfg.limit now.seconds).available
  if (tokens : Rat) ≤ refilled then none
  else some (((tokens : Rat) - refilled) / cfg.val.refillPerSecond + 1 / 1000000)

theorem waitFor_eq_none_iff (cfg : RateLimitBucket) (b : TokenBucket.Bucket Rat) (tokens : Int)
    (now : Utc) : waitFor cfg b tokens now = none ↔
      (tokens : Rat) ≤ (b.refill cfg.limit now.seconds).available := by
  simp only [waitFor, ite_eq_left_iff, reduceCtorEq, imp_false, not_not]

/-- A turn of `acquire` reads the token bucket: it takes all its tokens or none. -/
theorem attempt_spec (hcfg : limiter.config.val.buckets.get? name = some cfg)
    (hb : limiter.bucketState name = some b) (hwithin : TokenBucket.Within cfg.limit b)
    {tokens : Int} (htokens : 0 < tokens) (now : Utc) :
    ∃ limiter' b', limiter.attempt name tokens now = .ok (limiter', waitFor cfg b tokens now) ∧
      TokenBucket.read cfg.limit b
        ⟨now.seconds, if waitFor cfg b tokens now = none then (tokens : Rat) else 0⟩ = some b' ∧
      limiter.Updates limiter' name b' := by
  obtain ⟨m, hm, hupdates⟩ := refill_spec hcfg hb now
  have hrefilled := TokenBucket.refill_within cfg.rate_pos.le hwithin now.seconds
  obtain ⟨havailable, _⟩ := bucketState_eq_some.mp hupdates.bucketState_self
  by_cases hle : (tokens : Rat) ≤ (b.refill cfg.limit now.seconds).available
  · have hgranted : waitFor cfg b tokens now = none :=
      (waitFor_eq_none_iff cfg b tokens now).mpr hle
    obtain ⟨left, hleft⟩ : ∃ left, left = (b.refill cfg.limit now.seconds).available - tokens :=
      ⟨_, rfl⟩
    refine ⟨{ m with available := m.available.set name left },
      ⟨left, (b.refill cfg.limit now.seconds).last⟩, ?_, ?_, ?_⟩
    · simp [attempt, hcfg, orRaise, hm, havailable, hgranted, hle, hleft, bind, Except.bind, pure,
        Except.pure]
    · rw [if_pos hgranted, TokenBucket.read_eq_some]
      exact ⟨Int.cast_nonneg htokens.le, hleft, rfl, hleft ▸ sub_nonneg.mpr hle⟩
    · exact hupdates.trans (updates_available hupdates.bucketState_self _)
  · refine ⟨m, b.refill cfg.limit now.seconds, ?_, ?_, hupdates⟩
    · simp [attempt, hcfg, orRaise, hm, havailable, waitFor, hle, bind, Except.bind, pure,
        Except.pure]
    · rw [if_neg (mt (waitFor_eq_none_iff cfg b tokens now).mp hle), TokenBucket.read_eq_some]
      exact ⟨le_rfl, (sub_zero _).symm, rfl, hrefilled.1⟩

/-- Every declared bucket has a state. -/
def Complete (limiter : TokenBucketRateLimiter) : Prop :=
  ∀ name cfg, limiter.config.val.buckets.get? name = some cfg →
    ∃ b, limiter.bucketState name = some b

theorem Updates.complete {limiter' : TokenBucketRateLimiter}
    (h : limiter.Updates limiter' name b) (hlimiter : limiter.Complete) : limiter'.Complete := by
  intro other cfg' hcfg'
  rw [h.1] at hcfg'
  rw [h.2 other]
  split
  · exact ⟨b, rfl⟩
  · exact hlimiter other cfg' hcfg'

theorem metricsOf_spec (hcfg : limiter.config.val.buckets.get? name = some cfg)
    (hb : limiter.bucketState name = some b) (now : Utc) :
    ∃ limiter' snapshot, limiter.metricsOf now name cfg = .ok (limiter', snapshot) ∧
      limiter.Updates limiter' name (b.refill cfg.limit now.seconds) := by
  obtain ⟨m, hm, hupdates⟩ := refill_spec hcfg hb now
  obtain ⟨havailable, last, hlast, _⟩ := bucketState_eq_some.mp hupdates.bucketState_self
  refine ⟨m, ⟨name, (b.refill cfg.limit now.seconds).available, cfg.val.capacity,
    cfg.val.refillPerSecond, last⟩, ?_, hupdates⟩
  simp [metricsOf, hm, havailable, hlast, orRaise, bind, Except.bind, pure, Except.pure]

/-- The loop of `metrics` refills the buckets it goes through, each once. -/
theorem metricsLoop_spec (now : Utc) {items : List (String × RateLimitBucket)}
    (hnodup : (items.map Prod.fst).Nodup)
    (hitems : ∀ item ∈ items, limiter.config.val.buckets.get? item.1 = some item.2)
    (hcomplete : limiter.Complete) :
    ∃ limiter' out, metricsLoop now items limiter = .ok (limiter', out) ∧
      limiter'.config = limiter.config ∧
      ∀ other b, limiter.bucketState other = some b → limiter'.bucketState other =
        match Dict.lookupItems other items with
        | some cfg => some (b.refill cfg.limit now.seconds)
        | none => some b := by
  induction items generalizing limiter with
  | nil => exact ⟨limiter, [], rfl, rfl, fun _ _ hb => hb⟩
  | cons item rest ih =>
    obtain ⟨name, cfg⟩ := item
    obtain ⟨hfresh, hrest⟩ := List.nodup_cons.mp hnodup
    have hcfg := hitems (name, cfg) List.mem_cons_self
    obtain ⟨b, hb⟩ := hcomplete name cfg hcfg
    obtain ⟨m, snapshot, hm, hupdates⟩ := metricsOf_spec hcfg hb now
    have hitems' : ∀ item ∈ rest, m.config.val.buckets.get? item.1 = some item.2 := by
      intro item hitem
      rw [hupdates.1]
      exact hitems item (List.mem_cons_of_mem _ hitem)
    obtain ⟨limiter', out, hloop, hconfig, hstate⟩ :=
      ih hrest hitems' (hupdates.complete hcomplete)
    refine ⟨limiter', snapshot :: out, ?_, hconfig.trans hupdates.1, ?_⟩
    · simp [metricsLoop, hm, hloop, bind, Except.bind, pure, Except.pure]
    · intro other c hc
      by_cases heq : other = name
      · -- The bucket just read does not come up again.
        subst heq
        cases hb.symm.trans hc
        have habsent : Dict.lookupItems other rest = none :=
          (Dict.lookupItems_eq_none_iff other rest).mpr hfresh
        rw [hstate other _ hupdates.bucketState_self, habsent]
        simp [Dict.lookupItems]
      · have hkept : m.bucketState other = some c := by
          rw [hupdates.2 other, if_neg heq, hc]
        rw [hstate other c hkept]
        simp [Dict.lookupItems, Ne.symm heq]

theorem metrics_spec (hcomplete : limiter.Complete) (now : Utc) :
    ∃ limiter' out, limiter.metrics now = .ok (limiter', out) ∧
      limiter'.config = limiter.config ∧
      ∀ name cfg b, limiter.config.val.buckets.get? name = some cfg →
        limiter.bucketState name = some b →
          limiter'.bucketState name = some (b.refill cfg.limit now.seconds) := by
  have hitems : ∀ item ∈ limiter.config.val.buckets.items,
      limiter.config.val.buckets.get? item.1 = some item.2 := fun item hitem =>
    Dict.get?_eq_some_iff.mpr hitem
  obtain ⟨limiter', out, hloop, hconfig, hstate⟩ :=
    metricsLoop_spec now limiter.config.val.buckets.nodup hitems hcomplete
  refine ⟨limiter', out, hloop, hconfig, ?_⟩
  intro name cfg b hcfg hb
  have hlookup : Dict.lookupItems name limiter.config.val.buckets.items = some cfg := hcfg
  rw [hstate name b hb, hlookup]

theorem checkAcquire_eq_ok_iff {tokens : Int} :
    limiter.checkAcquire name tokens = .ok cfg ↔
      limiter.config.val.buckets.get? name = some cfg ∧ 0 < tokens ∧
        tokens ≤ cfg.val.capacity := by
  unfold checkAcquire
  rw [bind_eq_ok_iff]
  simp only [orRaise_eq_ok_iff, require_bind_eq_ok_iff]
  constructor
  · rintro ⟨c, hc, htokens, hcap, hpure⟩
    cases hpure
    exact ⟨hc, htokens, hcap⟩
  · rintro ⟨hc, htokens, hcap⟩
    exact ⟨cfg, hc, htokens, hcap, rfl⟩

/-- A new limiter holds every declared bucket full. -/
theorem bucketState_init (config : RateLimitConfig) (start : Utc)
    (hcfg : config.val.buckets.get? name = some cfg) :
    (init config start).bucketState name = some (cfg.full start) := by
  rw [bucketState_eq_some]
  show (config.val.buckets.mapValues fun bucket => (bucket.val.capacity : Decimal)).get? name = _ ∧
    ∃ last, (config.val.buckets.mapValues fun _ => start).get? name = _ ∧ _
  rw [Dict.get?_mapValues, Dict.get?_mapValues, hcfg]
  exact ⟨rfl, start, rfl, rfl⟩

end TokenBucketRateLimiter

/-! ## Runs of the limiter and its callers -/

namespace ClockReading

def now : ClockReading → Utc
  | attempt now _ _ => now
  | metrics now => now

/-- What a reading of the clock is to a bucket: a call on another bucket leaves it alone. -/
def at? (name : String) : ClockReading → Option (TokenBucket.Reading Rat)
  | attempt now bucket tokens =>
      if bucket = name then some ⟨now.seconds, (tokens : Rat)⟩ else none
  | metrics now => some ⟨now.seconds, 0⟩

end ClockReading

namespace RateLimiterSystem

/-- The readings a bucket saw, oldest first. -/
def history (s : RateLimiterSystem) (name : String) : List (TokenBucket.Reading Rat) :=
  s.readings.filterMap (ClockReading.at? name)

/-- The tokens ever granted from a bucket. -/
def granted (s : RateLimiterSystem) (name : String) : Rat := TokenBucket.total (s.history name)

/-- The tokens granted from a bucket at readings between two times, in seconds. -/
def grantedIn (s : RateLimiterSystem) (name : String) (since till : Rat) : Rat :=
  TokenBucket.grantedIn since till (s.history name)

/-- What the clock has shown since the limiter was built, in seconds, oldest first. -/
def times (start : Utc) (s : RateLimiterSystem) : List Rat :=
  start.seconds :: s.readings.map fun r => r.now.seconds

theorem times_ne_nil (start : Utc) (s : RateLimiterSystem) : s.times start ≠ [] :=
  List.cons_ne_nil _ _

/-- The largest reading of the clock so far. -/
def latest (start : Utc) (s : RateLimiterSystem) : Rat := (s.times start).max (times_ne_nil start s)

/-- Each bucket is where the token bucket of its history is, and every sleeping call passed
its checks. -/
structure Follows (config : RateLimitConfig) (start : Utc) (s : RateLimiterSystem) : Prop where
  config_eq : s.limiter.config = config
  bucket : ∀ name cfg, config.val.buckets.get? name = some cfg → ∃ b,
    run (TokenBucket.read cfg.limit) (cfg.full start) (s.history name) = some b ∧
      s.limiter.bucketState name = some b
  sleeping : ∀ call ∈ s.sleeping, ∃ cfg, s.limiter.checkAcquire call.1 call.2 = .ok cfg

variable {config : RateLimitConfig} {start : Utc} {s t : RateLimiterSystem}

theorem follows_init : (init config start).Follows config start where
  config_eq := rfl
  bucket name cfg hcfg :=
    ⟨cfg.full start, rfl, TokenBucketRateLimiter.bucketState_init config start hcfg⟩
  sleeping _ hcall := by cases hcall

/-- One more reading continues the run of a bucket. -/
theorem history_append (s : RateLimiterSystem) (limiter : TokenBucketRateLimiter)
    (sleeping : List (String × Int)) (r : ClockReading) (name : String) :
    history ⟨limiter, sleeping, s.readings ++ [r]⟩ name =
      s.history name ++ (r.at? name).toList := by
  unfold history
  rw [List.filterMap_append]
  cases h : r.at? name <;> simp [h]

theorem Follows.complete (h : s.Follows config start) : s.limiter.Complete := by
  intro name cfg hcfg
  rw [h.config_eq] at hcfg
  obtain ⟨b, _, hb⟩ := h.bucket name cfg hcfg
  exact ⟨b, hb⟩

/-- The bucket a run of readings reached lies between empty and full. -/
theorem within_of_run {cfg : RateLimitBucket} {rs : List (TokenBucket.Reading Rat)}
    {b : TokenBucket.Bucket Rat}
    (hrun : run (TokenBucket.read cfg.limit) (cfg.full start) rs = some b) :
    TokenBucket.Within cfg.limit b :=
  TokenBucket.run_within cfg.rate_pos.le (cfg.full_within start) hrun

/-- A system whose limiter made the reading `r` still follows its buckets, when every bucket
made it too. -/
theorem Follows.reading (h : s.Follows config start) {limiter : TokenBucketRateLimiter}
    {sleeping : List (String × Int)} {r : ClockReading} (hconfig : limiter.config = config)
    (hbucket : ∀ name cfg b, config.val.buckets.get? name = some cfg →
      TokenBucket.Within cfg.limit b → s.limiter.bucketState name = some b →
        ∃ b', run (TokenBucket.read cfg.limit) b (r.at? name).toList = some b' ∧
          limiter.bucketState name = some b')
    (hsleeping : ∀ call ∈ sleeping, call ∈ s.sleeping ∨
      ∃ cfg, s.limiter.checkAcquire call.1 call.2 = .ok cfg) :
    (RateLimiterSystem.mk limiter sleeping (s.readings ++ [r])).Follows config start where
  config_eq := hconfig
  bucket name cfg hcfg := by
    obtain ⟨b, hrun, hb⟩ := h.bucket name cfg hcfg
    obtain ⟨b', hread, hb'⟩ := hbucket name cfg b hcfg (within_of_run hrun) hb
    refine ⟨b', ?_, hb'⟩
    rw [history_append, run_append, hrun]
    exact hread
  sleeping call hcall := by
    have hchecked : ∃ cfg, s.limiter.checkAcquire call.1 call.2 = .ok cfg := by
      rcases hsleeping call hcall with hcall | hchecked
      · exact h.sleeping call hcall
      · exact hchecked
    obtain ⟨cfg, hcfg⟩ := hchecked
    rw [TokenBucketRateLimiter.checkAcquire_eq_ok_iff, h.config_eq, ← hconfig] at hcfg
    exact ⟨cfg, TokenBucketRateLimiter.checkAcquire_eq_ok_iff.mpr hcfg⟩

/-- A turn of a call that passed its checks: the call takes all its tokens, exactly when the
bucket holds them at the reading. -/
theorem turn_spec (h : s.Follows config start) {bucket : String} {tokens : Int}
    {cfg : RateLimitBucket} (hchecked : s.limiter.checkAcquire bucket tokens = .ok cfg)
    (now : Utc) :
    (s.turn bucket tokens now).Follows config start ∧
      ∃ b, s.limiter.bucketState bucket = some b ∧
        (s.turn bucket tokens now).readings = s.readings ++ [.attempt now bucket
          (if (tokens : Rat) ≤ (b.refill cfg.limit now.seconds).available then tokens else 0)] := by
  obtain ⟨hcfg, htokens, _⟩ := TokenBucketRateLimiter.checkAcquire_eq_ok_iff.mp hchecked
  have hdeclared := hcfg
  rw [h.config_eq] at hdeclared
  obtain ⟨b, hrun, hb⟩ := h.bucket bucket cfg hdeclared
  obtain ⟨limiter, b', hattempt, hread, hupdates⟩ :=
    TokenBucketRateLimiter.attempt_spec hcfg hb (within_of_run hrun) htokens now
  have hwait := TokenBucketRateLimiter.waitFor_eq_none_iff cfg b tokens now
  generalize TokenBucketRateLimiter.waitFor cfg b tokens now = wait at hattempt hread hwait
  -- The other buckets do not see the reading.
  have hbuckets : ∀ granted : Int, (granted : Rat) = (if wait = none then (tokens : Rat) else 0) →
      ∀ name cfg c, config.val.buckets.get? name = some cfg → TokenBucket.Within cfg.limit c →
        s.limiter.bucketState name = some c →
          ∃ c', run (TokenBucket.read cfg.limit) c
            ((ClockReading.attempt now bucket granted).at? name).toList = some c' ∧
              limiter.bucketState name = some c' := by
    intro granted hgranted name cfg' c hcfg' _ hc
    by_cases heq : bucket = name
    · subst heq
      cases hb.symm.trans hc
      cases hdeclared.symm.trans hcfg'
      refine ⟨b', ?_, hupdates.bucketState_self⟩
      simp only [ClockReading.at?, if_true, Option.toList_some, run_cons_eq_some, run_nil]
      exact ⟨b', hgranted ▸ hread, rfl⟩
    · refine ⟨c, ?_, ?_⟩
      · simp [ClockReading.at?, heq]
      · rw [hupdates.2 name, if_neg (Ne.symm heq), hc]
  cases wait with
  | none =>
    have hturn : s.turn bucket tokens now =
        ⟨limiter, s.sleeping, s.readings ++ [.attempt now bucket tokens]⟩ := by
      simp only [turn, hattempt]
    rw [hturn]
    refine ⟨h.reading (hupdates.1.trans h.config_eq) (hbuckets tokens (by simp))
      fun call hcall => .inl hcall, b, hb, ?_⟩
    rw [if_pos (hwait.mp rfl)]
  | some seconds =>
    have hturn : s.turn bucket tokens now = ⟨limiter, s.sleeping ++ [(bucket, tokens)],
        s.readings ++ [.attempt now bucket 0]⟩ := by
      simp only [turn, hattempt]
    rw [hturn]
    refine ⟨h.reading (hupdates.1.trans h.config_eq) (hbuckets 0 (by simp)) ?_, b, hb, ?_⟩
    · intro call hcall
      rcases List.mem_append.mp hcall with hcall | hcall
      · exact .inl hcall
      · cases List.mem_singleton.mp hcall
        exact .inr ⟨cfg, hchecked⟩
    · rw [if_neg fun hle => by cases hwait.mpr hle]

/-- A call that leaves the sleepers changes no bucket. -/
theorem Follows.eraseIdx (h : s.Follows config start) (i : Nat) :
    ({ s with sleeping := s.sleeping.eraseIdx i } : RateLimiterSystem).Follows config start where
  config_eq := h.config_eq
  bucket := h.bucket
  sleeping call hcall := h.sleeping call (List.mem_of_mem_eraseIdx hcall)

theorem step_follows (h : s.Follows config start) {a : RateLimiterAction}
    (hstep : s.step a = some t) : t.Follows config start := by
  cases a with
  | acquire bucket tokens now =>
    simp only [step] at hstep
    split at hstep
    · cases hstep
      exact h
    · rename_i cfg hchecked
      cases hstep
      exact (turn_spec h hchecked now).1
  | wake i now =>
    simp only [step] at hstep
    split at hstep
    · cases hstep
    · rename_i bucket tokens hcall
      cases hstep
      obtain ⟨cfg, hchecked⟩ := h.sleeping _ (List.mem_of_getElem? hcall)
      exact (turn_spec (h.eraseIdx i) hchecked now).1
  | cancel i =>
    simp only [step] at hstep
    split at hstep
    · cases hstep
      exact h.eraseIdx i
    · cases hstep
  | metrics now =>
    obtain ⟨limiter, out, hmetrics, hconfig, hstate⟩ :=
      TokenBucketRateLimiter.metrics_spec h.complete now
    simp only [step, hmetrics] at hstep
    cases hstep
    refine h.reading (hconfig.trans h.config_eq) ?_ fun call hcall => .inl hcall
    intro name cfg b hcfg hwithin hb
    refine ⟨b.refill cfg.limit now.seconds, ?_, hstate name cfg b (h.config_eq ▸ hcfg) hb⟩
    have hread : TokenBucket.read cfg.limit b ⟨now.seconds, 0⟩ =
        some (b.refill cfg.limit now.seconds) :=
      TokenBucket.read_eq_some.mpr ⟨le_rfl, (sub_zero _).symm, rfl,
        (TokenBucket.refill_within cfg.rate_pos.le hwithin now.seconds).1⟩
    simp only [ClockReading.at?, Option.toList_some, run_cons_eq_some, run_nil]
    exact ⟨_, hread, rfl⟩

/-- In every reachable state each bucket is where its history has led the token bucket. -/
theorem run_follows {actions : List RateLimiterAction}
    (hrun : run step (init config start) actions = some s) : s.Follows config start :=
  run_invariant (fun _ _ _ hs h => step_follows hs h) follows_init hrun

/-- A step reads the clock once or not at all. -/
theorem step_readings {a : RateLimiterAction} (hstep : s.step a = some t) :
    ∃ r : Option ClockReading, t.readings = s.readings ++ r.toList := by
  have hturn : ∀ bucket tokens now, ∃ r : Option ClockReading,
      (s.turn bucket tokens now).readings = s.readings ++ r.toList := by
    intro bucket tokens now
    unfold turn
    split <;> exact ⟨some _, rfl⟩
  have hnone : ∃ r : Option ClockReading, s.readings = s.readings ++ r.toList :=
    ⟨none, (List.append_nil _).symm⟩
  cases a with
  | acquire bucket tokens now =>
    simp only [step] at hstep
    split at hstep <;> cases hstep
    · exact hnone
    · exact hturn bucket tokens now
  | wake i now =>
    simp only [step] at hstep
    split at hstep
    · cases hstep
    · cases hstep
      unfold turn
      dsimp only
      split <;> exact ⟨some _, rfl⟩
  | cancel i =>
    simp only [step] at hstep
    split at hstep <;> cases hstep
    exact hnone
  | metrics now =>
    simp only [step] at hstep
    split at hstep <;> cases hstep <;> exact ⟨some _, rfl⟩

/-- A bucket sees the clock at some of the readings, in their order. -/
theorem history_times (s : RateLimiterSystem) (name : String) :
    ((s.history name).map (·.time)).Sublist (s.readings.map fun r => r.now.seconds) := by
  unfold history
  induction s.readings with
  | nil => exact List.Sublist.slnil
  | cons r rest ih =>
    cases r with
    | attempt now bucket tokens =>
      by_cases heq : bucket = name
      · simpa [ClockReading.at?, ClockReading.now, heq] using ih.cons_cons now.seconds
      · simpa [ClockReading.at?, ClockReading.now, heq] using ih.cons now.seconds
    | metrics now => simpa [ClockReading.at?, ClockReading.now] using ih.cons_cons now.seconds

theorem le_latest {start : Utc} {s : RateLimiterSystem} {x : Rat} (hx : x ∈ s.times start) :
    x ≤ s.latest start :=
  List.le_max_of_mem hx

/-- A clock that does not step back does not do so for a bucket. -/
theorem forward_history {cfg : RateLimitBucket} {name : String}
    (hforward : (s.times start).Pairwise (· ≤ ·)) :
    TokenBucket.Forward (cfg.full start) (s.history name) :=
  hforward.sublist ((history_times s name).cons_cons _)

/-- A bucket of capacity `C` that refills at the rate `r` always holds between nothing and
`C`, also between the refill and the taking of a turn. It never grants more than `C` and what
`r` gives from the first reading of the clock to the largest, and over any window of a clock
that does not step back no more than `C` and what `r` gives in the window. -/
theorem limiter_bounds (config : RateLimitConfig) (start : Utc)
    (actions : List RateLimiterAction) (s : RateLimiterSystem) (name : String)
    (cfg : RateLimitBucket) (hrun : run step (init config start) actions = some s)
    (hcfg : config.val.buckets.get? name = some cfg) :
    (∃ available, s.limiter.available.get? name = some available ∧ 0 ≤ available ∧
      available ≤ (cfg.val.capacity : Rat)) ∧
    (∀ now, ∃ limiter available, s.limiter.refill name now = .ok limiter ∧
      limiter.available.get? name = some available ∧ 0 ≤ available ∧
        available ≤ (cfg.val.capacity : Rat)) ∧
    s.granted name ≤ (cfg.val.capacity : Rat) +
      cfg.val.refillPerSecond * (s.latest start - start.seconds) ∧
    ((s.times start).Pairwise (· ≤ ·) → ∀ since till : Rat, since ≤ till →
      s.grantedIn name since till ≤ (cfg.val.capacity : Rat) +
        cfg.val.refillPerSecond * (till - since)) := by
  have hfollows := run_follows hrun
  obtain ⟨b, hbucket, hb⟩ := hfollows.bucket name cfg hcfg
  have hrate := cfg.rate_pos.le
  have hfull := cfg.full_within start
  have hwithin := within_of_run hbucket
  refine ⟨?_, ?_, ?_, ?_⟩
  · exact ⟨b.available, (TokenBucketRateLimiter.bucketState_eq_some.mp hb).1, hwithin⟩
  · intro now
    obtain ⟨limiter, hrefill, hupdates⟩ :=
      TokenBucketRateLimiter.refill_spec (hfollows.config_eq ▸ hcfg) hb now
    exact ⟨limiter, _, hrefill,
      (TokenBucketRateLimiter.bucketState_eq_some.mp hupdates.bucketState_self).1,
      TokenBucket.refill_within hrate hwithin now.seconds⟩
  · have hlast : b.last ≤ s.latest start := by
      refine TokenBucket.run_last_le (le_latest List.mem_cons_self) ?_ hbucket
      intro r hr
      have hseen := (history_times s name).subset (List.mem_map.mpr ⟨r, hr, rfl⟩)
      exact le_latest (List.mem_cons_of_mem _ hseen)
    have htotal := TokenBucket.total_le hrate hfull hbucket
    have hearned : cfg.limit.rate * (b.last - start.seconds) ≤
        cfg.limit.rate * (s.latest start - start.seconds) :=
      mul_le_mul_of_nonneg_left (sub_le_sub_right hlast _) hrate
    exact htotal.trans (add_le_add le_rfl hearned)
  · intro hforward since till hwindow
    exact TokenBucket.grantedIn_le hrate hfull (forward_history hforward) hwindow hbucket

/-- Two callers of one bucket: the second waits for the refill while a snapshot is taken. -/
def sampleActions : List RateLimiterAction :=
  [.acquire "messages" 5 ⟨0⟩, .acquire "messages" 3 ⟨500000⟩, .metrics ⟨1000000⟩,
    .wake 0 ⟨1500001⟩]

theorem limiter_bounds_sample :
    ∃ s, run step (init sampleRateLimits ⟨0⟩) sampleActions = some s ∧
      s.grantedIn "messages" 0 2 ≤ (5 : Rat) + 2 * (2 - 0) := by
  obtain ⟨s, hs⟩ : ∃ s, run step (init sampleRateLimits ⟨0⟩) sampleActions = some s := by
    apply Option.isSome_iff_exists.mp
    decide +kernel
  refine ⟨s, hs, ?_⟩
  have hbounds := limiter_bounds sampleRateLimits ⟨0⟩ sampleActions s "messages" sampleBucket hs
    (by decide +kernel)
  have hforward : ∀ t ∈ run step (init sampleRateLimits ⟨0⟩) sampleActions,
      (t.times ⟨0⟩).Pairwise (· ≤ ·) := by
    decide +kernel
  exact hbounds.2.2.2 (hforward s hs) 0 2 (by decide +kernel)

end RateLimiterSystem

end Blive
