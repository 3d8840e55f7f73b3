import Blive.Adapters.Shared.Proofs.Observation

/-!
# How often a call sleeps

The loop of `acquire` has no measure of its own: it ends because the wait it computes refills
the deficit. The cushion of a microsecond is more than the half microsecond that a clock loses
by rounding the wait, and what the refill adds to a call's request never has to exceed the
capacity. While a call sleeps other callers may do what takes no tokens from its bucket.
-/

namespace Blive

open TokenBucket

namespace TokenBucketRateLimiter

variable {limiter limiter' : TokenBucketRateLimiter} {name : String} {cfg : RateLimitBucket}
  {b : Bucket Rat}

/-- `metrics` refills a bucket or, when it is not declared, leaves it alone. -/
theorem metricsLoop_bucket {now : Utc} {items : List (String × RateLimitBucket)}
    {out : List BucketMetrics} (hcfg : limiter.config.val.buckets.get? name = some cfg)
    (hb : limiter.bucketState name = some b)
    (h : metricsLoop now items limiter = .ok (limiter', out)) :
    limiter'.config = limiter.config ∧ ∃ c, limiter'.bucketState name = some c ∧
      (c = b ∨ c = b.refill cfg.limit now.seconds) := by
  induction items generalizing limiter b out with
  | nil =>
    cases h
    exact ⟨rfl, b, hb, .inl rfl⟩
  | cons item rest ih =>
    obtain ⟨other, otherCfg⟩ := item
    obtain ⟨⟨m, snapshot⟩, hm, h⟩ := bind_eq_ok_iff.mp h
    obtain ⟨⟨m', out'⟩, hrest, h⟩ := bind_eq_ok_iff.mp h
    cases h
    obtain ⟨refilled, hrefill, hm⟩ := bind_eq_ok_iff.mp hm
    obtain ⟨available, _, hm⟩ := bind_eq_ok_iff.mp hm
    obtain ⟨last, _, hm⟩ := bind_eq_ok_iff.mp hm
    cases hm
    have hothers := refill_agreeBut hrefill
    have hcfg' : m.config.val.buckets.get? name = some cfg := by
      rw [hothers.config_eq]
      exact hcfg
    by_cases heq : name = other
    · subst heq
      obtain ⟨m', hm', hupdates⟩ := refill_spec hcfg hb now
      cases hrefill.symm.trans hm'
      obtain ⟨hconfig, c, hc, hcases⟩ := ih hcfg' hupdates.bucketState_self hrest
      refine ⟨hconfig.trans hothers.config_eq, c, hc, .inr ?_⟩
      rcases hcases with h | h
      · exact h
      · rw [h, refill_refill cfg.rate_pos.le le_rfl]
    · have hb' : m.bucketState name = some b := (hothers.bucketState heq).trans hb
      obtain ⟨hconfig, c, hc, hcases⟩ := ih hcfg' hb' hrest
      exact ⟨hconfig.trans hothers.config_eq, c, hc, hcases⟩

end TokenBucketRateLimiter

/-! ## While a call sleeps -/

/-- What can happen to the world while no other caller takes tokens from the bucket: the clock
goes on, snapshots are taken, and other calls are tried, on the bucket only in vain. -/
inductive Undisturbed (bucket : String) : LimiterWorld → LimiterWorld → Prop
  | refl (w : LimiterWorld) : Undisturbed bucket w w
  | tick {w m : LimiterWorld} {later : Utc} (h : Undisturbed bucket w m)
      (hlater : m.now.seconds ≤ later.seconds) : Undisturbed bucket w ⟨m.limiter, later⟩
  | metrics {w m : LimiterWorld} {limiter : TokenBucketRateLimiter} {out : List BucketMetrics}
      (h : Undisturbed bucket w m) (hmetrics : m.limiter.metrics m.now = .ok (limiter, out)) :
      Undisturbed bucket w ⟨limiter, m.now⟩
  | attempt {w m : LimiterWorld} {limiter : TokenBucketRateLimiter} {other : String}
      {tokens : Int} {wait : Option Decimal} (h : Undisturbed bucket w m)
      (hattempt : m.limiter.attempt other tokens m.now = .ok (limiter, wait))
      (hwaits : other = bucket → wait ≠ none) : Undisturbed bucket w ⟨limiter, m.now⟩

/-- The number rounded to a whole one, ties either way. -/
def RoundsTo (x : Rat) (k : Int) : Prop := |x - k| ≤ 1 / 2

/-- Awaiting `clock.sleep` moves the clock by at least what was asked for, in whole
microseconds, while no other caller takes tokens from the bucket. -/
def Sleeps (bucket : String) (sleep : Nat → LimiterWorld → Decimal → LimiterWorld) : Prop :=
  ∀ k w seconds, 0 ≤ seconds → Undisturbed bucket w (sleep k w seconds) ∧
    ∃ micros, RoundsTo (seconds * 1000000) micros ∧
      w.now.micros + micros ≤ (sleep k w seconds).now.micros

section Undisturbed

variable {bucket : String} {cfg : RateLimitBucket} {w w' : LimiterWorld} {b : Bucket Rat}

/-- An undisturbed bucket refills as if nothing had happened to it. -/
theorem Undisturbed.spec (h : Undisturbed bucket w w')
    (hcfg : w.limiter.config.val.buckets.get? bucket = some cfg)
    (hb : w.limiter.bucketState bucket = some b) (hwithin : Within cfg.limit b) :
    w'.limiter.config = w.limiter.config ∧ w.now.seconds ≤ w'.now.seconds ∧
      ∃ c, w'.limiter.bucketState bucket = some c ∧ Within cfg.limit c ∧
        AgreeFrom cfg.limit w'.now.seconds c b := by
  have hrate := cfg.rate_pos.le
  induction h with
  | refl => exact ⟨rfl, le_rfl, b, hb, hwithin, .refl _ _ _⟩
  | tick _ hlater ih =>
    obtain ⟨hconfig, hle, c, hc, hcwithin, hagree⟩ := ih
    exact ⟨hconfig, hle.trans hlater, c, hc, hcwithin, hagree.mono hlater⟩
  | metrics _ hmetrics ih =>
    obtain ⟨hconfig, hle, c, hc, hcwithin, hagree⟩ := ih
    obtain ⟨hconfig', c', hc', hcases⟩ :=
      TokenBucketRateLimiter.metricsLoop_bucket (hconfig.symm ▸ hcfg) hc hmetrics
    refine ⟨hconfig'.trans hconfig, hle, c', hc', ?_⟩
    rcases hcases with rfl | rfl
    · exact ⟨hcwithin, hagree⟩
    · exact ⟨refill_within hrate hcwithin _, hagree.refill_left hrate le_rfl⟩
  | @attempt m limiter other _ _ _ hattempt hwaits ih =>
    obtain ⟨hconfig, hle, c, hc, hcwithin, hagree⟩ := ih
    have hothers := TokenBucketRateLimiter.attempt_agreeBut hattempt
    refine ⟨hothers.config_eq.trans hconfig, hle, ?_⟩
    by_cases hother : other = bucket
    · -- A call on the bucket itself has to wait, and so has only refilled it.
      subst hother
      obtain ⟨refilled, hrefill, ⟨hnone, _⟩ | ⟨_, rfl⟩⟩ :=
        TokenBucketRateLimiter.attempt_cases hattempt
      · exact absurd hnone (hwaits rfl)
      · obtain ⟨limiter', hrefill', hupdates⟩ :=
          TokenBucketRateLimiter.refill_spec (hconfig.symm ▸ hcfg) hc m.now
        cases hrefill.symm.trans hrefill'
        exact ⟨_, hupdates.bucketState_self, refill_within hrate hcwithin _,
          hagree.refill_left hrate le_rfl⟩
    · exact ⟨c, (hothers.bucketState (Ne.symm hother)).trans hc, hcwithin, hagree⟩

end Undisturbed

/-! ## The second turn of the loop -/

section Acquire

variable {bucket : String} {cfg : RateLimitBucket} {b : Bucket Rat} {tokens : Int}
  {now later : Utc} {seconds : Decimal} {micros : Int}

/-- The wait and its cushion, less what the clock rounds off, refill the deficit. -/
theorem granted_after_wait (hwithin : Within cfg.limit b) (hlast : b.last ≤ now.seconds)
    (htokens : tokens ≤ cfg.val.capacity)
    (hwait : TokenBucketRateLimiter.waitFor cfg b tokens now = some seconds)
    (hrounds : RoundsTo (seconds * 1000000) micros) (hlater : now.micros + micros ≤ later.micros) :
    (tokens : Rat) ≤ (b.refill cfg.limit later.seconds).available := by
  obtain ⟨held, hheld⟩ : ∃ held, held = (b.refill cfg.limit now.seconds).available := ⟨_, rfl⟩
  have hrate : 0 < cfg.val.refillPerSecond := cfg.rate_pos
  simp only [TokenBucketRateLimiter.waitFor, ← hheld] at hwait
  split at hwait
  · cases hwait
  rename_i hshort
  have hseconds : ((tokens : Rat) - held) / cfg.val.refillPerSecond + 1 / 1000000 = seconds :=
    Option.some.inj hwait
  have hdeficit : 0 < ((tokens : Rat) - held) / cfg.val.refillPerSecond :=
    div_pos (sub_pos.mpr (not_le.mp hshort)) hrate
  -- The clock has moved by the wait, up to half a microsecond.
  have helapsed : ((tokens : Rat) - held) / cfg.val.refillPerSecond ≤
      later.seconds - now.seconds := by
    have hclock : (now.micros : Rat) + micros ≤ later.micros := by exact_mod_cast hlater
    have hclose := (abs_le.mp hrounds).2
    unfold Utc.seconds
    linarith
  have hadded : (tokens : Rat) - held ≤
      cfg.val.refillPerSecond * (later.seconds - now.seconds) := by
    have hmul := mul_le_mul_of_nonneg_left helapsed hrate.le
    rwa [mul_div_cancel₀ _ hrate.ne'] at hmul
  have hforward : now.seconds ≤ later.seconds := by linarith
  have hrefilled : (b.refill cfg.limit now.seconds).last = now.seconds := by
    rw [refill_last]
    exact max_eq_right hlast
  have hbelow := (refill_within cfg.rate_pos.le hwithin now.seconds).2
  rw [← refill_refill cfg.rate_pos.le hforward,
    refill_of_ge hbelow (hrefilled.le.trans hforward), ← hheld, hrefilled]
  refine le_min (Int.cast_le.mpr htokens) ?_
  show (tokens : Rat) ≤ held + cfg.val.refillPerSecond * (later.seconds - now.seconds)
  linarith

/-- What the attempt that is granted leaves of a bucket. -/
theorem attempt_granted {limiter : TokenBucketRateLimiter}
    (hcfg : limiter.config.val.buckets.get? bucket = some cfg)
    (hb : limiter.bucketState bucket = some b) (hwithin : Within cfg.limit b)
    (htokens : 0 < tokens)
    (hgranted : (tokens : Rat) ≤ (b.refill cfg.limit now.seconds).available) :
    ∃ limiter', limiter.attempt bucket tokens now = .ok (limiter', none) ∧
      limiter'.available.get? bucket =
        some ((b.refill cfg.limit now.seconds).available - tokens) := by
  obtain ⟨limiter', c, hattempt, hread, hupdates⟩ :=
    TokenBucketRateLimiter.attempt_spec hcfg hb hwithin htokens now
  have hnone := (TokenBucketRateLimiter.waitFor_eq_none_iff cfg b tokens now).mpr hgranted
  rw [hnone] at hattempt hread
  refine ⟨limiter', hattempt, ?_⟩
  rw [(TokenBucketRateLimiter.bucketState_eq_some.mp hupdates.bucketState_self).1,
    (read_eq_some.mp hread).2.1, if_pos rfl]

/-- What the attempt that has to wait leaves of a bucket. -/
theorem attempt_short {limiter : TokenBucketRateLimiter}
    (hcfg : limiter.config.val.buckets.get? bucket = some cfg)
    (hb : limiter.bucketState bucket = some b) (hwithin : Within cfg.limit b)
    (htokens : 0 < tokens)
    (hwait : TokenBucketRateLimiter.waitFor cfg b tokens now = some seconds) :
    ∃ limiter', limiter.attempt bucket tokens now = .ok (limiter', some seconds) ∧
      limiter.Updates limiter' bucket (b.refill cfg.limit now.seconds) := by
  obtain ⟨limiter', c, hattempt, hread, hupdates⟩ :=
    TokenBucketRateLimiter.attempt_spec hcfg hb hwithin htokens now
  rw [hwait] at hattempt hread
  obtain ⟨_, hheld, hlast, _⟩ := read_eq_some.mp hread
  rw [if_neg (Option.some_ne_none seconds), sub_zero] at hheld
  have hc : c = b.refill cfg.limit now.seconds := by
    cases c
    exact congrArg₂ Bucket.mk hheld hlast
  exact ⟨limiter', hattempt, hc ▸ hupdates⟩

theorem waitFor_pos (hwait : TokenBucketRateLimiter.waitFor cfg b tokens now = some seconds) :
    0 < seconds := by
  simp only [TokenBucketRateLimiter.waitFor] at hwait
  split at hwait
  · cases hwait
  · rename_i hshort
    cases hwait
    have hdeficit := div_pos (sub_pos.mpr (not_le.mp hshort)) cfg.rate_pos
    exact add_pos hdeficit (by norm_num)

/-- The attempt after the sleep is granted, and the bucket has been refilled as if the first
attempt had not been made. -/
theorem attempt_after_sleep {limiter : TokenBucketRateLimiter} {m : LimiterWorld}
    (hcfg : limiter.config.val.buckets.get? bucket = some cfg) (hwithin : Within cfg.limit b)
    (hforward : b.last ≤ now.seconds) (htokens : 0 < tokens ∧ tokens ≤ cfg.val.capacity)
    (hwait : TokenBucketRateLimiter.waitFor cfg b tokens now = some seconds)
    (hb : limiter.bucketState bucket = some (b.refill cfg.limit now.seconds))
    (hundisturbed : Undisturbed bucket ⟨limiter, now⟩ m)
    (hrounds : RoundsTo (seconds * 1000000) micros)
    (hlater : now.micros + micros ≤ m.now.micros) :
    now.seconds ≤ m.now.seconds ∧
      ∃ limiter', m.limiter.attempt bucket tokens m.now = .ok (limiter', none) ∧
        limiter'.available.get? bucket =
          some ((b.refill cfg.limit m.now.seconds).available - tokens) := by
  obtain ⟨hconfig, hle, c, hc, hcwithin, hagree⟩ :=
    hundisturbed.spec hcfg hb (refill_within cfg.rate_pos.le hwithin now.seconds)
  have hsame : c.refill cfg.limit m.now.seconds = b.refill cfg.limit m.now.seconds := by
    rw [hagree le_rfl, refill_refill cfg.rate_pos.le hle]
  have hgranted : (tokens : Rat) ≤ (c.refill cfg.limit m.now.seconds).available := by
    rw [hsame]
    exact granted_after_wait hwithin hforward htokens.2 hwait hrounds hlater
  obtain ⟨limiter', hattempt, hleft⟩ :=
    attempt_granted (hconfig.symm ▸ hcfg) hc hcwithin htokens.1 hgranted
  exact ⟨hle, limiter', hattempt, hsame ▸ hleft⟩

end Acquire

/-- A call of `acquire` that no other caller takes tokens from its bucket during returns after
at most one sleep. It leaves in the bucket what the clock has refilled by then, less exactly the
tokens it asked for. -/
theorem acquire_uncontended {bucket : String} {cfg : RateLimitBucket} {tokens : Int}
    {w : LimiterWorld} {available : Decimal} {last : Utc}
    {sleep : Nat → LimiterWorld → Decimal → LimiterWorld}
    (hcfg : w.limiter.config.val.buckets.get? bucket = some cfg)
    (havailable : w.limiter.available.get? bucket = some available)
    (hlast : w.limiter.lastRefill.get? bucket = some last)
    (hbalance : 0 ≤ available ∧ available ≤ cfg.val.capacity)
    (hclock : last.micros ≤ w.now.micros) (htokens : 0 < tokens ∧ tokens ≤ cfg.val.capacity)
    (hsleep : Sleeps bucket sleep) :
    ∃ w' slept, slept ≤ 1 ∧
      (∀ fuel, 2 ≤ fuel → acquire sleep bucket tokens fuel w = some (.ok (w', slept))) ∧
      w'.limiter.available.get? bucket =
        some (min (cfg.val.capacity : Rat) (available + cfg.val.refillPerSecond *
          (w'.now.seconds - last.seconds)) - tokens) := by
  obtain ⟨b, hbucket⟩ : ∃ b : Bucket Rat, b = ⟨available, last.seconds⟩ := ⟨_, rfl⟩
  have hb : w.limiter.bucketState bucket = some b := by
    rw [TokenBucketRateLimiter.bucketState_eq_some, hbucket]
    exact ⟨havailable, last, hlast, rfl⟩
  have hwithin : Within cfg.limit b := hbucket ▸ hbalance
  have hforward : b.last ≤ w.now.seconds := by
    rw [hbucket]
    exact div_le_div_of_nonneg_right (Int.cast_le.mpr hclock) (by norm_num)
  have hrefill : ∀ {now : Utc}, w.now.seconds ≤ now.seconds →
      (b.refill cfg.limit now.seconds).available = min (cfg.val.capacity : Rat)
        (available + cfg.val.refillPerSecond * (now.seconds - last.seconds)) := by
    intro now hle
    rw [refill_of_ge hwithin.2 (hforward.trans hle), hbucket]
    rfl
  have hchecked : w.limiter.checkAcquire bucket tokens = .ok cfg :=
    TokenBucketRateLimiter.checkAcquire_eq_ok_iff.mpr ⟨hcfg, htokens.1, htokens.2⟩
  cases hwait : TokenBucketRateLimiter.waitFor cfg b tokens w.now with
  | none =>
    -- The bucket holds the tokens at once.
    obtain ⟨limiter, hattempt, hleft⟩ := attempt_granted hcfg hb hwithin htokens.1
      ((TokenBucketRateLimiter.waitFor_eq_none_iff cfg b tokens w.now).mp hwait)
    refine ⟨⟨limiter, w.now⟩, 0, zero_le_one, ?_, ?_⟩
    · intro fuel hfuel
      obtain ⟨fuel, rfl⟩ := Nat.exists_eq_add_of_le' (Nat.le_of_lt hfuel)
      simp only [acquire, hchecked, acquireLoop, hattempt]
    · rw [← hrefill le_rfl]
      exact hleft
  | some seconds =>
    -- The call sleeps, and the bucket refills as if it had not been tried.
    obtain ⟨limiter, hattempt, hupdates⟩ := attempt_short hcfg hb hwithin htokens.1 hwait
    obtain ⟨hundisturbed, micros, hrounds, hlater⟩ :=
      hsleep 0 ⟨limiter, w.now⟩ seconds (waitFor_pos hwait).le
    obtain ⟨m, hm⟩ : ∃ m, m = sleep 0 ⟨limiter, w.now⟩ seconds := ⟨_, rfl⟩
    rw [← hm] at hundisturbed hlater
    have hcfg' : limiter.config.val.buckets.get? bucket = some cfg := by
      rw [hupdates.1]
      exact hcfg
    obtain ⟨hle, limiter', hattempt', hleft⟩ := attempt_after_sleep hcfg' hwithin hforward htokens
      hwait hupdates.bucketState_self hundisturbed hrounds hlater
    refine ⟨⟨limiter', m.now⟩, 1, le_rfl, ?_, ?_⟩
    · intro fuel hfuel
      obtain ⟨fuel, rfl⟩ := Nat.exists_eq_add_of_le' hfuel
      simp only [acquire, hchecked, acquireLoop, hattempt, ← hm, hattempt', zero_add]
    · rw [← hrefill hle]
      exact hleft

/-! ## The simulated clock -/

/-- Awaiting `SimClock.sleep`, during which nobody else runs. -/
def simClockSleep (_ : Nat) (w : LimiterWorld) (seconds : Decimal) : LimiterWorld :=
  match SimClock.sleep w.now seconds with
  | .error _ => w
  | .ok now => ⟨w.limiter, now⟩

theorem sleeps_simClock (bucket : String) : Sleeps bucket simClockSleep := by
  intro k w seconds hseconds
  obtain ⟨micros, hmicros⟩ : ∃ micros, micros = roundHalfEven (seconds * 1000000) := ⟨_, rfl⟩
  have hsleep : simClockSleep k w seconds = ⟨w.limiter, ⟨w.now.micros + micros⟩⟩ := by
    simp [simClockSleep, SimClock.sleep, require, hseconds, hmicros, bind, Except.bind, pure,
      Except.pure]
  have hrounds : RoundsTo (seconds * 1000000) micros := by
    rw [RoundsTo, abs_sub_comm, hmicros]
    exact abs_roundHalfEven_sub_le _
  have hforward : 0 ≤ micros := by
    rw [hmicros]
    apply le_roundHalfEven
    rw [Int.cast_zero]
    positivity
  rw [hsleep]
  refine ⟨.tick (.refl w) ?_, micros, hrounds, le_rfl⟩
  have hlater : w.now.micros ≤ w.now.micros + micros := by omega
  exact div_le_div_of_nonneg_right (Int.cast_le.mpr hlater) (by norm_num)

/-- One token is left of the five that are asked for. -/
def sampleWorld : LimiterWorld where
  limiter :=
    { config := sampleRateLimits
      available := .ofList [("messages", 1)]
      lastRefill := .ofList [("messages", ⟨0⟩)] }
  now := ⟨250000⟩

theorem acquire_uncontended_sample :
    ∃ w' slept, slept ≤ 1 ∧
      (∀ fuel, 2 ≤ fuel →
        acquire simClockSleep "messages" 5 fuel sampleWorld = some (.ok (w', slept))) ∧
      w'.limiter.available.get? "messages" =
        some (min (sampleBucket.val.capacity : Rat) (1 + sampleBucket.val.refillPerSecond *
          (w'.now.seconds - Utc.seconds ⟨0⟩)) - (5 : Int)) := by
  have hcfg : sampleWorld.limiter.config.val.buckets.get? "messages" = some sampleBucket := by
    decide +kernel
  have havailable : sampleWorld.limiter.available.get? "messages" = some 1 := by decide +kernel
  have hlast : sampleWorld.limiter.lastRefill.get? "messages" = some ⟨0⟩ := by decide +kernel
  exact acquire_uncontended hcfg havailable hlast (by decide +kernel) (by decide)
    (by decide +kernel) (sleeps_simClock "messages")

end Blive
