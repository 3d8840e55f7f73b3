import Mathlib.Algebra.Group.Subgroup.Finite
import Mathlib.Algebra.Group.Subgroup.Ker
import Mathlib.Tactic.NormNum
import Blive.Adapters.Shared.Proofs.RateLimiter

/-!
# Caps on a window of a limiter's grants

A bucket may grant its whole capacity at once and what it earns right after, all inside one
window. A cap on every window of a length is therefore kept by all runs exactly when it leaves
room for both.
-/

namespace Blive

open Transition

namespace RateLimiterSystem

variable {config : RateLimitConfig} {start : Utc} {s t : RateLimiterSystem}
  {name : String} {cfg : RateLimitBucket}

/-! ## Calls at an even pace -/

/-- `n` calls for one token each, `d` microseconds apart. -/
def pacedActions (name : String) (d : Int) : Utc → Nat → List RateLimiterAction
  | _, 0 => []
  | now, n + 1 => .acquire name 1 ⟨now.micros + d⟩ :: pacedActions name d ⟨now.micros + d⟩ n

theorem seconds_add (now : Utc) (d : Int) :
    Utc.seconds ⟨now.micros + d⟩ = now.seconds + (d : Rat) / 1000000 := by
  unfold Utc.seconds
  push_cast
  ring

/-- The clock has not stepped back and has not passed `now`. -/
def UpTo (start now : Utc) (s : RateLimiterSystem) : Prop :=
  (s.times start).Pairwise (· ≤ ·) ∧ ∀ x ∈ s.times start, x ≤ now.seconds

theorem UpTo.reading {now later : Utc} (h : s.UpTo start now) {r : ClockReading}
    (hreadings : t.readings = s.readings ++ [r]) (hr : r.now = later)
    (hle : now.seconds ≤ later.seconds) : t.UpTo start later := by
  subst hr
  have htimes : t.times start = s.times start ++ [r.now.seconds] := by
    simp [times, hreadings]
  unfold UpTo
  rw [htimes]
  have hbound : ∀ x ∈ s.times start, x ≤ r.now.seconds := fun x hx => (h.2 x hx).trans hle
  refine ⟨List.pairwise_append.mpr ⟨h.1, List.pairwise_singleton _ _, ?_⟩, ?_⟩
  · intro x hx y hy
    rw [List.mem_singleton.mp hy]
    exact hbound x hx
  · intro x hx
    rcases List.mem_append.mp hx with hx | hx
    · exact hbound x hx
    · exact (List.mem_singleton.mp hx).le

/-- A call that passes its checks makes an offer to its bucket. -/
theorem acquire_spec (h : s.Follows config start) {name : String} {tokens : Int}
    {cfg : RateLimitBucket} {b : TokenBucket.Bucket Rat}
    (hchecked : s.limiter.checkAcquire name tokens = .ok cfg)
    (hb : run (TokenBucket.read cfg.limit) (cfg.full start) (s.history name) = some b)
    (now : Utc) :
    ∃ t granted, s.step (.acquire name tokens now) = some t ∧
      t.readings = s.readings ++ [.attempt now name granted] ∧ t.Follows config start ∧
      t.history name = s.history name ++ [TokenBucket.offer cfg.limit b now.seconds tokens] ∧
      run (TokenBucket.read cfg.limit) (cfg.full start) (t.history name) =
        some (b.serve cfg.limit now.seconds tokens) := by
  obtain ⟨hturn, c, hc, hreadings⟩ := turn_spec h hchecked now
  obtain ⟨hcfg, htokens, _⟩ := TokenBucketRateLimiter.checkAcquire_eq_ok_iff.mp hchecked
  obtain ⟨c', hrun, hc'⟩ := h.bucket name cfg (h.config_eq ▸ hcfg)
  -- The history determines the bucket.
  cases hb.symm.trans hrun
  cases hc.symm.trans hc'
  have hhistory : (s.turn name tokens now).history name =
      s.history name ++ [TokenBucket.offer cfg.limit b now.seconds tokens] := by
    rw [history, hreadings, List.filterMap_append]
    simp only [List.filterMap_cons, List.filterMap_nil, ClockReading.at?, if_true,
      TokenBucket.offer, history]
    split <;> simp
  refine ⟨s.turn name tokens now, _, by simp only [step, hchecked], hreadings, hturn, hhistory, ?_⟩
  have hread : TokenBucket.read cfg.limit b (TokenBucket.offer cfg.limit b now.seconds tokens) =
      some (b.serve cfg.limit now.seconds tokens) :=
    TokenBucket.read_offer cfg.rate_pos.le (within_of_run hb) (Int.cast_nonneg htokens.le)
  rw [hhistory, run_append, hb]
  simp only [Option.bind_some, run_cons_eq_some, run_nil]
  exact ⟨_, hread, rfl⟩

/-- Calls at an even pace are served as the token bucket serves them. -/
theorem run_pacedActions (h : s.Follows config start) {name : String} {cfg : RateLimitBucket}
    (hcfg : config.val.buckets.get? name = some cfg) {b : TokenBucket.Bucket Rat} {now : Utc}
    (hb : run (TokenBucket.read cfg.limit) (cfg.full start) (s.history name) = some b)
    (hlast : b.last = now.seconds) (hupto : s.UpTo start now) {d : Int} (hd : 0 < d) (n : Nat) :
    ∃ t, run step s (pacedActions name d now n) = some t ∧
      t.UpTo start ⟨now.micros + n * d⟩ ∧
      t.history name = s.history name ++ TokenBucket.paced cfg.limit (d / 1000000) b n := by
  induction n generalizing s b now with
  | zero =>
    refine ⟨s, rfl, ?_, ?_⟩
    · simpa using hupto
    · rw [TokenBucket.paced, List.append_nil]
  | succ n ih =>
    have hchecked : s.limiter.checkAcquire name 1 = .ok cfg :=
      TokenBucketRateLimiter.checkAcquire_eq_ok_iff.mpr
        ⟨h.config_eq ▸ hcfg, one_pos, ((RateLimitBucket.valid_iff cfg.val).mp cfg.valid).1⟩
    obtain ⟨m, granted, hstep, hreadings, hfollows, hhistory, hserved⟩ :=
      acquire_spec h hchecked hb ⟨now.micros + d⟩
    have hsecond : (0 : Rat) < d / 1000000 := div_pos (Int.cast_pos.mpr hd) (by norm_num)
    have hnext : Utc.seconds ⟨now.micros + d⟩ = b.last + (d : Rat) / 1000000 := by
      rw [seconds_add, hlast]
    have hmupto : m.UpTo start ⟨now.micros + d⟩ := by
      refine hupto.reading hreadings rfl ?_
      rw [seconds_add]
      exact le_add_of_nonneg_right hsecond.le
    rw [hnext, Int.cast_one] at hserved hhistory
    obtain ⟨t, hrun, hupto', htotal⟩ := ih hfollows hserved
      ((TokenBucket.serve_last hsecond.le 1).trans hnext.symm) hmupto
    refine ⟨t, run_cons_eq_some.mpr ⟨m, hstep, hrun⟩, ?_, ?_⟩
    · have hend : now.micros + d + n * d = now.micros + (n + 1 : Nat) * d := by
        push_cast
        ring
      rw [← hend]
      exact hupto'
    · rw [htotal, hhistory, List.append_assoc]
      rfl

/-! ## The cap over all runs of a table -/

/-- No window of the given length, in seconds, saw more than `cap` tokens of the bucket. -/
def Capped (s : RateLimiterSystem) (name : String) (window : Rat) (cap : Nat) : Prop :=
  ∀ since, s.grantedIn name since (since + window) ≤ cap

/-- Every run of a limiter with the table keeps the cap, under a clock that does not step
back. -/
def AlwaysCapped (config : RateLimitConfig) (name : String) (window : Rat) (cap : Nat) : Prop :=
  ∀ (start : Utc) (actions : List RateLimiterAction) (s : RateLimiterSystem),
    run step (init config start) actions = some s → (s.times start).Pairwise (· ≤ ·) →
      s.Capped name window cap

/-- Whole tokens are granted: under the next token means within the cap. -/
theorem total_le_of_lt (name : String) {rs : List (TokenBucket.Reading Rat)}
    (hrs : ∀ r ∈ rs, ∃ reading : ClockReading, reading.at? name = some r) {cap : Nat}
    (h : TokenBucket.total rs < cap + 1) : TokenBucket.total rs ≤ cap := by
  have hrange : TokenBucket.total rs ∈ (Int.castAddHom Rat).range := by
    apply AddSubgroup.list_sum_mem
    intro x hx
    obtain ⟨r, hr, rfl⟩ := List.mem_map.mp hx
    obtain ⟨reading, hat⟩ := hrs r hr
    cases reading with
    | attempt now bucket tokens =>
      simp only [ClockReading.at?] at hat
      split at hat
      · cases hat
        exact ⟨tokens, rfl⟩
      · cases hat
    | metrics now =>
      cases hat
      exact ⟨0, by simp⟩
  obtain ⟨n, hn⟩ := hrange
  have hn' : TokenBucket.total rs = n := hn.symm
  rw [hn'] at h ⊢
  have hlt : n < (cap : Int) + 1 := by exact_mod_cast h
  exact_mod_cast Int.lt_add_one_iff.mp hlt

/-- A bucket whose capacity and earnings over the window stay under the next token keeps the
cap. -/
theorem Follows.capped (h : s.Follows config start) {name : String} {cfg : RateLimitBucket}
    (hcfg : config.val.buckets.get? name = some cfg)
    (hforward : (s.times start).Pairwise (· ≤ ·)) {window : Rat} {cap : Nat}
    (hwindow : 0 ≤ window)
    (hroom : (cfg.val.capacity : Rat) + cfg.val.refillPerSecond * window < cap + 1) :
    s.Capped name window cap := by
  intro since
  obtain ⟨b, hbucket, _⟩ := h.bucket name cfg hcfg
  have hbound : s.grantedIn name since (since + window) ≤
      (cfg.val.capacity : Rat) + cfg.val.refillPerSecond * (since + window - since) :=
    TokenBucket.grantedIn_le cfg.rate_pos.le (cfg.full_within start) (forward_history hforward)
      (le_add_of_nonneg_right hwindow) hbucket
  rw [add_sub_cancel_left] at hbound
  refine total_le_of_lt name ?_ (hbound.trans_lt hroom)
  intro r hr
  obtain ⟨reading, _, hat⟩ := List.mem_filterMap.mp (List.mem_of_mem_filter hr)
  exact ⟨reading, hat⟩

/-- A call for all that a new bucket holds empties it. -/
theorem burst_spec (hcfg : config.val.buckets.get? name = some cfg) (start : Utc) :
    ∃ s, (init config start).step (.acquire name cfg.val.capacity start) = some s ∧
      s.Follows config start ∧ s.UpTo start start ∧
      s.history name = [⟨start.seconds, (cfg.val.capacity : Rat)⟩] ∧
      run (TokenBucket.read cfg.limit) (cfg.full start) (s.history name) =
        some ⟨0, start.seconds⟩ := by
  have hcapacity := ((RateLimitBucket.valid_iff cfg.val).mp cfg.valid).1
  have hchecked : (init config start).limiter.checkAcquire name cfg.val.capacity = .ok cfg :=
    TokenBucketRateLimiter.checkAcquire_eq_ok_iff.mpr ⟨hcfg, hcapacity, le_rfl⟩
  obtain ⟨s, granted, hstep, hreadings, hfollows, hhistory, hserved⟩ :=
    acquire_spec follows_init hchecked (b := cfg.full start) rfl start
  have hrefill : (cfg.full start).refill cfg.limit start.seconds = cfg.full start :=
    TokenBucket.refill_of_le le_rfl
  have hoffer : TokenBucket.offer cfg.limit (cfg.full start) start.seconds cfg.val.capacity =
      ⟨start.seconds, (cfg.val.capacity : Rat)⟩ := by
    rw [TokenBucket.offer, hrefill]
    exact congrArg (TokenBucket.Reading.mk start.seconds) (if_pos le_rfl)
  have hserve : (cfg.full start).serve cfg.limit start.seconds cfg.val.capacity =
      ⟨0, start.seconds⟩ := by
    rw [TokenBucket.Bucket.serve, hoffer, hrefill]
    exact congrArg (TokenBucket.Bucket.mk · start.seconds) (sub_self _)
  have hempty : (init config start).UpTo start start := by
    simp [UpTo, times, init]
  refine ⟨s, hstep, hfollows, hempty.reading hreadings rfl le_rfl, ?_, ?_⟩
  · rw [hhistory, hoffer]
    rfl
  · rw [hserved, hserve]

/-- The worst alignment: the whole capacity at once, then a token whenever one is earned. What
it gives in `n` intervals is more than the capacity and the earnings less one token, or else
a token in every interval. -/
theorem burst_then_paced (hcfg : config.val.buckets.get? name = some cfg) (start : Utc) {d : Int}
    (hd : 0 < d) (n : Nat) :
    ∃ actions s, run step (init config start) actions = some s ∧
      (s.times start).Pairwise (· ≤ ·) ∧
      s.grantedIn name start.seconds (start.seconds + n * (d / 1000000)) =
        (cfg.val.capacity : Rat) + TokenBucket.total
          (TokenBucket.paced cfg.limit (d / 1000000) ⟨0, start.seconds⟩ n) := by
  obtain ⟨m, hstep, hfollows, hupto, hhistory, hserved⟩ := burst_spec hcfg start
  obtain ⟨s, hrun, hsupto, hall⟩ := run_pacedActions hfollows hcfg hserved rfl hupto hd n
  refine ⟨_ :: pacedActions name d start n, s, run_cons_eq_some.mpr ⟨m, hstep, hrun⟩,
    hsupto.1, ?_⟩
  have hend : Utc.seconds ⟨start.micros + n * d⟩ = start.seconds + n * (d / 1000000) := by
    rw [seconds_add]
    push_cast
    ring
  have hinside : ∀ r ∈ s.history name,
      start.seconds ≤ r.time ∧ r.time ≤ start.seconds + n * (d / 1000000) := by
    intro r hr
    have hseen := (history_times s name).subset (List.mem_map.mpr ⟨r, hr, rfl⟩)
    have hfirst := (List.pairwise_cons.mp hsupto.1).1 _ hseen
    have hlatest := hsupto.2 _ (List.mem_cons_of_mem _ hseen)
    exact ⟨hfirst, hend ▸ hlatest⟩
  rw [grantedIn, TokenBucket.grantedIn_eq_total hinside, hall, hhistory, List.singleton_append,
    TokenBucket.total_cons]

/-- A table keeps a cap of `cap` tokens on every window of `cap` intervals, in every run,
exactly when the capacity of the bucket and what it earns over the window stay under the next
token. -/
theorem alwaysCapped_iff (hcfg : config.val.buckets.get? name = some cfg) {cap : Nat}
    (hcap : 0 < cap) {d : Int} (hd : 0 < d) {window : Rat}
    (hwindow : window = cap * (d / 1000000)) :
    AlwaysCapped config name window cap ↔
      (cfg.val.capacity : Rat) + cfg.val.refillPerSecond * window < cap + 1 := by
  have hinterval : (0 : Rat) < d / 1000000 := div_pos (Int.cast_pos.mpr hd) (by norm_num)
  have hlength : 0 ≤ window := hwindow ▸ mul_nonneg (Nat.cast_nonneg cap) hinterval.le
  constructor
  · intro halways
    by_contra hroom
    obtain ⟨actions, s, hrun, hforward, hgranted⟩ := burst_then_paced hcfg ⟨0⟩ hd cap
    have hcapped := halways ⟨0⟩ actions s hrun hforward (Utc.seconds ⟨0⟩)
    rw [hwindow, hgranted] at hcapped
    have hcapacity : (1 : Rat) ≤ cfg.val.capacity := by
      exact_mod_cast ((RateLimitBucket.valid_iff cfg.val).mp cfg.valid).1
    by_cases hfast : 1 ≤ cfg.limit.rate * (d / 1000000)
    · have htotal := TokenBucket.paced_total_of_fast (b := ⟨0, Utc.seconds ⟨0⟩⟩) hinterval
        hcapacity hfast le_rfl cap
      rw [htotal] at hcapped
      linarith
    · -- The earnings stay under one token an interval, so the capacity is at least two.
      have hslow := not_le.mp hfast
      have hearned : cfg.val.refillPerSecond * window = cfg.limit.rate * (d / 1000000) * cap := by
        rw [hwindow]
        show _ = cfg.val.refillPerSecond * _ * _
        ring
      have hunder : cfg.limit.rate * (d / 1000000) * cap < 1 * cap :=
        mul_lt_mul_of_pos_right hslow (Nat.cast_pos.mpr hcap)
      have hmore : (1 : Rat) < cfg.val.capacity := by linarith
      have htwo : (2 : Rat) ≤ cfg.val.capacity := by
        have hwhole : 1 < cfg.val.capacity := by exact_mod_cast hmore
        exact_mod_cast hwhole
      have htotal := TokenBucket.paced_total_of_slow (b := ⟨0, Utc.seconds ⟨0⟩⟩) hinterval htwo
        cfg.rate_pos.le hslow le_rfl one_pos cap
      rw [zero_add] at htotal
      linarith
  · intro hroom start actions s hrun hforward
    exact (run_follows hrun).capped hcfg hforward hlength hroom

end RateLimiterSystem

end Blive
