import Blive.Adapters.Shared.LimitedTasks
import Blive.Adapters.Shared.Proofs.RateLimiter

/-!
# What tasks behind the limiter send

Each request that needs a token is made at a turn of the limiter that takes one. What is sent in a
window of time is therefore bounded by what the bucket grants in it, whoever else draws on the
bucket.
-/

namespace Blive

open Transition

namespace RateLimiterSystem

/-- What was granted in a window stays granted. -/
theorem grantedIn_mono {config : RateLimitConfig} {start : Utc} {s t : RateLimiterSystem}
    {action : RateLimiterAction} {name : String} {cfg : RateLimitBucket}
    (hs : s.Follows config start) (hcfg : config.val.buckets.get? name = some cfg)
    (h : s.step action = some t) (since till : Rat) :
    s.grantedIn name since till ≤ t.grantedIn name since till := by
  obtain ⟨more, hmore⟩ := step_readings h
  obtain ⟨b, hrun, -⟩ := (step_follows hs h).bucket name cfg hcfg
  have hnonneg := TokenBucket.granted_nonneg hrun
  simp only [grantedIn, history, hmore, List.filterMap_append] at hnonneg ⊢
  rw [TokenBucket.grantedIn_append]
  refine le_add_of_nonneg_right (TokenBucket.grantedIn_nonneg ?_ since till)
  intro r hr
  exact hnonneg r (List.mem_append_right _ hr)

end RateLimiterSystem

namespace LimitedTasks

variable {σ ρ τ κ ε : Type} {α : ρ → Type} {β : κ → Type} [DecidableEq τ] [DecidableEq ρ]
  {bucket : String} {needs : ρ → Bool} {grants : (Σ request, α request) → Bool}
  {body : (method : κ) → Coroutine σ α ε (β method)}
  {config : RateLimitConfig} {start : Utc} {s t : LimitedTasks τ σ α ε β}

/-- How many of the requests that need a token were made between the two times, in seconds. -/
def sentIn (s : LimitedTasks τ σ α ε β) (since till : Rat) : Nat :=
  s.sent.countP fun request => since ≤ request.1.seconds ∧ request.1.seconds ≤ till

/-- Every request that was made has taken a token. -/
structure Bounded (bucket : String) (needs : ρ → Bool) (grants : (Σ request, α request) → Bool)
    (config : RateLimitConfig) (start : Utc) (s : LimitedTasks τ σ α ε β) : Prop where
  paying : s.tasks.Paying needs grants
  follows : s.limiter.Follows config start
  sent : ∀ since till, (s.sentIn since till : Rat) ≤ s.limiter.grantedIn bucket since till

omit [DecidableEq τ] [DecidableEq ρ] in
theorem tokenTaken?_eq_some {readings : List ClockReading} {now : Utc}
    (h : tokenTaken? bucket readings = some now) : readings = [.attempt now bucket 1] := by
  unfold tokenTaken? at h
  split at h
  · split at h
    · rename_i hone
      cases h
      rw [hone.1, hone.2]
    · cases h
  · cases h

omit [DecidableEq τ] [DecidableEq ρ] in
/-- The window sees a token that a turn takes at the time of the turn. -/
theorem grantedIn_of_tokenTaken {limiter limiter' : RateLimiterSystem} {turn : RateLimiterAction}
    {now : Utc} (h : limiter.step turn = some limiter')
    (hnow : tokenTaken? bucket (limiter'.readings.drop limiter.readings.length) = some now)
    (since till : Rat) :
    limiter'.grantedIn bucket since till = limiter.grantedIn bucket since till +
      if since ≤ now.seconds ∧ now.seconds ≤ till then (1 : Rat) else 0 := by
  obtain ⟨more, hmore⟩ := RateLimiterSystem.step_readings h
  have htaken : more.toList = [.attempt now bucket 1] := by
    rw [hmore, List.drop_left] at hnow
    exact tokenTaken?_eq_some hnow
  have hone : TokenBucket.grantedIn since till [⟨now.seconds, 1⟩] =
      if since ≤ now.seconds ∧ now.seconds ≤ till then (1 : Rat) else 0 := by
    by_cases hin : since ≤ now.seconds ∧ now.seconds ≤ till <;>
      simp [TokenBucket.grantedIn, TokenBucket.total, hin]
  simp only [RateLimiterSystem.grantedIn, RateLimiterSystem.history, hmore, htaken,
    List.filterMap_append, TokenBucket.grantedIn_append, ← hone]
  simp [ClockReading.at?]

/-- A step of the tasks sends one request if it brings a token, and none if not. -/
theorem tell_spec (hs : s.tasks.Paying needs grants)
    (hbody : ∀ method, (body method).Paced needs grants Tasks.Spent false) {now : Utc}
    {action : TaskAction τ κ α} (h : s.tell needs body now action = some t) :
    t.limiter = s.limiter ∧ t.tasks.Paying needs grants ∧
      ∀ since till, t.sentIn since till = s.sentIn since till +
        if Tasks.isGrant grants action ∧ since ≤ now.seconds ∧ now.seconds ≤ till then 1
          else 0 := by
  obtain ⟨tasks, hstep, rfl⟩ := Option.map_eq_some_iff.mp h
  refine ⟨rfl, hs.step hbody hstep, ?_⟩
  intro since till
  have hasked := congrArg List.length (hs.asked hbody hstep)
  simp only [List.length_map] at hasked
  generalize (s.tasks.asked body action).toList.filter (fun asked => needs asked.2) = asked
    at hasked
  simp only [sentIn, List.countP_append, List.countP_map, Function.comp_def]
  by_cases hin : since ≤ now.seconds ∧ now.seconds ≤ till
  · cases hgrant : Tasks.isGrant grants action <;> simp [hin, hasked, hgrant]
  · simp [hin]

theorem Bounded.step (hs : s.Bounded bucket needs grants config start)
    (hbody : ∀ method, (body method).Paced needs grants Tasks.Spent false)
    {cfg : RateLimitBucket} (hcfg : config.val.buckets.get? bucket = some cfg)
    {action : LimitedAction τ κ α} (h : s.step bucket needs grants body action = some t) :
    t.Bounded bucket needs grants config start := by
  cases action with
  | limiter action =>
    obtain ⟨limiter, hstep, rfl⟩ := Option.map_eq_some_iff.mp h
    refine ⟨hs.paying, RateLimiterSystem.step_follows hs.follows hstep, ?_⟩
    intro since till
    exact (hs.sent since till).trans
      (RateLimiterSystem.grantedIn_mono hs.follows hcfg hstep since till)
  | task now action =>
    simp only [LimitedTasks.step] at h
    split at h
    · cases h
    · rename_i hgrant
      obtain ⟨hlimiter, hpaying, hsent⟩ := tell_spec hs.paying hbody h
      refine ⟨hpaying, hlimiter ▸ hs.follows, ?_⟩
      intro since till
      rw [hsent, hlimiter, if_neg fun hin => hgrant hin.1]
      exact hs.sent since till
  | granted turn task told =>
    obtain ⟨limiter, hturn, h⟩ := Option.bind_eq_some_iff.mp h
    split at h
    · cases h
    · rename_i now hnow
      split at h
      · obtain ⟨hlimiter, hpaying, hsent⟩ :=
          tell_spec (s := { s with limiter }) hs.paying hbody h
        refine ⟨hpaying, hlimiter ▸ RateLimiterSystem.step_follows hs.follows hturn, ?_⟩
        intro since till
        have hgranted := grantedIn_of_tokenTaken hturn hnow since till
        rw [hsent, hlimiter, hgranted]
        push_cast
        refine add_le_add (hs.sent since till) ?_
        by_cases hin : since ≤ now.seconds ∧ now.seconds ≤ till <;>
          simp [hin, Tasks.isGrant, ‹grants told = true›]
      · cases h

/-- The tasks send no more in a window of time than the bucket holds and what it earns in the
window. -/
theorem sentIn_le (hbody : ∀ method, (body method).Paced needs grants Tasks.Spent false)
    {cfg : RateLimitBucket} (hcfg : config.val.buckets.get? bucket = some cfg) {shared : σ}
    {actions : List (LimitedAction τ κ α)}
    (hrun : run (step bucket needs grants body) (init config start shared) actions = some s)
    (hforward : (s.limiter.times start).Pairwise (· ≤ ·)) {since till : Rat}
    (hwindow : since ≤ till) :
    (s.sentIn since till : Rat) ≤ cfg.val.capacity + cfg.val.refillPerSecond * (till - since) := by
  have hstart : (init config start shared : LimitedTasks τ σ α ε β).Bounded
      bucket needs grants config start := by
    refine ⟨?_, RateLimiterSystem.follows_init, ?_⟩
    · intro task pending hpending
      simp [init] at hpending
    · intro since till
      exact le_of_eq rfl
  have hs : s.Bounded bucket needs grants config start := by
    refine run_invariant ?_ hstart hrun
    intro s action t hs h
    exact hs.step hbody hcfg h
  obtain ⟨b, hbucket, -⟩ := hs.follows.bucket bucket cfg hcfg
  refine (hs.sent since till).trans ?_
  exact TokenBucket.grantedIn_le cfg.rate_pos.le (cfg.full_within start)
    (RateLimiterSystem.forward_history hforward) hwindow hbucket

end LimitedTasks

end Blive
