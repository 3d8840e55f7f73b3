import Blive.Adapters.Ib.RateLimiter
import Blive.Adapters.Shared.Proofs.PacedCalls

/-!
# The pacing rules of IB

IB ends a session that sends more than 50 messages in a second, and refuses more than 60
historical requests in ten minutes. The `global` bucket of the default table leaves room for
its capacity and its earnings under the first rule. The `historical` bucket does not under the
second: fifty requests at once and fifty more over the ten minutes are within its reach.
-/

namespace Blive

open Transition RateLimiterSystem

/-- The hard caps of IB on a run of the limiter. -/
def KeepsPacing (s : RateLimiterSystem) : Prop :=
  s.Capped "historical" 600 60 ∧ s.Capped "global" 1 50

/-- Every run of a limiter with the table keeps the hard caps, under a clock that does not
step back. -/
def PacingCompliance (config : RateLimitConfig) : Prop :=
  ∀ (start : Utc) (actions : List RateLimiterAction) (s : RateLimiterSystem),
    run step (.init config start) actions = some s → (s.times start).Pairwise (· ≤ ·) →
      KeepsPacing s

/-- Fifty historical requests at once and eleven more 133 seconds later. -/
def historicalBurst : List RateLimiterAction :=
  [.acquire "historical" 50 ⟨0⟩, .acquire "historical" 11 ⟨133000000⟩]

/-- The global bucket of the default table keeps its cap in every run. -/
theorem global_capped : AlwaysCapped ibDefaultRateLimits "global" 1 50 := by
  have hcfg : ibDefaultRateLimits.val.buckets.get? "global" = some ibGlobalBucket := by
    decide +kernel
  refine (alwaysCapped_iff hcfg (by decide) (by decide : (0 : Int) < 20000) ?_).mpr ?_
  · decide +kernel
  · decide +kernel

/-- A table with the two buckets keeps the hard caps in every run exactly when each bucket's
capacity and earnings over its window stay under the next token. -/
theorem pacingCompliance_iff {config : RateLimitConfig} {historical global : RateLimitBucket}
    (hhistorical : config.val.buckets.get? "historical" = some historical)
    (hglobal : config.val.buckets.get? "global" = some global) :
    PacingCompliance config ↔
      (historical.val.capacity : Rat) + historical.val.refillPerSecond * 600 < 61 ∧
        (global.val.capacity : Rat) + global.val.refillPerSecond * 1 < 51 := by
  have hten : ((600 : Rat) = (60 : Nat) * ((10000000 : Int) / 1000000)) := by decide +kernel
  have hone : ((1 : Rat) = (50 : Nat) * ((20000 : Int) / 1000000)) := by decide +kernel
  have hcaph := alwaysCapped_iff hhistorical (by decide) (by decide) hten
  have hcapg := alwaysCapped_iff hglobal (by decide) (by decide) hone
  have hsplit : PacingCompliance config ↔
      AlwaysCapped config "historical" 600 60 ∧ AlwaysCapped config "global" 1 50 := by
    constructor
    · intro h
      exact ⟨fun start actions s hrun hforward => (h start actions s hrun hforward).1,
        fun start actions s hrun hforward => (h start actions s hrun hforward).2⟩
    · rintro ⟨hh, hg⟩ start actions s hrun hforward
      exact ⟨hh start actions s hrun hforward, hg start actions s hrun hforward⟩
  rw [hsplit, hcaph, hcapg]
  norm_num

/-- Within any ten minutes the historical calls that wait at their start and those made in them
ask for no more than 60 requests, unless they start with fewer than 11 in the bucket. -/
def HistoricalPaced (start : Utc) (actions : List RateLimiterAction) : Prop :=
  PacedCalls ibDefaultRateLimits "historical" ibHistoricalBucket 600 60 11 start actions

/-- Fifty historical requests at once and ten more 133 seconds later are within the rule. -/
def historicalSixty : List RateLimiterAction :=
  [.acquire "historical" 50 ⟨0⟩, .acquire "historical" 10 ⟨133000000⟩]

end Blive
