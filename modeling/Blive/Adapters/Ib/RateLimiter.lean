import Blive.Adapters.Shared.RateLimiter

/-!
# The rate limits of IB

`adapters/ib/rate_limiter.py`: the bucket table the IB adapter ships with.
-/

namespace Blive

/-- `_HISTORICAL_REFILL_PER_SECOND` -/
def historicalRefillPerSecond : Decimal := 50 / 600

/-- The `global` entry of the table. -/
def ibGlobalBucket : RateLimitBucket := ⟨⟨20, 20⟩, by decide +kernel⟩

/-- The `historical` entry of the table. -/
def ibHistoricalBucket : RateLimitBucket :=
  ⟨⟨50, historicalRefillPerSecond⟩, by decide +kernel⟩

/-- `IB_DEFAULT_RATE_LIMITS` -/
def ibDefaultRateLimits : RateLimitConfig :=
  ⟨⟨.ofList [("global", ibGlobalBucket), ("historical", ibHistoricalBucket)]⟩,
    by decide +kernel⟩

end Blive
