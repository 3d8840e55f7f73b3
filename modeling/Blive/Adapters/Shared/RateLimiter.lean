import Blive.Domain.Types
import Blive.Misc.Rounding

/-!
# The rate limiter

`adapters/shared/rate_limiter.py`: named token buckets. A call of `acquire` checks its
arguments, then reads the clock, refills its bucket and either takes its tokens or sleeps and
tries again; between two readings other calls and `metrics` run. Tokens, rates and elapsed
times are exact.
-/

namespace Blive

structure RateLimitBucketFields where
  capacity : Int
  refillPerSecond : Decimal
  deriving DecidableEq

instance : PostInit RateLimitBucketFields where
  postInit b := do
    require (0 < b.capacity) (.valueError "RateLimitBucket.capacity must be > 0, got ")
    require (0 < b.refillPerSecond)
      (.valueError "RateLimitBucket.refill_per_second must be > 0, got ")

abbrev RateLimitBucket := Frozen RateLimitBucketFields

structure RateLimitConfigFields where
  buckets : Dict String RateLimitBucket

instance : PostInit RateLimitConfigFields where
  postInit c := do
    require (c.buckets.keys ≠ [])
      (.valueError "RateLimitConfig.buckets must declare at least one bucket")
    require (∀ name ∈ c.buckets.keys, name ≠ "")
      (.valueError "RateLimitConfig bucket names must be non-empty")

abbrev RateLimitConfig := Frozen RateLimitConfigFields

structure BucketMetrics where
  bucket : String
  available : Decimal
  capacity : Int
  refillPerSecond : Decimal
  lastRefillUtc : Utc

structure TokenBucketRateLimiter where
  config : RateLimitConfig
  available : Dict String Decimal
  lastRefill : Dict String Utc

/-- `UnknownBucket(bucket)` -/
def unknownBucket : PyError := .keyError "unknown rate-limit bucket: "

namespace TokenBucketRateLimiter

/-- `TokenBucketRateLimiter(config=config, clock=clock)`; `now` is what the clock reads. -/
def init (config : RateLimitConfig) (now : Utc) : TokenBucketRateLimiter where
  config
  available := config.val.buckets.mapValues fun bucket => (bucket.val.capacity : Decimal)
  lastRefill := config.val.buckets.mapValues fun _ => now

/-- `_refill` -/
def refill (limiter : TokenBucketRateLimiter) (bucket : String) (now : Utc) :
    Except PyError TokenBucketRateLimiter := do
  let bucketCfg ← orRaise (limiter.config.val.buckets.get? bucket) (.keyError "")
  let last ← orRaise (limiter.lastRefill.get? bucket) (.keyError "")
  let elapsed := now.toDatetime.secondsSince last.toDatetime
  if elapsed ≤ 0 then
    return limiter
  let available ← orRaise (limiter.available.get? bucket) (.keyError "")
  let added := bucketCfg.val.refillPerSecond * elapsed
  return { limiter with
    available := limiter.available.set bucket (min (bucketCfg.val.capacity : Decimal)
      (available + added))
    lastRefill := limiter.lastRefill.set bucket now }

/-- The checks `acquire` makes of its arguments, before it reads the clock. -/
def checkAcquire (limiter : TokenBucketRateLimiter) (bucket : String) (tokens : Int) :
    Except PyError RateLimitBucket := do
  let bucketCfg ← orRaise (limiter.config.val.buckets.get? bucket) unknownBucket
  require (0 < tokens) (.valueError "acquire(tokens) must be > 0, got ")
  require (tokens ≤ bucketCfg.val.capacity) (.valueError "acquire(bucket=")
  return bucketCfg

/-- One turn of the loop of `acquire`: `none` when the tokens were taken, else the seconds to
sleep before the next turn. -/
def attempt (limiter : TokenBucketRateLimiter) (bucket : String) (tokens : Int) (now : Utc) :
    Except PyError (TokenBucketRateLimiter × Option Decimal) := do
  let bucketCfg ← orRaise (limiter.config.val.buckets.get? bucket) (.keyError "")
  let limiter ← limiter.refill bucket now
  let available ← orRaise (limiter.available.get? bucket) (.keyError "")
  if (tokens : Decimal) ≤ available then
    return ({ limiter with
      available := limiter.available.set bucket (available - (tokens : Decimal)) }, none)
  let deficit := (tokens : Decimal) - available
  let waitSeconds := deficit / bucketCfg.val.refillPerSecond
  return (limiter, some (waitSeconds + 1 / 1000000))

/-- One bucket of the snapshot `metrics` takes. -/
def metricsOf (now : Utc) (name : String) (bucketCfg : RateLimitBucket)
    (limiter : TokenBucketRateLimiter) : Except PyError (TokenBucketRateLimiter × BucketMetrics) :=
  do
  let limiter ← limiter.refill name now
  let available ← orRaise (limiter.available.get? name) (.keyError "")
  let lastRefillUtc ← orRaise (limiter.lastRefill.get? name) (.keyError "")
  return (limiter, ⟨name, available, bucketCfg.val.capacity, bucketCfg.val.refillPerSecond,
    lastRefillUtc⟩)

/-- The loop of `metrics` over the buckets still to be read. -/
def metricsLoop (now : Utc) : List (String × RateLimitBucket) → TokenBucketRateLimiter →
    Except PyError (TokenBucketRateLimiter × List BucketMetrics)
  | [], limiter => .ok (limiter, [])
  | (name, bucketCfg) :: rest, limiter => do
      let (limiter, snapshot) ← limiter.metricsOf now name bucketCfg
      let (limiter, out) ← metricsLoop now rest limiter
      return (limiter, snapshot :: out)

/-- `metrics` -/
def metrics (limiter : TokenBucketRateLimiter) (now : Utc) :
    Except PyError (TokenBucketRateLimiter × List BucketMetrics) :=
  metricsLoop now limiter.config.val.buckets.items limiter

end TokenBucketRateLimiter

/-! ## A call of `acquire` -/

/-- What a call of `acquire` works on: the limiter, and what its clock reads. -/
structure LimiterWorld where
  limiter : TokenBucketRateLimiter
  now : Utc

/-- The loop of `acquire`, with its fuel and the sleeps so far; `sleep k` is what awaiting
`clock.sleep` for the `k`-th time does to the world. It answers the world in which the call
returns and how often it slept. -/
def acquireLoop (sleep : Nat → LimiterWorld → Decimal → LimiterWorld) (bucket : String)
    (tokens : Int) : Nat → Nat → LimiterWorld → Option (Except PyError (LimiterWorld × Nat))
  | 0, _, _ => none
  | fuel + 1, slept, w =>
      match w.limiter.attempt bucket tokens w.now with
      | .error e => some (.error e)
      | .ok (limiter, none) => some (.ok (⟨limiter, w.now⟩, slept))
      | .ok (limiter, some seconds) =>
          acquireLoop sleep bucket tokens fuel (slept + 1) (sleep slept ⟨limiter, w.now⟩ seconds)

/-- `acquire` -/
def acquire (sleep : Nat → LimiterWorld → Decimal → LimiterWorld) (bucket : String)
    (tokens : Int) (fuel : Nat) (w : LimiterWorld) :
    Option (Except PyError (LimiterWorld × Nat)) :=
  match w.limiter.checkAcquire bucket tokens with
  | .error e => some (.error e)
  | .ok _ => acquireLoop sleep bucket tokens fuel 0 w

/-- `SimClock.sleep`: `timedelta` rounds to whole microseconds. -/
def SimClock.sleep (now : Utc) (seconds : Decimal) : Except PyError Utc := do
  require (0 ≤ seconds) (.valueError "sleep seconds must be non-negative")
  return ⟨now.micros + roundHalfEven (seconds * 1000000)⟩

/-! ## The limiter and its callers -/

/-- A reading of the clock by the limiter: by a turn of `acquire` on a bucket, with the tokens
it took, or by `metrics`. -/
inductive ClockReading where
  | attempt (now : Utc) (bucket : String) (tokens : Int)
  | metrics (now : Utc)

/-- A limiter and the calls that use it. -/
structure RateLimiterSystem where
  limiter : TokenBucketRateLimiter
  /-- The calls of `acquire` that wait in `clock.sleep`, with what they ask for. -/
  sleeping : List (String × Int)
  /-- Every reading of the clock so far, oldest first. -/
  readings : List ClockReading

/-- What can happen next. A sleep may end at any reading of the clock. -/
inductive RateLimiterAction where
  | acquire (bucket : String) (tokens : Int) (now : Utc)
  | wake (i : Nat) (now : Utc)
  | cancel (i : Nat)
  | metrics (now : Utc)

namespace RateLimiterSystem

def init (config : RateLimitConfig) (now : Utc) : RateLimiterSystem :=
  ⟨.init config now, [], []⟩

/-- The system after a turn of the loop of `acquire`. A call that took its tokens returns, and
one that raised is gone. -/
def turn (s : RateLimiterSystem) (bucket : String) (tokens : Int) (now : Utc) :
    RateLimiterSystem :=
  match s.limiter.attempt bucket tokens now with
  | .error _ => { s with readings := s.readings ++ [.attempt now bucket 0] }
  | .ok (limiter, none) =>
      { s with limiter, readings := s.readings ++ [.attempt now bucket tokens] }
  | .ok (limiter, some _) =>
      { limiter
        sleeping := s.sleeping ++ [(bucket, tokens)]
        readings := s.readings ++ [.attempt now bucket 0] }

def step (s : RateLimiterSystem) : RateLimiterAction → Option RateLimiterSystem
  | .acquire bucket tokens now =>
      match s.limiter.checkAcquire bucket tokens with
      | .error _ => some s
      | .ok _ => some (s.turn bucket tokens now)
  | .wake i now =>
      match s.sleeping[i]? with
      | none => none
      | some (bucket, tokens) =>
          some ({ s with sleeping := s.sleeping.eraseIdx i }.turn bucket tokens now)
  | .cancel i =>
      if i < s.sleeping.length then some { s with sleeping := s.sleeping.eraseIdx i } else none
  | .metrics now =>
      match s.limiter.metrics now with
      | .error _ => some { s with readings := s.readings ++ [.metrics now] }
      | .ok (limiter, _) => some { s with limiter, readings := s.readings ++ [.metrics now] }

end RateLimiterSystem

end Blive
