import Blive.Adapters.Ib.Proofs.CachedServices
import Blive.Adapters.Ib.RateLimiter
import Blive.Adapters.Shared.Proofs.LimitedTasks

/-!
# One token for each call on the wire

The rate limiter holds back the calls of the venue only if each of them is made by a task that has
a token for it. The cached services take one token from the `global` bucket for each call on the
wire and let none go to waste, whatever comes from the caches and whatever fails. Behind the limiter
the calls are therefore bounded by what the bucket grants, which is stated of the price rules.
-/

namespace Blive

open Transition Tasks Coroutine

variable {τ : Type}

/-- The request goes to the venue. -/
def IbRequest.onWire : IbRequest → Bool
  | .acquire _ => false
  | .qualifyContracts _ => true
  | .contractDetails _ => true
  | .marketRule _ => true

/-- The limiter lets the task have a token of the bucket that all requests draw on. -/
def tokenGranted : (Σ request : IbRequest, request.Answer) → Bool
  | ⟨.acquire bucket, .ok _⟩ => bucket = "global"
  | _ => false

namespace IBInstrumentResolver

theorem resolve_paced (instrument : Instrument) :
    (resolve instrument).Paced IbRequest.onWire tokenGranted Spent false := by
  simp only [resolve, paced_bind, paced_get]
  intro cache
  cases cache.get? instrument with
  | some conId => rfl
  | none =>
    simp only [pyResult, paced_bind, paced_ofExcept, paced_await]
    cases toContract instrument with
    | error e => rfl
    | ok contract =>
      refine ⟨rfl, ?_⟩
      intro token
      cases token with
      | error e => rfl
      | ok _ =>
        refine ⟨rfl, ?_⟩
        intro response
        cases response with
        | error e => rfl
        | ok result =>
          cases hconId : conIdOf instrument result with
          | error e =>
            simp only [Except.mapError, hconId]
            rfl
          | ok conId =>
            simp only [Except.mapError, hconId, paced_modify, paced_pure]
            exact fun _ => rfl

theorem body_paced (method : Method) :
    (body method).Paced IbRequest.onWire tokenGranted Spent false := by
  cases method with
  | resolve instrument => exact resolve_paced instrument
  | clearCache cleared => exact fun _ => rfl

/-- In any run of calls in any number of tasks, the calls of `qualifyContractsAsync` are made one by
one by the tasks that are granted tokens, in the order of the tokens. -/
theorem conId_requests_paid [DecidableEq τ] {past : Past τ}
    {s : Tasks τ Cache IbRequest.Answer Error Method.Result}
    (hrun : run (step body) ⟨.empty, .empty⟩ past = some s) :
    payers IbRequest.onWire body ⟨.empty, .empty⟩ past =
      (past.filter (isGrant tokenGranted)).map TaskAction.task :=
  payers_eq body_paced hrun

/-- The second of two tasks is granted its token first. -/
theorem conId_requests_paid_cleared :
    payers IbRequest.onWire body ⟨.empty, .empty⟩ sampleActions = [2, 1] :=
  @conId_requests_paid Nat _ sampleActions _ rfl

end IBInstrumentResolver

namespace IBPriceRuleService

/-- What `_fetch_details` and `_fetch_market_rule` do: a token, and the call it is for. -/
theorem paced_of_token {ν : Type} {request : IbRequest} (hwire : request.onWire = true)
    {f : request.Answer → Async ν} (hf : ∀ answer, (f answer).Paced IbRequest.onWire tokenGranted
      Spent (tokenGranted ⟨request, answer⟩)) :
    (do ofExcept (← await (.acquire "global")); f (← await request) : Async ν).Paced
      IbRequest.onWire tokenGranted Spent false := by
  simp only [paced_bind, paced_ofExcept, paced_await]
  refine ⟨rfl, ?_⟩
  intro token
  cases token with
  | error e => rfl
  | ok _ => exact ⟨hwire, hf⟩

theorem fetchDetails_paced (contract : Contract) :
    (fetchDetails contract).Paced IbRequest.onWire tokenGranted Spent false := by
  refine paced_of_token rfl ?_
  intro candidates
  simp only [paced_bind, paced_ofExcept]
  cases candidates <;> rfl

theorem fetchMarketRule_paced (ruleId : Int) :
    (fetchMarketRule ruleId).Paced IbRequest.onWire tokenGranted Spent false := by
  refine paced_of_token rfl ?_
  intro rule
  rw [paced_ofExcept]
  rfl

/-- The handler comes into a call that has spent its token. -/
theorem incrementsFromDetails_paced (details : ContractDetails) :
    (incrementsFromDetails details).Paced IbRequest.onWire tokenGranted Spent false := by
  have hend : ∀ banded : List Wire.PriceIncrement,
      (if banded ≠ [] then pure banded else
        ofExcept (minTickBand details) : Async (List Wire.PriceIncrement)).Paced
          IbRequest.onWire tokenGranted Spent false := by
    intro banded
    split
    · rfl
    · rw [paced_ofExcept]
      rfl
  rw [incrementsFromDetails]
  cases governingRuleId details with
  | none =>
    rw [paced_bind, paced_pure]
    exact hend []
  | some ruleId =>
    rw [paced_bind, paced_attempt]
    refine (fetchMarketRule_paced ruleId).mono ?_
    rintro held (e | banded) (rfl : held = false)
    · exact hend []
    · exact hend banded

theorem incrementsFor_paced (instrument : Instrument) :
    (incrementsFor instrument).Paced IbRequest.onWire tokenGranted Spent false := by
  simp only [incrementsFor, paced_bind, paced_get]
  intro cache
  cases cache.get? instrument with
  | some table => rfl
  | none =>
    rw [paced_bind, paced_ofExcept]
    cases toContract instrument with
    | error e => rfl
    | ok contract =>
      simp only [paced_bind]
      refine (fetchDetails_paced contract).mono ?_
      rintro held (e | details) (rfl : held = false)
      · rfl
      · refine (incrementsFromDetails_paced details).mono ?_
        rintro held (e | increments) (rfl : held = false)
        · rfl
        · exact fun _ => rfl

theorem body_paced (method : Method) :
    (body method).Paced IbRequest.onWire tokenGranted Spent false := by
  cases method with
  | incrementsFor instrument => exact incrementsFor_paced instrument
  | clearCache cleared => exact fun _ => rfl

/-- In any run of calls in any number of tasks, the calls of `reqContractDetailsAsync` and of
`reqMarketRuleAsync` are made one by one by the tasks that are granted tokens, in the order of the
tokens. -/
theorem table_requests_paid [DecidableEq τ] {past : Past τ}
    {s : Tasks τ PriceRuleCache IbRequest.Answer PyError Method.Result}
    (hrun : run (step body) ⟨.empty, .empty⟩ past = some s) :
    payers IbRequest.onWire body ⟨.empty, .empty⟩ past =
      (past.filter (isGrant tokenGranted)).map TaskAction.task :=
  payers_eq body_paced hrun

/-- A task asks for the details and then for a market rule, which fails, while another one is
cancelled before it has its token. -/
def sampleFallback : Past Nat :=
  [.call 1 (.incrementsFor sampleInstrument), .call 2 (.incrementsFor sampleInstrument),
    .answer 1 ⟨.acquire "global", .ok ()⟩,
    .answer 1 ⟨.contractDetails sampleContract, .ok [sampleDetails]⟩, .cancel 2,
    .answer 1 ⟨.acquire "global", .ok ()⟩,
    .answer 1 ⟨.marketRule 32, .error (.other "ConnectionError")⟩]

theorem sampleFallback_enabled :
    (run (step body) ⟨.empty, .empty⟩ sampleFallback).isSome := by decide +kernel

theorem table_requests_paid_fallback :
    payers IbRequest.onWire body ⟨.empty, .empty⟩ sampleFallback = [1, 1] :=
  (@table_requests_paid Nat _ sampleFallback _
    (Option.some_get sampleFallback_enabled).symm).trans (by decide +kernel)

/-- Behind a limiter, whoever else draws on its `global` bucket, the price rules make no more calls
on the wire in a window of time than the bucket holds and what it earns in the window. -/
theorem table_requests_within [DecidableEq τ] {config : RateLimitConfig} {start : Utc}
    {cfg : RateLimitBucket} (hcfg : config.val.buckets.get? "global" = some cfg)
    {actions : List (LimitedAction τ Method IbRequest.Answer)}
    {s : LimitedTasks τ PriceRuleCache IbRequest.Answer PyError Method.Result}
    (hrun : run (LimitedTasks.step "global" IbRequest.onWire tokenGranted body)
      (.init config start .empty) actions = some s)
    (hforward : (s.limiter.times start).Pairwise (· ≤ ·)) {since till : Rat}
    (hwindow : since ≤ till) :
    (s.sentIn since till : Rat) ≤ cfg.val.capacity + cfg.val.refillPerSecond * (till - since) :=
  LimitedTasks.sentIn_le body_paced hcfg hrun hforward hwindow

/-- A task asks for the details; then another caller empties the bucket, and the call for the market
rule has to wait. -/
def sampleLimited : List (LimitedAction Nat Method IbRequest.Answer) :=
  [.task ⟨0⟩ (.call 1 (.incrementsFor sampleInstrument)),
    .granted (.acquire "global" 1 ⟨0⟩) 1 ⟨.acquire "global", .ok ()⟩,
    .limiter (.acquire "global" 19 ⟨0⟩),
    .task ⟨1000⟩ (.answer 1 ⟨.contractDetails sampleContract, .ok [sampleDetails]⟩),
    .limiter (.acquire "global" 1 ⟨1000⟩),
    .granted (.wake 0 ⟨50001⟩) 1 ⟨.acquire "global", .ok ()⟩]

theorem table_requests_within_default :
    ∃ s, run (LimitedTasks.step "global" IbRequest.onWire tokenGranted body)
        (.init ibDefaultRateLimits ⟨0⟩ .empty) sampleLimited = some s ∧
      s.sent.map Prod.snd = [.contractDetails sampleContract, .marketRule 32] ∧
      (s.sentIn 0 1 : Rat) ≤ 20 + 20 * (1 - 0) := by
  obtain ⟨s, hs⟩ : ∃ s, run (LimitedTasks.step "global" IbRequest.onWire tokenGranted body)
      (.init ibDefaultRateLimits ⟨0⟩ .empty) sampleLimited = some s := by
    apply Option.isSome_iff_exists.mp
    decide +kernel
  have hsent : ∀ t ∈ run (LimitedTasks.step "global" IbRequest.onWire tokenGranted body)
      (.init ibDefaultRateLimits ⟨0⟩ .empty) sampleLimited,
      t.sent.map Prod.snd = [.contractDetails sampleContract, .marketRule 32] ∧
        (t.limiter.times ⟨0⟩).Pairwise (· ≤ ·) := by
    decide +kernel
  obtain ⟨hsent, hforward⟩ := hsent s hs
  refine ⟨s, hs, hsent, ?_⟩
  exact @table_requests_within Nat _ ibDefaultRateLimits ⟨0⟩ ibGlobalBucket (by decide +kernel)
    sampleLimited s hs hforward 0 1 (by decide +kernel)

end IBPriceRuleService

end Blive
