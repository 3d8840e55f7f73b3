import Blive.Adapters.Shared.RateLimiter
import Blive.Misc.Permits

/-!
# Tasks behind the rate limiter

An object whose methods wait for a token of a bucket before they make a request, and the limiter
that lets them have it. Other callers may draw on the same bucket at any time; which of the calls
that sleep in the limiter belongs to which task is left open, so that a task may get its token at
any turn that takes one.
-/

namespace Blive

/-- The limiter and the tasks, with the requests that needed a token and when they were made. -/
structure LimitedTasks {ρ κ : Type} (τ σ : Type) (α : ρ → Type) (ε : Type) (β : κ → Type) where
  limiter : RateLimiterSystem
  tasks : Tasks τ σ α ε β
  sent : List (Utc × ρ)

inductive LimitedAction {ρ : Type} (τ κ : Type) (α : ρ → Type) where
  /-- Anything the limiter does that lets no task of the object go on. -/
  | limiter (action : RateLimiterAction)
  /-- A step of the tasks, at the time, which brings no token. -/
  | task (now : Utc) (action : TaskAction τ κ α)
  /-- A turn of the limiter that takes a token, with which the task goes on. -/
  | granted (turn : RateLimiterAction) (task : τ) (told : Σ request, α request)

namespace LimitedTasks

variable {σ ρ τ κ ε : Type} {α : ρ → Type} {β : κ → Type} [DecidableEq τ] [DecidableEq ρ]

def init (config : RateLimitConfig) (start : Utc) (shared : σ) : LimitedTasks τ σ α ε β :=
  ⟨.init config start, ⟨shared, .empty⟩, []⟩

/-- When a turn took one token of the bucket. -/
def tokenTaken? (bucket : String) : List ClockReading → Option Utc
  | [.attempt now name tokens] => if name = bucket ∧ tokens = 1 then some now else none
  | _ => none

variable (bucket : String) (needs : ρ → Bool) (grants : (Σ request, α request) → Bool)
  (body : (method : κ) → Coroutine σ α ε (β method))

/-- A step of the tasks, with what they send. -/
def tell (s : LimitedTasks τ σ α ε β) (now : Utc) (action : TaskAction τ κ α) :
    Option (LimitedTasks τ σ α ε β) :=
  (s.tasks.step body action).map fun tasks =>
    { s with
      tasks
      sent := s.sent ++ ((s.tasks.asked body action).toList.filter fun asked =>
        needs asked.2).map fun asked => (now, asked.2) }

def step (s : LimitedTasks τ σ α ε β) :
    LimitedAction τ κ α → Option (LimitedTasks τ σ α ε β)
  | .limiter action => (s.limiter.step action).map fun limiter => { s with limiter }
  | .task now action =>
      if Tasks.isGrant grants action then none else s.tell needs body now action
  | .granted turn task told =>
      (s.limiter.step turn).bind fun limiter =>
        match tokenTaken? bucket (limiter.readings.drop s.limiter.readings.length) with
        | none => none
        | some now =>
            if grants told then { s with limiter }.tell needs body now (.answer task told)
            else none

end LimitedTasks

end Blive
