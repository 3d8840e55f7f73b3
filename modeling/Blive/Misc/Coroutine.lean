import Mathlib.Logic.Basic

/-!
# Coroutines over a shared state

The body of an asynchronous method: it reads and writes a state that it shares with others, and
gives up control only where it asks its environment for something. A request says in its type
what an answer to it is. What a coroutine does from one request to the next is one step, which
`advance` takes; `alone` runs a coroutine that nobody interrupts.
-/

namespace Blive

/-- A coroutine over the state `σ`: how it ends, or what it does next. -/
inductive Coroutine (σ : Type) {ρ : Type} (α : ρ → Type) (ε ν : Type) where
  | done (result : Except ε ν)
  | read (next : σ → Coroutine σ α ε ν)
  | write (s : σ) (next : Coroutine σ α ε ν)
  | ask (request : ρ) (next : α request → Coroutine σ α ε ν)

namespace Coroutine

variable {σ ρ : Type} {α : ρ → Type} {ε μ ν : Type}

/-- `f` goes on with what `c` returns; what `c` raises is raised. -/
def bind : Coroutine σ α ε μ → (μ → Coroutine σ α ε ν) → Coroutine σ α ε ν
  | .done (.ok v), f => f v
  | .done (.error e), _ => .done (.error e)
  | .read next, f => .read fun s => (next s).bind f
  | .write s next, f => .write s (next.bind f)
  | .ask request next, f => .ask request fun answer => (next answer).bind f

/-- `try: c` with `handler` for what `c` raises. -/
def attempt : Coroutine σ α ε ν → (ε → Coroutine σ α ε ν) → Coroutine σ α ε ν
  | .done (.ok v), _ => .done (.ok v)
  | .done (.error e), handler => handler e
  | .read next, handler => .read fun s => (next s).attempt handler
  | .write s next, handler => .write s (next.attempt handler)
  | .ask request next, handler => .ask request fun answer => (next answer).attempt handler

instance : Monad (Coroutine σ α ε) where
  pure v := .done (.ok v)
  bind := bind

instance : MonadExcept ε (Coroutine σ α ε) where
  throw e := .done (.error e)
  tryCatch := attempt

instance : MonadStateOf σ (Coroutine σ α ε) where
  get := .read fun s => .done (.ok s)
  set s := .write s (.done (.ok ()))
  modifyGet f := .read fun s => .write (f s).2 (.done (.ok (f s).1))

/-- `await` for the answer to a request. -/
def await (request : ρ) : Coroutine σ α ε (α request) :=
  .ask request fun answer => .done (.ok answer)

/-! ## Steps -/

/-- The state and the coroutine when it next asks for something, or when it ends. -/
def advance : Coroutine σ α ε ν → σ → σ × Coroutine σ α ε ν
  | .done result, s => (s, .done result)
  | .read next, s => (next s).advance s
  | .write s next, _ => next.advance s
  | .ask request next, s => (s, .ask request next)

/-- How the coroutine goes on with an answer, `none` where it does not ask for that. -/
def resume [DecidableEq ρ] : Coroutine σ α ε ν → (Σ request, α request) → Option (Coroutine σ α ε ν)
  | .ask request next, ⟨answered, answer⟩ =>
      if h : answered = request then some (next (h ▸ answer)) else none
  | _, _ => none

/-- What the coroutine asks for in its place. -/
def request? : Coroutine σ α ε ν → Option ρ
  | .ask request _ => some request
  | _ => none

/-- How it has ended. -/
def result? : Coroutine σ α ε ν → Option (Except ε ν)
  | .done result => some result
  | _ => none

theorem advance_cases (c : Coroutine σ α ε ν) (s : σ) :
    (∃ result, (c.advance s).2 = .done result) ∨
      ∃ request next, (c.advance s).2 = .ask request next := by
  induction c generalizing s with
  | done result => exact .inl ⟨result, rfl⟩
  | read next ih => exact ih s s
  | write s' next ih => exact ih s'
  | ask request next => exact .inr ⟨request, next, rfl⟩

theorem resume_eq_some [DecidableEq ρ] {c rest : Coroutine σ α ε ν}
    {answer : Σ request, α request} :
    c.resume answer = some rest ↔ ∃ next, c = .ask answer.1 next ∧ rest = next answer.2 := by
  obtain ⟨answered, a⟩ := answer
  cases c with
  | ask request next =>
    by_cases h : answered = request
    · subst h
      simp [resume, eq_comm]
    · have h' : ¬ request = answered := fun e => h e.symm
      simp [resume, h, h']
  | done _ => simp [resume]
  | read _ => simp [resume]
  | write _ _ => simp [resume]

/-! ## A coroutine alone -/

/-- The state a coroutine leaves that nobody interrupts, its requests and how it ends, when its
request number `n` is answered by `world n`. -/
def alone (world : Nat → (request : ρ) → α request) :
    Coroutine σ α ε ν → Nat → σ → σ × List ρ × Except ε ν
  | .done result, _, s => (s, [], result)
  | .read next, n, s => (next s).alone world n s
  | .write s next, n, _ => next.alone world n s
  | .ask request next, n, s =>
      let (t, requests, result) := (next (world n request)).alone world (n + 1) s
      (t, request :: requests, result)

variable {world : Nat → (request : ρ) → α request} {n : Nat} {s : σ}

/-- One coroutine after the other, each alone. -/
theorem alone_bind (c : Coroutine σ α ε μ) (f : μ → Coroutine σ α ε ν) :
    (c >>= f).alone world n s =
      match c.alone world n s with
      | (t, requests, .error e) => (t, requests, .error e)
      | (t, requests, .ok v) =>
          let (t', requests', result) := (f v).alone world (n + requests.length) t
          (t', requests ++ requests', result) := by
  induction c generalizing n s with
  | done result => cases result <;> rfl
  | read next ih => exact ih s
  | write s' next ih => exact ih
  | ask request next ih =>
    have hbind : (ask request next >>= f) = ask request fun answer => next answer >>= f := rfl
    simp only [hbind, alone, ih]
    generalize (next (world n request)).alone world (n + 1) s = point
    rcases point with ⟨t, requests, e | v⟩
    · rfl
    · simp [Nat.add_assoc, Nat.add_comm 1]

theorem alone_attempt (c : Coroutine σ α ε ν) (handler : ε → Coroutine σ α ε ν) :
    (tryCatch c handler).alone world n s =
      match c.alone world n s with
      | (t, requests, .ok v) => (t, requests, .ok v)
      | (t, requests, .error e) =>
          let (t', requests', result) := (handler e).alone world (n + requests.length) t
          (t', requests ++ requests', result) := by
  induction c generalizing n s with
  | done result => cases result <;> rfl
  | read next ih => exact ih s
  | write s' next ih => exact ih
  | ask request next ih =>
    have htry : tryCatch (ask request next) handler =
        ask request fun answer => tryCatch (next answer) handler := rfl
    simp only [htry, alone, ih]
    generalize (next (world n request)).alone world (n + 1) s = point
    rcases point with ⟨t, requests, e | v⟩
    · simp [Nat.add_assoc, Nat.add_comm 1]
    · rfl

@[simp] theorem alone_pure (v : ν) :
    (pure v : Coroutine σ α ε ν).alone world n s = (s, [], .ok v) := rfl

@[simp] theorem alone_ofExcept (result : Except ε ν) :
    (ofExcept result : Coroutine σ α ε ν).alone world n s = (s, [], result) := by
  cases result <;> rfl

@[simp] theorem alone_get : (get : Coroutine σ α ε σ).alone world n s = (s, [], .ok s) := rfl

@[simp] theorem alone_modify (f : σ → σ) :
    (modify f : Coroutine σ α ε Unit).alone world n s = (f s, [], .ok ()) := rfl

@[simp] theorem alone_await (request : ρ) :
    (await request : Coroutine σ α ε (α request)).alone world n s =
      (s, [request], .ok (world n request)) := rfl

end Coroutine

end Blive
