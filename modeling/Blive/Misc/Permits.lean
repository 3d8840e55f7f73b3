import Blive.Misc.Tasks

/-!
# Permits

Some requests need a permit, which a task is granted by an answer. A paced coroutine makes such a
request at once when it is granted a permit, and at no other point. Where every method of an object
is paced, the tasks that make these requests are those that are granted the permits, one by one and
in the same order.
-/

namespace Blive

namespace Coroutine

variable {σ ρ : Type} {α : ρ → Type} {ε μ ν : Type}

/-- The coroutine is paced, when it has just been granted a permit or has not, and it ends as `Q`
says. -/
def Paced (needs : ρ → Bool) (grants : (Σ request, α request) → Bool)
    (Q : Bool → Except ε ν → Prop) : Coroutine σ α ε ν → Bool → Prop
  | .done result, held => Q held result
  | .read next, held => ∀ s, Paced needs grants Q (next s) held
  | .write _ next, held => Paced needs grants Q next held
  | .ask request next, held =>
      needs request = held ∧ ∀ answer, Paced needs grants Q (next answer) (grants ⟨request, answer⟩)

variable {needs : ρ → Bool} {grants : (Σ request, α request) → Bool}
  {Q R : Bool → Except ε ν → Prop} {held : Bool}

theorem Paced.mono {c : Coroutine σ α ε ν} (h : c.Paced needs grants Q held)
    (hQR : ∀ held result, Q held result → R held result) : c.Paced needs grants R held := by
  induction c generalizing held with
  | done result => exact hQR held result h
  | read next ih => exact fun s => ih s (h s)
  | write s next ih => exact ih h
  | ask request next ih => exact ⟨h.1, fun answer => ih answer (h.2 answer)⟩

theorem paced_bind {c : Coroutine σ α ε μ} {f : μ → Coroutine σ α ε ν} :
    (c >>= f).Paced needs grants Q held ↔
      c.Paced needs grants (fun held result =>
        match result with
        | .ok v => (f v).Paced needs grants Q held
        | .error e => Q held (.error e)) held := by
  induction c generalizing held with
  | done result => cases result <;> rfl
  | read next ih => exact forall_congr' fun s => ih s
  | write s next ih => exact ih
  | ask request next ih => exact and_congr_right fun _ => forall_congr' fun answer => ih answer

theorem paced_attempt {c : Coroutine σ α ε ν} {handler : ε → Coroutine σ α ε ν} :
    (tryCatch c handler).Paced needs grants Q held ↔
      c.Paced needs grants (fun held result =>
        match result with
        | .ok v => Q held (.ok v)
        | .error e => (handler e).Paced needs grants Q held) held := by
  induction c generalizing held with
  | done result => cases result <;> rfl
  | read next ih => exact forall_congr' fun s => ih s
  | write s next ih => exact ih
  | ask request next ih => exact and_congr_right fun _ => forall_congr' fun answer => ih answer

theorem Paced.advance {c : Coroutine σ α ε ν} (h : c.Paced needs grants Q held) (s : σ) :
    (c.advance s).2.Paced needs grants Q held := by
  induction c generalizing s with
  | done result => exact h
  | read next ih => exact ih s (h s) s
  | write s' next ih => exact ih h s'
  | ask request next => exact h

@[simp] theorem paced_pure {v : ν} :
    (pure v : Coroutine σ α ε ν).Paced needs grants Q held ↔ Q held (.ok v) := Iff.rfl

@[simp] theorem paced_ofExcept {result : Except ε ν} :
    (ofExcept result : Coroutine σ α ε ν).Paced needs grants Q held ↔ Q held result := by
  cases result <;> rfl

@[simp] theorem paced_get {R : Bool → Except ε σ → Prop} :
    (get : Coroutine σ α ε σ).Paced needs grants R held ↔ ∀ s, R held (.ok s) := Iff.rfl

@[simp] theorem paced_modify {R : Bool → Except ε Unit → Prop} {f : σ → σ} :
    (modify f : Coroutine σ α ε Unit).Paced needs grants R held ↔ σ → R held (.ok ()) := Iff.rfl

@[simp] theorem paced_await {request : ρ} {R : Bool → Except ε (α request) → Prop} :
    (await request : Coroutine σ α ε (α request)).Paced needs grants R held ↔
      needs request = held ∧ ∀ answer, R (grants ⟨request, answer⟩) (.ok answer) := Iff.rfl

end Coroutine

namespace Tasks

open Transition

variable {σ ρ τ κ ε : Type} {α : ρ → Type} {β : κ → Type} [DecidableEq τ] [DecidableEq ρ]
  (needs : ρ → Bool) (grants : (Σ request, α request) → Bool)
  (body : (method : κ) → Coroutine σ α ε (β method))

/-- What a step asks for, and in which task. -/
def asked (s : Tasks τ σ α ε β) (action : TaskAction τ κ α) : Option (τ × ρ) :=
  (s.wakes body action).bind fun woken =>
    (woken.2.rest.advance s.shared).2.request?.map fun request => (woken.1, request)

/-- The tasks that make requests which need a permit, in the order in which they do. -/
def payers (s : Tasks τ σ α ε β) (actions : History τ κ α) : List τ :=
  ((trace (step body) (fun s a _ => (s.asked body a).toList) s actions).filter
    fun asked => needs asked.2).map Prod.fst

/-- The action brings its task a permit. -/
def isGrant : TaskAction τ κ α → Bool
  | .answer _ told => grants told
  | _ => false

/-- A permit is never left at the end of a call. -/
def Spent {ν : Type} (held : Bool) (_ : Except ε ν) : Prop := held = false

/-- Every call that waits is paced. -/
def Paying (s : Tasks τ σ α ε β) : Prop :=
  ∀ task pending, s.waiting.get? task = some pending →
    ∃ held, pending.rest.Paced needs grants Spent held

variable {needs grants body} {s t : Tasks τ σ α ε β} {action : TaskAction τ κ α}

/-- A call goes on with the permit that the action brings, if it brings one. -/
theorem Paying.wakes (hs : s.Paying needs grants)
    (hbody : ∀ method, (body method).Paced needs grants Spent false) {task : τ}
    {pending : Pending σ α ε β} (h : s.wakes body action = some (task, pending)) :
    pending.rest.Paced needs grants Spent (isGrant grants action) := by
  obtain ⟨method, rfl, -, rfl⟩ | ⟨method, request, answer, next, rfl, hpending, rfl⟩ :=
    wakes_cases h
  · exact hbody method
  · obtain ⟨held, hpaced⟩ := hs task _ hpending
    exact hpaced.2 answer

theorem Paying.step (hs : s.Paying needs grants)
    (hbody : ∀ method, (body method).Paced needs grants Spent false)
    (h : s.step body action = some t) : t.Paying needs grants := by
  intro task' pending' hpending'
  obtain ⟨task, pending, hwakes, rfl⟩ | ⟨task, rfl, -, rfl⟩ := step_cases h
  · obtain ⟨rfl, rfl⟩ | ⟨-, hold⟩ := get?_goOn hpending'
    · exact ⟨_, (hs.wakes hbody hwakes).advance s.shared⟩
    · exact hs task' pending' hold
  · rw [Dict.get?_erase] at hpending'
    split at hpending'
    · cases hpending'
    · exact hs task' pending' hpending'

/-- A step makes a request that needs a permit exactly when it brings one. -/
theorem Paying.asked (hs : s.Paying needs grants)
    (hbody : ∀ method, (body method).Paced needs grants Spent false)
    (h : s.step body action = some t) :
    (((s.asked body action).toList.filter fun asked => needs asked.2).map Prod.fst) =
      ([action].filter (isGrant grants)).map TaskAction.task := by
  obtain ⟨task, pending, hwakes, rfl⟩ | ⟨task, rfl, -, rfl⟩ := step_cases h
  · have hpaced := (hs.wakes hbody hwakes).advance s.shared
    rw [Tasks.asked, hwakes, Option.bind_some]
    obtain ⟨result, hdone⟩ | ⟨request, next, hask⟩ := pending.rest.advance_cases s.shared
    · rw [hdone] at hpaced ⊢
      have hheld : isGrant grants action = false := hpaced
      simp [Coroutine.request?, hheld]
    · rw [hask] at hpaced ⊢
      have hneeds : needs request = isGrant grants action := hpaced.1
      simp only [Coroutine.request?, Option.map_some, Option.toList_some, List.filter_singleton,
        hneeds]
      cases isGrant grants action <;> simp [task_of_wakes hwakes]
  · rfl

/-- Whatever the order of the steps, each permit is used at once by the task it is granted to, and
no other request that needs one is made. -/
theorem payers_eq (hbody : ∀ method, (body method).Paced needs grants Spent false) {s₀ : σ}
    {past : History τ κ α} (hrun : run (Tasks.step body) ⟨s₀, .empty⟩ past = some s) :
    payers needs body ⟨s₀, .empty⟩ past = (past.filter (isGrant grants)).map TaskAction.task := by
  have hstart : Paying needs grants (⟨s₀, .empty⟩ : Tasks τ σ α ε β) := by
    intro task pending hpending
    simp at hpending
  generalize (⟨s₀, .empty⟩ : Tasks τ σ α ε β) = start at hstart hrun
  induction past generalizing start with
  | nil => rfl
  | cons action past ih =>
    obtain ⟨next, hstep, hrest⟩ := run_cons_eq_some.mp hrun
    have hpayers := ih next (hstart.step hbody hstep) hrest
    rw [payers] at hpayers ⊢
    rw [trace_cons hstep, List.filter_append, List.map_append, hpayers, hstart.asked hbody hstep,
      ← List.map_append, ← List.filter_append, List.singleton_append]

end Tasks

end Blive
