import Blive.Misc.Coroutine
import Blive.Misc.Dict
import Blive.Misc.Transition

/-!
# Tasks that share a state

An event loop runs the methods of an object, each a coroutine over the object's state, in tasks.
A task runs from one request to the next with the state to itself; which task goes on, with which
answer, and which one is cancelled is up to the environment. What a method ensures is said with an
invariant of the history and the state: the method may rely on it whenever it gets an answer,
after whatever the other tasks have done, and has to leave it behind whenever it asks for
something. Methods that keep to this keep the invariant in every order of steps.
-/

namespace Blive

/-- A call that waits for an answer. -/
structure Pending {ρ κ : Type} (σ : Type) (α : ρ → Type) (ε : Type) (β : κ → Type) where
  method : κ
  rest : Coroutine σ α ε (β method)

/-- The state of an object, and the calls of its methods by the task they run in. -/
structure Tasks {ρ κ : Type} (τ σ : Type) (α : ρ → Type) (ε : Type) (β : κ → Type) where
  shared : σ
  waiting : Dict τ (Pending σ α ε β)

/-- A step of the event loop. -/
inductive TaskAction {ρ : Type} (τ κ : Type) (α : ρ → Type) where
  | call (task : τ) (method : κ)
  | answer (task : τ) (answer : Σ request, α request)
  | cancel (task : τ)

/-- The task that an action is about. -/
def TaskAction.task {ρ τ κ : Type} {α : ρ → Type} : TaskAction τ κ α → τ
  | .call task _ => task
  | .answer task _ => task
  | .cancel task => task

/-- What is answered is what the world says to the request. -/
def TaskAction.Agrees {ρ τ κ : Type} {α : ρ → Type} (world : (request : ρ) → α request) :
    TaskAction τ κ α → Prop
  | .answer _ told => told.2 = world told.1
  | _ => True

/-- The steps taken so far. -/
abbrev History {ρ : Type} (τ κ : Type) (α : ρ → Type) := List (TaskAction τ κ α)

/-- At the end of the history a call of the method in the task has just got the last of the
answers, or it has just begun. -/
inductive CallOf {ρ τ κ : Type} {α : ρ → Type} (task : τ) (method : κ) :
    List (Σ request, α request) → History τ κ α → Prop
  | call (past : History τ κ α) : CallOf task method [] (past ++ [.call task method])
  | answer {answers : List (Σ request, α request)} {past others : History τ κ α}
      (answer : Σ request, α request) (h : CallOf task method answers past)
      (hothers : ∀ a ∈ others, a.task ≠ task) :
      CallOf task method (answers ++ [answer]) (past ++ others ++ [.answer task answer])

/-- What a call was told is on record. -/
theorem CallOf.mem {ρ τ κ : Type} {α : ρ → Type} {task : τ} {method : κ}
    {answers : List (Σ request, α request)} {past : History τ κ α}
    (h : CallOf task method answers past) {answer : Σ request, α request} (ha : answer ∈ answers) :
    .answer task answer ∈ past := by
  induction h with
  | call past => cases ha
  | answer _ _ _ ih =>
    rcases List.mem_append.mp ha with ha | ha
    · exact List.mem_append_left _ (List.mem_append_left _ (ih ha))
    · rw [List.mem_singleton.mp ha]
      exact List.mem_append_right _ List.mem_cons_self

/-- How a call has ended. -/
structure Ended {κ : Type} (τ ε : Type) (β : κ → Type) where
  task : τ
  method : κ
  result : Except ε (β method)

instance {κ τ ε : Type} {β : κ → Type} [DecidableEq κ] [DecidableEq τ] [DecidableEq ε]
    [∀ method, DecidableEq (β method)] : DecidableEq (Ended τ ε β)
  | ⟨task, method, result⟩, ⟨task', method', result'⟩ =>
      if h : method = method' then
        decidable_of_iff (task = task' ∧ h ▸ result = result') (by subst h; simp)
      else isFalse (by simp [h])

/-- At some point `P` held of the past and the action, and none of the actions since then meets
`C`. -/
def Since {ι : Type*} (P : List ι → ι → Prop) (C : ι → Prop) (past : List ι) : Prop :=
  ∃ before a after, past = before ++ a :: after ∧ P before a ∧ ∀ b ∈ after, ¬ C b

section Since

variable {ι : Type*} {P : List ι → ι → Prop} {C : ι → Prop} {past : List ι} {a : ι}

theorem Since.now (h : P past a) : Since P C (past ++ [a]) :=
  ⟨past, a, [], rfl, h, by simp⟩

theorem Since.later (h : Since P C past) (ha : ¬ C a) : Since P C (past ++ [a]) := by
  obtain ⟨before, b, after, rfl, hb, hafter⟩ := h
  refine ⟨before, b, after ++ [a], by simp, hb, ?_⟩
  intro c hc
  rcases List.mem_append.mp hc with hc | hc
  · exact hafter c hc
  · rw [List.mem_singleton.mp hc]
    exact ha

end Since

/-- Every entry was justified by `P` since `C` last dropped it. -/
def Fresh {ι κ ν : Type*} [DecidableEq κ] (P : κ → ν → List ι → ι → Prop) (C : κ → ι → Prop)
    (past : List ι) (cache : Dict κ ν) : Prop :=
  ∀ key v, cache.get? key = some v → Since (P key v) (C key) past

namespace Fresh

variable {ι κ ν : Type*} [DecidableEq κ] {P : κ → ν → List ι → ι → Prop} {C : κ → ι → Prop}
  {past : List ι} {cache : Dict κ ν} {a : ι} {key : κ}

theorem empty : Fresh P C past .empty := by
  intro key v hcached
  simp at hcached

theorem later (h : Fresh P C past cache) (ha : ∀ key, ¬ C key a) :
    Fresh P C (past ++ [a]) cache := by
  intro key v hcached
  exact (h key v hcached).later (ha key)

theorem set {v : ν} (h : Fresh P C past cache) (hv : Since (P key v) (C key) past) :
    Fresh P C past (cache.set key v) := by
  intro key' v' hcached
  rw [Dict.get?_set] at hcached
  split at hcached
  · cases hcached
    subst key'
    exact hv
  · exact h key' v' hcached

theorem erase (h : Fresh P C past cache) (ha : ∀ key' ≠ key, ¬ C key' a) :
    Fresh P C (past ++ [a]) (cache.erase key) := by
  intro key' v' hcached
  rw [Dict.get?_erase] at hcached
  split at hcached
  · cases hcached
  · exact (h key' v' hcached).later (ha key' ‹_›)

end Fresh

namespace Tasks

open Transition

variable {σ ρ τ κ ε : Type} {α : ρ → Type} {β : κ → Type}

section Step

variable [DecidableEq τ]

/-- The task goes on until it asks for something or ends. -/
def goOn (s : Tasks τ σ α ε β) (task : τ) (pending : Pending σ α ε β) : Tasks τ σ α ε β :=
  let (shared, rest) := pending.rest.advance s.shared
  { shared := shared
    waiting :=
      if rest.result?.isSome then s.waiting.erase task
      else s.waiting.set task ⟨pending.method, rest⟩ }

/-- How the call ends, if it does before it asks for something. -/
def ending (s : Tasks τ σ α ε β) (task : τ) (pending : Pending σ α ε β) : List (Ended τ ε β) :=
  ((pending.rest.advance s.shared).2.result?.map fun result =>
    ⟨task, pending.method, result⟩).toList

section Actions

variable [DecidableEq ρ] (body : (method : κ) → Coroutine σ α ε (β method))

/-- The task that an action lets go on, and with what. -/
def wakes (s : Tasks τ σ α ε β) : TaskAction τ κ α → Option (τ × Pending σ α ε β)
  | .call task method => if task ∈ s.waiting then none else some (task, ⟨method, body method⟩)
  | .answer task answer =>
      (s.waiting.get? task).bind fun pending =>
        (pending.rest.resume answer).map fun rest => (task, ⟨pending.method, rest⟩)
  | .cancel _ => none

def step (s : Tasks τ σ α ε β) : TaskAction τ κ α → Option (Tasks τ σ α ε β)
  | .cancel task =>
      if task ∈ s.waiting then some { s with waiting := s.waiting.erase task } else none
  | action => (s.wakes body action).map fun woken => s.goOn woken.1 woken.2

/-- The call that an action ends. -/
def endings (s : Tasks τ σ α ε β) (action : TaskAction τ κ α) : List (Ended τ ε β) :=
  match s.wakes body action with
  | none => []
  | some (task, pending) => s.ending task pending

variable {body}

theorem step_cases {s t : Tasks τ σ α ε β} {action : TaskAction τ κ α}
    (h : s.step body action = some t) :
    (∃ task pending, s.wakes body action = some (task, pending) ∧ t = s.goOn task pending) ∨
      ∃ task, action = .cancel task ∧ task ∈ s.waiting ∧
        t = { s with waiting := s.waiting.erase task } := by
  cases action with
  | cancel task =>
    simp only [step] at h
    split at h
    · exact .inr ⟨task, rfl, ‹_›, (Option.some.inj h).symm⟩
    · cases h
  | call task method =>
    obtain ⟨woken, hwoken, rfl⟩ := Option.map_eq_some_iff.mp h
    exact .inl ⟨woken.1, woken.2, hwoken, rfl⟩
  | answer task answer =>
    obtain ⟨woken, hwoken, rfl⟩ := Option.map_eq_some_iff.mp h
    exact .inl ⟨woken.1, woken.2, hwoken, rfl⟩

theorem wakes_cases {s : Tasks τ σ α ε β} {action : TaskAction τ κ α} {task : τ}
    {pending : Pending σ α ε β} (h : s.wakes body action = some (task, pending)) :
    (∃ method, action = .call task method ∧ task ∉ s.waiting ∧ pending = ⟨method, body method⟩) ∨
      ∃ method request answer next,
        action = .answer task ⟨request, answer⟩ ∧
        s.waiting.get? task = some ⟨method, .ask request next⟩ ∧
        pending = ⟨method, next answer⟩ := by
  cases action with
  | cancel _ => cases h
  | call task' method =>
    simp only [wakes] at h
    split at h
    · cases h
    · cases h
      exact .inl ⟨method, rfl, ‹_›, rfl⟩
  | answer task' answer =>
    obtain ⟨pending', hpending, hrest⟩ := Option.bind_eq_some_iff.mp h
    rcases pending' with ⟨method, rest⟩
    simp only at hrest
    obtain ⟨rest', hresume, heq⟩ := Option.map_eq_some_iff.mp hrest
    obtain ⟨next, hask, rfl⟩ := Coroutine.resume_eq_some.mp hresume
    cases hask
    cases heq
    exact .inr ⟨method, answer.1, answer.2, next, rfl, hpending, rfl⟩

theorem task_of_wakes {s : Tasks τ σ α ε β} {action : TaskAction τ κ α} {task : τ}
    {pending : Pending σ α ε β} (h : s.wakes body action = some (task, pending)) :
    action.task = task := by
  obtain ⟨method, rfl, -, -⟩ | ⟨method, request, answer, next, rfl, -, -⟩ := wakes_cases h <;> rfl

end Actions

theorem goOn_shared (s : Tasks τ σ α ε β) (task : τ) (pending : Pending σ α ε β) :
    (s.goOn task pending).shared = (pending.rest.advance s.shared).1 := rfl

/-- The calls that wait after a task went on. -/
theorem get?_goOn {s : Tasks τ σ α ε β} {task task' : τ} {pending pending' : Pending σ α ε β}
    (h : (s.goOn task pending).waiting.get? task' = some pending') :
    (task' = task ∧ pending' = ⟨pending.method, (pending.rest.advance s.shared).2⟩) ∨
      (task' ≠ task ∧ s.waiting.get? task' = some pending') := by
  simp only [goOn] at h
  split at h
  · rw [Dict.get?_erase] at h
    split at h
    · cases h
    · exact .inr ⟨‹_›, h⟩
  · rw [Dict.get?_set] at h
    split at h
    · cases h
      exact .inl ⟨‹_›, rfl⟩
    · exact .inr ⟨‹_›, h⟩

end Step

/-! ## What a method ensures -/

section Ensures

variable {ν μ : Type}

/-- In the task, from the history and the state on, the coroutine leaves `I` behind whenever it
asks for something, if `I` holds whenever it gets an answer, and it ends as `Q` says. -/
def Ensures (I : History τ κ α → σ → Prop) (task : τ)
    (Q : History τ κ α → σ → Except ε ν → Prop) :
    Coroutine σ α ε ν → History τ κ α → σ → Prop
  | .done result, past, s => Q past s result
  | .read next, past, s => Ensures I task Q (next s) past s
  | .write s next, past, _ => Ensures I task Q next past s
  | .ask request next, past, s =>
      I past s ∧ ∀ others s' answer, (∀ a ∈ others, a.task ≠ task) → I (past ++ others) s' →
        Ensures I task Q (next answer) (past ++ others ++ [.answer task ⟨request, answer⟩]) s'

variable {I : History τ κ α → σ → Prop} {task : τ}
  {Q R : History τ κ α → σ → Except ε ν → Prop} {past : History τ κ α} {s : σ}

theorem Ensures.mono {c : Coroutine σ α ε ν} (h : Ensures I task Q c past s)
    (hQR : ∀ past' s' result, past <+: past' → Q past' s' result → R past' s' result) :
    Ensures I task R c past s := by
  induction c generalizing past s with
  | done result => exact hQR past s result List.prefix_rfl h
  | read next ih => exact ih s h hQR
  | write s' next ih => exact ih h hQR
  | ask request next ih =>
    refine ⟨h.1, ?_⟩
    intro others s' answer hothers hI
    refine ih answer (h.2 others s' answer hothers hI) ?_
    intro past' s'' result hpast hQ
    rw [List.append_assoc] at hpast
    exact hQR past' s'' result ((List.prefix_append _ _).trans hpast) hQ

/-- A sequence of two ensures what the second one ensures after the first. -/
theorem ensures_bind {c : Coroutine σ α ε μ} {f : μ → Coroutine σ α ε ν} :
    Ensures I task Q (c >>= f) past s ↔
      Ensures I task (fun past' s' result =>
        match result with
        | .ok v => Ensures I task Q (f v) past' s'
        | .error e => Q past' s' (.error e)) c past s := by
  induction c generalizing past s with
  | done result => cases result <;> rfl
  | read next ih => exact ih s
  | write s' next ih => exact ih
  | ask request next ih =>
    refine and_congr_right fun _ => ?_
    refine forall_congr' fun others => forall_congr' fun s' => forall_congr' fun answer => ?_
    exact imp_congr_right fun _ => imp_congr_right fun _ => ih answer

/-- What a handler ensures after what was raised, `try` ensures. -/
theorem ensures_attempt {c : Coroutine σ α ε ν} {handler : ε → Coroutine σ α ε ν} :
    Ensures I task Q (tryCatch c handler) past s ↔
      Ensures I task (fun past' s' result =>
        match result with
        | .ok v => Q past' s' (.ok v)
        | .error e => Ensures I task Q (handler e) past' s') c past s := by
  induction c generalizing past s with
  | done result => cases result <;> rfl
  | read next ih => exact ih s
  | write s' next ih => exact ih
  | ask request next ih =>
    refine and_congr_right fun _ => ?_
    refine forall_congr' fun others => forall_congr' fun s' => forall_congr' fun answer => ?_
    exact imp_congr_right fun _ => imp_congr_right fun _ => ih answer

theorem ensures_advance {c : Coroutine σ α ε ν} :
    Ensures I task Q (c.advance s).2 past (c.advance s).1 ↔ Ensures I task Q c past s := by
  induction c generalizing s with
  | done result => rfl
  | read next ih => exact ih s
  | write s' next ih => exact ih
  | ask request next ih => rfl

/-- Where a coroutine has come to the next request or its end, the invariant holds. -/
theorem Ensures.invariant {c : Coroutine σ α ε ν}
    (h : Ensures I task (fun past s result => I past s ∧ Q past s result) c past s) :
    I past (c.advance s).1 := by
  rw [← ensures_advance] at h
  obtain ⟨result, hdone⟩ | ⟨request, next, hask⟩ := c.advance_cases s
  · rw [hdone] at h
    exact h.1
  · rw [hask] at h
    exact h.1

@[simp] theorem ensures_pure {v : ν} :
    Ensures I task Q (pure v : Coroutine σ α ε ν) past s ↔ Q past s (.ok v) := Iff.rfl

@[simp] theorem ensures_ofExcept {result : Except ε ν} :
    Ensures I task Q (ofExcept result : Coroutine σ α ε ν) past s ↔ Q past s result := by
  cases result <;> rfl

@[simp] theorem ensures_get {R : History τ κ α → σ → Except ε σ → Prop} :
    Ensures I task R (get : Coroutine σ α ε σ) past s ↔ R past s (.ok s) := Iff.rfl

@[simp] theorem ensures_modify {R : History τ κ α → σ → Except ε Unit → Prop} {f : σ → σ} :
    Ensures I task R (modify f : Coroutine σ α ε Unit) past s ↔ R past (f s) (.ok ()) := Iff.rfl

@[simp] theorem ensures_await {request : ρ} {R : History τ κ α → σ → Except ε (α request) → Prop} :
    Ensures I task R (.await request : Coroutine σ α ε (α request)) past s ↔
      I past s ∧ ∀ others s' answer, (∀ a ∈ others, a.task ≠ task) → I (past ++ others) s' →
        R (past ++ others ++ [.answer task ⟨request, answer⟩]) s' (.ok answer) := Iff.rfl

end Ensures

/-! ## Runs -/

section Run

variable [DecidableEq τ] [DecidableEq ρ] {body : (method : κ) → Coroutine σ α ε (β method)}
  {I : History τ κ α → σ → Prop}
  {Q : (method : κ) → τ → History τ κ α → σ → Except ε (β method) → Prop}

/-- Every method keeps the invariant in a task of its own, and ends as `Q` says. -/
structure Meets (body : (method : κ) → Coroutine σ α ε (β method))
    (I : History τ κ α → σ → Prop)
    (Q : (method : κ) → τ → History τ κ α → σ → Except ε (β method) → Prop) : Prop where
  call : ∀ task method past s, I past s →
    Ensures I task (fun past s result => I past s ∧ Q method task past s result) (body method)
      (past ++ [.call task method]) s
  cancel : ∀ task past s, I past s → I (past ++ [.cancel task]) s

/-- The invariant of the runs: every call that waits ensures what it has to from some point of
the history on. -/
structure Sound (I : History τ κ α → σ → Prop)
    (Q : (method : κ) → τ → History τ κ α → σ → Except ε (β method) → Prop)
    (past : History τ κ α) (s : Tasks τ σ α ε β) : Prop where
  shared : I past s.shared
  waiting : ∀ task pending, s.waiting.get? task = some pending →
    ∃ past₀ others s₀, past = past₀ ++ others ∧ (∀ a ∈ others, a.task ≠ task) ∧
      Ensures I task (fun past s result => I past s ∧ Q pending.method task past s result)
        pending.rest past₀ s₀

omit [DecidableEq ρ] in
/-- A call that waits is not concerned by what another task does. -/
theorem Sound.waits_on {past : History τ κ α} {s : Tasks τ σ α ε β} (hs : Sound I Q past s)
    {task : τ} {pending : Pending σ α ε β} (h : s.waiting.get? task = some pending)
    {action : TaskAction τ κ α} (haction : action.task ≠ task) :
    ∃ past₀ others s₀, past ++ [action] = past₀ ++ others ∧ (∀ a ∈ others, a.task ≠ task) ∧
      Ensures I task (fun past s result => I past s ∧ Q pending.method task past s result)
        pending.rest past₀ s₀ := by
  obtain ⟨past₀, others, s₀, rfl, hothers, hrest⟩ := hs.waiting task pending h
  refine ⟨past₀, others ++ [action], s₀, List.append_assoc _ _ _, ?_, hrest⟩
  intro a ha
  rcases List.mem_append.mp ha with ha | ha
  · exact hothers a ha
  · rw [List.mem_singleton.mp ha]
    exact haction

/-- What is left of a method when an action lets its task go on, ensures what the method has
to. -/
theorem Sound.wakes {past : History τ κ α} {s : Tasks τ σ α ε β} (hs : Sound I Q past s)
    (hbody : Meets body I Q) {action : TaskAction τ κ α} {task : τ} {pending : Pending σ α ε β}
    (h : s.wakes body action = some (task, pending)) :
    Ensures I task (fun past s result => I past s ∧ Q pending.method task past s result)
      pending.rest (past ++ [action]) s.shared := by
  obtain ⟨method, rfl, -, rfl⟩ | ⟨method, request, answer, next, rfl, hpending, rfl⟩ :=
    wakes_cases h
  · exact hbody.call task method past s.shared hs.shared
  · obtain ⟨past₀, others, s₀, rfl, hothers, hrest⟩ := hs.waiting task _ hpending
    exact hrest.2 others s.shared answer hothers hs.shared

theorem Sound.step {past : History τ κ α} {s t : Tasks τ σ α ε β} (hs : Sound I Q past s)
    (hbody : Meets body I Q) {action : TaskAction τ κ α} (h : s.step body action = some t) :
    Sound I Q (past ++ [action]) t := by
  obtain ⟨task, pending, hwakes, rfl⟩ | ⟨task, rfl, -, rfl⟩ := step_cases h
  · have hrest := hs.wakes hbody hwakes
    refine ⟨?_, ?_⟩
    · rw [goOn_shared]
      exact hrest.invariant
    · intro task' pending' hpending'
      obtain ⟨rfl, rfl⟩ | ⟨hne, hold⟩ := get?_goOn hpending'
      · exact ⟨past ++ [action], [], _, by simp, by simp, ensures_advance.mpr hrest⟩
      · rw [← task_of_wakes hwakes] at hne
        exact hs.waits_on hold hne.symm
  · refine ⟨hbody.cancel task past s.shared hs.shared, ?_⟩
    intro task' pending' hpending'
    rw [Dict.get?_erase] at hpending'
    split at hpending'
    · cases hpending'
    · exact hs.waits_on hpending' (Ne.symm ‹_›)

/-- Whatever the order of the steps, the invariant holds after a run. -/
theorem Meets.sound (hbody : Meets body I Q) {s₀ : σ} (hs₀ : I [] s₀)
    {past : History τ κ α} {s : Tasks τ σ α ε β}
    (hrun : run (step body) ⟨s₀, .empty⟩ past = some s) : Sound I Q past s := by
  have hstart : Sound I Q [] (⟨s₀, .empty⟩ : Tasks τ σ α ε β) := by
    refine ⟨hs₀, ?_⟩
    intro task pending hpending
    simp at hpending
  exact run_invariant_history (fun _ _ _ _ hs h => hs.step hbody h) hstart hrun

/-- Whatever the order of the steps, a call ends as its method has to. -/
theorem Meets.ends (hbody : Meets body I Q) {s₀ : σ} (hs₀ : I [] s₀)
    {past : History τ κ α} {s : Tasks τ σ α ε β}
    (hrun : run (step body) ⟨s₀, .empty⟩ past = some s) {action : TaskAction τ κ α}
    {ended : Ended τ ε β} (hended : ended ∈ s.endings body action) :
    ∃ s', Q ended.method ended.task (past ++ [action]) s' ended.result := by
  simp only [endings] at hended
  split at hended
  · cases hended
  · rename_i task pending hwakes
    have hrest := ensures_advance.mpr ((hbody.sound hs₀ hrun).wakes hbody hwakes)
    obtain ⟨result, hdone⟩ | ⟨request, next, hask⟩ := pending.rest.advance_cases s.shared
    · simp only [ending, hdone, Coroutine.result?, Option.map_some, Option.toList_some,
        List.mem_singleton] at hended
      rw [hdone] at hrest
      subst hended
      exact ⟨_, hrest.2⟩
    · simp [ending, hask, Coroutine.result?] at hended

end Run

/-! ## A call alone -/

section Alone

variable [DecidableEq τ] [DecidableEq ρ] (body : (method : κ) → Coroutine σ α ε (β method))
  (world : Nat → (request : ρ) → α request)

/-- A task that goes on alone comes to the end that its coroutine comes to alone. -/
theorem run_goOn_alone (task : τ) {method : κ} (c : Coroutine σ α ε (β method)) (n : Nat)
    (s : Tasks τ σ α ε β) :
    ∃ answers : List (Σ request, α request),
      answers.map Sigma.fst = (c.alone world n s.shared).2.1 ∧
      run (step body) (s.goOn task ⟨method, c⟩) (answers.map (.answer task)) =
        some ⟨(c.alone world n s.shared).1, s.waiting.erase task⟩ ∧
      s.ending task ⟨method, c⟩ ++ trace (step body) (fun s a _ => s.endings body a)
          (s.goOn task ⟨method, c⟩) (answers.map (.answer task)) =
        [⟨task, method, (c.alone world n s.shared).2.2⟩] := by
  induction c generalizing s n with
  | done result => exact ⟨[], rfl, rfl, rfl⟩
  | read next ih =>
    have hgoOn : s.goOn task ⟨method, .read next⟩ = s.goOn task ⟨method, next s.shared⟩ := rfl
    rw [hgoOn]
    exact ih s.shared n s
  | write s' next ih =>
    have hgoOn : s.goOn task ⟨method, .write s' next⟩ =
        goOn ⟨s', s.waiting⟩ task ⟨method, next⟩ := rfl
    rw [hgoOn]
    exact ih n ⟨s', s.waiting⟩
  | ask request next ih =>
    have hgoOn : s.goOn task ⟨method, .ask request next⟩ =
        ⟨s.shared, s.waiting.set task ⟨method, .ask request next⟩⟩ := rfl
    obtain ⟨answers, hrequests, hrun, htrace⟩ :=
      ih (world n request) (n + 1) (s.goOn task ⟨method, .ask request next⟩)
    rw [hgoOn] at hrequests hrun htrace ⊢
    have hwakes : wakes body ⟨s.shared, s.waiting.set task ⟨method, .ask request next⟩⟩
        (.answer task ⟨request, world n request⟩) =
          some (task, ⟨method, next (world n request)⟩) := by
      simp [wakes, Coroutine.resume]
    have hstep : step body ⟨s.shared, s.waiting.set task ⟨method, .ask request next⟩⟩
        (.answer task ⟨request, world n request⟩) =
          some (goOn ⟨s.shared, s.waiting.set task ⟨method, .ask request next⟩⟩ task
            ⟨method, next (world n request)⟩) := by
      simp only [step, hwakes, Option.map_some]
    refine ⟨⟨request, world n request⟩ :: answers, ?_, ?_, ?_⟩
    · simp [Coroutine.alone, hrequests]
    · rw [List.map_cons, run, hstep, Option.bind_some, hrun, Dict.erase_set]
      rfl
    · have hasks : s.ending task ⟨method, .ask request next⟩ = [] := rfl
      rw [List.map_cons, trace_cons hstep, hasks, List.nil_append, endings, hwakes]
      exact htrace

/-- A call that nobody interrupts does what its body does alone. -/
theorem run_alone {task : τ} (method : κ) (n : Nat) {s : Tasks τ σ α ε β} (h : task ∉ s.waiting) :
    ∃ answers : List (Σ request, α request),
      answers.map Sigma.fst = ((body method).alone world n s.shared).2.1 ∧
      run (step body) s (.call task method :: answers.map (.answer task)) =
        some ⟨((body method).alone world n s.shared).1, s.waiting.erase task⟩ ∧
      trace (step body) (fun s a _ => s.endings body a) s
          (.call task method :: answers.map (.answer task)) =
        [⟨task, method, ((body method).alone world n s.shared).2.2⟩] := by
  obtain ⟨answers, hrequests, hrun, htrace⟩ :=
    run_goOn_alone body world task (body method) n s
  have hwakes : s.wakes body (.call task method) = some (task, ⟨method, body method⟩) := by
    simp [wakes, h]
  have hstep : s.step body (.call task method) = some (s.goOn task ⟨method, body method⟩) := by
    simp only [step, hwakes, Option.map_some]
  refine ⟨answers, hrequests, ?_, ?_⟩
  · rw [run, hstep]
    exact hrun
  · rw [trace_cons hstep, endings, hwakes]
    exact htrace

end Alone

end Tasks

end Blive
