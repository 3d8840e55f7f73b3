import Mathlib.Data.List.Basic

/-!
# Counting semaphores

An `asyncio.Semaphore`: free permits and a queue of waiting tasks. A release hands its permit
to the first task that still waits; that task holds it from then on, though it runs later. The
permits that are free or handed over change only by what is taken and released.
-/

namespace Blive

/-- A semaphore and the tasks in its queue, first come first; a task is marked `true` once a
permit was handed to it. -/
structure Semaphore (ι : Type*) where
  value : Nat
  waiters : List (ι × Bool)

namespace Semaphore

variable {ι : Type*}

def init (value : Nat) : Semaphore ι := ⟨value, []⟩

/-- Nobody overtakes the queue, even when a permit is free. -/
def locked (s : Semaphore ι) : Prop := s.value = 0 ∨ s.waiters ≠ []

instance (s : Semaphore ι) : Decidable s.locked :=
  match h : s.waiters with
  | [] => decidable_of_iff (s.value = 0) (by simp [locked, h])
  | _ :: _ => isTrue (.inr (by simp [h]))

/-- The queue after a permit was handed to the first task that waits for one. -/
def handOver : List (ι × Bool) → Option (List (ι × Bool))
  | [] => none
  | (i, false) :: rest => some ((i, true) :: rest)
  | (i, true) :: rest => (handOver rest).map ((i, true) :: ·)

/-- Hand out free permits as long as a task waits. -/
def wakeUp : Nat → List (ι × Bool) → Semaphore ι
  | 0, waiters => ⟨0, waiters⟩
  | n + 1, waiters =>
      match handOver waiters with
      | none => ⟨n + 1, waiters⟩
      | some waiters => wakeUp n waiters

/-- `release()` -/
def release (s : Semaphore ι) : Semaphore ι :=
  match handOver s.waiters with
  | none => { s with value := s.value + 1 }
  | some waiters => { s with waiters }

/-- `acquire()` when it need not wait. -/
def acquire? (s : Semaphore ι) : Option (Semaphore ι) :=
  if s.locked then none else some { s with value := s.value - 1 }

/-- `acquire()` joins the queue. -/
def enqueue (s : Semaphore ι) (i : ι) : Semaphore ι :=
  { s with waiters := s.waiters ++ [(i, false)] }

variable [DecidableEq ι]

/-- The wait of a task ends with the permit it was handed. -/
def resume? (s : Semaphore ι) (i : ι) : Option (Semaphore ι) :=
  if (i, true) ∈ s.waiters then some (wakeUp s.value (s.waiters.erase (i, true))) else none

/-- The wait of a task is cancelled; a permit it was handed comes back. -/
def cancel? (s : Semaphore ι) (i : ι) : Option (Semaphore ι) :=
  if (i, true) ∈ s.waiters then some (wakeUp (s.value + 1) (s.waiters.erase (i, true)))
  else if (i, false) ∈ s.waiters then some (wakeUp s.value (s.waiters.erase (i, false)))
  else none

/-- The tasks in the queue that hold a permit. -/
def handed (waiters : List (ι × Bool)) : Nat := waiters.countP (·.2)

/-- The permits that are free or handed to a task in the queue. -/
def permits (s : Semaphore ι) : Nat := s.value + handed s.waiters

omit [DecidableEq ι] in
theorem handed_handOver {waiters waiters' : List (ι × Bool)}
    (h : handOver waiters = some waiters') : handed waiters' = handed waiters + 1 := by
  induction waiters generalizing waiters' with
  | nil => cases h
  | cons w rest ih =>
    obtain ⟨i, woken⟩ := w
    cases woken with
    | false =>
      cases h
      simp [handed]
    | true =>
      obtain ⟨rest', hrest, rfl⟩ := Option.map_eq_some_iff.mp h
      simpa [handed] using ih hrest

omit [DecidableEq ι] in
/-- Handing out permits moves them from the free ones to the queue. -/
theorem permits_wakeUp (n : Nat) (waiters : List (ι × Bool)) :
    (wakeUp n waiters).permits = n + handed waiters := by
  induction n generalizing waiters with
  | zero => rfl
  | succ n ih =>
    rw [wakeUp]
    cases h : handOver waiters with
    | none => rfl
    | some waiters' =>
      show (wakeUp n waiters').permits = _
      rw [ih, handed_handOver h]
      omega

omit [DecidableEq ι] in
theorem permits_release (s : Semaphore ι) : s.release.permits = s.permits + 1 := by
  unfold release permits
  cases h : handOver s.waiters with
  | none =>
    show s.value + 1 + handed s.waiters = _
    omega
  | some waiters =>
    show s.value + handed waiters = _
    rw [handed_handOver h]
    omega

omit [DecidableEq ι] in
theorem permits_acquire {s t : Semaphore ι} (h : s.acquire? = some t) :
    t.permits + 1 = s.permits := by
  unfold acquire? at h
  split at h
  · cases h
  · rename_i hfree
    cases h
    have hpos : s.value ≠ 0 := fun hzero => hfree (.inl hzero)
    show s.value - 1 + handed s.waiters + 1 = s.value + handed s.waiters
    omega

omit [DecidableEq ι] in
theorem permits_enqueue (s : Semaphore ι) (i : ι) : (s.enqueue i).permits = s.permits := by
  simp [enqueue, permits, handed]

theorem handed_erase {waiters : List (ι × Bool)} {w : ι × Bool} (h : w ∈ waiters) :
    handed (waiters.erase w) + (if w.2 then 1 else 0) = handed waiters := by
  have hperm := (List.perm_cons_erase h).countP_eq (·.2)
  simp only [List.countP_cons] at hperm
  exact hperm.symm

theorem permits_resume {s t : Semaphore ι} {i : ι} (h : s.resume? i = some t) :
    t.permits + 1 = s.permits := by
  unfold resume? at h
  split at h
  · rename_i hmem
    cases h
    have herase := handed_erase hmem
    rw [permits_wakeUp, permits, ← herase]
    simp only [if_true]
    omega
  · cases h

theorem permits_cancel {s t : Semaphore ι} {i : ι} (h : s.cancel? i = some t) :
    t.permits = s.permits := by
  unfold cancel? at h
  split at h
  · rename_i hmem
    cases h
    have herase := handed_erase hmem
    rw [permits_wakeUp, permits, ← herase]
    simp only [if_true]
    omega
  · split at h
    · rename_i hmem
      cases h
      have herase := handed_erase hmem
      rw [permits_wakeUp, permits, ← herase]
      simp
    · cases h

end Semaphore

end Blive
