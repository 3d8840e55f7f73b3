import Mathlib.Data.List.Basic

/-!
# Machines that emit a value at each input

A loop that carries a state over a sequence and appends one value at each element. The value at
a place is decided by the inputs up to it, and a map between the states of two machines that
commutes with their steps carries the outputs of one to those of the other.
-/

namespace Blive.Machine

variable {σ τ ι κ ω ν : Type*}

/-- The values the machine emits on the inputs. -/
def outputs (step : σ → ι → σ × ω) : σ → List ι → List ω
  | _, [] => []
  | s, a :: as => (step s a).2 :: outputs step (step s a).1 as

/-- The state the machine is in after the inputs. -/
def stateAfter (step : σ → ι → σ × ω) (s : σ) (as : List ι) : σ :=
  as.foldl (fun s a => (step s a).1) s

variable {step : σ → ι → σ × ω} {step' : τ → κ → τ × ν}

@[simp] theorem length_outputs (s : σ) (as : List ι) :
    (outputs step s as).length = as.length := by
  induction as generalizing s with
  | nil => rfl
  | cons a as ih => simp [outputs, ih]

/-- Later inputs change no earlier output. -/
theorem outputs_take (s : σ) (as : List ι) (n : Nat) :
    (outputs step s as).take n = outputs step s (as.take n) := by
  induction as generalizing s n with
  | nil => simp [outputs]
  | cons a as ih =>
    cases n with
    | zero => rfl
    | succ n => simp [outputs, ih]

/-- The output at a place is that of the state the inputs before it lead to. -/
theorem getElem?_outputs (s : σ) (as : List ι) (i : Nat) :
    (outputs step s as)[i]? =
      as[i]?.map fun a => (step (stateAfter step s (as.take i)) a).2 := by
  induction as generalizing s i with
  | nil => simp [outputs]
  | cons a as ih =>
    cases i with
    | zero => rfl
    | succ i =>
      simp only [outputs, List.getElem?_cons_succ, ih]
      rfl

theorem stateAfter_take_succ (s : σ) {as : List ι} {i : Nat} {a : ι} (h : as[i]? = some a) :
    stateAfter step s (as.take (i + 1)) = (step (stateAfter step s (as.take i)) a).1 := by
  simp [stateAfter, List.take_add_one, h]

/-- Inputs that do not move a state leave the machine in it. -/
theorem stateAfter_eq_self {s : σ} {as : List ι} (h : ∀ a ∈ as, (step s a).1 = s) :
    stateAfter step s as = s := by
  induction as with
  | nil => rfl
  | cons a as ih =>
    obtain ⟨hhead, htail⟩ := List.forall_mem_cons.mp h
    calc stateAfter step s (a :: as) = stateAfter step (step s a).1 as := rfl
      _ = stateAfter step s as := by rw [hhead]
      _ = s := ih htail

/-- Maps that commute with the steps carry the outputs over. -/
theorem outputs_map {f : σ → τ} {g : ι → κ} {h : ω → ν}
    (hstep : ∀ s a, step' (f s) (g a) = (f (step s a).1, h (step s a).2)) (s : σ) (as : List ι) :
    outputs step' (f s) (as.map g) = (outputs step s as).map h := by
  induction as generalizing s with
  | nil => rfl
  | cons a as ih =>
    simp only [List.map_cons, outputs, hstep, ih]

end Blive.Machine
