import Mathlib.Data.List.Basic
import Mathlib.Logic.Function.Iterate

/-!
# Runs of partial step functions

A system is a partial step function `σ → ι → Option σ`: the action `a` is enabled in `s`
when `step s a` is some state, and all nondeterminism (scheduling, the answers of the
environment) sits in the action. A run is the list of its actions; `run` folds the step
over it. The rules below are the ones every safety proof uses: an invariant of one step is
an invariant of a run, and a property that each step keeps exactly under a condition holds
at the end of a run exactly when the condition held along it. What is observed in the steps
makes up the trace of a run; a view that each step moves by its observations depends on the
trace alone.
-/

namespace Blive.Transition

variable {σ ι : Type*}

/-- The state the actions lead to, `none` when one of them is not enabled. -/
@[grind =] def run (step : σ → ι → Option σ) : σ → List ι → Option σ
  | s, [] => some s
  | s, a :: as => (step s a).bind fun t => run step t as

/-- `C` holds of every action of the run, in the state the action is taken in. -/
@[grind =] def Along (step : σ → ι → Option σ) (C : σ → ι → Prop) : σ → List ι → Prop
  | _, [] => True
  | s, a :: as => C s a ∧ (match step s a with
      | none => True
      | some t => Along step C t as)

instance Along.decidable (step : σ → ι → Option σ) (C : σ → ι → Prop)
    [∀ s a, Decidable (C s a)] : ∀ (s : σ) (as : List ι), Decidable (Along step C s as)
  | _, [] => isTrue trivial
  | s, a :: as =>
      match h : step s a with
      | none => decidable_of_iff (C s a) (by simp [Along, h])
      | some t =>
          have := Along.decidable step C t as
          decidable_of_iff (C s a ∧ Along step C t as) (by simp [Along, h])

section Run

variable {step : σ → ι → Option σ}

@[simp] theorem run_nil (s : σ) : run step s [] = some s := rfl

theorem run_cons_eq_some {s t : σ} {a : ι} {as : List ι} :
    run step s (a :: as) = some t ↔ ∃ m, step s a = some m ∧ run step m as = some t := by
  simp [run, Option.bind_eq_some_iff]

/-- A run of a concatenation is a run of the first part followed by one of the second. -/
theorem run_append (s : σ) (as bs : List ι) :
    run step s (as ++ bs) = (run step s as).bind fun t => run step t bs := by
  induction as generalizing s with
  | nil => rfl
  | cons a as ih =>
    simp only [List.cons_append, run]
    cases step s a with
    | none => rfl
    | some t => exact ih t

/-- What every step preserves, every run preserves. -/
theorem run_invariant {I : σ → Prop} (hstep : ∀ s a t, I s → step s a = some t → I t)
    {s t : σ} {as : List ι} (hs : I s) (hrun : run step s as = some t) : I t := by
  induction as generalizing s with
  | nil => cases hrun; exact hs
  | cons a as ih =>
    obtain ⟨m, hm, hrest⟩ := run_cons_eq_some.mp hrun
    exact ih (hstep s a m hs hm) hrest

/-- An invariant may also speak of the actions taken so far. -/
theorem run_invariant_history {I : List ι → σ → Prop}
    (hstep : ∀ past s a t, I past s → step s a = some t → I (past ++ [a]) t)
    {past as : List ι} {s t : σ} (hs : I past s) (hrun : run step s as = some t) :
    I (past ++ as) t := by
  induction as generalizing past s with
  | nil =>
    cases hrun
    rwa [List.append_nil]
  | cons a as ih =>
    obtain ⟨m, hm, hrest⟩ := run_cons_eq_some.mp hrun
    rw [List.append_cons]
    exact ih (hstep past s a m hs hm) hrest

/-- What no step can leave behind fails all along a run at whose end it fails. -/
theorem along_not_of_absorbing {Q : σ → Prop} (habs : ∀ s a t, Q s → step s a = some t → Q t)
    {s t : σ} {as : List ι} (hrun : run step s as = some t) (ht : ¬ Q t) :
    Along step (fun s a => ∀ m, step s a = some m → ¬ Q m) s as := by
  induction as generalizing s with
  | nil => trivial
  | cons a as ih =>
    obtain ⟨m, hm, hrest⟩ := run_cons_eq_some.mp hrun
    refine ⟨?_, ?_⟩
    · intro m' hm' hQ
      cases hm.symm.trans hm'
      exact ht (run_invariant habs hQ hrest)
    · rw [hm]
      exact ih hrest

end Run

section Along

variable {step : σ → ι → Option σ} {C D : σ → ι → Prop}

theorem along_cons {s m : σ} {a : ι} {as : List ι} (hm : step s a = some m) :
    Along step C s (a :: as) ↔ C s a ∧ Along step C m as := by
  simp [Along, hm]

theorem Along.and {s : σ} {as : List ι} (hC : Along step C s as) (hD : Along step D s as) :
    Along step (fun s a => C s a ∧ D s a) s as := by
  induction as generalizing s with
  | nil => trivial
  | cons a as ih =>
    obtain ⟨hCa, hCrest⟩ := hC
    obtain ⟨hDa, hDrest⟩ := hD
    refine ⟨⟨hCa, hDa⟩, ?_⟩
    cases h : step s a with
    | none => trivial
    | some t =>
      rw [h] at hCrest hDrest
      exact ih hCrest hDrest

theorem Along.of_forall (h : ∀ s a, C s a) {s : σ} {as : List ι} : Along step C s as := by
  induction as generalizing s with
  | nil => trivial
  | cons a as ih =>
    refine ⟨h s a, ?_⟩
    cases step s a with
    | none => trivial
    | some t => exact ih

theorem Along.of_mem {D : ι → Prop} {s : σ} {as : List ι} (h : ∀ a ∈ as, D a) :
    Along step (fun _ a => D a) s as := by
  induction as generalizing s with
  | nil => trivial
  | cons a as ih =>
    obtain ⟨ha, has⟩ := List.forall_mem_cons.mp h
    refine ⟨ha, ?_⟩
    cases step s a with
    | none => trivial
    | some t => exact ih has

/-- What every step that meets `C` preserves, a run that meets `C` preserves. -/
theorem run_invariant_along {I : σ → Prop}
    (hstep : ∀ s a t, I s → C s a → step s a = some t → I t)
    {s t : σ} {as : List ι} (hs : I s) (hC : Along step C s as)
    (hrun : run step s as = some t) : I t := by
  induction as generalizing s with
  | nil => cases hrun; exact hs
  | cons a as ih =>
    obtain ⟨m, hm, hrest⟩ := run_cons_eq_some.mp hrun
    obtain ⟨ha, has⟩ := (along_cons hm).mp hC
    exact ih (hstep s a m hs ha hm) has hrest

/-- An invariant of a run that meets `C` may also speak of the actions taken so far. -/
theorem run_invariant_history_along {I : List ι → σ → Prop}
    (hstep : ∀ past s a t, I past s → C s a → step s a = some t → I (past ++ [a]) t)
    {past as : List ι} {s t : σ} (hs : I past s) (hC : Along step C s as)
    (hrun : run step s as = some t) : I (past ++ as) t := by
  induction as generalizing past s with
  | nil =>
    cases hrun
    rwa [List.append_nil]
  | cons a as ih =>
    obtain ⟨m, hm, hrest⟩ := run_cons_eq_some.mp hrun
    obtain ⟨ha, has⟩ := (along_cons hm).mp hC
    rw [List.append_cons]
    exact ih (hstep past s a m hs ha hm) has hrest

/-- If a step keeps `P` exactly when it meets `C`, then `P` survives a run exactly when the
run meets `C` all along. `I` is what may be assumed of the states passed, `D` what is assumed
of the actions. -/
theorem run_iff_along {I P : σ → Prop}
    (hI : ∀ s a t, I s → D s a → step s a = some t → I t)
    (hP : ∀ s a t, I s → D s a → step s a = some t → (P t ↔ P s ∧ C s a))
    {s t : σ} {as : List ι} (hs : I s) (hD : Along step D s as) (hrun : run step s as = some t) :
    P t ↔ P s ∧ Along step C s as := by
  induction as generalizing s with
  | nil => cases hrun; simp [Along]
  | cons a as ih =>
    obtain ⟨m, hm, hrest⟩ := run_cons_eq_some.mp hrun
    obtain ⟨ha, has⟩ := (along_cons hm).mp hD
    rw [ih (hI s a m hs ha hm) has hrest, hP s a m hs ha hm, along_cons hm, and_assoc]

/-- A condition holds along a run when it holds after every enabled prefix. -/
theorem along_iff_prefixes {s : σ} {as : List ι} :
    Along step C s as ↔
      ∀ pre a post m, as = pre ++ a :: post → run step s pre = some m → C m a := by
  induction as generalizing s with
  | nil => simp [Along]
  | cons a as ih =>
    constructor
    · rintro ⟨ha, has⟩ pre a' post m hsplit hrun
      cases pre with
      | nil =>
        cases hsplit
        cases hrun
        exact ha
      | cons p pre =>
        cases hsplit
        obtain ⟨n, hn, hpre⟩ := run_cons_eq_some.mp hrun
        rw [hn] at has
        exact ih.mp has pre a' post m rfl hpre
    · intro h
      refine ⟨h [] a as s rfl rfl, ?_⟩
      cases hm : step s a with
      | none => trivial
      | some n =>
        apply ih.mpr
        intro pre a' post m hsplit hrun
        exact h (a :: pre) a' post m (by rw [hsplit]; rfl)
          (run_cons_eq_some.mpr ⟨n, hm, hrun⟩)

/-- Two conditions that agree in the states of a run hold along it together, where a step that
meets the first keeps what they agree under. -/
theorem along_congr_of_kept {I : σ → Prop} (hI : ∀ s a t, I s → C s a → step s a = some t → I t)
    (hCD : ∀ s a, I s → (C s a ↔ D s a)) {s : σ} {as : List ι} (hs : I s) :
    Along step C s as ↔ Along step D s as := by
  induction as generalizing s with
  | nil => simp [Along]
  | cons a as ih =>
    simp only [Along, ← hCD s a hs]
    apply and_congr_right
    intro ha
    cases hm : step s a with
    | none => rfl
    | some m => exact ih (hI s a m hs ha hm)

theorem along_congr {I : σ → Prop} (hI : ∀ s a t, I s → step s a = some t → I t)
    (hCD : ∀ s a, I s → (C s a ↔ D s a)) {s : σ} {as : List ι} (hs : I s) :
    Along step C s as ↔ Along step D s as :=
  along_congr_of_kept (fun s a t h _ => hI s a t h) hCD hs

end Along

section Trace

variable {ω ν : Type*} {step : σ → ι → Option σ} {obs : σ → ι → σ → List ω}

/-- What is observed in a run, when `obs s a t` is observed in a step from `s` to `t`. -/
@[grind =] def trace (step : σ → ι → Option σ) (obs : σ → ι → σ → List ω) : σ → List ι → List ω
  | _, [] => []
  | s, a :: as =>
      match step s a with
      | none => []
      | some t => obs s a t ++ trace step obs t as

theorem trace_cons {s m : σ} {a : ι} {as : List ι} (hm : step s a = some m) :
    trace step obs s (a :: as) = obs s a m ++ trace step obs m as := by
  simp [trace, hm]

theorem trace_append {s m : σ} {as bs : List ι} (hrun : run step s as = some m) :
    trace step obs s (as ++ bs) = trace step obs s as ++ trace step obs m bs := by
  induction as generalizing s with
  | nil =>
    cases hrun
    rfl
  | cons a as ih =>
    obtain ⟨n, hn, hrest⟩ := run_cons_eq_some.mp hrun
    rw [List.cons_append, trace_cons hn, trace_cons hn, ih hrest, List.append_assoc]

/-- An invariant may also speak of what has been observed so far. -/
theorem run_invariant_trace {I : List ω → σ → Prop}
    (hstep : ∀ seen s a t, I seen s → step s a = some t → I (seen ++ obs s a t) t)
    {seen : List ω} {s t : σ} {as : List ι} (hs : I seen s) (hrun : run step s as = some t) :
    I (seen ++ trace step obs s as) t := by
  induction as generalizing seen s with
  | nil =>
    cases hrun
    rwa [trace, List.append_nil]
  | cons a as ih =>
    obtain ⟨m, hm, hrest⟩ := run_cons_eq_some.mp hrun
    rw [trace_cons hm, ← List.append_assoc]
    exact ih (hstep seen s a m hs hm) hrest

/-- `P` holds of everything observed, in the view in which it is observed. -/
@[grind =] def Throughout (hear : ν → ω → ν) (P : ν → ω → Prop) : ν → List ω → Prop
  | _, [] => True
  | v, o :: os => P v o ∧ Throughout hear P (hear v o) os

instance Throughout.decidable (hear : ν → ω → ν) (P : ν → ω → Prop) [∀ v o, Decidable (P v o)] :
    ∀ (v : ν) (os : List ω), Decidable (Throughout hear P v os)
  | _, [] => isTrue trivial
  | v, o :: os =>
      have := Throughout.decidable hear P (hear v o) os
      inferInstanceAs (Decidable (P v o ∧ Throughout hear P (hear v o) os))

theorem throughout_append {hear : ν → ω → ν} {P : ν → ω → Prop} {v : ν} {os os' : List ω} :
    Throughout hear P v (os ++ os') ↔
      Throughout hear P v os ∧ Throughout hear P (os.foldl hear v) os' := by
  induction os generalizing v with
  | nil => simp [Throughout]
  | cons o os ih => simp [Throughout, ih, and_assoc]

theorem Throughout.and {hear : ν → ω → ν} {P Q R : ν → ω → Prop} {v : ν} {os : List ω}
    (hP : Throughout hear P v os) (hQ : Throughout hear Q v os)
    (h : ∀ v o, P v o → Q v o → R v o) : Throughout hear R v os := by
  induction os generalizing v with
  | nil => trivial
  | cons o os ih => exact ⟨h v o hP.1 hQ.1, ih hP.2 hQ.2⟩

/-- What every observation that meets `P` keeps, holds of the view at the end. -/
theorem Throughout.foldl {hear : ν → ω → ν} {P : ν → ω → Prop} {I : ν → Prop} {v : ν} {os : List ω}
    (h : Throughout hear P v os) (hI : ∀ v o, I v → P v o → I (hear v o)) (hv : I v) :
    I (os.foldl hear v) := by
  induction os generalizing v with
  | nil => exact hv
  | cons o os ih => exact ih h.2 (hI v o hv h.1)

/-- If what a step shows is as it should be exactly when the step meets `C`, and a step that
meets `C` keeps the view linked to the state, then all is as it should be throughout a run exactly
when the run meets `C` all along. -/
theorem throughout_iff_along {hear : ν → ω → ν} {P : ν → ω → Prop} {C : σ → ι → Prop}
    {Link : ν → σ → Prop}
    (hstep : ∀ v s a t, Link v s → step s a = some t →
      (Throughout hear P v (obs s a t) ↔ C s a) ∧ (C s a → Link ((obs s a t).foldl hear v) t))
    {v : ν} {s t : σ} {as : List ι} (hs : Link v s) (hrun : run step s as = some t) :
    Throughout hear P v (trace step obs s as) ↔ Along step C s as := by
  induction as generalizing v s with
  | nil => exact Iff.rfl
  | cons a as ih =>
    obtain ⟨m, hm, hrest⟩ := run_cons_eq_some.mp hrun
    obtain ⟨hiff, hlink⟩ := hstep v s a m hs hm
    rw [trace_cons hm, throughout_append, along_cons hm, hiff]
    exact and_congr_right fun ha => ih (hlink ha) hrest

/-- What holds of every observation holds throughout. -/
theorem throughout_of_forall {hear : ν → ω → ν} {P : ω → Prop} {v : ν} {os : List ω}
    (h : ∀ o ∈ os, P o) : Throughout hear (fun _ => P) v os := by
  induction os generalizing v with
  | nil => trivial
  | cons o os ih => exact ⟨h o List.mem_cons_self, ih fun o ho => h o (List.mem_cons_of_mem _ ho)⟩

/-- What holds of the observations of the steps by its actions holds of a trace. -/
theorem forall_mem_trace {P : ω → Prop} {s : σ} {as : List ι}
    (h : ∀ a ∈ as, ∀ s t, ∀ o ∈ obs s a t, P o) : ∀ o ∈ trace step obs s as, P o := by
  induction as generalizing s with
  | nil => simp [trace]
  | cons a as ih =>
    cases hm : step s a with
    | none => simp [trace, hm]
    | some m =>
      rw [trace_cons hm]
      intro o ho
      rcases List.mem_append.mp ho with ho | ho
      · exact h a List.mem_cons_self s m o ho
      · exact ih (fun a ha => h a (List.mem_cons_of_mem _ ha)) o ho

/-- A map of the views that goes along with the observations takes what holds throughout with
it. -/
theorem Throughout.map {ν' : Type*} {hear : ν → ω → ν} {hear' : ν' → ω → ν'} {f : ν → ν'}
    {P : ν → ω → Prop} {P' : ν' → ω → Prop} {v : ν} {os : List ω}
    (hf : ∀ v o, f (hear v o) = hear' (f v) o) (hP : ∀ v o, P v o → P' (f v) o)
    (h : Throughout hear P v os) : Throughout hear' P' (f v) os := by
  induction os generalizing v with
  | nil => trivial
  | cons o os ih =>
    refine ⟨hP v o h.1, ?_⟩
    rw [← hf]
    exact ih h.2

/-- What holds of the view at every observation holds of the iterates the observations are. -/
theorem Throughout.iterate {hear : ν → ω → ν} {next : ν → ν} {Q : ν → Prop} {v : ν} {os : List ω}
    (h : Throughout hear (fun v o => hear v o = next v ∧ Q v) v os) :
    ∀ k < os.length, Q (next^[k] v) := by
  induction os generalizing v with
  | nil => simp
  | cons o os ih =>
    intro k hk
    cases k with
    | zero => exact h.1.2
    | succ k =>
      rw [Function.iterate_succ_apply, ← h.1.1]
      exact ih h.2 k (Nat.lt_of_succ_lt_succ hk)

/-- Observations that leave nothing open make the view an iterate of its successor. -/
theorem foldl_eq_iterate {hear : ν → ω → ν} {next : ν → ν} {v : ν} {os : List ω}
    (h : Throughout hear (fun v o => hear v o = next v) v os) :
    os.foldl hear v = next^[os.length] v := by
  induction os generalizing v with
  | nil => rfl
  | cons o os ih =>
    rw [List.foldl_cons, ih h.2, h.1, List.length_cons, Function.iterate_succ_apply]

/-- Once fixed, the iterates stay where they are. -/
theorem iterate_eq_of_le {next : ν → ν} {v : ν} {m n : Nat}
    (hm : next (next^[m] v) = next^[m] v) (h : m ≤ n) : next^[n] v = next^[m] v := by
  obtain ⟨k, rfl⟩ := Nat.exists_eq_add_of_le h
  rw [Nat.add_comm, Function.iterate_add_apply]
  exact Function.iterate_fixed hm k

/-- Two iterates that are fixed are the same. -/
theorem iterate_unique {next : ν → ν} {v : ν} {m n : Nat}
    (hm : next (next^[m] v) = next^[m] v) (hn : next (next^[n] v) = next^[n] v) :
    next^[m] v = next^[n] v := by
  rcases Nat.le_total m n with h | h
  · exact (iterate_eq_of_le hm h).symm
  · exact iterate_eq_of_le hn h

section View

variable {I : σ → Prop} {view : σ → ν} {hear : ν → ω → ν} {s t : σ} {as : List ι}

/-- A view that every step moves by its observations is moved by a run by its trace. -/
theorem run_view (hI : ∀ s a t, I s → step s a = some t → I t)
    (hview : ∀ s a t, I s → step s a = some t → view t = (obs s a t).foldl hear (view s))
    (hs : I s) (hrun : run step s as = some t) :
    view t = (trace step obs s as).foldl hear (view s) := by
  induction as generalizing s with
  | nil =>
    cases hrun
    rfl
  | cons a as ih =>
    obtain ⟨m, hm, hrest⟩ := run_cons_eq_some.mp hrun
    rw [trace_cons hm, List.foldl_append, ← hview s a m hs hm, ih (hI s a m hs hm) hrest]

/-- What holds of the observations of every step holds throughout a run. -/
theorem run_throughout {P : ν → ω → Prop} (hI : ∀ s a t, I s → step s a = some t → I t)
    (hview : ∀ s a t, I s → step s a = some t → view t = (obs s a t).foldl hear (view s))
    (hP : ∀ s a t, I s → step s a = some t → Throughout hear P (view s) (obs s a t))
    (hs : I s) (hrun : run step s as = some t) :
    Throughout hear P (view s) (trace step obs s as) := by
  induction as generalizing s with
  | nil => trivial
  | cons a as ih =>
    obtain ⟨m, hm, hrest⟩ := run_cons_eq_some.mp hrun
    rw [trace_cons hm, throughout_append, ← hview s a m hs hm]
    exact ⟨hP s a m hs hm, ih (hI s a m hs hm) hrest⟩

end View

end Trace

end Blive.Transition
