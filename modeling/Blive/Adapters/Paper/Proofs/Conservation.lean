import Blive.Adapters.Paper.Proofs.Step

/-!
# Orders that leave the paper book

A cancellation takes an order out of the book and reports it. The fill step takes it out
before it asks for a price and builds the validated fill; when either raises, the task ends
and the order is gone without a terminal event.
-/

namespace Blive.PaperBroker

open Transition

/-- The terminal event of `cid` is still to come: every continuation in which all lifecycle
tasks have ended holds exactly one more. -/
def TerminalCertain (cfg : PaperConfig) (cid : ClientOrderId) (b : PaperBroker) : Prop :=
  ∀ future b', run (step cfg) b future = some b' → b'.lifecycleTasks = [] →
    terminalCount cid b'.events = terminalCount cid b.events + 1

/-- An order that leaves the book in the step gets exactly one terminal event, in the step
or with certainty after it. -/
def LeavesWithTerminal (cfg : PaperConfig) (b : PaperBroker) (a : Action) : Prop :=
  ∀ b', step cfg b a = some b' → ∀ cid ∈ b.openOrders, cid ∉ b'.openOrders →
    terminalCount cid b'.events = terminalCount cid b.events + 1 ∨ TerminalCertain cfg cid b'

/-- A resumption that reaches the fill step of an open order finds a positive price, and the
commission rate is not negative. -/
def FillsSucceed (cfg : PaperConfig) (b : PaperBroker) : Action → Prop
  | .lifecycle i env => ∀ task ∈ b.lifecycleTasks[i]?, task.cid ∈ b.openOrders →
      fillDue cfg task env.sleepRaises → PricePositive env.price ∧ 0 ≤ cfg.commissionPerShare
  | _ => True

instance (cfg : PaperConfig) (b : PaperBroker) : (a : Action) → Decidable (FillsSucceed cfg b a)
  | .lifecycle _ _ => inferInstanceAs (Decidable (∀ task ∈ _, _ → _ → _))
  | .connect _ | .disconnect _ | .submit _ | .cancel _ _ | .replace _ _ => isTrue trivial

section Step

variable {cfg : PaperConfig} {b b' : PaperBroker}

/-- The book only grows in a step that neither cancels nor resumes a task. -/
theorem openOrders_subset_of_step {a : Action} (h : step cfg b a = some b')
    (hcancel : ∀ cid now, a ≠ .cancel cid now) (hlifecycle : ∀ i env, a ≠ .lifecycle i env) :
    ∀ cid ∈ b.openOrders, cid ∈ b'.openOrders := by
  intro cid hcid
  cases a with
  | connect now => cases h; exact hcid
  | disconnect now => cases h; exact hcid
  | submit order =>
    rcases step_submit_cases h with ⟨rfl, -⟩ | ⟨rfl, -, -⟩
    · exact hcid
    · exact (Dict.mem_set _ _ _ _).mpr (.inr hcid)
  | cancel c now => exact absurd rfl (hcancel c now)
  | replace c new =>
    rcases step_replace_cases h with rfl | ⟨original, replaced, -, -, rfl⟩
    · exact hcid
    · exact (Dict.mem_set _ _ _ _).mpr (.inr hcid)
  | lifecycle i env => exact absurd rfl (hlifecycle i env)

/-- A disconnect ends every task and emits nothing for any order. -/
theorem not_terminalCertain (cid : ClientOrderId) (b : PaperBroker) :
    ¬ TerminalCertain cfg cid b := by
  intro h
  have hcount := h [.disconnect ⟨0⟩] (b.disconnect ⟨0⟩) rfl rfl
  simp [disconnect] at hcount

theorem leavesWithTerminal_cancel (cid : ClientOrderId) (now : Utc) :
    LeavesWithTerminal cfg b (.cancel cid now) := by
  intro b' hstep c hopen hleft
  rcases step_cancel_cases hstep with ⟨rfl, -⟩ | ⟨rfl, -⟩
  · exact absurd hopen hleft
  · have hc : c = cid := by
      by_contra hne
      exact hleft ((Dict.mem_erase _ _ _).mpr ⟨hne, hopen⟩)
    subst hc
    left
    simp [canceled, OrderEvent.withReason, OrderEventKind.isTerminal]

/-- The fill step is the only segment of a lifecycle that can lose an order. -/
theorem leavesWithTerminal_lifecycle_iff (i : Nat) (env : LifecycleEnv) :
    LeavesWithTerminal cfg b (.lifecycle i env) ↔ FillsSucceed cfg b (.lifecycle i env) := by
  simp only [LeavesWithTerminal, FillsSucceed, step_lifecycle_eq_some]
  cases htask : b.lifecycleTasks[i]? with
  | none => simp
  | some task =>
    simp only [Option.some.injEq, exists_eq_left', Option.mem_def, forall_eq', forall_eq]
    obtain ⟨hbook, progress, hprogress, hevents⟩ := simulateLifecycle_effects cfg env task b
    set outcome := (simulateLifecycle cfg env task b) with houtcome
    by_cases hreach : task.cid ∈ b.openOrders ∧ fillDue cfg task env.sleepRaises
    · obtain ⟨ho, hdue⟩ := hreach
      simp only [ho, hdue, and_self, if_true, Option.isSome_some] at hbook hevents
      simp only [forall_const, ho, hdue]
      have hleft : task.cid ∉ (settle (b.lifecycleTasks.eraseIdx i) task outcome).openOrders := by
        simp [settle, hbook]
      cases hfill : computeFill cfg env task with
      | ok fill =>
        rw [hfill] at hevents
        refine iff_of_true (fun cid hopen hgone => .inl ?_) (computeFill_ok_iff.mp ⟨fill, hfill⟩)
        have hc : cid = task.cid := by
          by_contra hne
          apply hgone
          simp [settle, hbook, hne, hopen]
        subst hc
        have hcount := hprogress.terminalCount_eq task.cid
        simp [settle, hevents, hcount, filledEvents, OrderEvent.withFill,
          OrderEventKind.isTerminal]
      | error e =>
        rw [hfill] at hevents
        refine iff_of_false ?_ ?_
        · intro hall
          rcases hall task.cid ho hleft with hcount | hcertain
          · have hzero := hprogress.terminalCount_eq task.cid
            simp [settle, hevents, hzero, filledEvents] at hcount
          · exact not_terminalCertain _ _ hcertain
        · intro hok
          obtain ⟨fill, hok⟩ := computeFill_ok_iff.mpr hok
          rw [hfill] at hok
          cases hok
    · rw [if_neg hreach] at hbook
      refine iff_of_true (fun cid hopen hgone => absurd ?_ hgone)
        (fun ho hdue => absurd ⟨ho, hdue⟩ hreach)
      simpa [settle, hbook] using hopen

theorem leavesWithTerminal_iff (b : PaperBroker) (a : Action) :
    LeavesWithTerminal cfg b a ↔ FillsSucceed cfg b a := by
  cases a with
  | cancel cid now => exact iff_of_true (leavesWithTerminal_cancel cid now) trivial
  | lifecycle i env => exact leavesWithTerminal_lifecycle_iff i env
  | _ =>
    refine iff_of_true (fun b' hstep cid hopen hleft => absurd ?_ hleft) trivial
    exact openOrders_subset_of_step hstep (by simp) (by simp) cid hopen

end Step

/-- No order disappears from the book without its terminal event, exactly when every fill
step that is reached finds a positive price and a commission rate that is not negative. -/
theorem leaves_with_terminal_iff (cfg : PaperConfig) (as : List Action) :
    Along (step cfg) (LeavesWithTerminal cfg) init as ↔
      Along (step cfg) (FillsSucceed cfg) init as :=
  along_congr (I := fun _ => True) (fun _ _ _ _ _ => trivial)
    (fun b a _ => leavesWithTerminal_iff b a) trivial

/-- The price lookup of a market order raises. -/
def noPriceRun : List Action :=
  [.connect ⟨0⟩, .submit (sampleOrder 1),
    .lifecycle 0 ⟨⟨1⟩, .error (.keyError "no price"), false⟩]

theorem not_leaves_with_terminal :
    ¬ ∀ (cfg : PaperConfig) (as : List Action),
      Along (step cfg) (LeavesWithTerminal cfg) init as := by
  intro h
  have hfill : Along (step {}) (FillsSucceed {}) init noPriceRun :=
    (along_congr (I := fun _ => True) (fun _ _ _ _ _ => trivial)
      (fun b a _ => leavesWithTerminal_iff b a) trivial).mp (h {} noPriceRun)
  exact absurd hfill (by decide +kernel)

end Blive.PaperBroker
