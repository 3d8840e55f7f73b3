import Blive.Runtime.Proofs.Step

/-!
# The kill switch and the wire

RC-13 is asked once, before the order is promoted and handed to `submit`. While `submit` waits for
the price rules or the rate limiter the switch may be armed, and nothing asks again before
`placeOrder`. An order is placed under an armed switch exactly when the calls on the switch since
its approval leave it armed.
-/

namespace Blive.IbPipeline

open Transition

/-- The action lets `submit` call `placeOrder`. -/
def placesOrder (s : State) : Action → Bool
  | .acquired (.ok _) _ =>
      match s.task with
      | .inSubmit _ _ ⟨_, .token _ _⟩ _ => true
      | _ => false
  | _ => false

/-- The calls on the kill switch since the order in `submit` was approved. -/
def State.switchedSinceApproval (s : State) : List KillSwitch.Call :=
  match s.task with
  | .inSubmit _ _ _ switched => switched
  | _ => []

/-- `placeOrder` is not called while the switch is armed. -/
def PlacesDisarmed (s : State) (a : Action) : Prop :=
  placesOrder s a → s.killSwitch.armed = false

/-- `placeOrder` is called only for an order since whose approval no call left the switch
armed. -/
def PlacesUnswitched (s : State) (a : Action) : Prop :=
  placesOrder s a → KillSwitch.armedBy s.switchedSinceApproval = false

instance (s : State) (a : Action) : Decidable (PlacesDisarmed s a) :=
  inferInstanceAs (Decidable (_ → _))

instance (s : State) (a : Action) : Decidable (PlacesUnswitched s a) :=
  inferInstanceAs (Decidable (_ → _))

/-- The calls noted since the approval tell whether the switch is armed. -/
def SwitchNoted (s : State) : Prop :=
  ∀ work order call switched, s.task = .inSubmit work order call switched →
    s.killSwitch.armed = KillSwitch.armedBy switched

section Step

variable {loop : RebalanceLoop} {policy : RoundingPolicy} {s t : State}

theorem SwitchNoted.of_idle (h : t.task.idle) : SwitchNoted t := by
  intro work order call switched htask
  rw [htask] at h
  cases h

/-- Exactly the actions of `placesOrder` lengthen the list of placed orders. -/
theorem placed_of_step {a : Action} (h : step loop policy s a = some t) :
    if placesOrder s a then ∃ p, t.placed = s.placed ++ [p] else t.placed = s.placed := by
  cases step_cases h with
  | moved _ task cursor result cancels hfrom hto hcarries hcursor hqueue ha hpush =>
    have hno : placesOrder s a = false := by
      unfold placesOrder
      split
      · rename_i orderId now
        split
        · -- The step would have placed the order.
          rename_i hs
          simp only [step, hs] at h
          have hplaced := congrArg State.placed (Option.some.inj h)
          simp [RebalanceLoop.submitReturned] at hplaced
        · rfl
      · rfl
    rw [hno]
    exact rfl
  | submitted ids artefact rebalance desired orders bars result submission hfrom =>
    simp only [placesOrder, RebalanceLoop.callSubmit]
    cases s.broker.submit submission.order <;> rfl
  | ruled result now work order wired switched hfrom =>
    simp only [placesOrder]
    cases (s.broker.afterPriceRules policy wired result now).2 <;> rfl
  | placed orderId now work order wired contract ibOrder switched hfrom =>
    simp only [placesOrder, hfrom]
    exact ⟨_, rfl⟩
  | read work drain event hfrom => exact rfl
  | ended work drain event hfrom =>
    exact (settle_frame loop { s with cursor := s.cursor + 1 } work (drain.read event)).2.1
  | timedOut work drain hfrom => exact (settle_frame loop s work drain).2.1
  | switched call => exact rfl
  | pushed action system hpush hstep => exact rfl

theorem SwitchNoted.step {a : Action} (hs : SwitchNoted s)
    (h : IbPipeline.step loop policy s a = some t) : SwitchNoted t := by
  cases step_cases h with
  | moved _ task cursor result cancels hfrom hto => exact .of_idle hto
  | submitted ids artefact rebalance desired orders bars result submission hfrom _ hswitch hmade =>
    have hdisarmed : s.killSwitch.armed = false := by
      obtain ⟨-, hpasses, -⟩ := RiskEngine.approve_eq_some_iff.mp hmade.approved
      rw [← hswitch]
      exact hpasses.killSwitch
    intro work order call switched htask
    revert htask
    simp only [RebalanceLoop.callSubmit]
    cases s.broker.submit submission.order with
    | error e =>
      intro htask
      cases htask
    | ok call' =>
      intro htask
      cases htask
      exact hdisarmed
  | ruled result now work order wired switched hfrom =>
    intro work' order' call' switched' htask
    revert htask
    cases (s.broker.afterPriceRules policy wired result now).2 with
    | suspended call =>
      intro htask
      cases htask
      exact hs _ _ _ _ hfrom
    | returned =>
      intro htask
      cases htask
    | raised e =>
      intro htask
      cases htask
  | placed orderId now work order wired contract ibOrder switched hfrom =>
    intro work' order' call' switched' htask
    cases htask
  | read work drain event hfrom =>
    intro work' order' call' switched' htask
    cases htask
  | ended work drain event hfrom =>
    exact .of_idle (settle_frame loop { s with cursor := s.cursor + 1 } work _).2.2.2.2.1
  | timedOut work drain hfrom => exact .of_idle (settle_frame loop s work _).2.2.2.2.1
  | switched call =>
    intro work order submitCall switched htask
    cases hs' : s.task with
    | inSubmit work' order' submitCall' switched' =>
      simp only [hs', Task.noteSwitch] at htask
      cases htask
      exact KillSwitch.armed_after_eq_armedBy (hs _ _ _ _ hs') call
    | _ =>
      simp only [hs', Task.noteSwitch] at htask
      cases htask
  | pushed action system hpush hstep => exact hs

/-- While an order is in `submit`, the switch is armed when the calls noted since left it so. -/
theorem placesDisarmed_iff (a : Action) (hs : SwitchNoted s) :
    PlacesDisarmed s a ↔ PlacesUnswitched s a := by
  unfold PlacesDisarmed PlacesUnswitched State.switchedSinceApproval
  cases htask : s.task with
  | inSubmit work order call switched => rw [hs _ _ _ _ htask]
  | _ =>
    have hno : placesOrder s a = false := by
      unfold placesOrder
      split
      · simp [htask]
      · rfl
    simp [hno]

end Step

/-- Whatever pipeline runs the loop: no order reaches the wire under an armed switch, exactly when
no order is placed after calls since its approval have left the switch armed. -/
theorem never_placed_armed_iff (loop : RebalanceLoop) (policy : RoundingPolicy) (broker : IBBroker)
    (placed : List PlacedOrder) (killSwitch : KillSwitch) (as : List Action) :
    Along (step loop policy) PlacesDisarmed (loop.start broker placed killSwitch) as ↔
      Along (step loop policy) PlacesUnswitched (loop.start broker placed killSwitch) as :=
  along_congr (fun _ _ _ => SwitchNoted.step) (fun _ a => placesDisarmed_iff a) (.of_idle rfl)

/-- The switch is armed while the approved order waits for the rate limiter. -/
def armedInSubmitRun : List Action :=
  [sampleProceed 1, sampleProceed 2, .killSwitch (.arm "manual"), .acquired (.ok 7) ⟨1⟩]

theorem not_never_placed_armed :
    ¬ ∀ (args : IbPipelineArgs) (broker : IBBroker) (loop : RebalanceLoop)
      (policy : RoundingPolicy) (killSwitch : KillSwitch) (as : List Action),
      runIbPipeline args broker = .ok loop →
        Along (step loop policy) PlacesDisarmed (loop.start broker [] killSwitch) as := by
  intro h
  obtain ⟨loop, s, hloop, -, harmed⟩ := Pipeline.exists_run (.single sampleArgs) armedInSubmitRun
    (fun loop _ => !decide (Along (step loop .nearest) PlacesDisarmed
      (loop.start sampleBroker [] {}) armedInSubmitRun))
    (by decide +kernel)
  have hplaced := h sampleArgs sampleBroker loop .nearest {} armedInSubmitRun hloop
  simp [hplaced] at harmed

end Blive.IbPipeline
