import Blive.Runtime.Proofs.Agreement
import Blive.Runtime.Proofs.PaperPipeline

/-!
# The paper pipeline simulates the IB pipeline

Up to what is traded, `run_paper_pipeline` and `run_ib_pipeline` with market orders are one leg,
and a paper broker is surroundings in which every order is filled at the close. So the paper
pipeline comes to the outcome of the IB pipeline in these surroundings, unless its clock is asked to
go back: the closes of the tape must not.
-/

namespace Blive.IbPipeline

open Transition SingleLeg

section Finish

variable {loop : RebalanceLoop} {policy : RoundingPolicy} {s t : State}

theorem settle_not_finished (s : State) (work : Work) (drain : Drain) :
    (loop.settle s work drain).task ≠ .finished := by
  intro hfinished
  simp only [RebalanceLoop.settle] at hfinished
  split at hfinished
  · simp only [RebalanceLoop.bookFill] at hfinished
    split at hfinished <;> cases hfinished
  · cases hfinished
  · cases hfinished
  · simp only [RebalanceLoop.engineCancel] at hfinished
    split at hfinished <;> cases hfinished

/-- A step to the end is the end of the loop, or it was over before. -/
theorem finished_cases {a : Action} (h : step loop policy s a = some t)
    (hfinished : t.task = .finished) :
    t = loop.finish s ∨ s.task = .finished ∧ t.result = s.result := by
  cases a with
  | proceed ids artefact =>
    simp only [step] at h
    split at h
    · cases h
      exact .inl rfl
    · cases h
      simp only [RebalanceLoop.openRebalance] at hfinished
      split at hfinished
      · cases hfinished
      · cases hfinished
      · split at hfinished <;> cases hfinished
    · cases h
      cases hfinished
    · rename_i rebalance desired orders bars htask
      cases h
      rcases submitOrder_cases loop s ⟨rebalance, orders, bars⟩ desired (ids 0) artefact with
        ⟨task, result, heq, hto⟩ | ⟨submission, result, heq, -⟩
      · rw [heq] at hfinished
        rcases hto with rfl | ⟨e, rfl⟩ <;> cases hfinished
      · rw [heq] at hfinished
        simp only [RebalanceLoop.callSubmit] at hfinished
        split at hfinished <;> cases hfinished
    · cases h
  | priceRules result now =>
    simp only [step] at h
    split at h
    · cases h
      simp only [RebalanceLoop.submitEnded] at hfinished
      split at hfinished <;> cases hfinished
    · cases h
  | acquired result now =>
    simp only [step] at h
    split at h
    · split at h <;> cases h <;> cases hfinished
    · cases h
  | canceled result =>
    simp only [step] at h
    split at h
    · split at h <;> cases h <;> cases hfinished
    · cases h
  | getEvent =>
    simp only [step] at h
    split at h
    · cases h
      split at hfinished
      · exact absurd hfinished (settle_not_finished _ _ _)
      · cases hfinished
    · cases h
      split at hfinished <;> cases hfinished
    · cases h
  | timeout =>
    simp only [step] at h
    split at h
    · cases h
      exact absurd hfinished (settle_not_finished _ _ _)
    · cases h
      cases hfinished
    · cases h
  | killSwitch call =>
    cases h
    refine .inr ⟨?_, rfl⟩
    cases htask : s.task <;> simp [htask, Task.noteSwitch] at hfinished ⊢
  | venue action =>
    simp only [step] at h
    split at h
    · obtain ⟨system, -, rfl⟩ := Option.map_eq_some_iff.mp h
      exact .inr ⟨hfinished, rfl⟩
    · cases h

/-- What a finished run reports is the equity at its last rebalance. -/
theorem finalEquity_of_finished {broker : IBBroker} {placed : List PlacedOrder}
    {killSwitch : KillSwitch} {as : List Action}
    (hrun : run (step loop policy) (loop.start broker placed killSwitch) as = some s)
    (hfinished : s.task = .finished) :
    s.result.finalEquity =
      (s.result.equityCurve.getLast?.map (·.equity)).getD loop.startingCash := by
  let Reported (s : State) : Prop := s.task = .finished → s.result.finalEquity =
    (s.result.equityCurve.getLast?.map (·.equity)).getD loop.startingCash
  have hstep (s : State) (a : Action) (t : State) (hs : Reported s)
      (h : step loop policy s a = some t) : Reported t := by
    intro hover
    rcases finished_cases h hover with rfl | ⟨hbefore, hsame⟩
    · rfl
    · rw [hsame]
      exact hs hbefore
  exact run_invariant (I := Reported) hstep (fun h => by cases h) hrun hfinished

/-- In a trace of a pipeline, a fill comes with a commission that is not negative. -/
def Payable : Heard → Prop
  | .answered (.filled _ _ commission) => 0 ≤ commission
  | _ => True

theorem heard_payable (s : State) (a : Action) (t : State) : ∀ o ∈ heard s a t, Payable o := by
  have hleaving : ∀ o ∈ t.task.leaving, Payable o := by
    intro o ho
    cases htask : t.task with
    | raised e =>
      rw [htask] at ho
      rw [List.mem_singleton.mp ho]
      trivial
    | atOrder work =>
      rw [htask] at ho
      rw [List.mem_singleton.mp ho]
      trivial
    | _ =>
      rw [htask] at ho
      cases ho
  have hsettled (drain : Drain) : ∀ o ∈ drain.settled t.task, Payable o := by
    unfold Drain.settled
    cases drain.bookedFill with
    | none => exact hleaving
    | some fill =>
      intro o ho
      rw [List.mem_singleton.mp ho]
      exact ((Fill.valid_iff _).mp fill.valid).2.2.1
  cases a with
  | proceed ids artefact =>
    simp only [heard]
    split
    · intro o ho
      rcases List.mem_cons.mp ho with rfl | ho
      · trivial
      · split at ho
        · exact hleaving o ho
        · cases ho
    · intro o ho
      rw [List.mem_singleton.mp ho]
      trivial
  | getEvent =>
    simp only [heard]
    split
    · exact hsettled _
    · exact hleaving
  | timeout =>
    simp only [heard]
    split
    · exact hsettled _
    · exact hleaving
  | priceRules result now => exact hleaving
  | acquired result now => exact hleaving
  | canceled result => exact hleaving
  | killSwitch call => exact fun o ho => by cases ho
  | venue action => exact fun o ho => by cases ho

end Finish

/-- A leg whose orders are market orders passes every candidate on. -/
theorem IbPipelineArgs.passesOn {args : IbPipelineArgs} (hmkt : args.orderType = .mkt) :
    args.singleLeg.PassesOn := by
  intro bar desired
  have hvalid : postInit (ibOrderFields desired .mkt desired.val.timeInForce none 0) = .ok () := by
    obtain ⟨hstrategy, hquantity, -, -, -, -, hcreated, htags⟩ :=
      (Order.valid_iff _).mp desired.valid
    refine (Order.valid_iff _).mpr ⟨hstrategy, hquantity, ?_, fun _ => rfl, ?_, fun _ => rfl,
      hcreated, ?_⟩
    · simp [ibOrderFields, OrderType.needsLimit]
    · simp [ibOrderFields, OrderType.needsStop]
    · intro tag htag
      have hkey := List.mem_map_of_mem (f := Prod.fst) htag
      rcases (Dict.mem_keys_setItems _ _ _ _).mp hkey with hnew | hold
      · rw [hnew]
        decide
      · obtain ⟨old, hmem, hsame⟩ := List.mem_map.mp hold
        rw [← hsame]
        exact htags old hmem
  refine ⟨⟨_, hvalid⟩, ?_, rfl⟩
  simp only [IbPipelineArgs.singleLeg, IbPipelineArgs.leg, hmkt, ibOrderFromDesired]
  exact Frozen.make_of_valid hvalid

end Blive.IbPipeline

namespace Blive.PaperPipeline

open Transition SingleLeg
open IbPipeline (IbPipelineArgs RebalanceLoop runIbPipeline)

/-- The call of `run_paper_pipeline` with the arguments of a call of `run_ib_pipeline`. -/
def toPaper (args : IbPipelineArgs) (instrumentKey : String) (commissionPerShare : Decimal)
    (killSwitch : KillSwitch) : PaperPipelineArgs where
  liveConfig := args.liveConfig
  portfolio := .timing instrumentKey args.targetLeverage
  marketData := args.marketData
  instrument := args.instrument
  positionSeries := args.positionSeries
  startingCash := args.startingCash
  commissionPerShare := commissionPerShare
  killSwitch := killSwitch

/-- The paper run `p` has the outcome of the IB run `s`, which it predicts. -/
structure SameOutcome (symbol : String) (p : State) (s : IbPipeline.State) : Prop where
  finished : p.task = .finished ↔ s.task = .finished
  breaches : p.result.breaches = s.result.breaches
  fillsCount : p.result.fillsCount = s.result.fillsCount
  equityCurve : p.result.equityCurve.map EquityPoint.point =
    s.result.equityCurve.map (IbPipeline.EquityPoint.point symbol)
  finalEquity : p.task = .finished → p.result.finalEquity = s.result.finalEquity

/-- The paper pipeline simulates the IB pipeline: take any complete run of `run_ib_pipeline` in
which the switch stays as it is and every order is filled whole, at the close and for the
commission per share. Then `run_paper_pipeline` starts on the same tape, each of its runs, with the
same files at the risk checks, can go on to its end, and at its end has the same outcome. -/
def PaperSimulates (args : IbPipelineArgs) (instrumentKey : String) (commissionPerShare : Decimal)
    (killSwitch : KillSwitch) : Prop :=
  ∀ (files : View → String → Artefact) (policy : RoundingPolicy) (history : List IBSystem.Action)
    (broker : IBBroker) (placed : List PlacedOrder) (loop : RebalanceLoop)
    (as : List IbPipeline.Action) (s : IbPipeline.State),
    run (IBSystem.step policy) IBSystem.init history = some ⟨broker, [], placed⟩ →
    runIbPipeline args broker = .ok loop →
    run (IbPipeline.step loop policy) (loop.start broker placed killSwitch) as = some s →
    s.Stopped →
    Throughout args.singleLeg.hear (fillsAtClose killSwitch files commissionPerShare).Say
      (.start loop.bars loop.startingCash)
      (trace (IbPipeline.step loop policy) IbPipeline.heard (loop.start broker placed killSwitch)
        as) →
    ∃ paper, runPaperPipeline (toPaper args instrumentKey commissionPerShare killSwitch) =
        .ok paper ∧
      ∀ (bs : List Action) (p : State), run (step paper) paper.start bs = some p →
        Throughout paper.leg.hear (FilesAre files) (paper.start.view instrumentKey)
          (trace (step paper) (heard paper) paper.start bs) →
        (p.Stopped → SameOutcome args.instrument.val.symbol p s) ∧
        ∃ cs q, run (step paper) p cs = some q ∧ q.Stopped ∧
          Throughout paper.leg.hear (FilesAre files) (p.view instrumentKey)
            (trace (step paper) (heard paper) p cs)

theorem ahead_start {paper : PaperLoop} {rest : List Bar}
    (hbars : paper.bars = paper.firstBar :: rest) (hcloses : ClosesInOrder paper.bars) :
    Ahead paper.start.now paper.bars := by
  refine ⟨?_, hcloses⟩
  rw [hbars] at hcloses ⊢
  intro bar hbar
  rcases List.mem_cons.mp hbar with rfl | hlater
  · exact le_rfl
  · exact (List.pairwise_cons.mp hcloses).1 bar hlater

/-- The paper loop is the IB loop but for what trades its orders. -/
structure PaperLoop.Mirrors (paper : PaperLoop) (args : IbPipelineArgs) (loop : RebalanceLoop) :
    Prop where
  leg : paper.leg.bare = args.singleLeg.bare
  bars : paper.bars = loop.bars
  first : ∃ rest, paper.bars = paper.firstBar :: rest
  startingCash : paper.startingCash = loop.startingCash

theorem exists_paper {args : IbPipelineArgs} {broker : IBBroker} {loop : RebalanceLoop}
    (hib : runIbPipeline args broker = .ok loop) (instrumentKey : String)
    (commissionPerShare : Decimal) (killSwitch : KillSwitch) :
    ∃ paper, runPaperPipeline (toPaper args instrumentKey commissionPerShare killSwitch) =
        .ok paper ∧ paper.instrumentKey = instrumentKey ∧
      paper.commissionPerShare = commissionPerShare ∧ paper.killSwitch = killSwitch ∧
      paper.Mirrors args loop := by
  obtain ⟨-, hib⟩ := require_bind_eq_ok_iff.mp hib
  obtain ⟨bars, hbars, hib⟩ := bind_eq_ok_iff.mp hib
  obtain ⟨hsome, hib⟩ := require_bind_eq_ok_iff.mp hib
  cases hib
  cases bars with
  | nil => exact absurd rfl hsome
  | cons first rest =>
    simp only [runPaperPipeline, toPaper, hbars]
    exact ⟨_, rfl, rfl, rfl, rfl, rfl, rfl, ⟨rest, rfl⟩, rfl⟩

theorem sameOutcome_of_view {args : IbPipelineArgs} {paper : PaperLoop} {loop : RebalanceLoop}
    {policy : RoundingPolicy} {broker : IBBroker} {placed : List PlacedOrder}
    {killSwitch : KillSwitch} {as : List IbPipeline.Action} {bs : List Action} {p : State}
    {s : IbPipeline.State} {symbol : String} (hmirrors : paper.Mirrors args loop)
    (hpaper : run (step paper) paper.start bs = some p)
    (hib : run (IbPipeline.step loop policy) (loop.start broker placed killSwitch) as = some s)
    (h : (p.view paper.instrumentKey).bare = (s.view symbol).bare) : SameOutcome symbol p s := by
  have hphase : p.task.phase = s.task.phase := congrArg View.phase h
  have hcurve : p.result.equityCurve.map EquityPoint.point =
      s.result.equityCurve.map (IbPipeline.EquityPoint.point symbol) := congrArg View.curve h
  have hfinished : p.task = .finished ↔ s.task = .finished := by
    cases hp : p.task <;> cases hs : s.task <;>
      simp [hp, hs, Task.phase, IbPipeline.Task.phase] at hphase ⊢
  refine ⟨hfinished, congrArg View.breaches h, congrArg View.fillsCount h, hcurve, fun hp => ?_⟩
  have hlast : p.result.equityCurve.getLast?.map (·.equity) =
      s.result.equityCurve.getLast?.map (·.equity) := by
    have hpoints := congrArg (fun curve => curve.getLast?.map Point.equity) hcurve
    simp only [List.getLast?_map, Option.map_map] at hpoints
    exact hpoints
  rw [finalEquity_of_finished hpaper hp,
    IbPipeline.finalEquity_of_finished hib (hfinished.mp hp), hlast, hmirrors.startingCash]

/-- On a tape whose closes never go back, the paper pipeline simulates the IB pipeline. -/
theorem paperSimulates_of_closes {args : IbPipelineArgs} (hmkt : args.orderType = .mkt)
    (hcloses : ∀ bars, args.marketData.bars args.instrument = .ok bars → ClosesInOrder bars)
    (instrumentKey : String) (commissionPerShare : Decimal) (killSwitch : KillSwitch) :
    PaperSimulates args instrumentKey commissionPerShare killSwitch := by
  intro files policy history broker placed loop as s hhistory hib hrun hstopped hsay
  obtain ⟨htrades, hbars, -⟩ := IbPipeline.runIbPipeline_trades hib
  have hruns := IbPipeline.run_runsAs htrades hhistory hrun
  obtain ⟨paper, hentry, rfl, rfl, rfl, hmirrors⟩ :=
    exists_paper hib instrumentKey commissionPerShare killSwitch
  refine ⟨paper, hentry, fun bs p hpaper hfiles => ?_⟩
  set around := fillsAtClose paper.killSwitch files paper.commissionPerShare with haround
  have hleg := IbPipelineArgs.passesOn hmkt
  -- The IB run, as a run of the bare leg.
  obtain ⟨hcanIb, hsayIb⟩ :=
    hears_bare hleg (fun _ _ => fillsAtClose_bare) hruns.canHear hsay
  have hpayable : ∀ o ∈ trace (IbPipeline.step loop policy) IbPipeline.heard
      (loop.start broker placed paper.killSwitch) as, IbPipeline.Payable o :=
    forall_mem_trace fun a _ s t => IbPipeline.heard_payable s a t
  have hend := hruns.view
  generalize trace (IbPipeline.step loop policy) IbPipeline.heard
    (loop.start broker placed paper.killSwitch) as = hears at hcanIb hsayIb hpayable hend
  have hiterate : (s.view args.instrument.val.symbol).bare =
      (args.singleLeg.bare.next around)^[hears.length] (.start loop.bars loop.startingCash) := by
    rw [hend, foldl_bare hleg]
    exact foldl_eq_iterate (hcanIb.and hsayIb fun _ _ hcan hsay => hear_eq_next hcan hsay)
  have hrate : ∀ k < hears.length, ∀ bar bars,
      ((args.singleLeg.bare.next around)^[k] (.start loop.bars loop.startingCash)).phase =
          .waiting bar bars →
        ((args.singleLeg.bare.next around)^[k] (.start loop.bars loop.startingCash)).submitted ≠
          [] → 0 ≤ paper.commissionPerShare := by
    refine Throughout.iterate (Q := fun view => ∀ bar bars, view.phase = .waiting bar bars →
      view.submitted ≠ [] → 0 ≤ paper.commissionPerShare)
      ((hcanIb.and hsayIb fun _ _ => And.intro).and (throughout_of_forall hpayable) ?_)
    rintro view o ⟨hcan, hsay⟩ hpay
    refine ⟨hear_eq_next hcan hsay, fun bar bars hphase hsome => ?_⟩
    cases o with
    | turned => simp [CanHear, hphase] at hcan
    | asked killSwitch artefact => simp [CanHear, hphase] at hcan
    | answered response =>
      obtain ⟨order, horder⟩ := Option.isSome_iff_exists.mp (List.getLast?_isSome.mpr hsome)
      have hresponse : response = .filled order.signedQty bar.val.close
          (paper.commissionPerShare * order.val.quantity) := by
        rw [show response = around.response view from hsay]
        simp only [haround, fillsAtClose, hphase, horder]
      rw [hresponse] at hpay
      exact (mul_nonneg_iff_of_pos_right order.quantity_pos).mp hpay
  -- The paper run, as a run of the same leg in the same surroundings.
  have hordered : ClosesInOrder paper.bars := by
    rw [hmirrors.bars]
    exact hcloses _ hbars
  obtain ⟨rest, hfirst⟩ := hmirrors.first
  obtain ⟨hon, hstands⟩ := start_stands (ahead_start hfirst hordered)
  have hmoves := run_moves hon hstands hpaper
  have hstart : paper.start.view paper.instrumentKey = .start loop.bars loop.startingCash := by
    rw [← hmirrors.bars, ← hmirrors.startingCash]
    rfl
  obtain ⟨hcanPaper, hsayPaper⟩ := hears_bare (passesOn_leg paper)
    (fun _ _ => fillsAtClose_bare) hmoves.canHear (hmoves.sees.and hfiles fun _ _ => said_of_sees)
  have hiteratePaper : (p.view paper.instrumentKey).bare =
      (args.singleLeg.bare.next around)^[(trace (step paper) (heard paper) paper.start bs).length]
        (.start loop.bars loop.startingCash) := by
    rw [hmoves.view, foldl_bare (passesOn_leg paper), hstart, ← hmirrors.leg]
    rw [hstart] at hcanPaper hsayPaper
    exact foldl_eq_iterate (hcanPaper.and hsayPaper fun _ _ hcan hsay => hear_eq_next hcan hsay)
  have hover : ((args.singleLeg.bare.next around)^[hears.length]
      (.start loop.bars loop.startingCash)).Stopped := by
    rw [← hiterate]
    exact hstopped.view args.instrument.val.symbol
  constructor
  · intro hp
    have hpover := hp.view paper.instrumentKey
    have hsame : (p.view paper.instrumentKey).bare =
        (s.view args.instrument.val.symbol).bare := by
      rw [hiterate, hiteratePaper]
      refine iterate_unique (next_of_stopped around ?_) (next_of_stopped around hover)
      rw [← hiteratePaper]
      exact hpover
    exact sameOutcome_of_view hmirrors hpaper hrun hsame
  · generalize (trace (step paper) (heard paper) paper.start bs).length = m at hiteratePaper
    have hlater (k : Nat) : (paper.leg.bare.next around)^[k] (p.view paper.instrumentKey).bare =
        (args.singleLeg.bare.next around)^[k + m] (.start loop.bars loop.startingCash) := by
      rw [hmirrors.leg, hiteratePaper, Function.iterate_add_apply]
    refine exists_stopped (n := hears.length) hmoves.onLeg hmoves.stands ?_ ?_
    · rw [hlater, iterate_eq_of_le (next_of_stopped around hover) (Nat.le_add_right _ _)]
      exact hover
    · intro k _ bar bars
      rw [hlater]
      by_cases hbefore : k + m < hears.length
      · exact hrate (k + m) hbefore bar bars
      · rw [iterate_eq_of_le (next_of_stopped around hover) (not_lt.mp hbefore)]
        intro hphase
        rcases hover with h | h <;> cases hphase.symm.trans h

/-! ## On fixed tapes -/

/-- The files are those of a run on fixed values: there are none. -/
def noFiles (_ : View) (_ : String) : Artefact := none

/-- What holds at the end of a concrete run is decided by evaluating it. -/
theorem exists_paperRun (args : PaperPipelineArgs) (bs : List Action)
    (P : PaperLoop → State → Bool)
    (h : ((runPaperPipeline args).toOption.bind fun paper =>
      (run (step paper) paper.start bs).map (P paper)) = some true) :
    ∃ paper p, runPaperPipeline args = .ok paper ∧
      run (step paper) paper.start bs = some p ∧ P paper p := by
  cases hentry : runPaperPipeline args with
  | error e =>
    rw [hentry] at h
    cases h
  | ok paper =>
    rw [hentry] at h
    obtain ⟨p, hrun, hP⟩ := Option.map_eq_some_iff.mp h
    exact ⟨paper, p, rfl, hrun, hP⟩

/-- One order was approved, and filled for 1000 shares at 100. -/
def oneFill : List Heard → Bool
  | [.turned, .asked killSwitch _, .answered response, .turned, .turned] =>
      killSwitch = {} && response = .filled 1000 100 1
  | _ => false

theorem oneFill_eq {hears : List Heard} (h : oneFill hears = true) : ∃ artefact,
    hears = [.turned, .asked {} artefact, .answered (.filled 1000 100 1), .turned, .turned] := by
  unfold oneFill at h
  split at h
  · simp only [Bool.and_eq_true, decide_eq_true_eq] at h
    obtain ⟨rfl, rfl⟩ := h
    exact ⟨_, rfl⟩
  · cases h

/-- Only turns were heard. -/
def onlyTurns (hears : List Heard) : Bool := hears.all (· matches .turned)

theorem throughout_of_onlyTurns {leg : SingleLeg} {P : View → Heard → Prop}
    (hP : ∀ view, P view .turned) {view : View} {hears : List Heard}
    (h : onlyTurns hears = true) : Throughout leg.hear P view hears := by
  induction hears generalizing view with
  | nil => trivial
  | cons o hears ih =>
    simp only [onlyTurns, List.all_cons, Bool.and_eq_true] at h
    cases o with
    | turned => exact ⟨hP view, ih h.2⟩
    | asked killSwitch artefact => cases h.1
    | answered response => cases h.1

/-- Two bars in the order of their opens, of which the second closes first. -/
def overlappingBars : List Bar :=
  [⟨{ IbPipeline.sampleBar.val with closeTimeUtc := ⟨172800000000, some 0⟩ }, by decide +kernel⟩,
    ⟨{ IbPipeline.sampleBar.val with openTimeUtc := ⟨43200000000, some 0⟩ }, by decide +kernel⟩]

/-- Never invested over `overlappingBars`. -/
def overlappingArgs : IbPipelineArgs where
  liveConfig := IbPipeline.sampleLiveConfig
  marketData := fun _ => some overlappingBars
  instrument := sampleInstrument
  positionSeries := (Dict.empty.set ⟨172800000000, some 0⟩ 0).set ⟨86400000000, some 0⟩ 0
  orderType := .mkt

/-- The clock of the paper pipeline does not go back to the second close; the IB pipeline has
none. -/
theorem not_paperSimulates :
    ¬ ∀ (args : IbPipelineArgs) (instrumentKey : String) (commissionPerShare : Decimal)
      (killSwitch : KillSwitch), args.orderType = .mkt →
      (∀ t position, args.positionSeries.get? t = some position → position = 0 ∨ position = 1) →
      PaperSimulates args instrumentKey commissionPerShare killSwitch := by
  intro h
  obtain ⟨loop, s, hloop, hrun, hover⟩ := IbPipeline.Pipeline.exists_run (.single overlappingArgs)
    (List.replicate 5 (IbPipeline.sampleProceed 1))
    (fun loop s => s.task.isFinished && onlyTurns
      (trace (IbPipeline.step loop .nearest) IbPipeline.heard
        (loop.start IbPipeline.sampleBroker [] {})
        (List.replicate 5 (IbPipeline.sampleProceed 1))))
    (by decide +kernel)
  obtain ⟨paper, p, hpaper, hrunPaper, hraised⟩ := exists_paperRun
    (toPaper overlappingArgs "CAC.PA" 0 {})
    (List.replicate 3 (.proceed (fun _ => 0) fun _ => none))
    (fun paper p => (p.task matches .raised _) && onlyTurns
      (trace (step paper) (heard paper) paper.start
        (List.replicate 3 (.proceed (fun _ => 0) fun _ => none))))
    (by decide +kernel)
  simp only [Bool.and_eq_true] at hover hraised
  have hfinished : s.task = .finished := IbPipeline.Task.eq_finished hover.1
  obtain ⟨e, hstuck⟩ : ∃ e, p.task = .raised e := by
    obtain ⟨hraised, -⟩ := hraised
    revert hraised
    cases p.task <;> simp
  have hunit : ∀ t position, overlappingArgs.positionSeries.get? t = some position →
      position = 0 ∨ position = 1 := by
    intro t position hposition
    simp only [overlappingArgs, Dict.get?_set] at hposition
    split at hposition
    · exact .inl (Option.some.inj hposition).symm
    · split at hposition
      · exact .inl (Option.some.inj hposition).symm
      · cases hposition
  obtain ⟨paper', hpaper', hruns⟩ := h overlappingArgs "CAC.PA" 0 {} rfl hunit noFiles .nearest
    [.connect ⟨0⟩] IbPipeline.sampleBroker [] loop _ s rfl hloop hrun (.inl hfinished)
    (throughout_of_onlyTurns (fun _ => trivial) hover.2)
  cases hpaper.symm.trans hpaper'
  have houtcome := (hruns _ p hrunPaper
    (throughout_of_onlyTurns (fun _ => trivial) hraised.2)).1 (.inr ⟨e, hstuck⟩)
  cases hstuck.symm.trans (houtcome.finished.mpr hfinished)

/-- The filled order of the concrete IB run is predicted. -/
theorem paperSimulates_wholeFillRun :
    ∃ paper loop s bs p, runPaperPipeline (toPaper IbPipeline.sampleArgs "CAC.PA" (1 / 1000) {}) =
        .ok paper ∧
      run (IbPipeline.step loop .nearest) (loop.start IbPipeline.sampleBroker [] {})
        IbPipeline.wholeFillRun = some s ∧
      s.task = .finished ∧ s.result.fillsCount = 1 ∧
      run (step paper) paper.start bs = some p ∧ SameOutcome "CAC.PA" p s := by
  obtain ⟨loop, s, hloop, hrun, hshape⟩ := IbPipeline.Pipeline.exists_run
    (.single IbPipeline.sampleArgs) IbPipeline.wholeFillRun
    (fun loop s => s.task.isFinished && s.result.fillsCount == 1 && oneFill
      (trace (IbPipeline.step loop .nearest) IbPipeline.heard
        (loop.start IbPipeline.sampleBroker [] {}) IbPipeline.wholeFillRun))
    (by decide +kernel)
  simp only [Bool.and_eq_true, beq_iff_eq] at hshape
  obtain ⟨⟨hover, hcount⟩, hfill⟩ := hshape
  have hfinished : s.task = .finished := IbPipeline.Task.eq_finished hover
  obtain ⟨artefact, htrace⟩ := oneFill_eq hfill
  have hbars : loop.bars = [IbPipeline.sampleBar] :=
    (Except.ok.inj (IbPipeline.runIbPipeline_trades hloop).2.1).symm
  have hcash : loop.startingCash = 1000000 := (IbPipeline.runIbPipeline_trades hloop).2.2
  -- The strategy has no artefacts: whatever the files are makes no difference.
  have hresponse : (fillsAtClose {} noFiles (1 / 1000)).response
      ([.turned, .asked {} fun _ => none].foldl IbPipeline.sampleArgs.singleLeg.hear
        (.start [IbPipeline.sampleBar] 1000000)) = .filled 1000 100 1 := by
    decide +kernel
  have hsay : Throughout IbPipeline.sampleArgs.singleLeg.hear
      (fillsAtClose {} (fun _ => artefact) (1 / 1000)).Say
      (.start loop.bars loop.startingCash) (trace (IbPipeline.step loop .nearest)
        IbPipeline.heard (loop.start IbPipeline.sampleBroker [] {}) IbPipeline.wholeFillRun) := by
    rw [htrace, hbars, hcash]
    exact ⟨trivial, ⟨rfl, rfl⟩, hresponse.symm, trivial, trivial, trivial⟩
  have hcloses : ∀ bars, IbPipeline.sampleArgs.marketData.bars
      IbPipeline.sampleArgs.instrument = .ok bars → ClosesInOrder bars := by
    intro bars hok
    obtain rfl : [IbPipeline.sampleBar] = bars := Except.ok.inj hok
    exact List.pairwise_singleton _ _
  obtain ⟨paper, hpaper, hruns⟩ := paperSimulates_of_closes rfl hcloses "CAC.PA" (1 / 1000) {}
    (fun _ => artefact) .nearest [.connect ⟨0⟩] IbPipeline.sampleBroker [] loop _ s rfl hloop hrun
    (.inl hfinished) hsay
  obtain ⟨-, bs, p, hbs, hstopped, hfiles⟩ := hruns [] paper.start rfl trivial
  exact ⟨paper, loop, s, bs, p, hpaper, hrun, hfinished, hcount, hbs,
    (hruns bs p hbs hfiles).1 hstopped⟩

end Blive.PaperPipeline
