import Blive.Runtime.Proofs.CourseAgreement
import Blive.Runtime.Proofs.RunAccounting

/-!
# No look-ahead

Two histories that are the same up to a time `t` have the same signals up to `t`, and the pipeline
decides the same on them up to `t`: its loop body reads of the histories what had closed at the
time of the rebalance, and the courses of the two loops agree.
-/

namespace Blive.IbPipeline

open Signals Timeline Transition

/-! ## Two histories -/

/-- The pipeline on another history. -/
def IbMultiPipelineArgs.onHistory (args : IbMultiPipelineArgs)
    (marketData : MarketData) (targetWeightsSeries : WeightsFrame) : IbMultiPipelineArgs :=
  { args with marketData, targetWeightsSeries }

/-- The histories are the same up to `t`: the fixtures of the instruments, whose bars do not
overlap, and the rows of weights. -/
structure SameHistory (t : Int) (args : IbMultiPipelineArgs) (marketData : MarketData)
    (targetWeightsSeries : WeightsFrame) : Prop where
  loaded : ∀ instrument ∈ args.instruments,
    (args.marketData instrument).isSome = (marketData instrument).isSome
  bars : ∀ instrument ∈ args.instruments, ∀ bars ∈ args.marketData instrument,
    ∀ bars' ∈ marketData instrument, NonOverlapping bars ∧ NonOverlapping bars' ∧
      upTo Bar.closed t bars = upTo Bar.closed t bars'
  columns : args.targetWeightsSeries.columns = targetWeightsSeries.columns
  rows : ∀ label : Datetime, label.micros ≤ t →
    args.targetWeightsSeries.rows.get? label = targetWeightsSeries.rows.get? label

section History

variable {t : Int} {args : IbMultiPipelineArgs} {marketData : MarketData}
  {targetWeightsSeries : WeightsFrame}

/-- The fixtures of an instrument are missing in both histories, or alike. -/
theorem SameHistory.fixtures (h : SameHistory t args marketData targetWeightsSeries)
    {instrument : Instrument} (hinstrument : instrument ∈ args.instruments) :
    (args.marketData.bars instrument = .error (.keyError "") ∧
        marketData.bars instrument = .error (.keyError "")) ∨
      ∃ bars bars', args.marketData.bars instrument = .ok bars ∧
        marketData.bars instrument = .ok bars' ∧ BarsAlike t bars bars' := by
  have hloaded := h.loaded instrument hinstrument
  have hbars := h.bars instrument hinstrument
  unfold MarketData.bars
  cases hfirst : args.marketData instrument with
  | none =>
    cases hsecond : marketData instrument with
    | none => exact .inl ⟨rfl, rfl⟩
    | some bars' =>
      rw [hfirst, hsecond] at hloaded
      cases hloaded
  | some bars =>
    cases hsecond : marketData instrument with
    | none =>
      rw [hfirst, hsecond] at hloaded
      cases hloaded
    | some bars' =>
      obtain ⟨hinOrder, hinOrder', hsame⟩ := hbars bars hfirst bars' hsecond
      exact .inr ⟨bars, bars', rfl, rfl, hinOrder.inOrder, hinOrder'.inOrder, hsame⟩

/-- `latest` sees no bar that closes later. -/
theorem SameHistory.latest (h : SameHistory t args marketData targetWeightsSeries)
    {instrument : Instrument} (hinstrument : instrument ∈ args.instruments) {label : Datetime}
    (hlabel : label.micros ≤ t) :
    marketData.latest instrument label = args.marketData.latest instrument label := by
  unfold MarketData.latest
  rcases h.fixtures hinstrument with ⟨hnone, hnone'⟩ | ⟨bars, bars', hsome, hsome', halike⟩
  · rw [hnone, hnone']
  · have hseen {bars : List Bar} (hbars : InOrder Bar.closed bars) :
        (bars.takeWhile fun bar => bar.val.closeTimeUtc.micros ≤ label.micros) =
          upTo Bar.closed label.micros (upTo Bar.closed t bars) := by
      rw [upTo_upTo hlabel]
      exact hbars.takeWhile_eq label.micros
    rw [hsome, hsome']
    simp only [bind, Except.bind]
    rw [hseen halike.inOrder, hseen halike.inOrder', halike.same]

theorem SameHistory.barsBySymbol (h : SameHistory t args marketData targetWeightsSeries)
    {others : List Instrument} (hothers : ∀ instrument ∈ others, instrument ∈ args.instruments)
    {label : Datetime} (hlabel : label.micros ≤ t) (bars : Dict String Bar) :
    (args.onHistory marketData targetWeightsSeries).barsBySymbol others label bars =
      args.barsBySymbol others label bars := by
  unfold IbMultiPipelineArgs.barsBySymbol
  induction others generalizing bars with
  | nil => rfl
  | cons instrument others ih =>
    obtain ⟨hfirst, hrest⟩ := List.forall_mem_cons.mp hothers
    simp only [List.foldlM_cons, IbMultiPipelineArgs.onHistory, h.latest hfirst hlabel]
    congr 1
    funext bars
    exact ih hrest bars

/-- The loop body makes the same of a bar that closes by `t`. -/
theorem SameHistory.rebalance (h : SameHistory t args marketData targetWeightsSeries)
    {canonical : Instrument} {others : List Instrument}
    (hinstruments : args.instruments = canonical :: others) {bar : Bar} (hbar : bar.closed ≤ t) :
    (args.onHistory marketData targetWeightsSeries).rebalance canonical others bar =
      args.rebalance canonical others bar := by
  have hothers : ∀ instrument ∈ others, instrument ∈ args.instruments := by
    intro instrument hmem
    rw [hinstruments]
    exact List.mem_cons_of_mem _ hmem
  have hweights (row : String → Decimal) :
      (args.onHistory marketData targetWeightsSeries).targetWeights row =
        args.targetWeights row := by
    unfold IbMultiPipelineArgs.targetWeights
    simp only [IbMultiPipelineArgs.onHistory, ← h.columns]
  have hrow : (args.onHistory marketData targetWeightsSeries).targetWeightsSeries.rows.get?
      bar.val.closeTimeUtc = args.targetWeightsSeries.rows.get? bar.val.closeTimeUtc :=
    (h.rows _ hbar).symm
  unfold IbMultiPipelineArgs.rebalance
  rw [hrow]
  cases args.targetWeightsSeries.rows.get? bar.val.closeTimeUtc with
  | none => rfl
  | some row =>
    dsimp only
    rw [h.barsBySymbol hothers hbar, hweights]
    rfl

/-- A loop that was entered is timed and books under the symbols. -/
theorem timed_of_enter {broker : IBBroker} {loop : RebalanceLoop}
    (h : runIbMultiPipeline args broker = .ok loop) : loop.Timed ∧ loop.BooksAnonymously := by
  obtain ⟨⟨canonical, others, hrebalance⟩, -, -, -, -, hkey⟩ := runIbMultiPipeline_eq h
  refine ⟨?_, ?_⟩
  · intro bar rebalance hopens
    rw [hrebalance] at hopens
    unfold IbMultiPipelineArgs.rebalance at hopens
    split at hopens
    · cases hopens
    · obtain ⟨bars, -, hopens⟩ := bind_eq_ok_iff.mp hopens
      split at hopens
      · cases hopens
      · obtain ⟨prices, -, hopens⟩ := bind_eq_ok_iff.mp hopens
        cases hopens
        rfl
  · intro fill
    rw [hkey]
    rfl

/-- The loops of the two histories are the same up to `t`. -/
theorem SameHistory.sameUpTo (h : SameHistory t args marketData targetWeightsSeries)
    {broker broker' : IBBroker} {loop loop' : RebalanceLoop}
    (hentry : runIbMultiPipeline args broker = .ok loop)
    (hentry' : runIbMultiPipeline (args.onHistory marketData targetWeightsSeries) broker' =
      .ok loop') : loop.SameUpTo t loop' := by
  have hinstruments : (args.onHistory marketData targetWeightsSeries).instruments =
      args.instruments := rfl
  obtain ⟨-, hentry⟩ := require_bind_eq_ok_iff.mp hentry
  obtain ⟨-, hentry'⟩ := require_bind_eq_ok_iff.mp hentry'
  rw [hinstruments] at hentry'
  cases hsplit : args.instruments with
  | nil =>
    rw [hsplit] at hentry
    cases hentry
  | cons canonical others =>
    rw [hsplit] at hentry hentry'
    obtain ⟨-, hentry⟩ := require_bind_eq_ok_iff.mp hentry
    obtain ⟨-, hentry'⟩ := require_bind_eq_ok_iff.mp hentry'
    obtain ⟨bars, hbars, hentry⟩ := bind_eq_ok_iff.mp hentry
    obtain ⟨bars', hbars', hentry'⟩ := bind_eq_ok_iff.mp hentry'
    obtain ⟨-, hentry⟩ := require_bind_eq_ok_iff.mp hentry
    obtain ⟨-, hentry'⟩ := require_bind_eq_ok_iff.mp hentry'
    cases hentry
    cases hentry'
    have hmem : canonical ∈ args.instruments := hsplit ▸ List.mem_cons_self
    rcases h.fixtures hmem with ⟨hnone, -⟩ | ⟨first, second, hfirst, hsecond, halike⟩
    · rw [hnone] at hbars
      cases hbars
    · cases hfirst.symm.trans hbars
      cases hsecond.symm.trans hbars'
      exact ⟨rfl, fun bar hbar => h.rebalance hsplit hbar, halike.inOrder, halike.inOrder',
        halike.same⟩

end History

/-! ## Two runs -/

/-- The courses of two runs on histories that are the same up to `t` agree up to `t`, when the same
is heard in their rebalances up to it. -/
theorem runs_agree {t : Int} {args : IbMultiPipelineArgs} {marketData : MarketData}
    {targetWeightsSeries : WeightsFrame} (h : SameHistory t args marketData targetWeightsSeries)
    {policy policy' : RoundingPolicy} {broker broker' : IBBroker}
    {placed placed' : List PlacedOrder} {killSwitch killSwitch' : KillSwitch}
    {loop loop' : RebalanceLoop} {as as' : List Action} {s s' : State}
    (hentry : runIbMultiPipeline args broker = .ok loop)
    (hentry' : runIbMultiPipeline (args.onHistory marketData targetWeightsSeries) broker' =
      .ok loop')
    (hrun : run (step loop policy) (loop.start broker placed killSwitch) as = some s)
    (hrun' : run (step loop' policy') (loop'.start broker' placed' killSwitch') as' = some s')
    (hresponses :
      trace (step loop policy) (responsesUpTo t) (loop.start broker placed killSwitch) as =
        trace (step loop' policy') (responsesUpTo t) (loop'.start broker' placed' killSwitch')
          as') :
    Course.Agree t s.course s'.course := by
  have hloops := h.sameUpTo hentry hentry'
  obtain ⟨htimed, hbooks⟩ := timed_of_enter hentry
  obtain ⟨htimed', hbooks'⟩ := timed_of_enter hentry'
  have hfollows := run_follows hbooks hrun
  have hfollows' := run_follows hbooks' hrun'
  have hstart : Course.Alike t (loop.start broker placed killSwitch).course
      (loop'.start broker' placed' killSwitch').course := by
    refine ⟨?_, .atBar ⟨hloops.inOrder, hloops.inOrder', hloops.bars⟩⟩
    rw [hloops.same]
    rfl
  rw [trace_responses hbooks hrun, trace_responses hbooks' hrun'] at hresponses
  rw [hfollows.course, hfollows'.course]
  exact foldl_agree hloops htimed htimed' hstart hfollows.canHear hfollows'.canHear hresponses

/-- What the pipeline asks for before its loop. -/
theorem enters (args : IbMultiPipelineArgs) {broker : IBBroker}
    (hconnected : broker.connected = true) {canonical : Instrument} {others : List Instrument}
    {bars : List Bar}
    (hinstruments : args.instruments = canonical :: others)
    (hrows : ¬ args.targetWeightsSeries.empty) (hbars : args.marketData.bars canonical = .ok bars)
    (hsome : bars ≠ []) : ∃ loop, runIbMultiPipeline args broker = .ok loop := by
  simp only [runIbMultiPipeline, require, if_pos hconnected, hinstruments, if_pos hrows, hbars,
    if_pos hsome, bind, Except.bind]
  exact ⟨_, rfl⟩

/-- When the pipeline cannot start on the other history, there is nothing to decide up to `t`. -/
theorem idle_of_raise {t : Int} {args : IbMultiPipelineArgs} {marketData : MarketData}
    {targetWeightsSeries : WeightsFrame} (h : SameHistory t args marketData targetWeightsSeries)
    {policy : RoundingPolicy} {broker broker' : IBBroker} {placed : List PlacedOrder}
    {killSwitch : KillSwitch} {loop : RebalanceLoop} {e : PyError} {as : List Action} {s : State}
    (hentry : runIbMultiPipeline args broker = .ok loop) (hconnected : broker'.connected = true)
    (hraises : runIbMultiPipeline (args.onHistory marketData targetWeightsSeries) broker' =
      .error e)
    (hrun : run (step loop policy) (loop.start broker placed killSwitch) as = some s) :
    s.course.ordersUpTo t = [] ∧ s.course.pointsUpTo t = [] := by
  obtain ⟨htimed, hbooks⟩ := timed_of_enter hentry
  have hfollows := run_follows hbooks hrun
  obtain ⟨-, hentry⟩ := require_bind_eq_ok_iff.mp hentry
  cases hinstruments : args.instruments with
  | nil =>
    rw [hinstruments] at hentry
    cases hentry
  | cons canonical others =>
    rw [hinstruments] at hentry
    obtain ⟨hsome, hentry⟩ := require_bind_eq_ok_iff.mp hentry
    obtain ⟨bars, hbars, hentry⟩ := bind_eq_ok_iff.mp hentry
    obtain ⟨-, hentry⟩ := require_bind_eq_ok_iff.mp hentry
    obtain ⟨hloopBars, hrebalance⟩ :
        loop.bars = bars ∧ loop.rebalance = args.rebalance canonical others := by
      cases hentry
      exact ⟨rfl, rfl⟩
    have hplace : (loop.start broker placed killSwitch).course.place = .atBar bars :=
      congrArg Place.atBar hloopBars
    have hmem : canonical ∈ args.instruments := hinstruments ▸ List.mem_cons_self
    rcases h.fixtures hmem with ⟨hnone, -⟩ | ⟨first, second, hfirst, hsecond, halike⟩
    · rw [hnone] at hbars
      cases hbars
    · cases hfirst.symm.trans hbars
      rw [hfollows.course]
      by_cases hempty : targetWeightsSeries.empty
      · -- There is no row up to `t`, in either history.
        have hnorow : targetWeightsSeries.rows.items = [] := by
          rcases hempty with hcolumns | hitems
          · exact absurd (.inl (h.columns.trans hcolumns)) hsome
          · exact hitems
        have hnone : ∀ bar : Bar, bar.closed ≤ t → loop.rebalance bar = .ok none := by
          intro bar hbar
          have hrow := h.rows bar.val.closeTimeUtc hbar
          rw [Dict.get?, Dict.get?, hnorow] at hrow
          simp only [hrebalance, IbMultiPipelineArgs.rebalance, Dict.get?, hrow]
          rfl
        have hstart : (loop.start broker placed killSwitch).course.Idle t :=
          ⟨.inr ⟨bars, hplace, halike.inOrder⟩, rfl, rfl⟩
        have hidle := foldl_idle htimed hnone hstart
          (trace (step loop policy) inputs (loop.start broker placed killSwitch) as)
        exact ⟨hidle.orders, hidle.points⟩
      · by_cases hnobars : second = []
        · -- There is no bar up to `t`, in either history.
          have hpast : (loop.start broker placed killSwitch).course.place.Past t := by
            rw [hplace]
            rcases halike.cases with ⟨hpast, -⟩ | ⟨bar, rest, rest', -, hcons, -⟩
            · exact hpast
            · cases hnobars.symm.trans hcons
          exact foldl_past htimed hpast _
        · obtain ⟨loop, hloop⟩ := enters (args.onHistory marketData targetWeightsSeries)
            hconnected hinstruments hempty hsecond hnobars
          rw [hloop] at hraises
          cases hraises

/-- No decision at `t` or before depends on what comes after `t`. -/
structure NoLookAhead {F : Type} [FloatType F] (rolling : RollingMean F) (t : Int) : Prop where
  /-- `sma_crossover_position` raises on both histories, or its rows up to `t` are the same. -/
  position : ∀ (smaWindow : Nat) (bars bars' : List Bar),
    NonOverlapping bars → NonOverlapping bars' →
    upTo Bar.closed t bars = upTo Bar.closed t bars' →
      Alike (fun position position' => position.upTo t = position'.upTo t)
        (smaCrossoverPosition rolling bars smaWindow)
        (smaCrossoverPosition rolling bars' smaWindow)
  /-- The frames `triple_lev_sma_eligibility` returns have the same rows up to `t`. -/
  eligibility : ∀ (smaWindow : Nat) (exitBuffer enterBuffer : F)
    (qqqCloses tltCloses qqqCloses' tltCloses' : Series Datetime F),
    qqqCloses.InOrder → qqqCloses'.InOrder →
    qqqCloses.upTo t = qqqCloses'.upTo t → tltCloses.upTo t = tltCloses'.upTo t →
      ∀ frame frame',
        tripleLevSmaEligibility rolling qqqCloses tltCloses smaWindow exitBuffer enterBuffer =
          .ok frame →
        tripleLevSmaEligibility rolling qqqCloses' tltCloses' smaWindow exitBuffer enterBuffer =
          .ok frame' →
          frame.columns = frame'.columns ∧ frame.upTo t = frame'.upTo t
  /-- It raises on one only where the closes of one alone are not aligned. -/
  eligibilityRaises : ∀ (smaWindow : Nat) (exitBuffer enterBuffer : F)
    (qqqCloses tltCloses qqqCloses' tltCloses' : Series Datetime F),
    qqqCloses.InOrder → qqqCloses'.InOrder →
    qqqCloses.upTo t = qqqCloses'.upTo t → tltCloses.upTo t = tltCloses'.upTo t →
    (qqqCloses.index = tltCloses.index ↔ qqqCloses'.index = tltCloses'.index) →
      Alike (fun _ _ => True)
        (tripleLevSmaEligibility rolling qqqCloses tltCloses smaWindow exitBuffer enterBuffer)
        (tripleLevSmaEligibility rolling qqqCloses' tltCloses' smaWindow exitBuffer enterBuffer)
  /-- Frames with the same rows up to `t` have the same weights up to it. -/
  weights : ∀ frame frame' : DataFrame Datetime F,
    frame.columns = frame'.columns → frame.upTo t = frame'.upTo t →
      (eligibilityToTargetWeights frame).upTo t = (eligibilityToTargetWeights frame').upTo t
  /-- Runs of `run_ib_multi_pipeline` that hear the same up to `t` agree up to it. -/
  pipeline : ∀ (args : IbMultiPipelineArgs) (marketData : MarketData)
    (targetWeightsSeries : WeightsFrame), SameHistory t args marketData targetWeightsSeries →
    ∀ (policy policy' : RoundingPolicy) (broker broker' : IBBroker)
      (placed placed' : List PlacedOrder) (killSwitch killSwitch' : KillSwitch)
      (loop loop' : RebalanceLoop) (as as' : List Action) (s s' : State),
      runIbMultiPipeline args broker = .ok loop →
      runIbMultiPipeline (args.onHistory marketData targetWeightsSeries) broker' = .ok loop' →
      run (step loop policy) (loop.start broker placed killSwitch) as = some s →
      run (step loop' policy') (loop'.start broker' placed' killSwitch') as' = some s' →
      trace (step loop policy) (responsesUpTo t) (loop.start broker placed killSwitch) as =
        trace (step loop' policy') (responsesUpTo t) (loop'.start broker' placed' killSwitch')
          as' →
        Course.Agree t s.course s'.course
  /-- Where it can start on one history only, it decides nothing up to `t` there. -/
  pipelineRaises : ∀ (args : IbMultiPipelineArgs) (marketData : MarketData)
    (targetWeightsSeries : WeightsFrame), SameHistory t args marketData targetWeightsSeries →
    ∀ (policy : RoundingPolicy) (broker broker' : IBBroker) (placed : List PlacedOrder)
      (killSwitch : KillSwitch) (loop : RebalanceLoop) (e : PyError) (as : List Action)
      (s : State), runIbMultiPipeline args broker = .ok loop → broker'.connected = true →
      runIbMultiPipeline (args.onHistory marketData targetWeightsSeries) broker' = .error e →
      run (step loop policy) (loop.start broker placed killSwitch) as = some s →
        s.course.ordersUpTo t = [] ∧ s.course.pointsUpTo t = []

/-- No look-ahead. The signals of two histories that are the same up to `t` have the same rows up
to `t`, and the pipeline submits the same orders, up to their ids, and records the same points of
its equity curve up to `t`. -/
theorem noLookAhead {F : Type} [FloatType F] (rolling : RollingMean F) (t : Int) :
    NoLookAhead rolling t where
  position smaWindow _ _ hbars hbars' hsame :=
    smaCrossoverPosition_alike rolling smaWindow hbars.inOrder hbars'.inOrder hsame
  eligibility _ _ _ _ _ _ _ hinOrder hinOrder' hqqq htlt _ _ hframe hframe' :=
    tripleLevSmaEligibility_upTo hinOrder hinOrder' hqqq htlt hframe hframe'
  eligibilityRaises smaWindow exitBuffer enterBuffer qqqCloses tltCloses qqqCloses' tltCloses'
      hinOrder hinOrder' hqqq htlt haligned := by
    have halike := tripleLevSmaEligibility_alike rolling smaWindow exitBuffer enterBuffer
      hinOrder hinOrder' haligned hqqq htlt
    exact halike.imp fun _ _ _ => trivial
  weights _ _ hcolumns h := eligibilityToTargetWeights_upTo hcolumns h
  pipeline _ _ _ h _ _ _ _ _ _ _ _ _ _ _ _ _ _ hentry hentry' hrun hrun' hresponses :=
    runs_agree h hentry hentry' hrun hrun' hresponses
  pipelineRaises _ _ _ h _ _ _ _ _ _ _ _ _ hentry hconnected hraises hrun :=
    idle_of_raise h hentry hconnected hraises hrun

/-- The sample with a second day, on which everything is sold. -/
def twoDays : IbMultiPipelineArgs :=
  { sampleMarketArgs with
    marketData := fun instrument =>
      if instrument = sampleInstrument then some [sampleBar, sampleNextBar] else none
    targetWeightsSeries := ⟨["CAC.PA"], (Dict.empty.set sampleBar.val.closeTimeUtc fun _ => 1).set
      sampleNextBar.val.closeTimeUtc fun _ => 0⟩ }

/-- On the first day the sample is the same. -/
theorem sameHistory_twoDays : SameHistory sampleBar.closed twoDays sampleMarketData
    sampleMarketArgs.targetWeightsSeries where
  loaded := by
    intro instrument hinstrument
    rw [List.mem_singleton.mp hinstrument]
    rfl
  bars := by
    intro instrument hinstrument bars hbars bars' hbars'
    rw [List.mem_singleton.mp hinstrument] at hbars hbars'
    cases hbars
    cases hbars'
    unfold NonOverlapping
    decide +kernel
  columns := rfl
  rows := by
    intro label hlabel
    have hfirst : label ≠ sampleNextBar.val.closeTimeUtc := by
      rintro rfl
      exact absurd hlabel (by decide +kernel)
    simp only [twoDays, sampleMarketArgs, sampleMultiArgs, Dict.get?_set, if_neg hfirst]

/-- The risk engine is asked about the files of the action. -/
theorem proceed_of_asked {s s' : State} {a : Action} {killSwitch : KillSwitch}
    {artefact : String → Artefact} (h : .asked killSwitch artefact ∈ inputs s a s') :
    ∃ ids, a = .proceed ids artefact := by
  have htask (task : Task) : .asked killSwitch artefact ∉ task.fate := by
    cases task <;> simp [Task.fate]
  have hdrain (drain : Drain) (task : Task) : .asked killSwitch artefact ∉ drain.fate task := by
    unfold Drain.fate
    split
    · simp
    · exact htask task
  cases a with
  | proceed ids files =>
    simp only [inputs] at h
    split at h
    · rcases List.mem_cons.mp h with hasked | hlater
      · cases hasked
        exact ⟨ids, rfl⟩
      · split at hlater
        · exact absurd hlater (htask _)
        · cases hlater
    · simp at h
  | getEvent =>
    simp only [inputs] at h
    split at h
    · exact absurd h (hdrain _ _)
    · exact absurd h (htask _)
  | timeout =>
    simp only [inputs] at h
    split at h
    · exact absurd h (hdrain _ _)
    · exact absurd h (htask _)
  | priceRules result now => exact absurd h (htask _)
  | acquired result now => exact absurd h (htask _)
  | canceled result => exact absurd h (htask _)
  | killSwitch call => cases h
  | venue action => cases h

/-- An order that is approved and filled, with what is heard of it but the files. -/
def heardFill : List Input → Option (KillSwitch × Fill)
  | [.asked killSwitch _, .answered (.filled fill)] => some (killSwitch, fill)
  | _ => none

/-- In a run without artefacts that is all. -/
theorem eq_of_heardFill {step : State → Action → Option State} {t : Int} {s : State}
    {as : List Action} {killSwitch : KillSwitch} {fill : Fill}
    (hfiles : ∀ a ∈ as, ∀ ids artefact, a = .proceed ids artefact → artefact = fun _ => none)
    (h : heardFill (trace step (responsesUpTo t) s as) = some (killSwitch, fill)) :
    trace step (responsesUpTo t) s as =
      [.asked killSwitch fun _ => none, .answered (.filled fill)] := by
  have hasked : ∀ input ∈ trace step (responsesUpTo t) s as, ∀ killSwitch artefact,
      input = .asked killSwitch artefact → artefact = fun _ => none := by
    apply forall_mem_trace
    rintro a ha s s' input hinput killSwitch artefact rfl
    unfold responsesUpTo at hinput
    split at hinput
    · obtain ⟨ids, hproceed⟩ := proceed_of_asked (List.mem_of_mem_filter hinput)
      exact hfiles a ha ids artefact hproceed
    · cases hinput
  generalize trace step (responsesUpTo t) s as = heard at h hasked
  unfold heardFill at h
  split at h
  · cases h
    rw [hasked _ List.mem_cons_self _ _ rfl]
  · cases h

/-- The fill of the first day. -/
def firstFill : Fill :=
  ⟨{ clientOrderId := 0
     venueOrderId := "7"
     venueExecId := "e1"
     instrument := sampleInstrument
     side := .buy
     quantity := 1000
     price := 100
     commission := 1
     currency := "EUR"
     timeUtc := ⟨2, some 0⟩ }, by decide +kernel⟩

/-- The orders of the first day are the same whether the history goes on or not. -/
theorem noLookAhead_twoDays : ∃ loop loop' s s',
    runIbMultiPipeline twoDays sampleBroker = .ok loop ∧
      runIbMultiPipeline sampleMarketArgs sampleBroker = .ok loop' ∧
      run (step loop .nearest) (loop.start sampleBroker [] {})
        (wholeFillRun ++ [sampleProceed 5]) = some s ∧
      run (step loop' .nearest) (loop'.start sampleBroker [] {}) wholeFillRun = some s' ∧
      s.submitted.length = 2 ∧ (s.course.ordersUpTo sampleBar.closed).length = 1 ∧
      s.course.ordersUpTo sampleBar.closed = s'.course.ordersUpTo sampleBar.closed ∧
      s.course.pointsUpTo sampleBar.closed = s'.course.pointsUpTo sampleBar.closed := by
  obtain ⟨loop, s, hentry, hrun, hend⟩ := Pipeline.exists_run (.multi twoDays)
    (wholeFillRun ++ [sampleProceed 5])
    (fun loop s => heardFill (trace (step loop .nearest) (responsesUpTo sampleBar.closed)
        (loop.start sampleBroker [] {}) (wholeFillRun ++ [sampleProceed 5])) =
          some ({}, firstFill) ∧
      s.course.place.Past sampleBar.closed ∧ s.submitted.length = 2 ∧
      (s.course.ordersUpTo sampleBar.closed).length = 1)
    (by decide +kernel)
  obtain ⟨loop', s', hentry', hrun', hend'⟩ := Pipeline.exists_run (.multi sampleMarketArgs)
    wholeFillRun
    (fun loop s => heardFill (trace (step loop .nearest) (responsesUpTo sampleBar.closed)
        (loop.start sampleBroker [] {}) wholeFillRun) = some ({}, firstFill) ∧
      s.course.place.Past sampleBar.closed)
    (by decide +kernel)
  obtain ⟨hheard, hpast, htwo, hone⟩ := of_decide_eq_true hend
  obtain ⟨hheard', hpast'⟩ := of_decide_eq_true hend'
  have hfiles : ∀ a ∈ wholeFillRun ++ [sampleProceed 5], ∀ ids artefact,
      a = .proceed ids artefact → artefact = fun _ => none := by
    simp [wholeFillRun, filledRun, sampleFill, sampleTick, sampleProceed]
  have hresponses := (eq_of_heardFill hfiles hheard).trans (eq_of_heardFill
    (fun a ha => hfiles a (List.mem_append_left _ ha)) hheard').symm
  have hagree := (noLookAhead ExactFloat.rollingMean sampleBar.closed).pipeline twoDays
    sampleMarketData sampleMarketArgs.targetWeightsSeries sameHistory_twoDays .nearest .nearest
    sampleBroker sampleBroker [] [] {} {} loop loop' _ _ s s' hentry hentry' hrun hrun' hresponses
  obtain ⟨horders, hpoints⟩ := hagree.past hpast hpast'
  exact ⟨loop, loop', s, s', hentry, hentry', hrun, hrun', htwo, hone, horders, hpoints⟩

end Blive.IbPipeline
