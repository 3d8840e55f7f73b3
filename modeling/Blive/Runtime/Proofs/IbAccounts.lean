import Mathlib.Data.List.Chain
import Blive.Misc.DictTotal
import Blive.Runtime.Proofs.Course
import Blive.Runtime.Proofs.Ledger
import Blive.Runtime.Proofs.RiskGate

/-!
# The accounts of the IB pipelines

Each point of the equity curve is that of an account that has opened with the starting cash and has
traded what was booked by then; from one point to the next the equity moves by the marks on what is
held and by what the new fills were traded away from the marks. The ledger need not be complete for
this: what the loop books is what it reports.
-/

namespace Blive.IbPipeline

open Transition

/-! ## What the booked fills come to -/

/-- `Σ signed quantity * weight`, the weight being that of the key the fill is booked under. -/
def weighed (loop : RebalanceLoop) (weight : String → Decimal) (fills : List Fill) : Decimal :=
  (fills.map fun fill => fill.signedQty * weight (loop.bookingKey fill)).sum

/-- `Σ quantity * weight` over the positions. -/
def heldAt (weight : String → Decimal) (positions : Dict String Position) : Decimal :=
  positions.total fun key position => position.val.quantity * weight key

/-- The ledger is that of the booked fills, whatever its positions are weighed with. -/
structure Held (loop : RebalanceLoop) (s : State) : Prop where
  keys : ∀ key ∈ s.positions, ∃ fill ∈ s.booked, key = loop.bookingKey fill
  held : ∀ weight, heldAt weight s.positions = weighed loop weight s.booked
  cash : s.cash = loop.startingCash - netCost s.booked

section Held

variable {loop : RebalanceLoop} {policy : RoundingPolicy} {s t : State}

theorem weighed_append (weight : String → Decimal) (fills more : List Fill) :
    weighed loop weight (fills ++ more) = weighed loop weight fills + weighed loop weight more := by
  simp [weighed]

/-- A fill moves what is held under its key. -/
theorem heldAt_applyFill {positions : Dict String Position} {key : String} {fill : Fill}
    {strategyId : String} {now : Datetime} {position : Position}
    (h : applyFill (positions.get? key) fill strategyId now = .ok position)
    (weight : String → Decimal) :
    heldAt weight (positions.set key position) =
      heldAt weight positions + fill.signedQty * weight key := by
  have hquantity := applyFill_quantity h
  unfold heldAt
  rw [Dict.total_set, hquantity]
  cases positions.get? key with
  | none =>
    simp only [quantityOf, Option.map_none, Option.getD_none]
    ring
  | some before =>
    simp only [quantityOf, Option.map_some, Option.getD_some]
    ring

theorem Held.of_same (hs : Held loop s) (hpositions : t.positions = s.positions)
    (hcash : t.cash = s.cash) (hbooked : t.booked = s.booked) : Held loop t := by
  constructor
  · rw [hpositions, hbooked]
    exact hs.keys
  · rw [hpositions, hbooked]
    exact hs.held
  · rw [hcash, hbooked]
    exact hs.cash

theorem Held.settle (hs : Held loop s) (work : Work) (drain : Drain) :
    Held loop (loop.settle s work drain) := by
  rcases settle_cases loop s work drain with ⟨fill, position, _, -, hposition, heq⟩ |
    ⟨_, _, -, heq⟩ | ⟨_, _, _, -, -, -, heq⟩
  · rw [heq]
    refine ⟨fun key hkey => ?_, fun weight => ?_, ?_⟩
    · rcases (Dict.mem_set _ _ _ _).mp hkey with rfl | hkey
      · exact ⟨fill, by simp, rfl⟩
      · obtain ⟨before, hmem, rfl⟩ := hs.keys key hkey
        exact ⟨before, List.mem_append_left _ hmem, rfl⟩
    · change heldAt weight (s.positions.set _ position) = weighed loop weight (s.booked ++ [fill])
      rw [heldAt_applyFill hposition, hs.held, weighed_append]
      simp [weighed]
    · change s.cash - _ = loop.startingCash - netCost (s.booked ++ [fill])
      rw [hs.cash]
      simp only [netCost, List.map_append, List.map_cons, List.map_nil, List.sum_append,
        List.sum_cons, List.sum_nil]
      ring
  · rw [heq]
    exact hs.of_same rfl rfl rfl
  · rw [heq]
    exact hs.of_same rfl rfl rfl

theorem Held.step {a : Action} (hs : Held loop s)
    (h : IbPipeline.step loop policy s a = some t) : Held loop t := by
  cases step_cases h with
  | submitted ids artefact rebalance desired orders bars result submission hfrom =>
    cases hcall : s.broker.submit submission.order <;>
      simp only [RebalanceLoop.callSubmit, hcall] <;> exact hs.of_same rfl rfl rfl
  | ruled result now work order wired switched hfrom =>
    cases (s.broker.afterPriceRules policy wired result now).2 <;> exact hs.of_same rfl rfl rfl
  | ended work drain event hfrom =>
    exact Held.settle (s := { s with cursor := s.cursor + 1 }) (hs.of_same rfl rfl rfl) work _
  | timedOut work drain hfrom => exact hs.settle work drain
  | _ => exact hs.of_same rfl rfl rfl

end Held

/-! ## Marked to the market -/

/-- The mark of a key, and zero where there is none. -/
def markOf (marks : Dict String Decimal) (key : String) : Decimal := (marks.get? key).getD 0

/-- At its rebalances the loop values what it holds at the marks of the rebalance. -/
def RebalanceLoop.MarksToMarket (loop : RebalanceLoop) : Prop :=
  ∀ bar rebalance cash positions, loop.rebalance bar = .ok (some rebalance) →
    (∀ key ∈ positions, ∃ fill, key = loop.bookingKey fill) →
      loop.computeEquity cash positions rebalance =
        cash + heldAt (markOf rebalance.markPrices) positions

theorem foldl_add {α : Type} (f : α → Decimal) (xs : List α) (start : Decimal) :
    xs.foldl (fun sum x => sum + f x) start = start + (xs.map f).sum := by
  induction xs generalizing start with
  | nil => simp
  | cons x xs ih =>
    rw [List.foldl_cons, ih, List.map_cons, List.sum_cons, add_assoc]

theorem runIbPipeline_marksToMarket {args : IbPipelineArgs} {broker : IBBroker}
    {loop : RebalanceLoop} (h : runIbPipeline args broker = .ok loop) : loop.MarksToMarket := by
  obtain ⟨-, h⟩ := require_bind_eq_ok_iff.mp h
  obtain ⟨bars, -, h⟩ := bind_eq_ok_iff.mp h
  obtain ⟨-, h⟩ := require_bind_eq_ok_iff.mp h
  cases h
  intro bar rebalance cash positions hrebalance hkeys
  obtain ⟨position, -, rfl⟩ := Option.map_eq_some_iff.mp (Except.ok.inj hrebalance)
  have hvalues : heldAt (markOf (Dict.empty.set args.instrument.val.symbol bar.val.close))
      positions = positions.total fun _ position => position.val.quantity * bar.val.close := by
    refine Dict.total_congr fun item hitem => ?_
    obtain ⟨_, hkey⟩ := hkeys item.1 (List.mem_map_of_mem hitem)
    rw [hkey, markOf, Dict.get?_set, if_pos rfl, Option.getD_some]
  change computeEquity cash positions bar.val.close = _
  rw [computeEquity, foldl_add, zero_add, hvalues, Dict.total, Dict.totalItems, Dict.values,
    List.map_map]
  rfl

theorem computeEquityMulti_eq (cash : Decimal) (positions : Dict String Position)
    (marks : Dict String Decimal) :
    computeEquityMulti cash positions marks = cash + heldAt (markOf marks) positions := by
  unfold computeEquityMulti
  congr 1
  refine (List.foldl_ext _ (fun notional item =>
    notional + item.2.val.quantity * markOf marks item.1) _ ?_).trans ?_
  · intro notional item _
    unfold markOf
    cases marks.get? item.1 with
    | none => rw [Option.getD_none, mul_zero, add_zero]
    | some price => rfl
  · rw [foldl_add, zero_add]
    rfl

theorem runIbMultiPipeline_marksToMarket {args : IbMultiPipelineArgs} {broker : IBBroker}
    {loop : RebalanceLoop} (h : runIbMultiPipeline args broker = .ok loop) :
    loop.MarksToMarket := by
  have hequity : loop.computeEquity = fun cash positions rebalance =>
      computeEquityMulti cash positions rebalance.markPrices := by
    obtain ⟨-, h⟩ := require_bind_eq_ok_iff.mp h
    split at h
    · cases h
    · obtain ⟨-, h⟩ := require_bind_eq_ok_iff.mp h
      obtain ⟨bars, -, h⟩ := bind_eq_ok_iff.mp h
      obtain ⟨-, h⟩ := require_bind_eq_ok_iff.mp h
      cases h
      rfl
  intro bar rebalance cash positions _ _
  rw [hequity]
  exact computeEquityMulti_eq cash positions rebalance.markPrices

theorem Pipeline.marksToMarket {pipeline : Pipeline} {broker : IBBroker} {loop : RebalanceLoop}
    (h : pipeline.enter broker = .ok loop) : loop.MarksToMarket := by
  cases pipeline with
  | single args => exact runIbPipeline_marksToMarket h
  | multi args => exact runIbMultiPipeline_marksToMarket h

/-! ## Every holding has a mark -/

theorem barsBySymbol_keys {args : IbMultiPipelineArgs} {others : List Instrument} {t : Datetime}
    {bars result : Dict String Bar} (h : args.barsBySymbol others t bars = .ok result)
    {symbol : String} (hmem : symbol ∈ result) :
    symbol ∈ bars ∨ symbol ∈ others.map fun instrument => instrument.val.symbol := by
  induction others generalizing bars with
  | nil =>
    cases h
    exact .inl hmem
  | cons instrument others ih =>
    unfold IbMultiPipelineArgs.barsBySymbol at h
    rw [List.foldlM_cons] at h
    obtain ⟨next, hnext, hrest⟩ := bind_eq_ok_iff.mp h
    rcases ih hrest with hnow | hlater
    · obtain ⟨latest, -, hset⟩ := bind_eq_ok_iff.mp hnext
      cases latest with
      | none =>
        cases hset
        exact .inl hnow
      | some bar =>
        cases hset
        rcases (Dict.mem_set _ _ _ _).mp hnow with rfl | hbefore
        · exact .inr List.mem_cons_self
        · exact .inl hbefore
    · exact .inr (List.mem_cons_of_mem _ hlater)

/-- A rebalance that is not skipped has a bar, and so a mark, of every instrument. -/
theorem markPrices_of_instrument {args : IbMultiPipelineArgs} {canonical : Instrument}
    {others : List Instrument} (hinstruments : args.instruments = canonical :: others) {bar : Bar}
    {rebalance : Rebalance} (h : args.rebalance canonical others bar = .ok (some rebalance))
    {instrument : Instrument} (hmem : instrument ∈ args.instruments) :
    (rebalance.markPrices.get? instrument.val.symbol).isSome := by
  have hcovered : instrument.val.symbol ∈ rebalance.barsBySymbol := by
    unfold IbMultiPipelineArgs.rebalance at h
    split at h
    · cases h
    · obtain ⟨bars, hbars, h⟩ := bind_eq_ok_iff.mp h
      split at h
      · cases h
      · rename_i hlength
        obtain ⟨markPrices, -, h⟩ := bind_eq_ok_iff.mp h
        cases h
        let symbols := args.instruments.map fun instrument => instrument.val.symbol
        have hsub : bars.keys ⊆ symbols := by
          intro symbol hsymbol
          simp only [symbols, hinstruments, List.map_cons]
          rcases barsBySymbol_keys hbars hsymbol with hfirst | hrest
          · rcases (Dict.mem_set _ _ _ _).mp hfirst with rfl | hnone
            · exact List.mem_cons_self
            · exact absurd hnone (Dict.notMem_empty _)
          · exact List.mem_cons_of_mem _ hrest
        have hcount : symbols.length ≤ bars.keys.length := by
          simp only [symbols, Dict.keys, List.length_map]
          exact (not_not.mp hlength).ge
        have hperm := (bars.nodup.subperm hsub).perm_of_length_le hcount
        exact hperm.mem_iff.mpr (List.mem_map_of_mem hmem)
  obtain ⟨last, hlast⟩ := Dict.exists_get?_of_mem hcovered
  obtain ⟨price, -, hprice⟩ := markPrices_of_rebalance h hlast
  rw [hprice]
  rfl

/-- A booked fill is on an instrument of the pipeline. -/
theorem booked_resolved {loop : RebalanceLoop} {s : State} (hs : Coherent s) {lost : List Fill}
    (hbalanced : Balanced s lost) (hrecorded : ∀ submission ∈ s.submitted, loop.Recorded submission)
    {fill : Fill} (h : fill ∈ s.booked) :
    ∃ key, loop.instrumentResolver key = .ok fill.val.instrument := by
  have hemitted : fill ∈ emittedFills s.submittedIds s.broker.events :=
    hbalanced.mem_iff.mpr (List.mem_append_left _ (List.mem_append_left _ h))
  obtain ⟨event, hevent, hfill⟩ := List.mem_filterMap.mp hemitted
  obtain ⟨hmem, hid⟩ := List.mem_filter.mp hevent
  obtain ⟨queued, hqueued, horder⟩ := List.mem_filterMap.mp hmem
  obtain rfl : queued = .order event := by
    cases queued <;> cases horder
    rfl
  obtain ⟨p, hp, hcid, hon⟩ := hs.origin.events event hqueued fill hfill
  have hours : p.cid ∈ s.submittedIds := by
    rw [hcid]
    simpa using hid
  obtain ⟨submission, hsubmission, hsame⟩ := hs.placedOn p hp hours
  obtain ⟨work, -, ⟨s₀, hsized⟩, hmade⟩ := hrecorded submission hsubmission
  obtain ⟨key, hkey⟩ := hsized.resolved
  rw [← hon, ← hsame, hmade.instrument_eq]
  exact ⟨key, hkey⟩

theorem mem_of_instBySymbol {args : IbMultiPipelineArgs} {key : String} {instrument : Instrument}
    (h : args.instBySymbol.get? key = some instrument) : instrument ∈ args.instruments := by
  unfold IbMultiPipelineArgs.instBySymbol at h
  rw [Dict.get?_ofList_eq_getLast?] at h
  obtain ⟨item, hitem, hvalue⟩ := List.mem_filterMap.mp (List.mem_of_getLast? h)
  obtain ⟨listed, hmem, rfl⟩ := List.mem_map.mp hitem
  split at hvalue
  · cases hvalue
    exact hmem
  · cases hvalue

/-- What is booked has a mark at every rebalance. -/
theorem Pipeline.marked {pipeline : Pipeline} {broker : IBBroker} {loop : RebalanceLoop}
    (h : pipeline.enter broker = .ok loop) {key : String} {fill : Fill}
    (hfill : loop.instrumentResolver key = .ok fill.val.instrument) {bar : Bar}
    {rebalance : Rebalance} (hrebalance : loop.rebalance bar = .ok (some rebalance)) :
    (rebalance.markPrices.get? (loop.bookingKey fill)).isSome := by
  cases pipeline with
  | single args =>
    obtain ⟨-, h⟩ := require_bind_eq_ok_iff.mp h
    obtain ⟨bars, -, h⟩ := bind_eq_ok_iff.mp h
    obtain ⟨-, h⟩ := require_bind_eq_ok_iff.mp h
    cases h
    obtain ⟨position, -, rfl⟩ := Option.map_eq_some_iff.mp (Except.ok.inj hrebalance)
    dsimp only
    rw [Dict.get?_set, if_pos rfl]
    rfl
  | multi args =>
    obtain ⟨-, h⟩ := require_bind_eq_ok_iff.mp h
    split at h
    · cases h
    · rename_i canonical others hinstruments
      obtain ⟨-, h⟩ := require_bind_eq_ok_iff.mp h
      obtain ⟨bars, -, h⟩ := bind_eq_ok_iff.mp h
      obtain ⟨-, h⟩ := require_bind_eq_ok_iff.mp h
      cases h
      refine markPrices_of_instrument hinstruments hrebalance ?_
      have hget := orRaise_eq_ok_iff.mp hfill
      exact mem_of_instBySymbol hget

/-! ## The points of the equity curve -/

/-- A point of the equity curve, and what was booked by then. -/
structure Report where
  point : EquityPoint
  booked : List Fill

/-- What a step from `s` to `t` adds to the equity curve. -/
def reports (s : State) (_ : Action) (t : State) : List Report :=
  (t.result.equityCurve.drop s.result.equityCurve.length).map fun point => ⟨point, t.booked⟩

/-- The point is that of an account that has traded the fills. -/
structure Report.Balanced (loop : RebalanceLoop) (report : Report) : Prop where
  cash : report.point.cash = loop.startingCash - netCost report.booked
  positions : ∀ weight, (report.point.positions.total fun key quantity => quantity * weight key) =
    weighed loop weight report.booked
  equity : report.point.equity =
    report.point.cash + weighed loop (markOf report.point.markPrices) report.booked

/-- What a fill gains away from the mark, less its commission. -/
def gain (loop : RebalanceLoop) (marks : Dict String Decimal) (fill : Fill) : Decimal :=
  fill.signedQty * (markOf marks (loop.bookingKey fill) - fill.val.price) - fill.val.commission

/-- From one report to the next the equity moves by the marks on what was held, and by what the new
fills gain. -/
def Report.Next (loop : RebalanceLoop) (report next : Report) : Prop :=
  ∃ fills, next.booked = report.booked ++ fills ∧
    next.point.equity - report.point.equity =
      (report.point.positions.total fun key quantity => quantity *
        (markOf next.point.markPrices key - markOf report.point.markPrices key)) +
          (fills.map (gain loop next.point.markPrices)).sum

section Reports

variable {loop : RebalanceLoop} {policy : RoundingPolicy} {s t : State}

/-- What fills cost against what they are worth at the marks. -/
theorem weighed_sub_netCost (marks : Dict String Decimal) (fills : List Fill) :
    weighed loop (markOf marks) fills - netCost fills = (fills.map (gain loop marks)).sum := by
  induction fills with
  | nil => simp [weighed, netCost]
  | cons fill fills ih =>
    simp only [weighed, netCost, List.map_cons, List.sum_cons] at ih ⊢
    rw [← ih, gain]
    ring

theorem weighed_sub (weight weight' : String → Decimal) (fills : List Fill) :
    weighed loop (fun key => weight key - weight' key) fills =
      weighed loop weight fills - weighed loop weight' fills := by
  induction fills with
  | nil => simp [weighed]
  | cons fill fills ih =>
    simp only [weighed, List.map_cons, List.sum_cons] at ih ⊢
    rw [ih]
    ring

theorem Report.Balanced.next {report next : Report} {fills : List Fill}
    (h : report.Balanced loop) (hnext : next.Balanced loop)
    (hbooked : next.booked = report.booked ++ fills) : report.Next loop next := by
  refine ⟨fills, hbooked, ?_⟩
  have hcost : netCost next.booked = netCost report.booked + netCost fills := by
    rw [hbooked]
    simp [netCost]
  rw [h.positions, weighed_sub, ← weighed_sub_netCost, hnext.equity, h.equity, hnext.cash, h.cash,
    hcost, hbooked, weighed_append]
  ring

/-- Responses leave the equity curve alone. -/
theorem equityCurve_of_responses (course : Course) {heard : List Input}
    (h : ∀ input ∈ heard, input.isResponse = true) :
    (heard.foldl (Course.hear loop) course).equityCurve = course.equityCurve := by
  have hone (course : Course) (input : Input) (hinput : input.isResponse = true) :
      (Course.hear loop course input).equityCurve = course.equityCurve := by
    cases input with
    | turned => cases hinput
    | asked killSwitch artefact =>
      simp only [Course.hear]
      split
      · simp only [Course.ask]
        split
        · rfl
        · split
          · rfl
          · simp only [Course.submit]
            split <;> rfl
      · rfl
    | answered fate =>
      simp only [Course.hear]
      split
      · cases fate with
        | filled fill =>
          simp only [Course.answer]
          split <;> rfl
        | unfilled => rfl
        | raised => rfl
      · rfl
  induction heard generalizing course with
  | nil => rfl
  | cons input heard ih =>
    obtain ⟨hinput, hheard⟩ := List.forall_mem_cons.mp h
    rw [List.foldl_cons, ih _ hheard, hone course input hinput]

/-- A step adds the point of the rebalance it closes to the curve, or nothing. -/
theorem step_equityCurve (hloop : loop.BooksAnonymously) {a : Action}
    (h : step loop policy s a = some t) :
    t.result.equityCurve = s.result.equityCurve ∨
      ∃ work, s.task = .atOrder work ∧ t.cash = s.cash ∧ t.positions = s.positions ∧
        t.result.equityCurve = s.result.equityCurve ++ [{
          timeUtc := work.rebalance.time
          cash := s.cash
          positions := s.positions.mapValues (·.val.quantity)
          markPrices := work.rebalance.markPrices
          equity := loop.computeEquity s.cash s.positions work.rebalance }] := by
  have hcourse := (step_follows hloop h).course
  rcases inputs_cases s a t with hturned | hresponses
  · rw [hturned, List.foldl_cons, List.foldl_nil, Course.hear] at hcourse
    have hplace : s.course.place = s.task.place := rfl
    rw [hplace] at hcourse
    have hcurve := congrArg Course.equityCurve hcourse
    have hcash := congrArg Course.cash hcourse
    have hpositions := congrArg Course.positions hcourse
    cases htask : s.task with
    | atBar bars =>
      left
      rw [htask, Task.place] at hcurve
      cases bars with
      | nil => exact hcurve
      | cons bar bars =>
        simp only [Course.openRebalance] at hcurve
        split at hcurve
        · exact hcurve
        · exact hcurve
        · split at hcurve <;> exact hcurve
    | atOrder work =>
      rw [htask, Task.place] at hcurve hcash hpositions
      cases horders : work.orders.map Order.anonymous with
      | nil =>
        rw [horders] at hcurve hcash hpositions
        exact .inr ⟨work, rfl, hcash, hpositions, hcurve⟩
      | cons order orders =>
        rw [horders] at hcurve
        exact .inl hcurve
    | _ =>
      left
      rw [htask, Task.place] at hcurve
      exact hcurve
  · left
    have hcurve := congrArg Course.equityCurve hcourse
    rwa [equityCurve_of_responses _ hresponses] at hcurve

/-- What is booked stays booked. -/
theorem booked_step {a : Action} (h : step loop policy s a = some t) : s.booked <+: t.booked := by
  have hsettle (s : State) (work : Work) (drain : Drain) :
      s.booked <+: (loop.settle s work drain).booked := by
    rcases settle_cases loop s work drain with ⟨fill, position, _, -, -, heq⟩ |
      ⟨_, _, -, heq⟩ | ⟨_, _, _, -, -, -, heq⟩
    · rw [heq]
      exact List.prefix_append _ _
    · rw [heq]
    · rw [heq]
  cases step_cases h with
  | submitted ids artefact rebalance desired orders bars result submission hfrom =>
    cases hcall : s.broker.submit submission.order <;>
      simp only [RebalanceLoop.callSubmit, hcall] <;> exact List.prefix_rfl
  | ruled result now work order wired switched hfrom =>
    cases (s.broker.afterPriceRules policy wired result now).2 <;> exact List.prefix_rfl
  | ended work drain event hfrom => exact hsettle { s with cursor := s.cursor + 1 } work _
  | timedOut work drain hfrom => exact hsettle s work drain
  | _ => exact List.prefix_rfl

/-- The report was made at a rebalance of the loop. -/
def Report.At (loop : RebalanceLoop) (report : Report) : Prop :=
  ∃ bar rebalance, loop.rebalance bar = .ok (some rebalance) ∧
    report.point.timeUtc = rebalance.time ∧ report.point.markPrices = rebalance.markPrices

/-- What the loop has reported so far. -/
structure Books (loop : RebalanceLoop) (seen : List Report) (s : State) : Prop where
  held : Held loop s
  curve : seen.map Report.point = s.result.equityCurve
  balanced : ∀ report ∈ seen, report.Balanced loop
  rebalances : ∀ report ∈ seen, report.At loop
  before : ∀ report ∈ seen, report.booked <+: s.booked
  chain : seen.IsChain (Report.Next loop)

theorem Books.step (hmarks : loop.MarksToMarket) (hloop : loop.BooksAnonymously) {a : Action}
    {seen : List Report} (hs : Books loop seen s)
    (hopened : ∀ work ∈ s.task.work?, loop.Opened work)
    (h : IbPipeline.step loop policy s a = some t) : Books loop (seen ++ reports s a t) t := by
  have hheld := hs.held.step h
  have hbooked := booked_step h
  rcases step_equityCurve hloop h with hcurve | ⟨work, htask, hcash, hpositions, hcurve⟩
  · have hnone : reports s a t = [] := by
      rw [reports, hcurve, List.drop_length]
      rfl
    rw [hnone, List.append_nil]
    exact ⟨hheld, hs.curve.trans hcurve.symm, hs.balanced, hs.rebalances,
      fun report hreport => (hs.before report hreport).trans hbooked, hs.chain⟩
  · generalize hpoint : (EquityPoint.mk work.rebalance.time s.cash
      (s.positions.mapValues (·.val.quantity)) work.rebalance.markPrices
      (loop.computeEquity s.cash s.positions work.rebalance)) = point at hcurve
    have hnew : reports s a t = [⟨point, t.booked⟩] := by
      rw [reports, hcurve, List.drop_left]
      rfl
    obtain ⟨bar, hbar⟩ := (hopened work (by rw [htask]; rfl)).rebalance
    have hbalanced : Report.Balanced loop ⟨point, t.booked⟩ := by
      subst hpoint
      constructor
      · rw [← hheld.cash, hcash]
      · intro weight
        dsimp only
        rw [Dict.total_mapValues, ← hheld.held, hpositions]
        rfl
      · dsimp only
        rw [hmarks bar work.rebalance s.cash s.positions hbar, ← hheld.held, hpositions]
        intro key hkey
        obtain ⟨fill, -, hfill⟩ := hs.held.keys key hkey
        exact ⟨fill, hfill⟩
    rw [hnew]
    refine ⟨hheld, ?_, ?_, ?_, ?_, ?_⟩
    · rw [List.map_append, hs.curve, hcurve]
      rfl
    · intro report hreport
      rcases List.mem_append.mp hreport with hold | hlast
      · exact hs.balanced report hold
      · rw [List.mem_singleton.mp hlast]
        exact hbalanced
    · intro report hreport
      rcases List.mem_append.mp hreport with hold | hlast
      · exact hs.rebalances report hold
      · rw [List.mem_singleton.mp hlast]
        subst hpoint
        exact ⟨bar, work.rebalance, hbar, rfl, rfl⟩
    · intro report hreport
      rcases List.mem_append.mp hreport with hold | hlast
      · exact (hs.before report hold).trans hbooked
      · rw [List.mem_singleton.mp hlast]
    · refine List.isChain_append.mpr ⟨hs.chain, List.isChain_singleton _, ?_⟩
      intro last hlast next hnext
      cases hnext
      have hmem := List.mem_of_getLast? hlast
      obtain ⟨fills, hfills⟩ := (hs.before last hmem).trans hbooked
      exact (hs.balanced last hmem).next hbalanced hfills.symm

end Reports

theorem Pipeline.booksAnonymously {pipeline : Pipeline} {broker : IBBroker} {loop : RebalanceLoop}
    (h : pipeline.enter broker = .ok loop) : loop.BooksAnonymously := by
  intro fill
  cases pipeline with
  | single args => rw [(runIbPipeline_eq h).2]
  | multi args =>
    rw [(runIbMultiPipeline_eq h).2.2.2.2.2]
    rfl

/-- The sample with a second day, on which everything is sold. -/
def inAndOut : IbPipelineArgs :=
  { sampleArgs with
    marketData := fun instrument =>
      if instrument = sampleInstrument then some [sampleBar, sampleNextBar] else none
    positionSeries := (Dict.empty.set sampleBar.val.closeTimeUtc 1).set
      sampleNextBar.val.closeTimeUtc 0 }

/-- The 1000 shares are bought at 100 and sold at 89, one below the mark of the second day. -/
def inAndOutRun : List Action :=
  let sale : Action := .venue (.fillEvent 5 { orderId := 8, status := "Submitted" }
    ⟨some ⟨"e2", 1000, 89, none⟩, some ⟨1, "EUR"⟩⟩ ⟨4⟩)
  wholeFillRun ++ [sampleProceed 5, .acquired (.ok 8) ⟨4⟩, sale, sampleTick, sampleTick,
    .getEvent, .getEvent, .getEvent, sampleProceed 6, sampleProceed 7]

end Blive.IbPipeline
