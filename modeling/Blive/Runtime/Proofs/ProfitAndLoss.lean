import Mathlib.Data.List.Chain
import Blive.Runtime.Proofs.Simulation

/-!
# Profit and loss of the paper pipeline

A finished run has come to the closes of its bars in their order, so that what `Stands` says holds
all along it. A point of its equity curve is what the fills reported by then have left of the
starting cash, with what they have bought at the mark. From one point to the next the equity moves
by the mark on what is held, less the commissions of the fills in between.
-/

namespace Blive.PaperPipeline

open Transition
open IbPipeline (netCost)

/-! ## A finished run comes to its closes in order -/

/-- The bars the loop has still to come to. -/
def Task.bars : Task → List Bar
  | .atBar bars => bars
  | .atOrder work => work.bars
  | .inDrain work _ => work.bars
  | .finished => []
  | .raised _ => []

section Order

variable {loop : PaperLoop} {s t : State}

theorem tick_eq_ok {now later : Utc} {micros : Int} (h : SimClock.tick now micros = .ok later) :
    0 ≤ micros ∧ later.micros = now.micros + micros := by
  obtain ⟨hnonneg, h⟩ := require_bind_eq_ok_iff.mp h
  cases h
  exact ⟨hnonneg, rfl⟩

theorem Ahead.cons {now later : Utc} {bar : Bar} {bars : List Bar}
    (hnow : now.micros ≤ later.micros) (hlater : later.micros = bar.val.closeTimeUtc.micros)
    (h : Ahead later bars) : Ahead now (bar :: bars) := by
  refine ⟨?_, List.pairwise_cons.mpr ⟨?_, h.2⟩⟩
  · intro next hnext
    rcases List.mem_cons.mp hnext with rfl | hnext
    · omega
    · exact le_trans hnow (h.1 next hnext)
  · intro next hnext
    rw [← hlater]
    exact h.1 next hnext

/-- A step raises, or comes to the first of the bars that are ahead. -/
theorem step_ahead {a : Action} (h : step loop s a = some t) :
    (∃ e, t.task = .raised e) ∨ (Ahead t.now t.task.bars → Ahead s.now s.task.bars) := by
  have hsame (hnow : t.now = s.now) (hbars : t.task.bars = s.task.bars) :
      (∃ e, t.task = .raised e) ∨ (Ahead t.now t.task.bars → Ahead s.now s.task.bars) := by
    rw [hnow, hbars]
    exact .inr id
  cases a with
  | proceed ids artefact =>
    simp only [step] at h
    split at h
    · rename_i htask
      cases h
      exact hsame rfl (by rw [htask]; rfl)
    · rename_i bar bars htask
      cases h
      unfold PaperLoop.openRebalance
      cases htick : SimClock.tick s.now (bar.val.closeTimeUtc.micros - s.now.micros) with
      | error e => exact .inl ⟨e, rfl⟩
      | ok now =>
        obtain ⟨hnonneg, hnow⟩ := tick_eq_ok htick
        have hahead : Ahead now bars → Ahead s.now s.task.bars := by
          rw [htask]
          exact Ahead.cons (by omega) (by omega)
        dsimp only
        split
        · exact .inr hahead
        · split
          · exact .inl ⟨_, rfl⟩
          · exact .inr hahead
    · rename_i bar bars htask
      cases h
      exact hsame rfl (by rw [htask]; rfl)
    · rename_i bar order orders bars htask
      cases h
      unfold PaperLoop.submitOrder
      dsimp only
      split
      · exact .inr (by rw [htask]; exact id)
      · split
        · exact .inl ⟨_, rfl⟩
        · exact .inr (by rw [htask]; exact id)
    · cases h
  | lifecycle i =>
    simp only [step] at h
    split at h
    · rename_i htask
      obtain ⟨broker, -, rfl⟩ := Option.map_eq_some_iff.mp h
      exact hsame rfl rfl
    · cases h
  | getEvent =>
    simp only [step] at h
    split at h
    · rename_i work drain event htask hevent
      cases h
      split
      · unfold PaperLoop.settle PaperLoop.bookFill
        split
        · split
          · exact .inl ⟨_, rfl⟩
          · exact .inr (by rw [htask]; exact id)
        · exact .inr (by rw [htask]; exact id)
      · exact .inr (by rw [htask]; exact id)
    · cases h

/-- Where the loop has raised, it stays. -/
theorem step_of_raised {e : PyError} (h : s.task = .raised e) (a : Action) :
    step loop s a = none := by
  cases a <;> simp [step, h]

/-- The bars of a finished run were ahead all along. -/
theorem ahead_of_finished {as : List Action} (hrun : run (step loop) s as = some t)
    (hfinished : t.task = .finished) : Ahead s.now s.task.bars := by
  induction as generalizing s with
  | nil =>
    cases hrun
    rw [hfinished]
    exact ⟨by simp [Task.bars], List.Pairwise.nil⟩
  | cons a as ih =>
    obtain ⟨m, hm, hrest⟩ := run_cons_eq_some.mp hrun
    rcases step_ahead hm with ⟨e, hraised⟩ | hahead
    · cases as with
      | nil =>
        cases hrest
        cases hraised.symm.trans hfinished
      | cons b bs =>
        obtain ⟨n, hn, -⟩ := run_cons_eq_some.mp hrest
        rw [step_of_raised hraised b] at hn
        cases hn
    · exact hahead (ih hrest)

end Order

/-! ## What fills come to -/

/-- The fills among the events, in their order. -/
def fillsIn (events : List BrokerEvent) : List Fill := events.filterMap fillOf

/-- `Σ commission` -/
def commissions (fills : List Fill) : Decimal := (fills.map fun fill => fill.val.commission).sum

@[simp] theorem fillsIn_append (xs ys : List BrokerEvent) :
    fillsIn (xs ++ ys) = fillsIn xs ++ fillsIn ys := List.filterMap_append

@[simp] theorem netCost_append (xs ys : List Fill) :
    netCost (xs ++ ys) = netCost xs + netCost ys := by
  simp [netCost]

@[simp] theorem signedSum_append (xs ys : List Fill) :
    signedSum (xs ++ ys) = signedSum xs + signedSum ys := by
  simp [signedSum]

/-- What is traded at one price costs its quantity at that price, and the commissions. -/
theorem netCost_of_price {fills : List Fill} {price : Decimal}
    (h : ∀ fill ∈ fills, fill.val.price = price) :
    netCost fills = signedSum fills * price + commissions fills := by
  induction fills with
  | nil => simp [netCost, signedSum, commissions]
  | cons fill fills ih =>
    obtain ⟨hfill, hfills⟩ := List.forall_mem_cons.mp h
    have hrest := ih hfills
    simp only [netCost, signedSum, commissions, List.map_cons, List.sum_cons] at hrest ⊢
    rw [hrest, hfill]
    ring

/-! ## The points of the equity curve -/

/-- A point of the equity curve, and all fills the broker has reported by then. -/
structure Report where
  point : EquityPoint
  fills : List Fill

/-- What a step from `s` to `t` adds to the equity curve. -/
def reports (s : State) (_ : Action) (t : State) : List Report :=
  (t.result.equityCurve.drop s.result.equityCurve.length).map fun point =>
    ⟨point, fillsIn t.broker.events⟩

/-- The fills that went into the last of the reports. -/
def reportedFills (reports : List Report) : List Fill :=
  (reports.getLast?.map Report.fills).getD []

/-- The point is that of an account that has opened with `startingCash` and has traded `fills`. -/
structure Report.Booked (startingCash : Decimal) (report : Report) : Prop where
  cash : report.point.cash = startingCash - netCost report.fills
  positionQty : report.point.positionQty = signedSum report.fills
  equity : report.point.equity =
    report.point.cash + report.point.positionQty * report.point.markPrice

/-- From one report to the next the equity moves by the mark on what was held, less the commissions
of the fills since. -/
def Report.Next (report next : Report) : Prop :=
  ∃ fills, next.fills = report.fills ++ fills ∧
    next.point.equity - report.point.equity =
      report.point.positionQty * (next.point.markPrice - report.point.markPrice) -
        commissions fills

/-- The accounts of a run: nothing but fills has moved cash and shares, and nothing but the mark and
the commissions has moved the equity. -/
structure Accounts (startingCash : Decimal) (reports : List Report) : Prop where
  booked : ∀ report ∈ reports, report.Booked startingCash
  first : ∀ report ∈ reports.head?, report.point.equity = startingCash - commissions report.fills
  next : reports.IsChain Report.Next

section Accounts

variable {startingCash : Decimal} {seen : List Report} {report : Report} {fills : List Fill}

/-- The equity of a report whose last fills were traded at its mark. -/
theorem Report.Booked.equity_eq (h : report.Booked startingCash) {before : List Fill}
    (hfills : report.fills = before ++ fills)
    (hprice : ∀ fill ∈ fills, fill.val.price = report.point.markPrice) :
    report.point.equity =
      startingCash - netCost before + signedSum before * report.point.markPrice -
        commissions fills := by
  rw [h.equity, h.cash, h.positionQty, hfills, netCost_append, signedSum_append,
    netCost_of_price hprice]
  ring

/-- The accounts go on with a report whose new fills were traded at its mark. -/
theorem Accounts.concat (h : Accounts startingCash seen) (hbooked : report.Booked startingCash)
    (hfills : report.fills = reportedFills seen ++ fills)
    (hprice : ∀ fill ∈ fills, fill.val.price = report.point.markPrice) :
    Accounts startingCash (seen ++ [report]) := by
  have hequity := hbooked.equity_eq hfills hprice
  refine ⟨?_, ?_, ?_⟩
  · intro r hr
    rcases List.mem_append.mp hr with hr | hr
    · exact h.booked r hr
    · rw [List.mem_singleton.mp hr]
      exact hbooked
  · cases seen with
    | nil =>
      intro r hr
      cases hr
      simp only [reportedFills, List.getLast?_nil, Option.map_none, Option.getD_none,
        List.nil_append] at hfills hequity
      rw [hequity, hfills]
      simp [netCost, signedSum]
    | cons r rest => exact h.first
  · refine List.isChain_append.mpr ⟨h.next, List.isChain_singleton _, ?_⟩
    intro last hlast next hnext
    cases hnext
    have hlastFills : reportedFills seen = last.fills := by
      rw [reportedFills, hlast]
      rfl
    have hlastBooked := h.booked last (List.mem_of_getLast? hlast)
    refine ⟨fills, hlastFills ▸ hfills, ?_⟩
    rw [hequity, hlastFills, hlastBooked.equity, hlastBooked.cash, hlastBooked.positionQty]
    ring

end Accounts

/-! ## The books of a run -/

/-- The fills of the events the loop has taken off the queue. -/
def State.bookedFills (s : State) : List Fill := fillsIn (s.broker.events.take s.cursor)

/-- Where a fill can have been booked since the last report: in a rebalance, at the close of its
bar. -/
def Task.Traded (fill : Fill) : Task → Prop
  | .atBar _ => False
  | .atOrder work => fill.val.price = work.bar.val.close
  | .inDrain work _ => fill.val.price = work.bar.val.close
  | .finished => False
  | .raised _ => True

/-- The ledger of the loop, with what it has reported so far. -/
structure Books (loop : PaperLoop) (seen : List Report) (s : State) : Prop where
  curve : seen.map Report.point = s.result.equityCurve
  accounts : Accounts loop.startingCash seen
  cash : s.cash = loop.startingCash - netCost s.bookedFills
  quantity : quantityOf (s.positions.get? loop.instrumentKey) = signedSum s.bookedFills
  since : ∃ fills, s.bookedFills = reportedFills seen ++ fills ∧ ∀ fill ∈ fills, s.task.Traded fill
  finished : s.task = .finished → fillsIn s.broker.events = s.bookedFills

section Books

variable {loop : PaperLoop} {s t : State} {seen : List Report}

theorem reports_of_same {a : Action} (h : t.result.equityCurve = s.result.equityCurve) :
    reports s a t = [] := by
  simp [reports, h]

/-- Nothing but the place in the loop and the end of the queue has changed. -/
theorem Books.of_same (hs : Books loop seen s) {a : Action}
    (hcurve : t.result.equityCurve = s.result.equityCurve) (hcash : t.cash = s.cash)
    (hpositions : t.positions = s.positions) (hbooked : t.bookedFills = s.bookedFills)
    (htask : ∀ fill, s.task.Traded fill → t.task.Traded fill)
    (hover : t.task = .finished → fillsIn t.broker.events = t.bookedFills) :
    Books loop (seen ++ reports s a t) t := by
  rw [reports_of_same hcurve, List.append_nil]
  obtain ⟨fills, hfills, htraded⟩ := hs.since
  exact
    { curve := hs.curve.trans hcurve.symm
      accounts := hs.accounts
      cash := by rw [hcash, hbooked, hs.cash]
      quantity := by rw [hpositions, hbooked, hs.quantity]
      since := ⟨fills, hbooked.trans hfills, fun fill hfill => htask fill (htraded fill hfill)⟩
      finished := hover }

/-- With nothing on the queue, all fills are booked. -/
theorem bookedFills_of_queue (h : s.queue = []) : s.bookedFills = fillsIn s.broker.events := by
  rw [State.bookedFills, List.take_of_length_le (List.drop_eq_nil_iff.mp h)]

/-- What is put on the queue is not booked. -/
theorem bookedFills_added (hs : s.OnLeg loop) {added : List BrokerEvent}
    (hcursor : t.cursor = s.cursor) (hadded : t.broker.events = s.broker.events ++ added) :
    t.bookedFills = s.bookedFills := by
  rw [State.bookedFills, hcursor, hadded, List.take_append_of_le_length hs.cursor,
    State.bookedFills]

/-- The event taken off the queue is booked. -/
theorem bookedFills_taken {event : BrokerEvent} (h : s.broker.events[s.cursor]? = some event)
    (hcursor : t.cursor = s.cursor + 1) (hevents : t.broker.events = s.broker.events) :
    t.bookedFills = s.bookedFills ++ (fillOf event).toList := by
  rw [State.bookedFills, hcursor, hevents, List.take_add_one, h, fillsIn_append]
  cases hfill : fillOf event <;> simp [fillsIn, hfill, State.bookedFills]

/-- Progress of an order carries no fill. -/
theorem fillOf_progress {cid : ClientOrderId} {event : BrokerEvent}
    (h : PaperBroker.ProgressOnly cid [event]) : fillOf event = none := by
  obtain ⟨e, rfl, -, hkind⟩ := h event (List.mem_singleton.mpr rfl)
  have hplain : ¬ e.val.kind.needsFill := by
    rcases hkind with hkind | hkind <;> rw [hkind] <;> decide
  exact ((OrderEvent.valid_iff _).mp e.valid).2.2.2.2 hplain

theorem lifecycle_adds {cfg : PaperConfig} {env : PaperBroker.LifecycleEnv}
    {broker broker' : PaperBroker} {i : Nat}
    (h : broker.step cfg (.lifecycle i env) = some broker') :
    ∃ added, broker'.events = broker.events ++ added := by
  obtain ⟨task, -, rfl⟩ := PaperBroker.step_lifecycle_eq_some.mp h
  obtain ⟨-, progress, -, hevents⟩ := PaperBroker.simulateLifecycle_effects cfg env task broker
  exact ⟨_, hevents.trans (List.append_assoc _ _ _)⟩

theorem Books.openRebalance (hs : Books loop seen s) {bar : Bar} {bars : List Bar}
    (htask : s.task = .atBar (bar :: bars)) (ids : Nat → UUID) {a : Action} :
    Books loop (seen ++ reports s a (loop.openRebalance s bar bars ids))
      (loop.openRebalance s bar bars ids) := by
  have hnone (fill : Fill) : ¬ s.task.Traded fill := by
    rw [htask]
    exact id
  unfold PaperLoop.openRebalance
  split
  · exact hs.of_same rfl rfl rfl rfl (fun fill h => absurd h (hnone fill)) (by simp [State.raise])
  · dsimp only
    split
    · exact hs.of_same rfl rfl rfl rfl (fun fill h => absurd h (hnone fill)) (by simp)
    · split
      · exact hs.of_same rfl rfl rfl rfl (fun fill h => absurd h (hnone fill))
          (by simp [State.raise])
      · exact hs.of_same rfl rfl rfl rfl (fun fill h => absurd h (hnone fill)) (by simp)

/-- The report of a rebalance. -/
theorem Books.closeRebalance (hs : Books loop seen s) (hon : s.OnLeg loop)
    (hstands : Stands loop s) {bar : Bar} {bars : List Bar}
    (htask : s.task = .atOrder ⟨bar, [], bars⟩) {a : Action} :
    Books loop (seen ++ reports s a (loop.closeRebalance s bar bars))
      (loop.closeRebalance s bar bars) := by
  obtain ⟨-, hqueue, -⟩ := hstands.of_atOrder htask
  obtain ⟨fills, hfills, htraded⟩ := hs.since
  have hbooked : s.bookedFills = fillsIn s.broker.events := bookedFills_of_queue hqueue
  set report : Report :=
    { point :=
        { timeUtc := bar.val.closeTimeUtc
          cash := s.cash
          positionQty := quantityOf (s.positions.get? loop.instrumentKey)
          markPrice := bar.val.close
          equity := IbPipeline.computeEquity s.cash s.positions bar.val.close }
      fills := fillsIn s.broker.events } with hreport
  have hreports : reports s a (loop.closeRebalance s bar bars) = [report] := by
    simp [reports, PaperLoop.closeRebalance, hreport]
  have hreported : reportedFills (seen ++ [report]) = s.bookedFills := by
    rw [reportedFills, List.getLast?_concat]
    exact hbooked.symm
  have haccount : report.Booked loop.startingCash :=
    { cash := hs.cash.trans (by rw [hbooked])
      positionQty := hs.quantity.trans (by rw [hbooked])
      equity := IbPipeline.computeEquity_of_keys s.cash bar.val.close hon.keys }
  have hprice : ∀ fill ∈ fills, fill.val.price = report.point.markPrice := by
    intro fill hfill
    have h := htraded fill hfill
    rw [htask] at h
    exact h
  rw [hreports]
  exact
    { curve := by
        rw [List.map_append, hs.curve]
        rfl
      accounts := hs.accounts.concat haccount (hbooked.symm.trans hfills) hprice
      cash := hs.cash
      quantity := hs.quantity
      since := ⟨[], by rw [hreported, List.append_nil]; rfl, by simp⟩
      finished := fun h => by cases h }

theorem Books.submitOrder (hs : Books loop seen s) (hon : s.OnLeg loop) {bar : Bar} {order : Order}
    {orders : List Order} {bars : List Bar} (htask : s.task = .atOrder ⟨bar, order :: orders, bars⟩)
    (hstands : Stands loop s) (artefact : String → Artefact) {a : Action} :
    Books loop (seen ++ reports s a (loop.submitOrder s ⟨bar, orders, bars⟩ order artefact))
      (loop.submitOrder s ⟨bar, orders, bars⟩ order artefact) := by
  obtain ⟨hquiet, -, -⟩ := hstands.of_atOrder htask
  unfold PaperLoop.submitOrder
  dsimp only
  split
  · exact hs.of_same rfl rfl rfl rfl (by rw [htask]; exact fun _ => id) (by simp)
  · rename_i approved happroved
    obtain ⟨broker', hsubmit, -, hevents⟩ := submit_of_quiet hquiet approved
    simp only [hsubmit]
    refine hs.of_same rfl rfl rfl ?_ (by rw [htask]; exact fun _ => id) (by simp)
    have hadded : broker'.events = s.broker.events ++ [] := by simp [hevents]
    exact bookedFills_added hon rfl hadded

/-- A step keeps the books. -/
theorem Books.step {a : Action} (hs : Books loop seen s) (hon : s.OnLeg loop)
    (hstands : Stands loop s) (h : step loop s a = some t) :
    Books loop (seen ++ reports s a t) t := by
  cases a with
  | proceed ids artefact =>
    simp only [PaperPipeline.step] at h
    split at h
    · rename_i htask
      cases h
      obtain ⟨-, hqueue, -⟩ := hstands.of_atBar htask
      have hbooked : (loop.finish s).bookedFills = s.bookedFills := bookedFills_added hon rfl rfl
      refine hs.of_same rfl rfl rfl hbooked (by rw [htask]; exact fun _ => False.elim) fun _ => ?_
      rw [hbooked, bookedFills_of_queue hqueue]
      exact (fillsIn_append _ _).trans (List.append_nil _)
    · rename_i bar bars htask
      cases h
      exact hs.openRebalance htask ids
    · rename_i bar bars htask
      cases h
      exact hs.closeRebalance hon hstands htask
    · rename_i bar order orders bars htask
      cases h
      exact hs.submitOrder hon htask hstands artefact
    · cases h
  | lifecycle i =>
    simp only [PaperPipeline.step] at h
    split at h
    · rename_i work drain htask
      obtain ⟨broker, hbroker, rfl⟩ := Option.map_eq_some_iff.mp h
      obtain ⟨added, hadded⟩ := lifecycle_adds hbroker
      refine hs.of_same rfl rfl rfl (bookedFills_added hon rfl hadded) (fun _ => id) ?_
      rw [htask]
      exact fun h => by cases h
    · cases h
  | getEvent =>
    obtain ⟨work, drain, order, event, hdraining, -, hevent, hcases⟩ :=
      getEvent_cases hon hstands h
    rcases hcases with ⟨hprogress, -, rfl⟩ |
      ⟨-, -, fill, position, -, hfill, hwhole, hposition, -, -, rfl⟩
    · refine hs.of_same rfl rfl rfl ?_ (by rw [hdraining.task]; exact fun _ => id) (by simp)
      rw [bookedFills_taken (t := { s with
          cursor := s.cursor + 1, task := .inDrain work (drain.read event) }) hevent rfl rfl,
        fillOf_progress hprogress]
      exact List.append_nil _
    · have hbooked :
          (s.afterFill loop work fill position).bookedFills = s.bookedFills ++ [fill] := by
        rw [bookedFills_taken (t := s.afterFill loop work fill position) hevent rfl rfl, hfill]
        rfl
      have hreports : reports s .getEvent (s.afterFill loop work fill position) = [] :=
        reports_of_same rfl
      obtain ⟨fills, hfills, htraded⟩ := hs.since
      rw [hreports, List.append_nil]
      refine
        { curve := hs.curve
          accounts := hs.accounts
          cash := ?_
          quantity := ?_
          since := ⟨fills ++ [fill], by rw [hbooked, hfills, List.append_assoc], ?_⟩
          finished := fun h => by cases h }
      · rw [hbooked, netCost_append, ← sub_sub, ← hs.cash]
        simp [State.afterFill, netCost]
      · rw [hbooked, signedSum_append, ← hs.quantity, State.afterFill,
          quantityOf_booked hposition]
        simp [signedSum]
      · intro f hf
        rcases List.mem_append.mp hf with hf | hf
        · have htrade := htraded f hf
          rw [hdraining.task] at htrade
          exact htrade
        · rw [List.mem_singleton.mp hf]
          exact hwhole.price.trans hdraining.onLeg.price

/-- What a finished run has reported. -/
theorem books_of_finished {as : List Action}
    (hrun : run (PaperPipeline.step loop) loop.start as = some s) (hfinished : s.task = .finished) :
    Books loop (trace (PaperPipeline.step loop) reports loop.start as) s := by
  have hstart : Books loop [] loop.start :=
    { curve := rfl
      accounts := ⟨by simp, by simp, List.isChain_nil⟩
      cash := (sub_zero _).symm
      quantity := rfl
      since := ⟨[], rfl, by simp⟩
      finished := fun h => by cases h }
  let Known (seen : List Report) (s : State) : Prop :=
    s.OnLeg loop ∧ Stands loop s ∧ Books loop seen s
  have hstep (seen : List Report) (s : State) (a : Action) (t : State) (hs : Known seen s)
      (h : PaperPipeline.step loop s a = some t) : Known (seen ++ reports s a t) t := by
    obtain ⟨hon, hstands, hbooks⟩ := hs
    have hmoves := step_moves hon hstands h
    exact ⟨hmoves.onLeg, hmoves.stands, hbooks.step hon hstands h⟩
  obtain ⟨hon, hstands⟩ := start_stands (ahead_of_finished hrun hfinished)
  have hknown : Known [] loop.start := ⟨hon, hstands, hstart⟩
  exact (run_invariant_trace hstep hknown hrun).2.2

end Books

/-- Profit and loss of the paper pipeline. In every finished run each point of the equity curve is
that of an account which has traded the fills reported by then; the first point is the starting
cash less the commissions; and from one point to the next the equity moves by the mark on what is
held, less the commissions of the fills in between. The ledger at the end is that of all fills of
the broker, of which none comes after the last point. -/
theorem profitAndLoss (args : PaperPipelineArgs) {loop : PaperLoop}
    (hentry : runPaperPipeline args = .ok loop) {as : List Action} {s : State}
    (hrun : run (step loop) loop.start as = some s) (hfinished : s.task = .finished) :
    (trace (step loop) reports loop.start as).map Report.point = s.result.equityCurve ∧
      Accounts args.startingCash (trace (step loop) reports loop.start as) ∧
      s.cash = args.startingCash - netCost (fillsIn s.broker.events) ∧
      quantityOf (s.positions.get? loop.instrumentKey) = signedSum (fillsIn s.broker.events) ∧
      fillsIn s.broker.events = reportedFills (trace (step loop) reports loop.start as) := by
  have hcash : loop.startingCash = args.startingCash := by
    unfold runPaperPipeline at hentry
    split at hentry
    · cases hentry
    · obtain ⟨bars, -, hentry⟩ := bind_eq_ok_iff.mp hentry
      cases bars <;> cases hentry
      rfl
  have hbooks := books_of_finished hrun hfinished
  have hall := hbooks.finished hfinished
  obtain ⟨fills, hsince, htraded⟩ := hbooks.since
  have hnone : fills = [] := by
    apply List.eq_nil_iff_forall_not_mem.mpr
    intro fill hfill
    have h := htraded fill hfill
    rw [hfinished] at h
    exact h
  rw [← hcash, hall]
  refine ⟨hbooks.curve, hbooks.accounts, hbooks.cash, hbooks.quantity, ?_⟩
  rw [hsince, hnone, List.append_nil]

/-- The bar after `sampleBar`, which closes ten higher. -/
def risingBar : Bar :=
  ⟨{ IbPipeline.sampleBar.val with
      openTimeUtc := ⟨86400000000, some 0⟩
      closeTimeUtc := ⟨172800000000, some 0⟩
      high := 110
      close := 110 }, by decide +kernel⟩

/-- Invested at the close of `sampleBar`, and out again at that of `risingBar`. -/
def entryAndExit : PaperPipelineArgs where
  liveConfig := IbPipeline.sampleLiveConfig
  portfolio := .timing "CAC.PA" 1
  marketData := fun _ => some [IbPipeline.sampleBar, risingBar]
  instrument := sampleInstrument
  positionSeries := (Dict.empty.set ⟨86400000000, some 0⟩ 1).set ⟨172800000000, some 0⟩ 0
  commissionPerShare := 1 / 1000

/-- A rebalance with one fill: its order is submitted, filled, and read of in three events. -/
def filledRebalance : List Action :=
  [.proceed (fun _ => 1) fun _ => none, .proceed (fun _ => 1) fun _ => none, .lifecycle 0,
    .getEvent, .getEvent, .getEvent, .proceed (fun _ => 1) fun _ => none]

theorem profitAndLoss_entryAndExit : ∃ loop s,
    run (step loop) loop.start (filledRebalance ++ filledRebalance ++
      [.proceed (fun _ => 1) fun _ => none]) = some s ∧
      s.result.equityCurve.map (·.equity) = [999999, 1009998] ∧
      Accounts 1000000 (trace (step loop) reports loop.start (filledRebalance ++ filledRebalance ++
        [.proceed (fun _ => 1) fun _ => none])) := by
  obtain ⟨loop, s, hentry, hrun, hend⟩ := exists_paperRun entryAndExit
    (filledRebalance ++ filledRebalance ++ [.proceed (fun _ => 1) fun _ => none])
    (fun _ s => (s.task matches .finished) &&
      s.result.equityCurve.map (·.equity) = [999999, 1009998])
    (by decide +kernel)
  simp only [Bool.and_eq_true, decide_eq_true_eq] at hend
  have hfinished : s.task = .finished := by
    revert hend
    cases s.task <;> simp
  exact ⟨loop, s, hrun, hend.2, (profitAndLoss entryAndExit hentry hrun hfinished).2.1⟩

end Blive.PaperPipeline
