import Blive.Adapters.Ib.Proofs.ErrorCodes
import Blive.Runtime.M32Record
import Blive.Runtime.Proofs.Ledger
import Blive.Runtime.Proofs.Settlement

/-!
# The counters of a run

Every submission of a run of the multi-instrument pipeline is counted once, as a fill, a cancel
or a rejection, and under the symbol of its instrument. The rates of the record are quotients of
these counters, so they lie between 0 and 1. The error codes of the result are the histogram of
the pushes that arrived before the run was over.
-/

namespace Blive.IbPipeline

open Transition M32Record

/-! ## The counters -/

/-- The submissions that have returned and are not counted as settled yet. -/
def Stage.unsettled : Stage → Nat
  | .none => 0
  | .draining _ | .canceling _ | .redraining _ => 1

/-- The submissions whose acceptance may still be counted. -/
def Stage.undrained : Stage → Nat
  | .draining _ => 1
  | .none | .canceling _ | .redraining _ => 0

/-- The totals of the counters, while a submission stands at the stage. -/
structure Counters.Balanced (c : Counters) (stage : Stage) : Prop where
  settled : c.submitted = c.fills + c.canceled + c.rejected + stage.unsettled
  filled : c.fills ≤ c.accepted
  accepted : c.accepted + stage.undrained ≤ c.submitted
  submittedTotal : c.submittedBySymbol.values.sum = c.submitted
  fillsTotal : c.fillsBySymbol.values.sum = c.fills

/-- The fills of a symbol are among its submissions, and the submission in its first drain is not
filled yet. -/
structure Counters.BySymbol (c : Counters) (placed : List PlacedOrder) (stage : Stage) : Prop where
  within : ∀ symbol, c.fillsBySymbol.tally symbol ≤ c.submittedBySymbol.tally symbol
  reserved : ∀ drain, stage = .draining drain → ∃ symbol,
    (∀ p ∈ placed, p.cid = drain.targetId → p.order.val.instrument.val.symbol = symbol) ∧
      c.fillsBySymbol.tally symbol < c.submittedBySymbol.tally symbol

section Increment

variable (counts : Dict String Nat) (key : String)

theorem sum_increment : (RebalanceLoop.increment counts key).values.sum = counts.values.sum + 1 :=
  counts.sum_values_increment key

theorem tally_increment (symbol : String) : (RebalanceLoop.increment counts key).tally symbol =
    counts.tally symbol + if symbol = key then 1 else 0 := by
  rw [RebalanceLoop.increment, Dict.tally_set]
  split
  · rename_i heq
    rw [heq]
    rfl
  · rfl

end Increment

section Step

variable {loop : RebalanceLoop} {policy : RoundingPolicy} {s t : State}

/-- The fill that is booked was observed in a FILLED event, so the order reached ACCEPTED. -/
theorem reachedAccepted_of_bookedFill {drain : Drain} {event : BrokerEvent} {fill : Fill}
    (hopen : drain.done = false) (h : (drain.read event).bookedFill = some fill) :
    (drain.read event).reachedAccepted = true ∧ ∃ e : OrderEvent, event = .order e ∧
      e.val.clientOrderId = drain.targetId ∧ e.val.fill = some fill := by
  have hnone := bookedFill_of_open hopen
  cases event with
  | order e =>
    by_cases hcid : e.val.clientOrderId = drain.targetId
    · rw [Drain.read_own hcid] at h ⊢
      cases hkind : e.val.kind <;>
        simp [Drain.observe, hkind, Drain.bookedFill] at h ⊢
      exact ⟨hcid, h⟩
    · rw [Drain.read_other hcid, hnone] at h
      cases h
  | connection _ =>
    rw [show drain.read _ = drain from rfl, hnone] at h
    cases h
  | account _ =>
    rw [show drain.read _ = drain from rfl, hnone] at h
    cases h

/-- The submission is counted when its drain has ended, unless the engine cancels it first. -/
theorem Counters.Balanced.outcome {c : Counters} {cancels : List ClientOrderId} {work : Work}
    {before drain : Drain} (hs : c.Balanced (.draining before))
    (hfilled : drain.bookedFill.isSome → drain.reachedAccepted = true)
    (h : Outcome loop c cancels work drain t) (hraised : ¬ t.Raised) :
    t.result.counters.Balanced t.task.stage := by
  have hreached : drain.reachedAccepted.toNat ≤ 1 := Bool.toNat_le _
  obtain ⟨hsettled, hfills, haccepted, hsubmitted, hbooked⟩ := hs
  simp only [Stage.unsettled, Stage.undrained] at hsettled haccepted
  cases h with
  | filled fill hfill htask hcounters =>
    have hone : drain.reachedAccepted.toNat = 1 := by rw [hfilled (by rw [hfill]; rfl)]; rfl
    rw [hcounters, htask]
    refine ⟨?_, ?_, ?_, hsubmitted, ?_⟩ <;>
      simp only [Counters.settling, Task.stage, Stage.unsettled, Stage.undrained, sum_increment]
        <;> omega
  | unbooked fill hfill hraise => exact absurd hraise hraised
  | canceled hstate htask hcounters =>
    rw [hcounters, htask]
    refine ⟨?_, ?_, ?_, hsubmitted, hbooked⟩ <;>
      simp only [Counters.settling, Task.stage, Stage.unsettled, Stage.undrained] <;> omega
  | rejected hstate htask hcounters =>
    rw [hcounters, htask]
    refine ⟨?_, ?_, ?_, hsubmitted, hbooked⟩ <;>
      simp only [Counters.settling, Task.stage, Stage.unsettled, Stage.undrained] <;> omega
  | engineCanceled hfill hcanceled hrejected htask hcounters =>
    have hstage : t.task.stage.unsettled = 1 ∧ t.task.stage.undrained = 0 := by
      rcases htask with htask | htask | hraise
      · rw [htask]
        exact ⟨rfl, rfl⟩
      · rw [htask]
        exact ⟨rfl, rfl⟩
      · exact absurd hraise hraised
    rw [hcounters]
    refine ⟨?_, ?_, ?_, hsubmitted, hbooked⟩ <;> simp only [Counters.settling, hstage] <;> omega

/-- The engine's cancel is counted. -/
theorem Counters.Balanced.counted {work : Work} {drain : Drain}
    (hs : s.result.counters.Balanced (.redraining drain)) :
    (RebalanceLoop.settleCancel s work).result.counters.Balanced
      (RebalanceLoop.settleCancel s work).task.stage := by
  have hsettled := hs.settled
  simp only [Stage.unsettled] at hsettled
  refine ⟨?_, hs.filled, hs.accepted, hs.submittedTotal, hs.fillsTotal⟩
  simp only [RebalanceLoop.settleCancel, RunResult.counters, Task.stage, Stage.unsettled]
    at hsettled ⊢
  omega

theorem Counters.Balanced.step {a : Action} (hcoherent : Coherent s) (hraised : ¬ t.Raised)
    (hs : s.result.counters.Balanced s.task.stage)
    (h : IbPipeline.step loop policy s a = some t) : t.result.counters.Balanced t.task.stage := by
  cases stage_cases h with
  | kept _ hstage hcounters =>
    rw [hstage, hcounters]
    exact hs
  | raised _ hraise => exact absurd hraise hraised
  | returned _ work order wired point switched hfrom htask hcounters =>
    obtain ⟨hsettled, hfills, haccepted, hsubmitted, hbooked⟩ := hs
    rw [hfrom] at hsettled haccepted
    simp only [Task.stage, Stage.unsettled, Stage.undrained] at hsettled haccepted
    rw [hcounters, htask]
    refine ⟨?_, hfills, ?_, ?_, hbooked⟩ <;>
      simp only [Task.stage, Stage.unsettled, Stage.undrained, sum_increment] <;> omega
  | read work drain event hfrom hevent hdone ht =>
    rw [hfrom] at hs
    rw [ht]
    exact ⟨hs.settled, hs.filled, hs.accepted, hs.submittedTotal, hs.fillsTotal⟩
  | ended work drain event hfrom hevent hdone houtcome =>
    rw [hfrom] at hs
    refine hs.outcome ?_ houtcome hraised
    intro hsome
    obtain ⟨fill, hfill⟩ := Option.isSome_iff_exists.mp hsome
    exact (reachedAccepted_of_bookedFill (hcoherent.draining _ _ hfrom).1 hfill).1
  | timedOut work drain hfrom houtcome =>
    have hnone := bookedFill_of_open (hcoherent.draining _ _ hfrom).1
    rw [hfrom] at hs
    refine hs.outcome ?_ houtcome hraised
    intro hsome
    rw [hnone] at hsome
    cases hsome
  | redrain _ work targetId hfrom ht =>
    rw [hfrom] at hs
    rw [ht]
    exact ⟨hs.settled, hs.filled, hs.accepted, hs.submittedTotal, hs.fillsTotal⟩
  | reread work drain event hfrom hevent hdone ht =>
    rw [hfrom] at hs
    rw [ht]
    exact ⟨hs.settled, hs.filled, hs.accepted, hs.submittedTotal, hs.fillsTotal⟩
  | counted work drain event hfrom hevent hdone ht =>
    rw [hfrom] at hs
    rw [ht]
    exact hs.counted
  | countedLate work drain hfrom ht =>
    rw [hfrom] at hs
    rw [ht]
    exact hs.counted

theorem Counters.BySymbol.of_same {c c' : Counters} {placed : List PlacedOrder} {stage : Stage}
    {stage' : Stage} (hs : c.BySymbol placed stage)
    (hfills : c'.fillsBySymbol = c.fillsBySymbol)
    (hsubmitted : c'.submittedBySymbol = c.submittedBySymbol)
    (hstage : ∀ drain, stage' ≠ .draining drain) : c'.BySymbol placed stage' where
  within := by
    rw [hfills, hsubmitted]
    exact hs.within
  reserved drain h := absurd h (hstage drain)

/-- The fill that is booked is on the symbol whose submission is in its first drain. -/
theorem Counters.BySymbol.outcome {c : Counters} {cancels : List ClientOrderId} {work : Work}
    {before drain : Drain} (hs : c.BySymbol s.placed (.draining before))
    (hkey : loop.bookingKey = fun fill => fill.val.instrument.val.symbol)
    (hon : ∀ fill, drain.bookedFill = some fill → ∃ p ∈ s.placed, p.cid = before.targetId ∧
      p.order.val.instrument = fill.val.instrument)
    (h : Outcome loop c cancels work drain t) (hraised : ¬ t.Raised) :
    t.result.counters.BySymbol s.placed t.task.stage := by
  cases h with
  | filled fill hfill htask hcounters =>
    obtain ⟨symbol, hsymbol, hlt⟩ := hs.reserved before rfl
    obtain ⟨p, hp, hcid, hinstrument⟩ := hon fill hfill
    have heq : fill.val.instrument.val.symbol = symbol := by
      rw [← hinstrument]
      exact hsymbol p hp hcid
    rw [hcounters, htask]
    refine ⟨?_, by simp [Task.stage]⟩
    intro other
    have hwithin := hs.within other
    simp only [Counters.settling, hkey, tally_increment, heq]
    split
    · rename_i hother
      rw [hother]
      omega
    · omega
  | unbooked fill hfill hraise => exact absurd hraise hraised
  | canceled hstate htask hcounters =>
    rw [hcounters, htask]
    exact hs.of_same rfl rfl (by simp [Task.stage])
  | rejected hstate htask hcounters =>
    rw [hcounters, htask]
    exact hs.of_same rfl rfl (by simp [Task.stage])
  | engineCanceled hfill hcanceled hrejected htask hcounters =>
    rw [hcounters]
    refine hs.of_same rfl rfl ?_
    rcases htask with htask | htask | hraise
    · rw [htask]
      simp [Task.stage]
    · rw [htask]
      simp [Task.stage]
    · exact absurd hraise hraised

/-- What is placed by the time `submit` returns is the submission, so its fills are on its
symbol. -/
theorem Coherent.symbol_of_returned {work : Work} {order wired : Order}
    {point : IBBroker.SubmitPoint} {switched : List KillSwitch.Call} (hs : Coherent s)
    (hfrom : s.task = .inSubmit work order ⟨wired, point⟩ switched)
    (hplaced : t.placed = s.placed ∨ ∃ contract ibOrder orderId,
      t.placed = s.placed ++ [⟨wired, contract, ibOrder, orderId⟩]) :
    ∀ p ∈ t.placed, p.cid = order.val.clientOrderId →
      p.order.val.instrument.val.symbol = order.val.instrument.val.symbol := by
  obtain ⟨-, -, hinstrument, hnew⟩ := hs.submitting _ _ _ _ hfrom
  have hold (p : PlacedOrder) (hp : p ∈ s.placed) (hcid : p.cid = order.val.clientOrderId) :
      p.order.val.instrument.val.symbol = order.val.instrument.val.symbol :=
    absurd (hcid ▸ hs.origin.registered p hp) hnew
  intro p hp hcid
  rcases hplaced with hsame | ⟨contract, ibOrder, orderId, hmore⟩
  · rw [hsame] at hp
    exact hold p hp hcid
  · rw [hmore] at hp
    rcases List.mem_append.mp hp with hp | hp
    · exact hold p hp hcid
    · obtain rfl := List.mem_singleton.mp hp
      exact congrArg (fun instrument : Instrument => instrument.val.symbol) hinstrument

theorem Counters.BySymbol.step {a : Action} (hcoherent : Coherent s) (hraised : ¬ t.Raised)
    (hkey : loop.bookingKey = fun fill => fill.val.instrument.val.symbol)
    (hs : s.result.counters.BySymbol s.placed s.task.stage)
    (h : IbPipeline.step loop policy s a = some t) :
    t.result.counters.BySymbol t.placed t.task.stage := by
  cases stage_cases h with
  | kept _ hstage hcounters _ _ hplaced =>
    rw [hstage, hcounters, hplaced]
    exact hs
  | raised _ hraise => exact absurd hraise hraised
  | returned _ work order wired point switched hfrom htask hcounters _ _ hplaced =>
    have hsymbol := hcoherent.symbol_of_returned hfrom hplaced
    rw [hcounters, htask]
    constructor
    · intro symbol
      have hwithin := hs.within symbol
      simp only [tally_increment]
      omega
    · intro drain hstage
      cases hstage
      refine ⟨_, hsymbol, ?_⟩
      have hwithin := hs.within order.val.instrument.val.symbol
      simp only [tally_increment, if_true]
      omega
  | read work drain event hfrom hevent hdone ht =>
    rw [hfrom] at hs
    rw [ht]
    refine ⟨hs.within, ?_⟩
    intro drain' hstage
    cases hstage
    rw [Drain.read_targetId]
    exact hs.reserved drain rfl
  | ended work drain event hfrom hevent hdone houtcome _ hplaced =>
    rw [hfrom] at hs
    rw [hplaced]
    refine hs.outcome hkey ?_ houtcome hraised
    intro fill hfill
    obtain ⟨-, e, rfl, hcid, hevfill⟩ :=
      reachedAccepted_of_bookedFill (hcoherent.draining _ _ hfrom).1 hfill
    have hmem : BrokerEvent.order e ∈ s.broker.events := List.mem_of_getElem? hevent
    obtain ⟨p, hp, hpcid, hon⟩ := hcoherent.origin.events e hmem fill hevfill
    exact ⟨p, hp, hpcid.trans hcid, hon⟩
  | timedOut work drain hfrom houtcome _ hplaced =>
    have hnone := bookedFill_of_open (hcoherent.draining _ _ hfrom).1
    rw [hfrom] at hs
    rw [hplaced]
    refine hs.outcome hkey ?_ houtcome hraised
    intro fill hfill
    rw [hnone] at hfill
    cases hfill
  | redrain _ work targetId hfrom ht =>
    rw [ht]
    exact hs.of_same rfl rfl (by simp [Task.stage])
  | reread work drain event hfrom hevent hdone ht =>
    rw [ht]
    exact hs.of_same rfl rfl (by simp [Task.stage])
  | counted work drain event hfrom hevent hdone ht =>
    rw [ht]
    exact hs.of_same rfl rfl (by simp [RebalanceLoop.settleCancel, Task.stage])
  | countedLate work drain hfrom ht =>
    rw [ht]
    exact hs.of_same rfl rfl (by simp [RebalanceLoop.settleCancel, Task.stage])

end Step

/-! ## The error codes -/

section Errors

variable {loop : RebalanceLoop} {policy : RoundingPolicy} {s t : State}

/-- The codes of the error pushes that concern an order and arrive before the run is over. -/
def orderErrors (s : State) (a : Action) (_ : State) : List Int :=
  match s.task, a with
  | .finished, _ => []
  | _, .venue action => IBSystem.orderErrors action
  | _, _ => []

theorem openRebalance_ne_finished (s : State) (bar : Bar) (bars : List Bar) (ids : Nat → UUID) :
    (loop.openRebalance s bar bars ids).task ≠ .finished := by
  unfold RebalanceLoop.openRebalance
  cases loop.rebalance bar with
  | error e => simp [State.raise]
  | ok opened =>
    cases opened with
    | none => simp
    | some rebalance =>
      dsimp only
      cases sizeOrders .exact (loop.sizerInput s rebalance) ids <;> simp [State.raise]

theorem submitOrder_ne_finished (s : State) (work : Work) (desired : Order) (id : UUID)
    (artefact : String → Artefact) :
    (loop.submitOrder s work desired id artefact).task ≠ .finished := by
  obtain ⟨task, result, heq, htask⟩ | ⟨submission, result, heq, -, -, -⟩ :=
    submitOrder_cases loop s work desired id artefact
  · rw [heq]
    rcases htask with rfl | ⟨e, rfl⟩ <;> simp
  · rw [heq]
    simp only [RebalanceLoop.callSubmit]
    cases s.broker.submit submission.order <;> simp [State.raise]

theorem settle_ne_finished (s : State) (work : Work) (drain : Drain) :
    (loop.settle s work drain).task ≠ .finished := by
  cases settle_outcome loop s work drain with
  | filled _ _ htask => simp [htask]
  | unbooked _ _ hraised =>
    obtain ⟨e, htask⟩ := hraised
    simp [htask]
  | canceled _ htask => simp [htask]
  | rejected _ htask => simp [htask]
  | engineCanceled _ _ _ htask =>
    rcases htask with htask | htask | ⟨e, htask⟩ <;> simp [htask]

/-- A run ends at the head of the loop over the bars, and stays ended. -/
theorem finished_of_step {a : Action} (h : step loop policy s a = some t)
    (ht : t.task = .finished) :
    (s.task = .finished ∧ t.result = s.result) ∨
      (t = loop.finish s ∧ ∃ ids artefact, a = .proceed ids artefact) := by
  cases a with
  | proceed ids artefact =>
    simp only [step] at h
    split at h
    · cases h
      exact .inr ⟨rfl, ids, artefact, rfl⟩
    · cases h
      exact absurd ht (openRebalance_ne_finished _ _ _ _)
    · cases h
      cases ht
    · cases h
      exact absurd ht (submitOrder_ne_finished _ _ _ _ _)
    · cases h
  | priceRules result now =>
    simp only [step] at h
    split at h
    · cases h
      revert ht
      cases (s.broker.afterPriceRules policy _ result now).2 <;>
        simp [RebalanceLoop.submitEnded, RebalanceLoop.submitReturned, State.raise]
    · cases h
  | acquired result now =>
    simp only [step] at h
    split at h
    · cases result <;> cases h <;> cases ht
    · cases h
  | canceled result =>
    simp only [step] at h
    split at h
    · split at h <;> cases h <;> cases ht
    · cases h
  | getEvent =>
    simp only [step] at h
    split at h
    · cases h
      split at ht
      · exact absurd ht (settle_ne_finished _ _ _)
      · cases ht
    · cases h
      split at ht <;> cases ht
    · cases h
  | timeout =>
    simp only [step] at h
    split at h
    · cases h
      exact absurd ht (settle_ne_finished _ _ _)
    · cases h
      cases ht
    · cases h
  | killSwitch call =>
    cases h
    left
    refine ⟨?_, rfl⟩
    revert ht
    cases s.task <;> simp [Task.noteSwitch]
  | venue action =>
    simp only [step] at h
    split at h
    · obtain ⟨system, -, rfl⟩ := Option.map_eq_some_iff.mp h
      exact .inl ⟨ht, rfl⟩
    · cases h

theorem finished_step {a : Action} (h : step loop policy s a = some t) (hs : s.task = .finished) :
    t.task = .finished := by
  cases a with
  | killSwitch call =>
    cases h
    simp [hs, Task.noteSwitch]
  | venue action =>
    simp only [step] at h
    split at h
    · obtain ⟨system, -, rfl⟩ := Option.map_eq_some_iff.mp h
      exact hs
    · cases h
  | _ => simp [step, hs] at h

theorem errorCodesBaseline_step {a : Action} (h : step loop policy s a = some t) :
    t.errorCodesBaseline = s.errorCodesBaseline := by
  have hsettle (s : State) (work : Work) (drain : Drain) :
      (loop.settle s work drain).errorCodesBaseline = s.errorCodesBaseline := by
    rcases settle_cases loop s work drain with ⟨_, _, _, -, -, heq⟩ | ⟨_, _, -, heq⟩ |
      ⟨_, _, _, -, -, -, heq⟩ <;> rw [heq]
  cases step_cases h with
  | submitted ids artefact rebalance desired orders bars result submission =>
    simp only [RebalanceLoop.callSubmit]
    cases s.broker.submit submission.order <;> rfl
  | ruled result now work order wired switched =>
    cases (s.broker.afterPriceRules policy wired result now).2 <;> rfl
  | ended work drain event => exact hsettle _ work _
  | timedOut work drain => exact hsettle s work drain
  | _ => rfl

/-- Only a push counts error codes. -/
theorem tally_step {a : Action} (h : step loop policy s a = some t) (hs : s.task ≠ .finished)
    (code : Int) : t.broker.observedErrorCodes.tally code =
      s.broker.observedErrorCodes.tally code + (orderErrors s a t).count code := by
  have hsame (hpush : ∀ push, a ≠ .venue push) (heq : t.broker.observedErrorCodes =
      s.broker.observedErrorCodes) : t.broker.observedErrorCodes.tally code =
      s.broker.observedErrorCodes.tally code + (orderErrors s a t).count code := by
    rw [heq]
    unfold orderErrors
    split
    · rfl
    · exact absurd rfl (hpush _)
    · rfl
  cases step_cases h with
  | moved _ task cursor result cancels _ _ _ _ _ _ hpush => exact hsame hpush rfl
  | submitted ids artefact rebalance desired orders bars result submission =>
    refine hsame (by simp) ?_
    simp only [RebalanceLoop.callSubmit]
    cases s.broker.submit submission.order <;> rfl
  | ruled result now work order wired switched =>
    refine hsame (by simp) ?_
    have hbroker : (s.broker.afterPriceRules policy wired result now).1.observedErrorCodes =
        s.broker.observedErrorCodes := by
      rcases IBBroker.afterPriceRules_broker policy s.broker wired result now with
        heq | ⟨text, heq⟩ <;> rw [heq]
      rfl
    cases (s.broker.afterPriceRules policy wired result now).2 <;> exact hbroker
  | placed orderId now work order wired contract ibOrder switched => exact hsame (by simp) rfl
  | read work drain event => exact hsame (by simp) rfl
  | ended work drain event =>
    refine hsame (by simp) ?_
    rw [(settle_frame loop _ work _).1]
  | timedOut work drain =>
    refine hsame (by simp) ?_
    rw [(settle_frame loop s work drain).1]
  | switched call => exact hsame (by simp) rfl
  | pushed action system hpush hstep =>
    have htally := IBSystem.tally_observedErrorCodes hstep code
    have herrors (t : State) : orderErrors s (.venue action) t = IBSystem.orderErrors action := by
      unfold orderErrors
      split
      · rename_i hfinished
        exact absurd hfinished hs
      · rename_i heq _
        cases heq
        rfl
      · rename_i hother
        exact absurd rfl (hother _)
    rw [herrors]
    exact htally

/-- How often the code is among the codes, `none` when it is not. -/
def histogram (codes : List Int) (code : Int) : Option Nat :=
  if codes.count code = 0 then none else some (codes.count code)

/-- The broker has counted the codes on top of those it had seen before the run; the result of a
run that is over holds their histogram. -/
structure ErrorsCounted (codes : List Int) (s : State) : Prop where
  counted : s.task ≠ .finished → ∀ code, s.broker.observedErrorCodes.tally code =
    s.errorCodesBaseline.tally code + codes.count code
  reported : s.task = .finished → ∀ code,
    s.result.observedErrorCodes.get? code = histogram codes code

/-- The difference to the counts before the run is the histogram. -/
theorem finish_observedErrorCodes {codes : List Int}
    (h : ∀ code, s.broker.observedErrorCodes.tally code =
      s.errorCodesBaseline.tally code + codes.count code) (code : Int) :
    (loop.finish s).result.observedErrorCodes.get? code = histogram codes code := by
  have hcode := h code
  simp only [RebalanceLoop.finish]
  rw [Dict.get?_filter, Dict.get?_ofList_map _
    (fun code n => n - (s.errorCodesBaseline.get? code).getD 0)]
  unfold histogram
  cases hseen : s.broker.observedErrorCodes.get? code with
  | none =>
    have hzero : s.broker.observedErrorCodes.tally code = 0 := by
      rw [Dict.tally, hseen]
      rfl
    rw [if_pos (by omega)]
    rfl
  | some n =>
    have hn : s.broker.observedErrorCodes.tally code = n := by
      rw [Dict.tally, hseen]
      rfl
    have hdiff : n - (s.errorCodesBaseline.get? code).getD 0 = codes.count code := by
      change n - s.errorCodesBaseline.tally code = _
      omega
    rw [Option.map_some, hdiff]
    by_cases hcount : codes.count code = 0
    · simp [hcount, Option.filter]
    · simp [hcount, Option.filter, Nat.pos_of_ne_zero hcount]

theorem ErrorsCounted.step {codes : List Int} {a : Action} (hs : ErrorsCounted codes s)
    (h : IbPipeline.step loop policy s a = some t) :
    ErrorsCounted (codes ++ orderErrors s a t) t := by
  by_cases hfrom : s.task = .finished
  · have hto := finished_step h hfrom
    have hnone : orderErrors s a t = [] := by simp only [orderErrors, hfrom]
    rw [hnone, List.append_nil]
    refine ⟨fun hne => absurd hto hne, fun _ => ?_⟩
    rcases finished_of_step h hto with ⟨-, hresult⟩ | ⟨-, ids, artefact, rfl⟩
    · rw [hresult]
      exact hs.reported hfrom
    · simp [IbPipeline.step, hfrom] at h
  · have htally := hs.counted hfrom
    constructor
    · intro _ code
      rw [tally_step h hfrom, htally, errorCodesBaseline_step h, List.count_append, Nat.add_assoc]
    · intro hto code
      rcases finished_of_step h hto with ⟨hs', -⟩ | ⟨ht, ids, artefact, rfl⟩
      · exact absurd hs' hfrom
      · have hnone : orderErrors s (.proceed ids artefact) t = [] := by
          unfold orderErrors
          split <;> first | rfl | contradiction
        rw [hnone, List.append_nil, ht]
        exact finish_observedErrorCodes htally code

end Errors

/-! ## The rates of the record -/

theorem ratio_mem {a b : Nat} (hab : a ≤ b) (hb : 0 < b) :
    ∃ rate ∈ Set.Icc (0 : Decimal) 1, ratio a b = .ok rate := by
  obtain ⟨quotient, hmem, hdiv⟩ := trueDiv_of_le hab hb
  refine ⟨roundFloat quotient 4, roundFloat_mem hmem 4, ?_⟩
  unfold ratio
  rw [hdiv]
  rfl

/-- Every rate lies between 0 and 1. -/
structure RatesBounded (record : RunRecord) : Prop where
  symbols : ∀ symbol rate, record.fillRateBySymbol.get? symbol = some rate →
    rate ∈ Set.Icc (0 : Decimal) 1
  accepted : record.fsmTrace.acceptedRate ∈ Set.Icc (0 : Decimal) 1
  filled : record.fsmTrace.filledRate ∈ Set.Icc (0 : Decimal) 1
  canceled : record.fsmTrace.canceledRate ∈ Set.Icc (0 : Decimal) 1
  rejected : record.fsmTrace.rejectedRate ∈ Set.Icc (0 : Decimal) 1

theorem fillRateBySymbol_mem {submitted fills : Dict String Nat}
    (h : ∀ symbol, fills.tally symbol ≤ submitted.tally symbol) :
    ∃ rates, fillRateBySymbol submitted fills = .ok rates ∧
      ∀ symbol rate, rates.get? symbol = some rate → rate ∈ Set.Icc (0 : Decimal) 1 := by
  have hplaced (item : String × Nat) (hitem : item ∈ submitted.items) :
      fills.tally item.1 ≤ item.2 := by
    have hget : submitted.tally item.1 = item.2 := by
      rw [Dict.tally, Dict.get?_eq_some_iff.mpr hitem]
      rfl
    rw [← hget]
    exact h item.1
  have hfold (items : List (String × Nat)) (hitems : ∀ item ∈ items, fills.tally item.1 ≤ item.2)
      (rates : Dict String Decimal)
      (hrates : ∀ symbol rate, rates.get? symbol = some rate → rate ∈ Set.Icc (0 : Decimal) 1) :
      ∃ rates', items.foldlM (fun rates placed =>
          if placed.2 ≤ 0 then Except.ok rates
          else do
            let rate ← ratio (fills.tally placed.1) placed.2
            return rates.set placed.1 rate) rates = .ok rates' ∧
        ∀ symbol rate, rates'.get? symbol = some rate → rate ∈ Set.Icc (0 : Decimal) 1 := by
    induction items generalizing rates with
    | nil => exact ⟨rates, rfl, hrates⟩
    | cons item rest ih =>
      have hrest := ih fun item hitem => hitems item (List.mem_cons_of_mem _ hitem)
      rw [List.foldlM_cons]
      by_cases hzero : item.2 ≤ 0
      · rw [if_pos hzero]
        exact hrest rates hrates
      · obtain ⟨rate, hmem, hratio⟩ := ratio_mem (hitems item List.mem_cons_self) (by omega)
        rw [if_neg hzero, hratio]
        apply hrest (rates.set item.1 rate)
        intro symbol rate' hget
        rw [Dict.get?_set] at hget
        split at hget
        · cases hget
          exact hmem
        · exact hrates symbol rate' hget
  exact hfold submitted.items hplaced Dict.empty (by simp)

theorem fsmTraceOf_mem {submitted accepted filled canceled rejected : Nat}
    (haccepted : accepted ≤ submitted) (hfilled : filled ≤ submitted)
    (hcanceled : canceled ≤ submitted) (hrejected : rejected ≤ submitted) :
    ∃ trace, fsmTraceOf submitted accepted filled canceled rejected = .ok trace ∧
      trace.acceptedRate ∈ Set.Icc (0 : Decimal) 1 ∧ trace.filledRate ∈ Set.Icc (0 : Decimal) 1 ∧
      trace.canceledRate ∈ Set.Icc (0 : Decimal) 1 ∧
      trace.rejectedRate ∈ Set.Icc (0 : Decimal) 1 := by
  unfold fsmTraceOf
  by_cases hzero : submitted ≤ 0
  · rw [if_pos hzero]
    exact ⟨_, rfl, by simp⟩
  · have hpos : 0 < submitted := by omega
    obtain ⟨a, ha, hacceptedRate⟩ := ratio_mem haccepted hpos
    obtain ⟨f, hf, hfilledRate⟩ := ratio_mem hfilled hpos
    obtain ⟨c, hc, hcanceledRate⟩ := ratio_mem hcanceled hpos
    obtain ⟨r, hr, hrejectedRate⟩ := ratio_mem hrejected hpos
    rw [if_neg hzero, hacceptedRate, hfilledRate, hcanceledRate, hrejectedRate]
    exact ⟨_, rfl, ha, hf, hc, hr⟩

/-- The counters of a result add up, overall and by symbol. -/
structure Accounted (result : RunResult) : Prop where
  settled : result.submittedCount =
    result.fillsCount + result.canceledCount + result.rejectedCount
  submittedTotal : result.submittedBySymbol.values.sum = result.submittedCount
  fillsTotal : result.fillsBySymbol.values.sum = result.fillsCount
  within : ∀ symbol, result.fillsBySymbol.tally symbol ≤ result.submittedBySymbol.tally symbol
  filled : result.fillsCount ≤ result.acceptedCount
  accepted : result.acceptedCount ≤ result.submittedCount

theorem Accounted.record {result : RunResult} (h : Accounted result) (metadata : RunMetadata) :
    ∃ record, buildRunRecord result metadata = .ok record ∧ RatesBounded record := by
  have hsettled := h.settled
  have hfilled := h.filled
  have haccepted := h.accepted
  have hfills : result.fillsCount ≤ result.submittedCount := by omega
  have hcanceled : result.canceledCount ≤ result.submittedCount := by omega
  have hrejected : result.rejectedCount ≤ result.submittedCount := by omega
  obtain ⟨rates, hrates, hsymbols⟩ := fillRateBySymbol_mem h.within
  obtain ⟨trace, htrace, ha, hf, hc, hr⟩ := fsmTraceOf_mem haccepted hfills hcanceled hrejected
  unfold buildRunRecord
  rw [hrates, htrace]
  exact ⟨_, rfl, hsymbols, ha, hf, hc, hr⟩

/-- The accounts of every completed run of the multi-instrument pipeline: the counters add up, the
record is built with all its rates between 0 and 1, and the error codes are the histogram of the
pushes that concern an order and arrived before the run was over. -/
theorem run_accounted (args : IbMultiPipelineArgs) (policy : RoundingPolicy)
    (history : List IBSystem.Action) (broker : IBBroker) (placed : List PlacedOrder)
    (killSwitch : KillSwitch) (loop : RebalanceLoop) (as : List Action) (s : State)
    (hhistory : run (IBSystem.step policy) IBSystem.init history = some ⟨broker, [], placed⟩)
    (hloop : runIbMultiPipeline args broker = .ok loop)
    (hrun : run (step loop policy) (loop.start broker placed killSwitch) as = some s)
    (hdone : s.task = .finished) :
    Accounted s.result ∧
      (∀ metadata, ∃ record, buildRunRecord s.result metadata = .ok record ∧
        RatesBounded record) ∧
      ∀ code, s.result.observedErrorCodes.get? code = histogram
        (trace (step loop policy) orderErrors (loop.start broker placed killSwitch) as) code := by
  obtain ⟨-, -, -, -, -, hkey⟩ := runIbMultiPipeline_eq hloop
  have hraised : ¬ s.Raised := by
    rintro ⟨e, he⟩
    rw [hdone] at he
    cases he
  have hnever := along_not_of_absorbing (fun _ _ _ => State.Raised.step) hrun hraised
  let Known (s : State) : Prop := Coherent s ∧ s.result.counters.Balanced s.task.stage ∧
    s.result.counters.BySymbol s.placed s.task.stage
  have hstart : Known (loop.start broker placed killSwitch) :=
    ⟨Coherent.start hhistory, ⟨rfl, le_rfl, le_rfl, rfl, rfl⟩,
      ⟨fun _ => le_rfl, by simp [RebalanceLoop.start, Task.stage]⟩⟩
  have hstep (s : State) (a : Action) (t : State) (hs : Known s)
      (hlives : ∀ m, step loop policy s a = some m → ¬ m.Raised)
      (h : step loop policy s a = some t) : Known t :=
    ⟨hs.1.step (hlives t h) h, hs.2.1.step hs.1 (hlives t h) h,
      hs.2.2.step hs.1 (hlives t h) hkey h⟩
  obtain ⟨-, hbalanced, hsymbols⟩ := run_invariant_along hstep hstart hnever hrun
  rw [hdone] at hbalanced
  have haccounted : Accounted s.result :=
    ⟨hbalanced.settled, hbalanced.submittedTotal, hbalanced.fillsTotal, hsymbols.within,
      hbalanced.filled, hbalanced.accepted⟩
  have herrors : ErrorsCounted [] (loop.start broker placed killSwitch) :=
    ⟨fun _ _ => rfl, by simp [RebalanceLoop.start]⟩
  have hcounted := run_invariant_trace (fun _ _ _ _ => ErrorsCounted.step) herrors hrun
  exact ⟨haccounted, haccounted.record, hcounted.reported hdone⟩

/-- The sample of the multi-instrument pipeline, with market orders. -/
def sampleMarketArgs : IbMultiPipelineArgs := { sampleMultiArgs 0 with orderType := .mkt }

/-- The order is filled, and IB warns of a capped price. -/
def warnedRun : List Action :=
  filledRun [sampleFill "e1" 1000, .venue (.errorEvent 7 warning2161 "capped"), sampleTick,
    sampleTick] 3

theorem run_accounted_warnedRun :
    ∃ loop s, runIbMultiPipeline sampleMarketArgs sampleBroker = .ok loop ∧
      run (step loop .nearest) (loop.start sampleBroker [] {}) warnedRun = some s ∧
      s.result.fillsCount = 1 ∧ Accounted s.result ∧
      (∀ metadata, ∃ record, buildRunRecord s.result metadata = .ok record ∧
        RatesBounded record) ∧
      s.result.observedErrorCodes.get? warning2161 = some 1 := by
  obtain ⟨loop, s, hloop, hrun, hshape⟩ := Pipeline.exists_run
    (.multi sampleMarketArgs) warnedRun
    (fun loop s => s.task.isFinished && s.result.fillsCount == 1 &&
      trace (step loop .nearest) orderErrors (loop.start sampleBroker [] {}) warnedRun ==
        [warning2161])
    (by decide +kernel)
  simp only [Bool.and_eq_true, beq_iff_eq] at hshape
  obtain ⟨⟨hfinished, hone⟩, htrace⟩ := hshape
  have hdone : s.task = .finished := Task.eq_finished hfinished
  obtain ⟨haccounted, hrecord, herrors⟩ := run_accounted sampleMarketArgs .nearest
    [.connect ⟨0⟩] sampleBroker [] {} loop warnedRun s rfl hloop hrun hdone
  refine ⟨loop, s, hloop, hrun, hone, haccounted, hrecord, ?_⟩
  rw [herrors, htrace]
  rfl

end Blive.IbPipeline
