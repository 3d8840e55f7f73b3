import Blive.Runtime.Course
import Blive.Runtime.Proofs.SingleLeg

/-!
# A loop keeps to its course

In every run of a `RebalanceLoop`, on whatever broker, the course is moved by what the loop hears
and by nothing else.
-/

namespace Blive

/-! ## Without ids -/

/-- Up to their ids, the candidates do not depend on what `uuid4()` returns. -/
theorem sizeOrder_anonymous (arith : Arithmetic) (inp : SizerInput) (capital : Decimal)
    (key : String) (targetWeight : Decimal) (id : UUID) :
    Option.map Order.anonymous <$> sizeOrder arith inp capital key targetWeight id =
      sizeOrder arith inp capital key targetWeight 0 := by
  have hmake (instrument : Instrument) (rounded : Decimal) :
      Order.anonymous <$> Frozen.make (deltaOrder inp instrument rounded id) =
        Frozen.make (deltaOrder inp instrument rounded 0) := make_anonymous rfl
  unfold sizeOrder
  by_cases hweight : -1 ≤ targetWeight ∧ targetWeight ≤ 1
  · simp only [require, if_pos hweight, bind, Except.bind]
    cases inp.instrumentResolver key with
    | error e => rfl
    | ok instrument =>
      dsimp only
      cases inp.priceLookup instrument with
      | error e => rfl
      | ok price =>
        dsimp only
        by_cases hprice : 0 < price
        · simp only [if_pos hprice]
          cases sizingDelta arith inp capital key targetWeight price with
          | error e => rfl
          | ok delta =>
            dsimp only
            cases quantizeShareQty arith delta with
            | error e => rfl
            | ok rounded =>
              dsimp only
              by_cases hzero : rounded = 0
              · simp only [if_pos hzero]
                rfl
              · simp only [if_neg hzero, ← hmake]
                cases Frozen.make (deltaOrder inp instrument rounded id) <;> rfl
        · simp only [if_neg hprice]
          rfl
  · simp only [require, if_neg hweight]
    rfl

theorem sizeOrdersFrom_anonymous (arith : Arithmetic) (inp : SizerInput) (capital : Decimal)
    (weights : List (String × Decimal)) (ids : Nat → UUID) :
    List.map Order.anonymous <$> sizeOrdersFrom arith inp capital weights ids =
      sizeOrdersFrom arith inp capital weights fun _ => 0 := by
  induction weights generalizing ids with
  | nil => rfl
  | cons weight rest ih =>
    obtain ⟨key, targetWeight⟩ := weight
    simp only [sizeOrdersFrom, ← sizeOrder_anonymous arith inp capital key targetWeight (ids 0)]
    cases sizeOrder arith inp capital key targetWeight (ids 0) with
    | error e => rfl
    | ok order =>
      cases order with
      | none => exact ih ids
      | some order =>
        have hrest := ih fun n => ids (n + 1)
        simp only [Functor.map, Except.map, bind, Except.bind, Option.map] at hrest ⊢
        rw [← hrest]
        cases sizeOrdersFrom arith inp capital rest fun n => ids (n + 1) <;> rfl

theorem sizeOrders_anonymous (arith : Arithmetic) (inp : SizerInput) (ids : Nat → UUID) :
    List.map Order.anonymous <$> sizeOrders arith inp ids = sizeOrders arith inp fun _ => 0 := by
  unfold sizeOrders
  by_cases hslice : 0 < inp.navSlice
  · by_cases hequity : 0 < inp.equity
    · simp only [require, if_pos hslice, if_pos hequity, bind, Except.bind]
      cases arith.fix (inp.equity * inp.navSlice) with
      | error e => rfl
      | ok capital => exact sizeOrdersFrom_anonymous arith inp capital inp.targetWeights.items ids
    · simp only [require, if_pos hslice, if_neg hequity]
      rfl
  · simp only [require, if_neg hslice]
    rfl

/-- A fill is applied whatever its id. -/
theorem applyFill_anonymous (position : Option Position) (fill : Fill) (strategyId : String)
    (now : Datetime) :
    applyFill position fill.anonymous strategyId now = applyFill position fill strategyId now := by
  cases position <;> rfl

namespace IbPipeline

open Transition

/-- Promotion does not look at the id it replaces. -/
theorem promote_anonymous (loop : RebalanceLoop) (rebalance : Rebalance) (desired : Order)
    (id : UUID) : Order.anonymous <$> loop.promote rebalance desired id =
      loop.promote rebalance desired.anonymous 0 := by
  have hinstrument : desired.anonymous.val.instrument = desired.val.instrument := rfl
  simp only [RebalanceLoop.promote, hinstrument]
  cases loop.lastBar rebalance desired.val.instrument with
  | error e => rfl
  | ok bar => exact ibOrderFromDesired_anonymous desired bar _ _ id

/-! ## What a step lets the loop hear -/

/-- Where the coroutine stands on the course. -/
def Task.place : Task → Place
  | .atBar bars => .atBar bars
  | .atOrder work => .atOrder work.rebalance (work.orders.map Order.anonymous) work.bars
  | .inSubmit work _ _ _ => .waiting work.rebalance (work.orders.map Order.anonymous) work.bars
  | .inDrain work _ => .waiting work.rebalance (work.orders.map Order.anonymous) work.bars
  | .inCancel work _ => .waiting work.rebalance (work.orders.map Order.anonymous) work.bars
  | .inRedrain work _ => .waiting work.rebalance (work.orders.map Order.anonymous) work.bars
  | .finished => .ended
  | .raised _ => .ended

theorem Task.AtBroker.place {work : Work} {task : Task} (h : task.AtBroker work) :
    task.place = .waiting work.rebalance (work.orders.map Order.anonymous) work.bars := by
  cases h <;> rfl

def State.course (s : State) : Course where
  cash := s.cash
  positions := s.positions
  equityCurve := s.result.equityCurve
  submitted := s.submitted.map fun submission => (submission.now, submission.order.anonymous)
  place := s.task.place

/-- An order is done with when the loop goes on, or does not. -/
def Task.fate : Task → List Input
  | .atOrder _ => [.answered .unfilled]
  | .raised _ => [.answered .raised]
  | _ => []

/-- The first drain has come this far. -/
def Drain.fate (drain : Drain) (task : Task) : List Input :=
  match drain.bookedFill with
  | some fill => [.answered (.filled fill.anonymous)]
  | none => task.fate

/-- What is heard in a step from `s` to `t`. -/
def inputs (s : State) (a : Action) (t : State) : List Input :=
  match a with
  | .proceed _ artefact =>
      match s.task with
      | .atOrder ⟨_, _ :: _, _⟩ =>
          .asked s.killSwitch artefact ::
            (if s.submitted.length < t.submitted.length then t.task.fate else [])
      | _ => [.turned]
  | .getEvent =>
      match s.task, s.broker.events[s.cursor]? with
      | .inDrain _ drain, some event => (drain.read event).fate t.task
      | _, _ => t.task.fate
  | .timeout =>
      match s.task with
      | .inDrain _ drain => drain.fate t.task
      | _ => t.task.fate
  | .priceRules _ _ => t.task.fate
  | .acquired _ _ => t.task.fate
  | .canceled _ => t.task.fate
  | .killSwitch _ => []
  | .venue _ => []

/-! ## One step -/

/-- The loop books a fill under a key that does not depend on the id of the order. -/
def RebalanceLoop.BooksAnonymously (loop : RebalanceLoop) : Prop :=
  ∀ fill, loop.bookingKey fill.anonymous = loop.bookingKey fill

/-- The course has come from `s` to `t` by what was heard. -/
structure Follows (loop : RebalanceLoop) (s t : State) (heard : List Input) : Prop where
  course : t.course = heard.foldl (Course.hear loop) s.course
  canHear : Throughout (Course.hear loop) Course.CanHear s.course heard

/-- Nothing on the course but the place has changed. -/
structure SameBooks (s t : State) : Prop where
  cash : t.cash = s.cash := by rfl
  positions : t.positions = s.positions := by rfl
  curve : t.result.equityCurve = s.result.equityCurve := by rfl
  submitted : t.submitted = s.submitted := by rfl

section Step

variable {loop : RebalanceLoop} {s t : State}

theorem SameBooks.course (h : SameBooks s t) :
    t.course = { s.course with place := t.task.place } := by
  simp only [State.course, h.cash, h.positions, h.curve, h.submitted]

/-- The loop stays where it is. -/
theorem SameBooks.stays (h : SameBooks s t) (hplace : t.task.place = s.task.place) :
    Follows loop s t [] := by
  refine ⟨?_, trivial⟩
  rw [h.course, hplace]
  rfl

/-- The loop still waits for the broker. -/
theorem SameBooks.waits (h : SameBooks s t) {work : Work} (hbefore : s.task.AtBroker work)
    (hafter : t.task.AtBroker work) : Follows loop s t [] :=
  h.stays (hafter.place.trans hbefore.place.symm)

/-- An order is done with and leaves the books alone. -/
theorem SameBooks.leaves (h : SameBooks s t) {work : Work} (hbefore : s.task.AtBroker work)
    (ht : t.task = .atOrder work ∨ ∃ e, t.task = .raised e) : Follows loop s t t.task.fate := by
  have hplace : s.course.place =
      .waiting work.rebalance (work.orders.map Order.anonymous) work.bars := hbefore.place
  rcases ht with ht | ⟨e, ht⟩
  · rw [ht]
    refine ⟨?_, by simp only [Course.CanHear, hplace], trivial⟩
    rw [h.course, ht]
    simp only [Task.fate, Task.place, List.foldl_cons, List.foldl_nil, Course.hear, hplace,
      Course.answer]
  · rw [ht]
    refine ⟨?_, by simp only [Course.CanHear, hplace], trivial⟩
    rw [h.course, ht]
    simp only [Task.fate, Task.place, List.foldl_cons, List.foldl_nil, Course.hear, hplace,
      Course.answer, Course.stop]

theorem openRebalance_follows {bar : Bar} {bars : List Bar} (htask : s.task = .atBar (bar :: bars))
    (ids : Nat → UUID) : Follows loop s (loop.openRebalance s bar bars ids) [.turned] := by
  have hplace : s.course.place = .atBar (bar :: bars) := by
    simp only [State.course, htask, Task.place]
  refine ⟨?_, by simp only [Course.CanHear, hplace], trivial⟩
  simp only [List.foldl_cons, List.foldl_nil, Course.hear, hplace, Course.openRebalance,
    RebalanceLoop.openRebalance]
  cases loop.rebalance bar with
  | error e => rfl
  | ok rebalance =>
    cases rebalance with
    | none => rfl
    | some rebalance =>
      have hsized := sizeOrders_anonymous .exact (loop.sizerInput s rebalance) ids
      have hinput : Course.sizerInput loop s.course rebalance = loop.sizerInput s rebalance := rfl
      dsimp only
      rw [hinput, ← hsized]
      cases sizeOrders .exact (loop.sizerInput s rebalance) ids <;> rfl

theorem closeRebalance_follows {rebalance : Rebalance} {bars : List Bar}
    (htask : s.task = .atOrder ⟨rebalance, [], bars⟩) :
    Follows loop s (loop.closeRebalance s rebalance bars) [.turned] := by
  have hplace : s.course.place = .atOrder rebalance [] bars := by
    simp only [State.course, htask, Task.place, List.map_nil]
  refine ⟨?_, by simp only [Course.CanHear, hplace], trivial⟩
  simp only [List.foldl_cons, List.foldl_nil, Course.hear, hplace]
  rfl

theorem submitOrder_follows {rebalance : Rebalance} {desired : Order} {orders : List Order}
    {bars : List Bar} (htask : s.task = .atOrder ⟨rebalance, desired :: orders, bars⟩)
    (ids : Nat → UUID) (artefact : String → Artefact) :
    Follows loop s (loop.submitOrder s ⟨rebalance, orders, bars⟩ desired (ids 0) artefact)
      (inputs s (.proceed ids artefact)
        (loop.submitOrder s ⟨rebalance, orders, bars⟩ desired (ids 0) artefact)) := by
  have hplace : s.course.place = .atOrder rebalance (desired.anonymous ::
      orders.map Order.anonymous) bars := by
    simp only [State.course, htask, Task.place, List.map_cons]
  have hasked : s.course.CanHear (.asked s.killSwitch artefact) := by
    simp only [Course.CanHear, hplace]
  have hinputs : loop.riskInputs rebalance desired.anonymous artefact =
      loop.riskInputs rebalance desired artefact := rfl
  -- When nothing is submitted, nothing is heard besides the question.
  have hquiet {t : State} (h : t.submitted = s.submitted)
      (hcourse : t.course = Course.hear loop s.course (.asked s.killSwitch artefact)) :
      Follows loop s t (inputs s (.proceed ids artefact) t) := by
    have hheard : inputs s (.proceed ids artefact) t = [.asked s.killSwitch artefact] := by
      simp only [inputs, htask, h, lt_irrefl, if_false]
    rw [hheard]
    exact ⟨hcourse, hasked, trivial⟩
  unfold RebalanceLoop.submitOrder
  cases hrisk : loop.riskInputs rebalance desired artefact with
  | error e =>
    refine hquiet rfl ?_
    simp only [Course.hear, hplace, Course.ask, hinputs, hrisk]
    rfl
  | ok risk =>
    have hanonymous := approve_anonymous (loop.riskEngine s.killSwitch) desired risk rebalance.time
    have happroved (approved : Order) (breaches : List RiskBreach)
        (h : (loop.riskEngine s.killSwitch).approve desired risk rebalance.time =
          (some approved, breaches)) : approved = desired := by
      have hsome : ((loop.riskEngine s.killSwitch).approve desired risk rebalance.time).1 =
          some approved := by rw [h]
      exact (RiskEngine.approve_eq_some_iff.mp hsome).1
    dsimp only
    generalize (loop.riskEngine s.killSwitch).approve desired risk rebalance.time = verdict
      at hanonymous happroved
    obtain ⟨approved, breaches⟩ := verdict
    cases approved with
    | none =>
      refine hquiet rfl ?_
      simp only [Course.hear, hplace, Course.ask, hinputs, hrisk, hanonymous]
      rfl
    | some approved =>
      obtain rfl := happroved approved breaches rfl
      have hpromote := promote_anonymous loop rebalance approved (ids 0)
      dsimp only
      cases horder : loop.promote rebalance approved (ids 0) with
      | error e =>
        rw [horder] at hpromote
        refine hquiet rfl ?_
        simp only [Course.hear, hplace, Course.ask, hinputs, hrisk, hanonymous, Option.map_some,
          Course.submit, ← hpromote]
        rfl
      | ok order =>
        rw [horder] at hpromote
        have hheard : Course.hear loop s.course (.asked s.killSwitch artefact) =
            { s.course with
              place := .waiting rebalance (orders.map Order.anonymous) bars
              submitted := s.course.submitted ++ [(rebalance.time, order.anonymous)] } := by
          simp only [Course.hear, hplace, Course.ask, hinputs, hrisk, hanonymous, Option.map_some,
            Course.submit, ← hpromote]
          rfl
        simp only [RebalanceLoop.callSubmit]
        cases s.broker.submit order with
        | error e =>
          simp only [inputs, htask, State.raise, List.length_append, List.length_singleton,
            Nat.lt_succ_self, if_true, Task.fate]
          refine ⟨?_, hasked, ?_, trivial⟩
          · rw [List.foldl_cons, List.foldl_cons, List.foldl_nil, hheard]
            simp only [State.course, Course.hear, Course.answer, Task.place, Course.stop,
              List.map_append, List.map_cons, List.map_nil]
          · rw [hheard]
            trivial
        | ok call =>
          simp only [inputs, htask, List.length_append, List.length_singleton, Nat.lt_succ_self,
            if_true, Task.fate]
          refine ⟨?_, hasked, trivial⟩
          simp only [List.foldl_cons, List.foldl_nil, hheard]
          simp only [State.course, Task.place, List.map_append, List.map_cons, List.map_nil]

/-- The engine's cancel settles nothing yet, unless it raises. -/
theorem engineCancel_follows {work : Work} (hbroker : s.task.AtBroker work)
    (targetId : ClientOrderId) : Follows loop s (RebalanceLoop.engineCancel s work targetId)
      (RebalanceLoop.engineCancel s work targetId).task.fate := by
  simp only [RebalanceLoop.engineCancel]
  split
  · exact SameBooks.waits {} hbroker (.inCancel targetId)
  · exact SameBooks.waits {} hbroker (.inRedrain _)
  · rename_i e _ _
    exact SameBooks.leaves {} hbroker (.inr ⟨e, rfl⟩)

theorem settle_follows (hloop : loop.BooksAnonymously) {work : Work}
    (hbroker : s.task.AtBroker work) (drain : Drain) :
    Follows loop s (loop.settle s work drain) (drain.fate (loop.settle s work drain).task) := by
  have hcourse : s.course.place =
      .waiting work.rebalance (work.orders.map Order.anonymous) work.bars := hbroker.place
  unfold RebalanceLoop.settle Drain.fate
  cases drain.bookedFill with
  | some fill =>
    refine ⟨?_, by simp only [Course.CanHear, hcourse], trivial⟩
    simp only [List.foldl_cons, List.foldl_nil, Course.hear, hcourse, Course.answer,
      RebalanceLoop.bookFill, hloop fill, applyFill_anonymous]
    have hpositions : s.course.positions = s.positions := rfl
    rw [hpositions]
    cases applyFill (s.positions.get? (loop.bookingKey fill)) fill
      loop.liveConfig.val.strategyId work.rebalance.time <;> rfl
  | none =>
    cases drain.state with
    | canceled => exact SameBooks.leaves {} hbroker (.inl rfl)
    | rejected => exact SameBooks.leaves {} hbroker (.inl rfl)
    | _ =>
      let counted : State := { s with result := { s.result with
        acceptedCount := s.result.acceptedCount + drain.reachedAccepted.toNat } }
      have hcounted : counted.task.AtBroker work := hbroker
      have hcancel : Follows loop counted _ _ := engineCancel_follows hcounted drain.targetId
      exact ⟨hcancel.course, hcancel.canHear⟩

/-- A step moves the course by what is heard in it. -/
theorem step_follows {policy : RoundingPolicy} {a : Action} (hloop : loop.BooksAnonymously)
    (h : step loop policy s a = some t) : Follows loop s t (inputs s a t) := by
  cases a with
  | proceed ids artefact =>
    simp only [step] at h
    split at h
    · rename_i htask
      cases h
      have hplace : s.course.place = .atBar [] := by
        simp only [State.course, htask, Task.place]
      simp only [inputs, htask]
      refine ⟨?_, by simp only [Course.CanHear, hplace], trivial⟩
      simp only [List.foldl_cons, List.foldl_nil, Course.hear, hplace]
      rfl
    · rename_i bar bars htask
      cases h
      simp only [inputs, htask]
      exact openRebalance_follows htask ids
    · rename_i rebalance bars htask
      cases h
      simp only [inputs, htask]
      exact closeRebalance_follows htask
    · rename_i rebalance desired orders bars htask
      cases h
      exact submitOrder_follows htask ids artefact
    · cases h
  | priceRules result now =>
    simp only [step] at h
    split at h
    · rename_i work order wired switched htask
      cases h
      have hbroker : s.task.AtBroker work := by rw [htask]; constructor
      simp only [inputs]
      cases (s.broker.afterPriceRules policy wired result now).2 with
      | suspended call => exact SameBooks.waits {} hbroker (by constructor)
      | returned => exact SameBooks.waits {} hbroker (by constructor)
      | raised e => exact SameBooks.leaves {} hbroker (.inr ⟨_, rfl⟩)
    · cases h
  | acquired result now =>
    simp only [step] at h
    split at h
    · rename_i work order wired contract ibOrder switched htask
      have hbroker : s.task.AtBroker work := by rw [htask]; constructor
      cases result with
      | error e =>
        cases h
        exact SameBooks.leaves {} hbroker (.inr ⟨_, rfl⟩)
      | ok orderId =>
        cases h
        exact SameBooks.waits {} hbroker (by constructor)
    · cases h
  | canceled result =>
    simp only [step] at h
    split at h
    · rename_i work targetId htask
      have hbroker : s.task.AtBroker work := by rw [htask]; constructor
      split at h
      · cases h
        exact SameBooks.waits {} hbroker (by constructor)
      · cases h
        exact SameBooks.waits {} hbroker (by constructor)
      · cases h
        exact SameBooks.leaves {} hbroker (.inr ⟨_, rfl⟩)
    · cases h
  | getEvent =>
    simp only [step] at h
    split at h
    · rename_i work drain event htask hevent
      cases h
      have hbroker : s.task.AtBroker work := by rw [htask]; constructor
      simp only [inputs, htask, hevent]
      by_cases hdone : (drain.read event).done = true
      · rw [if_pos hdone]
        have hread : Task.AtBroker work { s with cursor := s.cursor + 1 }.task := hbroker
        have hsettle := settle_follows hloop hread (drain.read event)
        exact ⟨hsettle.course, hsettle.canHear⟩
      · rw [if_neg hdone, Drain.fate, bookedFill_of_open (by simpa using hdone)]
        exact SameBooks.waits {} hbroker (by constructor)
    · rename_i work drain event htask hevent
      cases h
      have hbroker : s.task.AtBroker work := by rw [htask]; constructor
      simp only [inputs, htask, hevent]
      split
      · exact SameBooks.leaves {} hbroker (.inl rfl)
      · exact SameBooks.waits {} hbroker (by constructor)
    · cases h
  | timeout =>
    simp only [step] at h
    split at h
    · rename_i work drain htask
      cases h
      have hbroker : s.task.AtBroker work := by rw [htask]; constructor
      simp only [inputs, htask]
      exact settle_follows hloop hbroker drain
    · rename_i work drain htask
      cases h
      have hbroker : s.task.AtBroker work := by rw [htask]; constructor
      simp only [inputs, htask]
      exact SameBooks.leaves {} hbroker (.inl rfl)
    · cases h
  | killSwitch call =>
    cases h
    have hsame : (s.task.noteSwitch call).place = s.task.place := by cases s.task <;> rfl
    exact SameBooks.stays {} hsame
  | venue action =>
    simp only [step] at h
    split at h
    · obtain ⟨system, -, rfl⟩ := Option.map_eq_some_iff.mp h
      exact SameBooks.stays {} rfl
    · cases h

end Step

/-- A run moves the course by what is heard in it. -/
theorem run_follows {loop : RebalanceLoop} {policy : RoundingPolicy} {as : List Action}
    {s t : State} (hloop : loop.BooksAnonymously) (hrun : run (step loop policy) s as = some t) :
    Follows loop s t (trace (step loop policy) inputs s as) := by
  have hcourse (s : State) (a : Action) (t : State) (_ : True)
      (h : step loop policy s a = some t) := (step_follows hloop h).course
  have hcanHear (s : State) (a : Action) (t : State) (_ : True)
      (h : step loop policy s a = some t) := (step_follows hloop h).canHear
  have hkeeps (s : State) (a : Action) (t : State) (_ : True) (_ : step loop policy s a = some t) :
      True := trivial
  exact ⟨run_view hkeeps hcourse trivial hrun, run_throughout hkeeps hcourse hcanHear trivial hrun⟩

/-! ## What is heard up to a time -/

/-- The responses in a step of a rebalance up to `t`: the switch and the files of a risk check, and
what became of an order. -/
def responsesUpTo (t : Int) (s : State) (a : Action) (s' : State) : List Input :=
  if s.task.place.within t then (inputs s a s').filter Input.isResponse else []

section Responses

variable {t : Int} {loop : RebalanceLoop} {course : Course}

theorem responses_append (heard heard' : List Input) :
    Course.responses loop t course (heard ++ heard') =
      Course.responses loop t course heard ++
        Course.responses loop t (heard.foldl (Course.hear loop) course) heard' := by
  induction heard generalizing course with
  | nil => rfl
  | cons input heard ih =>
    simp only [List.cons_append, Course.responses, List.foldl_cons, ih, List.append_assoc]

/-- A response keeps the loop in its rebalance, or ends it. -/
theorem hear_within (t : Int) (loop : RebalanceLoop) {input : Input}
    (hcan : course.CanHear input) (hresponse : input.isResponse = true) :
    (Course.hear loop course input).place = .ended ∨
      (Course.hear loop course input).place.within t = course.place.within t := by
  cases input with
  | turned => cases hresponse
  | asked killSwitch artefact =>
    simp only [Course.CanHear] at hcan
    split at hcan
    · rename_i rebalance desired orders bars hplace
      simp only [Course.hear, hplace, Course.ask]
      split
      · exact .inl rfl
      · split
        · exact .inr rfl
        · unfold Course.submit
          split
          · exact .inl rfl
          · exact .inr rfl
    · cases hcan
  | answered fate =>
    simp only [Course.CanHear] at hcan
    split at hcan
    · rename_i rebalance orders bars hplace
      simp only [Course.hear, hplace]
      cases fate with
      | filled fill =>
        simp only [Course.answer]
        split
        · exact .inl rfl
        · exact .inr rfl
      | unfilled => exact .inr rfl
      | raised => exact .inl rfl
    · cases hcan

/-- Nothing is heard any more when the loop is over. -/
theorem not_canHear_of_ended (hended : course.place = .ended) (input : Input) :
    ¬ course.CanHear input := by
  cases input <;> simp [Course.CanHear, hended]

/-- Responses without a turn in between all come in the same rebalance. -/
theorem responses_of_all {heard : List Input} (hall : ∀ input ∈ heard, input.isResponse = true)
    (hcan : Throughout (Course.hear loop) Course.CanHear course heard) :
    Course.responses loop t course heard = if course.place.within t then heard else [] := by
  induction heard generalizing course with
  | nil => simp only [Course.responses, ite_self]
  | cons input heard ih =>
    obtain ⟨hinput, hrest⟩ := List.forall_mem_cons.mp hall
    obtain ⟨hfirst, hlater⟩ := hcan
    rw [Course.responses, ih hrest hlater, hinput, Bool.and_true]
    rcases hear_within t loop hfirst hinput with hended | hwithin
    · cases heard with
      | nil => split <;> simp
      | cons next heard => exact absurd hlater.1 (not_canHear_of_ended hended next)
    · rw [hwithin]
      split <;> rfl

/-- A step lets the loop hear that it is its turn, or responses. -/
theorem inputs_cases (s : State) (a : Action) (s' : State) :
    inputs s a s' = [.turned] ∨ ∀ input ∈ inputs s a s', input.isResponse = true := by
  have htask (task : Task) : ∀ input ∈ task.fate, input.isResponse = true := by
    cases task <;> simp [Task.fate, Input.isResponse]
  have hdrain (drain : Drain) (task : Task) :
      ∀ input ∈ drain.fate task, input.isResponse = true := by
    unfold Drain.fate
    split
    · simp [Input.isResponse]
    · exact htask task
  cases a with
  | proceed ids artefact =>
    simp only [inputs]
    split
    · refine .inr (List.forall_mem_cons.mpr ⟨rfl, ?_⟩)
      split
      · exact htask _
      · simp
    · exact .inl rfl
  | getEvent =>
    simp only [inputs]
    split
    · exact .inr (hdrain _ _)
    · exact .inr (htask _)
  | timeout =>
    simp only [inputs]
    split
    · exact .inr (hdrain _ _)
    · exact .inr (htask _)
  | priceRules result now => exact .inr (htask _)
  | acquired result now => exact .inr (htask _)
  | canceled result => exact .inr (htask _)
  | killSwitch call => exact .inr (by simp [inputs])
  | venue action => exact .inr (by simp [inputs])

/-- The responses up to `t` of a run are those of its course. -/
theorem trace_responses (hloop : loop.BooksAnonymously) {policy : RoundingPolicy} {s s' : State}
    {as : List Action} (hrun : run (step loop policy) s as = some s') :
    trace (step loop policy) (responsesUpTo t) s as =
      Course.responses loop t s.course (trace (step loop policy) inputs s as) := by
  induction as generalizing s with
  | nil => rfl
  | cons a as ih =>
    obtain ⟨m, hm, hrest⟩ := run_cons_eq_some.mp hrun
    have hfollows := step_follows hloop hm
    rw [trace_cons hm, trace_cons hm, responses_append, ← hfollows.course, ih hrest]
    congr 1
    unfold responsesUpTo
    rcases inputs_cases s a m with hturned | hall
    · rw [hturned]
      simp [Course.responses, Input.isResponse]
    · rw [responses_of_all hall hfollows.canHear, List.filter_eq_self.mpr hall]
      rfl

end Responses

end IbPipeline

end Blive
