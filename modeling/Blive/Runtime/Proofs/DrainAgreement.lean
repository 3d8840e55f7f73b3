import Blive.Misc.Scan
import Blive.Runtime.PaperPipeline
import Blive.Runtime.IbPipeline

/-!
# The two drains and the order state machine

Each pipeline has its own `_drain_order_lifecycle`. Where the events of the order form a path of
the order state machine that ends in a terminal state, both loops stop at its last event, in the
state the transitions lead to and with the last event that carries a fill, whatever other events
stand between them.
-/

namespace Blive

/-! ## Paths of the order state machine -/

/-- A call of `transition` on an order. -/
structure TransitionCall where
  trigger : Trigger
  timeUtc : Datetime
  venueOrderId : Option String
  fill : Option Fill
  reason : Option String

def TransitionCall.apply (call : TransitionCall) (cid : ClientOrderId) (state : OrderState) :
    Except TransitionError (OrderState × Option OrderEvent) :=
  transition state call.trigger cid call.timeUtc call.venueOrderId call.fill call.reason

/-- What a legal path leaves: its last state, the states it visits and the events it emits. -/
structure FsmPath where
  final : OrderState
  states : List OrderState
  events : List OrderEvent
  deriving DecidableEq

/-- The fold of `transition` over the calls. -/
def foldTransition (cid : ClientOrderId) :
    OrderState → List TransitionCall → Except TransitionError FsmPath
  | state, [] => .ok ⟨state, [state], []⟩
  | state, call :: rest =>
      match call.apply cid state with
      | .error e => .error e
      | .ok (next, event) =>
          (foldTransition cid next rest).map fun path =>
            ⟨path.final, state :: path.states, event.toList ++ path.events⟩

/-- The last event that carries a fill. -/
def lastFill (events : List OrderEvent) : Option OrderEvent :=
  (events.filter fun event => event.val.fill.isSome).getLast?

theorem foldTransition_cons_eq_ok_iff {cid : ClientOrderId} {state : OrderState}
    {call : TransitionCall} {rest : List TransitionCall} {path : FsmPath} :
    foldTransition cid state (call :: rest) = .ok path ↔
      ∃ next event tail, call.apply cid state = .ok (next, event) ∧
        foldTransition cid next rest = .ok tail ∧
        path = ⟨tail.final, state :: tail.states, event.toList ++ tail.events⟩ := by
  rw [foldTransition]
  cases hcall : call.apply cid state with
  | error e => simp
  | ok result =>
    obtain ⟨next, event⟩ := result
    cases htail : foldTransition cid next rest with
    | error e => simp [htail, Except.map]
    | ok tail => simp [htail, Except.map, eq_comm]

/-- After the submission, each transition emits an event of the order, and the event is the one
that is observed as that transition. -/
theorem apply_emits {cid : ClientOrderId} {state next : OrderState} {call : TransitionCall}
    {event : Option OrderEvent} (hstate : state ≠ .initialized)
    (h : call.apply cid state = .ok (next, event)) :
    next ≠ .initialized ∧ ∃ e, event = some e ∧ e.val.clientOrderId = cid ∧
      observe state e.val.kind = some next := by
  unfold TransitionCall.apply transition at h
  cases hrow : transitions state call.trigger with
  | none =>
    rw [hrow] at h
    cases h
  | some row =>
    obtain ⟨target, kind⟩ := row
    rw [hrow] at h
    have hkind : kind ≠ none ∧ target ≠ .initialized := by
      revert hrow
      cases state <;> cases call.trigger <;> simp only [transitions] <;>
        intro hrow <;> cases hrow <;> first | exact absurd rfl hstate | decide
    cases kind with
    | none => exact absurd rfl hkind.1
    | some kind =>
      dsimp only at h
      split at h
      · cases h
      · rename_i e hmake
        cases h
        have hval := Frozen.make_eq_ok_iff.mp hmake
        refine ⟨hkind.2, e, rfl, by rw [hval], ?_⟩
        rw [hval]
        exact observe_eq_some_iff.mpr ⟨call.trigger, hrow⟩

/-- No call is legal in a terminal state. -/
theorem apply_terminal {cid : ClientOrderId} {state : OrderState} (hstate : isTerminal state)
    (call : TransitionCall) (result : OrderState × Option OrderEvent) :
    call.apply cid state ≠ .ok result := by
  intro h
  unfold TransitionCall.apply transition at h
  have hrow : transitions state call.trigger = none := by
    cases state <;> first | (cases hstate; done) | (cases call.trigger <;> rfl)
  rw [hrow] at h
  cases h

/-- A path from a terminal state ends where it starts. -/
theorem foldTransition_terminal {cid : ClientOrderId} {state : OrderState}
    (hstate : isTerminal state) {calls : List TransitionCall} {path : FsmPath}
    (h : foldTransition cid state calls = .ok path) : path = ⟨state, [state], []⟩ := by
  cases calls with
  | nil =>
    cases h
    rfl
  | cons call rest =>
    obtain ⟨next, event, tail, hcall, -⟩ := foldTransition_cons_eq_ok_iff.mp h
    exact absurd hcall (apply_terminal hstate call _)

/-- A path visits the state it starts in. -/
theorem foldTransition_head {cid : ClientOrderId} {state : OrderState}
    {calls : List TransitionCall} {path : FsmPath}
    (h : foldTransition cid state calls = .ok path) : state ∈ path.states := by
  cases calls with
  | nil =>
    cases h
    simp
  | cons call rest =>
    obtain ⟨_, _, _, _, _, rfl⟩ := foldTransition_cons_eq_ok_iff.mp h
    simp

/-- The kinds that say that the order was accepted before. -/
def OrderEventKind.pastAcceptance (kind : OrderEventKind) : Bool :=
  kind ∈ [OrderEventKind.accepted, .partialFill, .filled]

/-- A path emits an event past acceptance where it visits ACCEPTED, or started past it. -/
theorem any_pastAcceptance {cid : ClientOrderId} {state : OrderState}
    {calls : List TransitionCall} {path : FsmPath}
    (h : foldTransition cid state calls = .ok path) (hstate : state ≠ .initialized) :
    ((path.events.any fun event => event.val.kind.pastAcceptance) = true →
      state ∈ [OrderState.accepted, .partiallyFilled] ∨ .accepted ∈ path.states) ∧
    (.accepted ∈ path.states → state = .accepted ∨
      (path.events.any fun event => event.val.kind.pastAcceptance) = true) := by
  induction calls generalizing state path with
  | nil =>
    cases h
    simp [eq_comm]
  | cons call rest ih =>
    obtain ⟨next, event, tail, hcall, htail, rfl⟩ := foldTransition_cons_eq_ok_iff.mp h
    obtain ⟨hnext, e, rfl, -, hobserve⟩ := apply_emits hstate hcall
    obtain ⟨hvisits, hany⟩ := ih htail hnext
    have hrow : (e.val.kind.pastAcceptance = true →
          state ∈ [OrderState.accepted, .partiallyFilled] ∨ next = .accepted) ∧
        (next = .accepted → e.val.kind.pastAcceptance = true) ∧
        (next = .partiallyFilled → state ∈ [OrderState.accepted, .partiallyFilled]) := by
      revert hobserve
      generalize e.val.kind = kind
      cases state <;> cases kind <;> simp only [observe, triggerOf, transitions] <;>
        intro hobserve <;> cases hobserve <;> decide
    have hstart : next = .accepted → .accepted ∈ tail.states := by
      rintro rfl
      exact foldTransition_head htail
    constructor
    · intro hpast
      simp only [Option.toList_some, List.singleton_append, List.any_cons, Bool.or_eq_true] at hpast
      rcases hpast with hpast | hpast
      · exact (hrow.1 hpast).imp_right fun hnext => .tail _ (hstart hnext)
      · rcases hvisits hpast with hmem | hmem
        · simp only [List.mem_cons, List.not_mem_nil, or_false] at hmem
          rcases hmem with hnext | hnext
          · exact .inr (.tail _ (hstart hnext))
          · exact .inl (hrow.2.2 hnext)
        · exact .inr (.tail _ hmem)
    · intro hmem
      simp only [Option.toList_some, List.singleton_append, List.any_cons, Bool.or_eq_true]
      rcases List.mem_cons.mp hmem with heq | hmem
      · exact .inl heq.symm
      · rcases hany hmem with hnext | hpast
        · exact .inr (.inl (hrow.2.1 hnext))
        · exact .inr (.inr hpast)

/-! ## The two loops -/

/-- The loop that reads events until it is done: where it ends and what it leaves unread, `none`
while it waits for another event. -/
def readUntil {σ ε : Type} (read : σ → ε → σ) (done : σ → Bool) : σ → List ε → Option (σ × List ε)
  | _, [] => none
  | s, event :: rest =>
      if done (read s event) then some (read s event, rest)
      else readUntil read done (read s event) rest

theorem length_readUntil {σ ε : Type} {read : σ → ε → σ} {done : σ → Bool} {s t : σ}
    {events rest : List ε} (h : readUntil read done s events = some (t, rest)) :
    rest.length ≤ events.length := by
  induction events generalizing s with
  | nil => cases h
  | cons event tail ih =>
    rw [readUntil] at h
    split at h
    · cases h
      exact Nat.le_succ _
    · exact (ih h).trans (Nat.le_succ _)

theorem getElem?_and_drop_of_drop {ε : Type} {events rest : List ε} {e : ε} {n : Nat}
    (h : events.drop n = e :: rest) : events[n]? = some e ∧ events.drop (n + 1) = rest := by
  rw [← List.head?_drop, ← List.tail_drop, h]
  exact ⟨rfl, rfl⟩

/-- A system that takes the events at a cursor in the same way ends where the loop does. -/
theorem run_readUntil {σ δ ε ι : Type} {step : σ → ι → Option σ} {get : ι} {read : δ → ε → δ}
    {done : δ → Bool} {queue : List ε} (waiting : Nat → δ → σ) (settled : Nat → δ → δ → σ)
    (hread : ∀ n d e, queue[n]? = some e → done (read d e) = false →
      step (waiting n d) get = some (waiting (n + 1) (read d e)))
    (hdone : ∀ n d e, queue[n]? = some e → done (read d e) = true →
      step (waiting n d) get = some (settled (n + 1) d (read d e)))
    {n : Nat} {d final : δ} {events rest : List ε} (hqueue : queue.drop n = events)
    (h : readUntil read done d events = some (final, rest)) :
    ∃ m before, queue.drop m = rest ∧
      Transition.run step (waiting n d) (List.replicate (events.length - rest.length) get) =
        some (settled m before final) := by
  induction events generalizing n d with
  | nil => cases h
  | cons e es ih =>
    obtain ⟨hhead, htail⟩ := getElem?_and_drop_of_drop hqueue
    rw [readUntil] at h
    cases hend : done (read d e) with
    | true =>
      rw [hend, if_pos rfl] at h
      cases h
      refine ⟨n + 1, d, htail, ?_⟩
      rw [List.length_cons, Nat.add_sub_cancel_left]
      exact Transition.run_cons_eq_some.mpr ⟨_, hdone n d e hhead hend, rfl⟩
    | false =>
      rw [hend, if_neg (by simp)] at h
      obtain ⟨m, before, hrest, hrun⟩ := ih htail h
      have hcount : (e :: es).length - rest.length = (es.length - rest.length) + 1 := by
        have hle := length_readUntil h
        rw [List.length_cons]
        omega
      refine ⟨m, before, hrest, ?_⟩
      rw [hcount, List.replicate_succ]
      exact Transition.run_cons_eq_some.mpr ⟨_, hread n d e hhead hend, hrun⟩

/-- A view that the reading respects takes one loop to another. -/
theorem readUntil_map {σ τ ε : Type} {read : σ → ε → σ} {done : σ → Bool} {read' : τ → ε → τ}
    {done' : τ → Bool} (view : σ → τ) (hread : ∀ s e, view (read s e) = read' (view s) e)
    (hdone : ∀ s, done' (view s) = done s) (s : σ) (events : List ε) :
    readUntil read' done' (view s) events =
      (readUntil read done s events).map fun result => (view result.1, result.2) := by
  induction events generalizing s with
  | nil => rfl
  | cons event rest ih =>
    rw [readUntil, readUntil, ← hread, hdone]
    split
    · rfl
    · exact ih (read s event)

/-- `_drain_order_lifecycle` of the paper pipeline, over the events it takes off the queue. -/
def PaperPipeline.drainOrderLifecycle (targetId : ClientOrderId) (events : List BrokerEvent) :
    Option (PaperPipeline.Drain × List BrokerEvent) :=
  readUntil PaperPipeline.Drain.read PaperPipeline.Drain.done { targetId } events

/-- `_drain_order_lifecycle` of the IB pipelines without its time-out. -/
def IbPipeline.drainOrderLifecycle (targetId : ClientOrderId) (events : List BrokerEvent) :
    Option (IbPipeline.Drain × List BrokerEvent) :=
  readUntil IbPipeline.Drain.read IbPipeline.Drain.done { targetId } events

/-- What the paper drain keeps of the drain of IB. -/
def IbPipeline.Drain.toPaper (drain : IbPipeline.Drain) : PaperPipeline.Drain :=
  ⟨drain.targetId, drain.state, drain.fillEvent⟩

theorem IbPipeline.Drain.toPaper_read (drain : IbPipeline.Drain) (event : BrokerEvent) :
    (drain.read event).toPaper = drain.toPaper.read event := by
  cases event with
  | connection _ => rfl
  | account _ => rfl
  | order e =>
    by_cases hcid : e.val.clientOrderId = drain.targetId
    · simp only [IbPipeline.Drain.read, PaperPipeline.Drain.read, BrokerEvent.order?,
        IbPipeline.Drain.toPaper, hcid, ne_eq, not_true_eq_false, if_false]
      unfold IbPipeline.Drain.observe PaperPipeline.Drain.observe
      cases e.val.kind <;> rfl
    · simp [IbPipeline.Drain.read, PaperPipeline.Drain.read, BrokerEvent.order?,
        IbPipeline.Drain.toPaper, hcid]

/-- The paper drain is the drain of IB without its flag. -/
theorem paper_drainOrderLifecycle_eq (targetId : ClientOrderId) (events : List BrokerEvent) :
    PaperPipeline.drainOrderLifecycle targetId events =
      (IbPipeline.drainOrderLifecycle targetId events).map fun result =>
        (result.1.toPaper, result.2) :=
  readUntil_map IbPipeline.Drain.toPaper IbPipeline.Drain.toPaper_read (fun _ => rfl)
    { targetId } events

namespace IbPipeline

/-- An event that the table allows moves the drain to the state of the table. -/
theorem Drain.observe_eq {drain : Drain} {event : OrderEvent} {next : OrderState}
    (h : Blive.observe drain.state event.val.kind = some next) :
    drain.observe event = {
      targetId := drain.targetId
      state := next
      fillEvent := if event.val.fill.isSome then some event else drain.fillEvent
      reachedAccepted := drain.reachedAccepted || event.val.kind.pastAcceptance } := by
  have hfill : event.val.fill.isSome = decide event.val.kind.needsFill :=
    Bool.eq_iff_iff.mpr (by simpa using OrderEvent.isSome_fill_iff event)
  rw [hfill]
  revert h
  unfold Drain.observe
  obtain ⟨targetId, state, fillEvent, reachedAccepted⟩ := drain
  cases event.val.kind <;> cases state <;>
    simp only [Blive.observe, triggerOf, transitions] <;>
    intro hnext <;> cases hnext <;>
    simp [OrderEventKind.needsFill, OrderEventKind.pastAcceptance]

/-- The last fill of what is to come, or else of this event, or else an earlier one. -/
theorem lastFill_cons_or (event : OrderEvent) (rest : List OrderEvent)
    (earlier : Option OrderEvent) :
    (lastFill (event :: rest)).or earlier =
      (lastFill rest).or (if event.val.fill.isSome then some event else earlier) := by
  unfold lastFill
  rw [List.filter_cons]
  split
  · rw [List.getLast?_cons]
    cases (rest.filter fun event => event.val.fill.isSome).getLast? <;> rfl
  · rfl

/-- Where the unread events of the order are those of a path to a terminal state, the drain stops
at the last of them. -/
theorem readUntil_path {cid : ClientOrderId} {calls : List TransitionCall} {path : FsmPath}
    {stream : List BrokerEvent} (drain : Drain) (hstate : drain.state ≠ .initialized)
    (hopen : isTerminal drain.state = false) (htarget : drain.targetId = cid)
    (hpath : foldTransition cid drain.state calls = .ok path) (hterminal : isTerminal path.final)
    (hevents : path.events <+: orderEventsOf cid stream) :
    ∃ read last rest, stream = read ++ .order last :: rest ∧
      orderEventsOf cid (read ++ [.order last]) = path.events ∧
      last.val.clientOrderId = cid ∧
      readUntil Drain.read Drain.done drain stream =
        some (⟨cid, path.final, (lastFill path.events).or drain.fillEvent,
          drain.reachedAccepted ||
            path.events.any fun event => event.val.kind.pastAcceptance⟩, rest) := by
  induction stream generalizing drain calls path with
  | nil =>
    have hnone : path.events = [] := List.prefix_nil.mp hevents
    cases calls with
    | nil =>
      cases hpath
      rw [hopen] at hterminal
      cases hterminal
    | cons call rest =>
      obtain ⟨next, event, tail, hcall, -, rfl⟩ := foldTransition_cons_eq_ok_iff.mp hpath
      obtain ⟨-, e, rfl, -⟩ := apply_emits hstate hcall
      simp at hnone
  | cons event stream ih =>
    by_cases hown : ∃ e, event = .order e ∧ e.val.clientOrderId = cid
    · obtain ⟨e, rfl, hcid⟩ := hown
      cases calls with
      | nil =>
        cases hpath
        rw [hopen] at hterminal
        cases hterminal
      | cons call rest =>
        obtain ⟨next, _, tail, hcall, htail, heq⟩ := foldTransition_cons_eq_ok_iff.mp hpath
        obtain ⟨hnext, e', rfl, -, hobserve⟩ := apply_emits hstate hcall
        have hfinal : path.final = tail.final := by rw [heq]
        have hemits : path.events = e' :: tail.events := by rw [heq]; rfl
        have hsplit : orderEventsOf cid (.order e :: stream) = e :: orderEventsOf cid stream := by
          rw [← List.singleton_append, orderEventsOf_append, orderEventsOf_order, if_pos hcid]
          rfl
        rw [hsplit, hemits] at hevents
        obtain ⟨rfl, hrest⟩ := List.cons_prefix_cons.mp hevents
        have hread : drain.read (.order e') = ⟨cid, next,
            if e'.val.fill.isSome then some e' else drain.fillEvent,
            drain.reachedAccepted || e'.val.kind.pastAcceptance⟩ := by
          have hown : drain.read (.order e') = drain.observe e' := by
            simp [Drain.read, BrokerEvent.order?, hcid, htarget]
          rw [hown, Drain.observe_eq hobserve, htarget]
        have hstate' : (drain.read (.order e')).state = next := by rw [hread]
        rw [hfinal, hemits, lastFill_cons_or, List.any_cons, ← Bool.or_assoc]
        by_cases hend : isTerminal next = true
        · -- The path ends with this event, and so does the loop.
          obtain rfl := foldTransition_terminal hend htail
          have hdone : (drain.read (.order e')).done = true := by rw [Drain.done, hstate', hend]
          refine ⟨[], e', stream, rfl, ?_, hcid, ?_⟩
          · simp [hcid]
          · rw [readUntil, hdone, if_pos rfl, hread]
            simp [lastFill]
        · have hend : isTerminal next = false := Bool.eq_false_iff.mpr hend
          have hdone : (drain.read (.order e')).done = false := by rw [Drain.done, hstate', hend]
          rw [← hstate'] at hnext htail
          have htarget' : (drain.read (.order e')).targetId = cid := by rw [hread]
          obtain ⟨read, last, rest, rfl, hall, hlast, hloop⟩ :=
            ih _ hnext hdone htarget' htail (hfinal ▸ hterminal) hrest
          refine ⟨.order e' :: read, last, rest, rfl, ?_, hlast, ?_⟩
          · rw [List.cons_append, ← List.singleton_append, orderEventsOf_append,
              orderEventsOf_order, if_pos hcid, hall]
            rfl
          · rw [readUntil, hdone, if_neg (by simp), hloop, hread]
    · have hskip : orderEventsOf cid [event] = [] := by
        cases event with
        | order e => rw [orderEventsOf_order, if_neg fun hcid => hown ⟨e, rfl, hcid⟩]
        | connection _ => rfl
        | account _ => rfl
      have hread : drain.read event = drain := by
        cases event with
        | order e =>
          have hcid : e.val.clientOrderId ≠ drain.targetId := by
            rw [htarget]
            exact fun hcid => hown ⟨e, rfl, hcid⟩
          simp [Drain.read, BrokerEvent.order?, hcid]
        | connection _ => rfl
        | account _ => rfl
      rw [← List.singleton_append, orderEventsOf_append, hskip, List.nil_append] at hevents
      obtain ⟨read, last, rest, rfl, hall, hlast, hloop⟩ :=
        ih drain hstate hopen htarget hpath hterminal hevents
      refine ⟨event :: read, last, rest, rfl, ?_, hlast, ?_⟩
      · rw [List.cons_append, ← List.singleton_append, orderEventsOf_append, hskip, hall,
          List.nil_append]
      · rw [readUntil, hread, Drain.done, hopen]
        exact hloop

/-- The drain of the pipeline is this loop: taking event after event off the queue leads to
`settle` with the outcome of the loop, and leaves the same events unread. -/
theorem run_drain (loop : RebalanceLoop) (policy : RoundingPolicy) {s : State} {work : Work}
    {drain final : Drain} {rest : List BrokerEvent} (htask : s.task = .inDrain work drain)
    (hread : readUntil Drain.read Drain.done drain s.queue = some (final, rest)) :
    ∃ cursor before, s.broker.events.drop cursor = rest ∧
      Transition.run (step loop policy) s
          (List.replicate (s.queue.length - rest.length) .getEvent) =
        some (loop.settle { s with cursor, task := .inDrain work before } work final) := by
  have hs : s = { s with cursor := s.cursor, task := .inDrain work drain } := by rw [← htask]
  have hevents : s.broker.events.drop s.cursor = s.queue := rfl
  rw [hs]
  refine run_readUntil (fun cursor drain => { s with cursor, task := .inDrain work drain })
    (fun cursor before final =>
      loop.settle { s with cursor, task := .inDrain work before } work final) ?_ ?_ hevents hread
  · intro cursor drain event hhead hdone
    simp only [step, hhead, hdone, if_false, Bool.false_eq_true]
  · intro cursor drain event hhead hdone
    simp only [step, hhead, hdone, if_true]

end IbPipeline

namespace PaperPipeline

/-- The drain of the paper pipeline is this loop, too. -/
theorem run_drain (loop : PaperLoop) {s : State} {work : Work} {drain final : Drain}
    {rest : List BrokerEvent} (htask : s.task = .inDrain work drain)
    (hread : readUntil Drain.read Drain.done drain s.queue = some (final, rest)) :
    ∃ cursor before, s.broker.events.drop cursor = rest ∧
      Transition.run (step loop) s (List.replicate (s.queue.length - rest.length) .getEvent) =
        some (loop.settle { s with cursor, task := .inDrain work before } work final) := by
  have hs : s = { s with cursor := s.cursor, task := .inDrain work drain } := by rw [← htask]
  have hevents : s.broker.events.drop s.cursor = s.queue := rfl
  rw [hs]
  refine run_readUntil (fun cursor drain => { s with cursor, task := .inDrain work drain })
    (fun cursor before final =>
      loop.settle { s with cursor, task := .inDrain work before } work final) ?_ ?_ hevents hread
  · intro cursor drain event hhead hdone
    simp only [step, hhead, hdone, if_false, Bool.false_eq_true]
  · intro cursor drain event hhead hdone
    simp only [step, hhead, hdone, if_true]

end PaperPipeline

/-! ## The agreement -/

/-- Both drains stop at the last event of the path, with its last state and its last fill, and
the drain of IB knows whether the path visits ACCEPTED. -/
theorem drains_agree {cid : ClientOrderId} {calls : List TransitionCall} {path : FsmPath}
    {stream : List BrokerEvent} (hpath : foldTransition cid .submitPending calls = .ok path)
    (hterminal : isTerminal path.final) (hevents : path.events <+: orderEventsOf cid stream) :
    ∃ read last rest paper ib, stream = read ++ .order last :: rest ∧
      path.events.getLast? = some last ∧
      orderEventsOf cid (read ++ [.order last]) = path.events ∧
      PaperPipeline.drainOrderLifecycle cid stream = some (paper, rest) ∧
      IbPipeline.drainOrderLifecycle cid stream = some (ib, rest) ∧
      (paper.state = path.final ∧ ib.state = path.final) ∧
      (paper.fillEvent = lastFill path.events ∧ ib.fillEvent = lastFill path.events) ∧
      (ib.reachedAccepted = true ↔ .accepted ∈ path.states) := by
  have hstart : OrderState.submitPending ≠ .initialized := by decide
  have hopen : isTerminal .submitPending = false := by decide
  obtain ⟨read, last, rest, hstream, hall, hlast, hloop⟩ :=
    IbPipeline.readUntil_path { targetId := cid } hstart hopen rfl hpath hterminal hevents
  have hpaper := paper_drainOrderLifecycle_eq cid stream
  rw [IbPipeline.drainOrderLifecycle, hloop] at hpaper
  have haccepted := any_pastAcceptance hpath hstart
  refine ⟨read, last, rest, _, _, hstream, ?_, hall, hpaper, hloop, ⟨rfl, rfl⟩,
    ⟨Option.or_none, Option.or_none⟩, ?_⟩
  · rw [← hall, orderEventsOf_append, orderEventsOf_order, if_pos hlast]
    simp
  · rw [Bool.false_or]
    constructor
    · intro hany
      exact (haccepted.1 hany).resolve_left (by decide)
    · intro hmem
      exact (haccepted.2 hmem).resolve_left (by decide)

/-- Ten shares at a price of 100. -/
def tenShares : Fill :=
  ⟨⟨1, "7", "0001", sampleInstrument, .buy, 10, 100, 0, "EUR", ⟨0, some 0⟩⟩, by decide +kernel⟩

def filledPath : FsmPath where
  final := .filled
  states := [.submitPending, .submitted, .accepted, .filled]
  events := [.plain 1 (some "7") .submitted ⟨0⟩ submitted_plain,
    .plain 1 (some "7") .accepted ⟨0⟩ accepted_plain,
    .withFill 1 (some "7") .filled tenShares ⟨0⟩ filled_needsFill]

/-- The events of the path, with a connection event and an event of another order between them. -/
def filledStream : List BrokerEvent :=
  [.connection ⟨true, "", ⟨0⟩⟩, .order (.plain 1 (some "7") .submitted ⟨0⟩ submitted_plain),
    .order (.plain 2 (some "8") .accepted ⟨0⟩ accepted_plain),
    .order (.plain 1 (some "7") .accepted ⟨0⟩ accepted_plain),
    .order (.withFill 1 (some "7") .filled tenShares ⟨0⟩ filled_needsFill),
    .connection ⟨false, "", ⟨0⟩⟩]

theorem drains_agree_filled : ∃ rest paper ib,
    PaperPipeline.drainOrderLifecycle 1 filledStream = some (paper, rest) ∧
      IbPipeline.drainOrderLifecycle 1 filledStream = some (ib, rest) ∧
      (paper.state = .filled ∧ ib.state = .filled) ∧
      (paper.fillEvent = lastFill filledPath.events ∧ ib.fillEvent = lastFill filledPath.events) ∧
      (ib.reachedAccepted = true ↔ .accepted ∈ filledPath.states) := by
  have hpath : foldTransition 1 .submitPending
      [⟨.wireAck, ⟨0, some 0⟩, some "7", none, none⟩,
        ⟨.accept, ⟨0, some 0⟩, some "7", none, none⟩,
        ⟨.fill, ⟨0, some 0⟩, some "7", some tenShares, none⟩] = .ok filledPath := by
    decide +kernel
  have hevents : filledPath.events <+: orderEventsOf 1 filledStream := by decide +kernel
  obtain ⟨_, _, rest, paper, ib, -, -, -, hdrains⟩ := drains_agree hpath (by decide) hevents
  exact ⟨rest, paper, ib, hdrains⟩

end Blive
