import Blive.Adapters.Ib.Proofs.Trace

/-!
# The error stash

Errors are stashed under their request id by a channel of its own, and popped when the terminal
event of their order is emitted. An error that is pushed after that is never popped again. The
stash is clean of finished orders exactly as long as no error comes late, and is then bounded by
the live orders and the request ids that are no orders.
-/

namespace Blive.IBSystem

open Transition IBBroker

/-- The handlers have closed the order. -/
def closed (b : IBBroker) (cid : ClientOrderId) : Bool :=
  (b.orderTracking.get? cid).any (·.terminalEmitted)

/-- The task is a deferred rejection that will pop the errors of the order. -/
def pops (orderId : Int) : Job → Bool
  | .put _ => false
  | .emitRejectedViaInactive _ _ o => o = orderId

/-- The order is closed and nothing is left that would pop its errors. -/
def Over (b : IBBroker) (p : PlacedOrder) : Prop :=
  closed b p.cid = true ∧ b.ready.any (pops p.orderId) = false

instance (b : IBBroker) (p : PlacedOrder) : Decidable (Over b p) :=
  inferInstanceAs (Decidable (_ ∧ _))

/-- `ib_async` fires the events of a trade with that trade. -/
def Wired (s : IBSystem) : Action → Prop
  | .statusEvent cid trade _ | .fillEvent cid trade _ _ =>
      ∀ p ∈ s.placed, p.cid = cid → p.orderId = trade.orderId
  | _ => True

instance (s : IBSystem) (a : Action) : Decidable (Wired s a) :=
  match a with
  | .statusEvent _ _ _ | .fillEvent _ _ _ _ =>
      inferInstanceAs (Decidable (∀ p ∈ s.placed, p.cid = _ → p.orderId = _))
  | .connect _ | .disconnect _ | .submit _ | .priceRules _ _ _ | .acquired _ _ _
  | .errorEvent _ _ _ | .tick _ _ _ => isTrue trivial

/-- The request ids of the errors that were pushed. -/
def reqIds (as : List Action) : List Int :=
  as.filterMap fun
    | .errorEvent reqId _ _ => some reqId
    | _ => none

theorem reqIds_append (as bs : List Action) : reqIds (as ++ bs) = reqIds as ++ reqIds bs :=
  List.filterMap_append

/-- A submission goes on only while no event of its id went out, and no error is pushed for an
order that is over. -/
def NoLateError (s : IBSystem) (a : Action) : Prop :=
  (∀ call ∈ s.emittingCall a, kindsOf call.cid s.broker.events = []) ∧
    match a with
    | .errorEvent reqId _ _ => 0 < reqId → ∀ p ∈ s.placed, p.orderId = reqId → ¬ Over s.broker p
    | _ => True

instance (s : IBSystem) (a : Action) : Decidable (NoLateError s a) := by
  unfold NoLateError
  exact match a with
    | .errorEvent _ _ _ => inferInstanceAs (Decidable (_ ∧ (_ → ∀ p ∈ s.placed, _ → ¬ Over _ p)))
    | .connect _ | .disconnect _ | .submit _ | .priceRules _ _ _ | .acquired _ _ _
    | .statusEvent _ _ _ | .fillEvent _ _ _ _ | .tick _ _ _ =>
        inferInstanceAs (Decidable (_ ∧ True))

/-- What holds of a system in which no error came late. -/
structure StashOk (s : IBSystem) : Prop where
  untracked : ∀ cid, s.broker.orderTracking.get? cid = none → pendingKinds cid s.broker.ready = []
  tracked : ∀ cid, s.broker.orderTracking.get? cid ≠ none → kindsOf cid s.broker.events ≠ []
  live : ∀ cid tracking, s.broker.orderTracking.get? cid = some tracking →
    tracking.terminalEmitted = false → ∀ kind ∈ trace cid s.broker, kind.isTerminal = false
  placed : ∀ p ∈ s.placed, s.broker.orderTracking.get? p.cid ≠ none
  clean : ∀ p ∈ s.placed, Over s.broker p → s.broker.errorByOrderId.get? p.orderId = none

theorem StashOk.init : StashOk init where
  untracked _ _ := rfl
  tracked _ h := absurd rfl h
  live := by
    intro cid tracking h
    cases h
  placed := by simp [IBSystem.init]
  clean := by simp [IBSystem.init]

/-! ## What the handlers do to the stash -/

theorem onOrderStatus_stash (b : IBBroker) (cid : ClientOrderId) (trade : Trade) (now : Utc) :
    (trade.status ∉ cancelledStatuses →
        (b.onOrderStatus cid trade now).errorByOrderId = b.errorByOrderId) ∧
      ∀ tracking, b.orderTracking.get? cid = some tracking → tracking.terminalEmitted = false →
        trade.status ∈ cancelledStatuses →
          (b.onOrderStatus cid trade now).errorByOrderId =
            b.errorByOrderId.erase trade.orderId := by
  unfold onOrderStatus
  constructor
  · intro hstatus
    cases b.orderTracking.get? cid with
    | none => rfl
    | some tracking =>
      dsimp only
      split_ifs <;> rfl
  · intro tracking htracking hlive hstatus
    have haccepted : trade.status ∉ acceptedStatuses := fun h =>
      not_closingStatus_of_accepted h (.inl hstatus)
    simp only [htracking, hlive, haccepted, hstatus, false_and, if_false, if_true,
      Bool.false_eq_true]
    rfl

theorem acceptFirstFill_stash (b : IBBroker) (cid : ClientOrderId) (tracking : OrderTrackingState)
    (execId : String) (trade : Trade) (now : Utc) :
    let seen := { tracking with seenExecIds := insert execId tracking.seenExecIds }
    ((b.setTracking cid seen).acceptFirstFill cid seen trade now).1.errorByOrderId =
      b.errorByOrderId := by
  unfold acceptFirstFill
  dsimp only
  split <;> rfl

/-- A fill push pops the errors of its order or leaves the stash and the order's end alone. -/
theorem onOrderFill_stash (b : IBBroker) (cid : ClientOrderId) (trade : Trade) (fill : IbFill)
    (now : Utc) :
    (b.onOrderFill cid trade fill now).1.errorByOrderId = b.errorByOrderId.erase trade.orderId ∨
      ((b.onOrderFill cid trade fill now).1.errorByOrderId = b.errorByOrderId ∧
        closed (b.onOrderFill cid trade fill now).1 cid = closed b cid) := by
  unfold onOrderFill
  cases htracked : b.orderTracking.get? cid with
  | none => exact .inr ⟨rfl, rfl⟩
  | some tracking =>
    dsimp only
    by_cases hlive : tracking.terminalEmitted = true
    · rw [if_pos hlive]
      exact .inr ⟨rfl, rfl⟩
    rw [if_neg hlive]
    cases fill.execution with
    | none => exact .inr ⟨rfl, rfl⟩
    | some execution =>
      dsimp only
      by_cases hnamed : execution.execId = ""
      · rw [if_pos hnamed]
        exact .inr ⟨rfl, rfl⟩
      rw [if_neg hnamed]
      by_cases hseen : execution.execId ∈ tracking.seenExecIds
      · rw [if_pos hseen]
        exact .inr ⟨rfl, rfl⟩
      rw [if_neg hseen]
      have hstash := acceptFirstFill_stash b cid tracking execution.execId trade now
      obtain ⟨b', haccept, heffect⟩ :=
        acceptFirstFill_spec b cid tracking execution.execId trade now
      dsimp only at hstash
      rw [haccept] at hstash ⊢
      dsimp only at hstash ⊢
      have hclosed : closed b cid = false := by simp [closed, htracked, hlive]
      cases Frozen.make (fillFields (seeExecution tracking execution.execId) cid trade execution
          fill now) with
      | error e =>
        refine .inr ⟨hstash, ?_⟩
        rw [hclosed, closed, heffect.tracking, if_pos rfl]
        simpa [seeExecution] using hlive
      | ok bliveFill =>
        dsimp only
        unfold emitFill
        dsimp only
        split
        · left
          rw [← hstash]
          rfl
        · refine .inr ⟨hstash, ?_⟩
          rw [hclosed]
          simpa [closed, setTracking, createTask, seeExecution] using hlive

/-! ## The invariant -/

section Handled

variable {s : IBSystem} {b : IBBroker} {cid : ClientOrderId}

/-- A handler that moves one live order: it pops the errors of the order, or leaves the stash
alone and, if it closes the order, leaves a task that will pop them. -/
theorem StashOk.handled {tracking tracking' : OrderTrackingState} {jobs : List Job} (orderId : Int)
    (hs : StashOk s) (htracked : s.broker.orderTracking.get? cid = some tracking)
    (hlive : tracking.terminalEmitted = false) (heffect : Handled cid tracking' jobs s.broker b)
    (hother : ∀ c, c ≠ cid → pendingKinds c jobs = [])
    (hkinds : tracking'.terminalEmitted = false →
      ∀ kind ∈ pendingKinds cid jobs, kind.isTerminal = false)
    (hstash : b.errorByOrderId = s.broker.errorByOrderId.erase orderId ∨
      (b.errorByOrderId = s.broker.errorByOrderId ∧
        (tracking'.terminalEmitted = true → jobs.any (pops orderId) = true)))
    (hwired : ∀ p ∈ s.placed, p.cid = cid → p.orderId = orderId) :
    StashOk { s with broker := b } := by
  have htrace (c : ClientOrderId) : trace c b = trace c s.broker ++ pendingKinds c jobs := by
    simp [trace, heffect.events, heffect.ready]
  have hclosed (c : ClientOrderId) :
      closed b c = if c = cid then tracking'.terminalEmitted else closed s.broker c := by
    rw [closed, heffect.tracking]
    split <;> rfl
  refine ⟨?_, ?_, ?_, ?_, ?_⟩
  · intro c hc
    rw [heffect.tracking] at hc
    by_cases heq : c = cid
    · rw [if_pos heq] at hc
      cases hc
    · rw [if_neg heq] at hc
      rw [heffect.ready, pendingKinds_append, hs.untracked c hc, hother c heq]
      rfl
  · intro c hc
    rw [heffect.tracking] at hc
    rw [heffect.events]
    by_cases heq : c = cid
    · exact heq ▸ hs.tracked cid (by simp [htracked])
    · rw [if_neg heq] at hc
      exact hs.tracked c hc
  · intro c t hc ht kind hkind
    rw [heffect.tracking] at hc
    rw [htrace, List.mem_append] at hkind
    by_cases heq : c = cid
    · rw [if_pos heq] at hc
      cases hc
      subst heq
      rcases hkind with hkind | hkind
      · exact hs.live c tracking htracked hlive kind hkind
      · exact hkinds ht kind hkind
    · rw [if_neg heq] at hc
      rw [hother c heq] at hkind
      exact hs.live c t hc ht kind (hkind.resolve_right (by simp))
  · intro p hp
    rw [heffect.tracking]
    split
    · simp
    · exact hs.placed p hp
  · rintro p hp ⟨hover, hready⟩
    rw [heffect.ready, List.any_append, Bool.or_eq_false_iff] at hready
    rw [hclosed] at hover
    by_cases heq : p.cid = cid
    · rw [if_pos heq] at hover
      rw [hwired p hp heq] at hready ⊢
      rcases hstash with hstash | ⟨-, hpops⟩
      · simp [hstash]
      · rw [hpops hover] at hready
        exact absurd hready.2 (by decide)
    · rw [if_neg heq] at hover
      have hclean := hs.clean p hp ⟨hover, hready.1⟩
      rcases hstash with hstash | ⟨hstash, -⟩
      · simp [hstash, hclean]
      · rw [hstash]
        exact hclean

/-- What is put on the queue for an id that has no events. -/
theorem StashOk.noEvents (hs : StashOk s) (h : kindsOf cid s.broker.events = []) :
    s.broker.orderTracking.get? cid = none ∧ pendingKinds cid s.broker.ready = [] := by
  have hnone : s.broker.orderTracking.get? cid = none := by
    by_contra hne
    exact hs.tracked cid hne h
  exact ⟨hnone, hs.untracked cid hnone⟩

end Handled

section Handlers

variable {s : IBSystem} {cid : ClientOrderId} {trade : Trade} {now : Utc}

theorem acceptedEvent_kinds (c : ClientOrderId) :
    pendingKinds c [.put (acceptedEvent cid trade now)] = if cid = c then [.accepted] else [] := by
  by_cases hc : cid = c <;>
    simp [pendingKinds_cons, jobKind, acceptedEvent, OrderEvent.plain, hc]

theorem StashOk.statusEvent (hs : StashOk s)
    (hwired : ∀ p ∈ s.placed, p.cid = cid → p.orderId = trade.orderId) :
    StashOk { s with broker := s.broker.onOrderStatus cid trade now } := by
  have heffect := onOrderStatus_effect s.broker cid trade now
  obtain ⟨hkeep, hpop⟩ := onOrderStatus_stash s.broker cid trade now
  generalize s.broker.onOrderStatus cid trade now = b' at heffect hkeep hpop ⊢
  cases heffect with
  | untracked h => exact hs
  | closed tracking h ht => exact hs
  | ignored tracking h ht hstatus => exact hs
  | accepted tracking _ h ht ha hstatus heffect =>
    refine hs.handled trade.orderId h ht heffect ?_ ?_ (.inr ⟨?_, ?_⟩) hwired
    · intro c hc
      rw [acceptedEvent_kinds, if_neg (Ne.symm hc)]
    · intro _ kind hkind
      rw [acceptedEvent_kinds, if_pos rfl, List.mem_singleton] at hkind
      rw [hkind]
      rfl
    · exact hkeep fun hcancelled => hstatus (.inl hcancelled)
    · simp [ht]
  | cancelled tracking _ h ht hstatus heffect =>
    have hcid := cancelledEvent_clientOrderId cid trade now tracking.acceptedEmitted
    refine hs.handled trade.orderId h ht heffect ?_ (by simp)
      (.inl (hpop tracking h ht hstatus)) hwired
    intro c hc
    simp [pendingKinds_cons, jobKind, hcid, Ne.symm hc]
  | inactive tracking _ h ht hstatus heffect =>
    refine hs.handled trade.orderId h ht heffect ?_ (by simp) (.inr ⟨?_, ?_⟩) hwired
    · intro c hc
      simp [pendingKinds_cons, jobKind, Ne.symm hc]
    · apply hkeep
      rw [hstatus]
      decide
    · simp [pops]

theorem acceptJobs_live {tracking : OrderTrackingState} (kind : OrderEventKind)
    (h : kind ∈ pendingKinds cid (acceptJobs tracking cid trade now)) :
    kind.isTerminal = false := by
  unfold acceptJobs at h
  split at h
  · cases h
  · rw [acceptedEvent_kinds, if_pos rfl, List.mem_singleton] at h
    rw [h]
    rfl

theorem StashOk.fillEvent {fill : IbFill} (hs : StashOk s)
    (hwired : ∀ p ∈ s.placed, p.cid = cid → p.orderId = trade.orderId) :
    StashOk { s with broker := (s.broker.onOrderFill cid trade fill now).1 } := by
  have heffect := onOrderFill_effect s.broker cid trade fill now
  have hstash := onOrderFill_stash s.broker cid trade fill now
  generalize (s.broker.onOrderFill cid trade fill now).1 = b' at heffect hstash ⊢
  -- A fill that closes its order has popped the errors.
  have hpopped {tracking : OrderTrackingState} {jobs : List Job}
      (h : s.broker.orderTracking.get? cid = some tracking)
      (hlive : tracking.terminalEmitted = false) {tracking' : OrderTrackingState}
      (heffect : Handled cid tracking' jobs s.broker b') :
      b'.errorByOrderId = s.broker.errorByOrderId.erase trade.orderId ∨
        (b'.errorByOrderId = s.broker.errorByOrderId ∧
          (tracking'.terminalEmitted = true → jobs.any (pops trade.orderId) = true)) := by
    refine hstash.imp_right (And.imp_right ?_)
    intro hclosed hterminal
    rw [closed, closed, heffect.tracking, if_pos rfl, h] at hclosed
    simp [hterminal, hlive] at hclosed
  cases heffect with
  | untracked h => exact hs
  | closed tracking h ht => exact hs
  | noExecId tracking h ht hx => exact hs
  | seen tracking execution h ht hx hid hseen => exact hs
  | raised tracking execution e _ h ht hx hid hnew hfill heffect =>
    refine hs.handled trade.orderId h ht heffect ?_ ?_ (hpopped h ht heffect) hwired
    · exact fun c hc => pendingKinds_acceptJobs_of_ne hc
    · exact fun _ kind hkind => acceptJobs_live kind hkind
  | emitted tracking execution bliveFill _ h ht hx hid hnew hfill heffect =>
    have hcid : (IBBroker.fillEvent tracking cid trade bliveFill now).val.clientOrderId = cid := by
      unfold IBBroker.fillEvent
      split <;> rfl
    refine hs.handled trade.orderId h ht heffect ?_ ?_ (hpopped h ht heffect) hwired
    · intro c hc
      rw [pendingKinds_append, pendingKinds_acceptJobs_of_ne hc, pendingKinds_cons]
      simp [jobKind, hcid, Ne.symm hc]
    · intro hworking kind hkind
      have hpartial : ¬ tracking.cumulativeFilled + bliveFill.val.quantity ≥
          tracking.totalQuantity := by
        simpa [countFill, seeExecution] using hworking
      rw [pendingKinds_append, List.mem_append] at hkind
      rcases hkind with hkind | hkind
      · exact acceptJobs_live kind hkind
      · simp only [pendingKinds_cons, jobKind, hcid, if_true, Option.toList_some,
          pendingKinds_nil, List.append_nil, List.mem_singleton] at hkind
        rw [hkind, IBBroker.fillEvent, if_neg hpartial]
        rfl

end Handlers

section Steps

variable {policy : RoundingPolicy} {s t : IBSystem}

/-- Only the broker and what is placed matter. -/
theorem StashOk.of_broker (hs : StashOk s) (hplaced : t.placed = s.placed)
    (hbroker : t.broker = s.broker) : StashOk t := by
  refine ⟨?_, ?_, ?_, ?_, ?_⟩ <;> rw [hbroker]
  · exact hs.untracked
  · exact hs.tracked
  · exact hs.live
  · rw [hplaced]
    exact hs.placed
  · rw [hplaced]
    exact hs.clean

/-- A step that starts no order. -/
theorem StashOk.congr (hs : StashOk s) (hplaced : t.placed = s.placed)
    (htracking : t.broker.orderTracking = s.broker.orderTracking)
    (hkinds : ∀ cid, kindsOf cid t.broker.events = [] → kindsOf cid s.broker.events = [])
    (hpending : ∀ cid, ∀ kind ∈ pendingKinds cid t.broker.ready,
      kind ∈ pendingKinds cid s.broker.ready)
    (htrace : ∀ cid, ∀ kind ∈ trace cid t.broker, kind ∈ trace cid s.broker)
    (hclean : ∀ p ∈ s.placed, Over t.broker p → t.broker.errorByOrderId.get? p.orderId = none) :
    StashOk t := by
  refine ⟨?_, ?_, ?_, ?_, ?_⟩
  · intro cid hcid
    rw [htracking] at hcid
    apply List.eq_nil_iff_forall_not_mem.mpr
    intro kind hkind
    have hold := hpending cid kind hkind
    rw [hs.untracked cid hcid] at hold
    cases hold
  · intro cid hcid hnil
    rw [htracking] at hcid
    exact hs.tracked cid hcid (hkinds cid hnil)
  · intro cid tracking hcid hlive kind hkind
    rw [htracking] at hcid
    exact hs.live cid tracking hcid hlive kind (htrace cid kind hkind)
  · rw [hplaced, htracking]
    exact hs.placed
  · rw [hplaced]
    exact hclean

/-- An event put on the queue directly, for an id that has none so far. -/
theorem StashOk.start (event : OrderEvent) (tracking : Option OrderTrackingState)
    (hs : StashOk s) (hfirst : kindsOf event.val.clientOrderId s.broker.events = [])
    (hevents : t.broker.events = s.broker.events ++ [.order event])
    (hready : t.broker.ready = s.broker.ready)
    (hstash : t.broker.errorByOrderId = s.broker.errorByOrderId)
    (htracking : ∀ c, t.broker.orderTracking.get? c =
      if c = event.val.clientOrderId then tracking else s.broker.orderTracking.get? c)
    (hlive : ∀ record, tracking = some record →
      record.terminalEmitted = false ∧ event.val.kind.isTerminal = false)
    (hplaced : ∀ p ∈ t.placed,
      p ∈ s.placed ∨ (p.cid = event.val.clientOrderId ∧ tracking ≠ none)) :
    StashOk t := by
  obtain ⟨hnone, hpending⟩ := hs.noEvents hfirst
  have hkinds (c : ClientOrderId) : kindsOf c t.broker.events =
      kindsOf c s.broker.events ++
        if event.val.clientOrderId = c then [event.val.kind] else [] := by
    rw [hevents, kindsOf_append, kindsOf_order]
  have hold {p : PlacedOrder} (hp : p ∈ s.placed) : p.cid ≠ event.val.clientOrderId := by
    intro heq
    exact hs.placed p hp (heq ▸ hnone)
  refine ⟨?_, ?_, ?_, ?_, ?_⟩
  · intro c hc
    rw [htracking] at hc
    rw [hready]
    by_cases heq : c = event.val.clientOrderId
    · rw [heq, hpending]
    · rw [if_neg heq] at hc
      exact hs.untracked c hc
  · intro c hc
    rw [hkinds]
    rw [htracking] at hc
    by_cases heq : event.val.clientOrderId = c
    · simp [heq]
    · rw [if_neg (Ne.symm heq)] at hc
      simp [hs.tracked c hc]
  · intro c record hc hrecord kind hkind
    rw [htracking] at hc
    rw [trace, hkinds, hready] at hkind
    by_cases heq : c = event.val.clientOrderId
    · subst heq
      rw [if_pos rfl] at hc
      rw [hfirst, hpending, if_pos rfl, List.nil_append, List.append_nil,
        List.mem_singleton] at hkind
      rw [hkind]
      exact (hlive record hc).2
    · rw [if_neg heq] at hc
      rw [if_neg (Ne.symm heq), List.append_nil] at hkind
      exact hs.live c record hc hrecord kind hkind
  · intro p hp
    rw [htracking]
    rcases hplaced p hp with hp | ⟨hcid, hsome⟩
    · rw [if_neg (hold hp)]
      exact hs.placed p hp
    · rwa [if_pos hcid]
  · rintro p hp ⟨hclosed, hpops⟩
    rw [hready] at hpops
    rw [closed, htracking] at hclosed
    rw [hstash]
    rcases hplaced p hp with hp | ⟨hcid, hsome⟩
    · rw [if_neg (hold hp)] at hclosed
      exact hs.clean p hp ⟨hclosed, hpops⟩
    · rw [if_pos hcid] at hclosed
      obtain ⟨record, hrecord⟩ := Option.ne_none_iff_exists'.mp hsome
      rw [hrecord, Option.any_some, (hlive record hrecord).1] at hclosed
      cases hclosed

/-- The next task runs: an event is put, or a deferred rejection waits or pops its errors. -/
theorem StashOk.tick {b : IBBroker} {log : List TradeLogEntry} {whyHeld : String} {now : Utc}
    (hs : StashOk s) (h : s.broker.tick log whyHeld now = some b) :
    StashOk { s with broker := b } := by
  unfold IBBroker.tick at h
  split at h
  · cases h
  · rename_i event rest hready
    cases h
    refine hs.congr rfl rfl ?_ ?_ ?_ ?_
    · intro cid hnil
      simp only [put, kindsOf_append, List.append_eq_nil_iff] at hnil
      exact hnil.1
    · intro cid kind hkind
      rw [hready, pendingKinds_cons]
      exact List.mem_append_right _ hkind
    · intro cid kind hkind
      simp only [trace, put, kindsOf_append, kindsOf_order] at hkind
      rw [trace, hready, pendingKinds_cons, jobKind]
      split_ifs at hkind ⊢ <;> simpa using hkind
    · rintro p hp ⟨hclosed, hpops⟩
      have hrest : rest.any (pops p.orderId) = false := hpops
      exact hs.clean p hp ⟨hclosed, by simpa [hready, pops] using hrest⟩
  · rename_i yields cid orderId rest hready
    cases h
    refine hs.congr rfl rfl (fun _ hnil => hnil) ?_ ?_ ?_
    · intro c kind hkind
      simp only [createTask, pendingKinds_append, pendingKinds_cons, pendingKinds_nil, jobKind,
        List.append_nil, List.mem_append] at hkind
      rw [hready, pendingKinds_cons, jobKind, List.mem_append]
      exact hkind.symm
    · intro c kind hkind
      simp only [trace, createTask, pendingKinds_append, pendingKinds_cons, pendingKinds_nil,
        jobKind, List.append_nil, List.mem_append] at hkind
      simp only [trace, hready, pendingKinds_cons, jobKind, List.mem_append]
      exact hkind.imp_right Or.symm
    · rintro p hp ⟨hclosed, hpops⟩
      refine hs.clean p hp ⟨hclosed, ?_⟩
      simp only [createTask, List.any_append, List.any_cons, List.any_nil, Bool.or_false,
        Bool.or_eq_false_iff] at hpops
      simp [hready, hpops.1, show pops p.orderId (.emitRejectedViaInactive (yields + 1) cid orderId)
        = false from hpops.2]
  · rename_i cid orderId rest hready
    cases h
    refine hs.congr rfl rfl ?_ ?_ ?_ ?_
    · intro c hnil
      simp only [emitRejected, put, popError, kindsOf_append, List.append_eq_nil_iff] at hnil
      exact hnil.1
    · intro c kind hkind
      rw [hready, pendingKinds_cons]
      exact List.mem_append_right _ hkind
    · intro c kind hkind
      simp only [trace, emitRejected, put, popError, kindsOf_append, kindsOf_order,
        OrderEvent.withReason] at hkind
      rw [trace, hready, pendingKinds_cons, jobKind]
      split_ifs at hkind ⊢ <;> simpa using hkind
    · rintro p hp ⟨hclosed, hpops⟩
      change (s.broker.errorByOrderId.erase orderId).get? p.orderId = none
      rw [Dict.get?_erase]
      split
      · rfl
      · rename_i hne
        refine hs.clean p hp ⟨hclosed, ?_⟩
        have hrest : rest.any (pops p.orderId) = false := hpops
        simp [hready, hrest, pops, Ne.symm hne]

theorem StashOk.step {a : Action} (hs : StashOk s) (hwired : Wired s a) (ha : NoLateError s a)
    (h : IBSystem.step policy s a = some t) : StashOk t := by
  cases a with
  | connect now =>
    cases h
    exact hs.congr rfl rfl (fun cid => by simp [IBBroker.connect, IBBroker.put])
      (fun cid kind hkind => hkind) (fun cid => by simp [trace, IBBroker.connect, IBBroker.put])
      hs.clean
  | disconnect now =>
    cases h
    exact hs.congr rfl rfl (fun cid => by simp [IBBroker.disconnect, IBBroker.put])
      (fun cid kind hkind => hkind)
      (fun cid => by simp [trace, IBBroker.disconnect, IBBroker.put]) (fun _ _ _ => rfl)
  | submit order =>
    cases h
    exact hs.of_broker rfl rfl
  | priceRules i result now =>
    obtain ⟨order, hcall, hplaced, ⟨text, rfl, hb⟩ | ⟨-, hb⟩⟩ := step_priceRules_cases h
    · have hfirst := ha.1 ⟨order, .priceRules⟩ (by simp [emittingCall, hcall])
      have hnone := (hs.noEvents hfirst).1
      refine hs.start (priceRuleRejection order text now) none hfirst (by rw [hb]; rfl)
        (by rw [hb]; rfl) (by rw [hb]; rfl) (get?_priceRuleRejection hb hnone) (by simp) ?_
      rw [hplaced]
      exact fun p hp => .inl hp
    · exact hs.of_broker hplaced hb
  | acquired i result now =>
    obtain ⟨order, contract, ibOrder, hcall, ⟨e, -, hb, hplaced⟩ | ⟨orderId, rfl, hb, hplaced⟩⟩ :=
      step_acquired_cases h
    · exact hs.of_broker hplaced hb
    · refine hs.start
        (.plain order.val.clientOrderId (venueOrderIdOf orderId) .submitted now submitted_plain)
        (some (newTracking ⟨order, contract, ibOrder, orderId⟩))
        (ha.1 ⟨order, .token contract ibOrder⟩ (by simp [emittingCall, hcall]))
        (by rw [hb]; rfl) (by rw [hb]; rfl) (by rw [hb]; rfl) ?_ ?_ ?_
      · intro c
        rw [hb]
        exact Dict.get?_set _ _ c _
      · intro record hrecord
        cases hrecord
        exact ⟨rfl, rfl⟩
      · intro p hp
        rw [hplaced, List.mem_append, List.mem_singleton] at hp
        rcases hp with hp | rfl
        · exact .inl hp
        · exact .inr ⟨rfl, by simp⟩
  | statusEvent cid trade now => cases h; exact hs.statusEvent hwired
  | fillEvent cid trade fill now => cases h; exact hs.fillEvent hwired
  | errorEvent reqId errorCode errorString =>
    cases h
    unfold onIbError
    split
    · exact hs
    · rename_i hpositive
      refine hs.congr rfl rfl (fun _ hnil => hnil) (fun _ _ hkind => hkind)
        (fun _ _ hkind => hkind) ?_
      intro p hp hover
      have hne : p.orderId ≠ reqId := fun heq => ha.2 (by omega) p hp heq hover
      rw [Dict.get?_set, if_neg hne]
      exact hs.clean p hp hover
  | tick log whyHeld now =>
    simp only [IBSystem.step, Option.map_eq_some_iff] at h
    obtain ⟨broker, htick, rfl⟩ := h
    exact hs.tick htick

/-- Every key of the stash was pushed as a request id. -/
theorem stash_pushed {past : List Action} {a : Action}
    (hs : ∀ k ∈ s.broker.errorByOrderId, k ∈ reqIds past)
    (h : IBSystem.step policy s a = some t) :
    ∀ k ∈ t.broker.errorByOrderId, k ∈ reqIds (past ++ [a]) := by
  have hkeep (hsub : ∀ k ∈ t.broker.errorByOrderId, k ∈ s.broker.errorByOrderId) :
      ∀ k ∈ t.broker.errorByOrderId, k ∈ reqIds (past ++ [a]) := by
    intro k hk
    rw [reqIds_append]
    exact List.mem_append_left _ (hs k (hsub k hk))
  have herased {b : IBBroker} {orderId : Int}
      (hb : b.errorByOrderId = s.broker.errorByOrderId.erase orderId) :
      ∀ k ∈ b.errorByOrderId, k ∈ s.broker.errorByOrderId := by
    intro k hk
    rw [hb, Dict.mem_erase] at hk
    exact hk.2
  cases a with
  | connect now => cases h; exact hkeep fun _ hk => hk
  | disconnect now =>
    cases h
    exact hkeep fun k hk => absurd hk (Dict.notMem_empty k)
  | submit order => cases h; exact hkeep fun _ hk => hk
  | priceRules i result now =>
    obtain ⟨order, -, -, ⟨text, -, hb⟩ | ⟨-, hb⟩⟩ := step_priceRules_cases h <;>
      exact hkeep (by rw [hb]; exact fun _ hk => hk)
  | acquired i result now =>
    obtain ⟨order, contract, ibOrder, -, ⟨e, -, hb, -⟩ | ⟨orderId, -, hb, -⟩⟩ :=
      step_acquired_cases h <;>
      exact hkeep (by rw [hb]; exact fun _ hk => hk)
  | statusEvent cid trade now =>
    cases h
    apply hkeep
    obtain ⟨hsame, hpop⟩ := onOrderStatus_stash s.broker cid trade now
    have heffect := onOrderStatus_effect s.broker cid trade now
    dsimp only
    generalize s.broker.onOrderStatus cid trade now = b' at heffect hsame hpop ⊢
    by_cases hstatus : trade.status ∈ cancelledStatuses
    · cases heffect with
      | untracked _ => exact fun _ hk => hk
      | closed _ _ _ => exact fun _ hk => hk
      | ignored _ _ _ _ => exact fun _ hk => hk
      | accepted _ _ _ _ _ hs' _ => exact absurd (.inl hstatus) hs'
      | cancelled tracking _ htracking hlive _ _ =>
        exact herased (hpop tracking htracking hlive hstatus)
      | inactive tracking _ htracking hlive _ _ =>
        exact herased (hpop tracking htracking hlive hstatus)
    · rw [hsame hstatus]
      exact fun _ hk => hk
  | fillEvent cid trade fill now =>
    cases h
    apply hkeep
    rcases onOrderFill_stash s.broker cid trade fill now with hstash | ⟨hstash, -⟩
    · exact herased hstash
    · dsimp only
      rw [hstash]
      exact fun _ hk => hk
  | errorEvent reqId errorCode errorString =>
    cases h
    intro k hk
    rw [reqIds_append, List.mem_append]
    unfold onIbError at hk
    split at hk
    · exact .inl (hs k hk)
    · rcases (Dict.mem_set _ _ _ _).mp hk with rfl | hk
      · exact .inr (by simp [reqIds])
      · exact .inl (hs k hk)
  | tick log whyHeld now =>
    simp only [IBSystem.step, Option.map_eq_some_iff] at h
    obtain ⟨broker, htick, rfl⟩ := h
    apply hkeep
    unfold IBBroker.tick at htick
    split at htick
    · cases htick
    · cases htick; exact fun _ hk => hk
    · cases htick; exact fun _ hk => hk
    · cases htick; exact herased rfl

end Steps

/-! ## Runs -/

/-- A terminal event of the order has gone out. -/
def Ended (s : IBSystem) (p : PlacedOrder) : Prop :=
  ∃ kind ∈ kindsOf p.cid s.broker.events, kind.isTerminal = true

instance (s : IBSystem) (p : PlacedOrder) : Decidable (Ended s p) :=
  inferInstanceAs (Decidable (∃ kind ∈ _, _))

def liveOrders (s : IBSystem) : List PlacedOrder := s.placed.filter fun p => ¬ Ended s p

/-- The pushed request ids that are the id of no order. -/
def otherRequests (s : IBSystem) (as : List Action) : List Int :=
  ((reqIds as).filter fun reqId => ∀ p ∈ s.placed, p.orderId ≠ reqId).dedup

/-- The stash holds no entry of an order that has ended, and so no more entries than there are
live orders and request ids of other kinds. -/
def StashBounded (as : List Action) (s : IBSystem) : Prop :=
  (∀ p ∈ s.placed, Ended s p → s.broker.errorByOrderId.get? p.orderId = none) ∧
    s.broker.errorByOrderId.length ≤ (liveOrders s).length + (otherRequests s as).length

instance (as : List Action) (s : IBSystem) : Decidable (StashBounded as s) :=
  inferInstanceAs (Decidable (_ ∧ _))

/-- With nothing left to run, an order that has ended is over. -/
theorem StashOk.over {s : IBSystem} (hs : StashOk s) (hready : s.broker.ready = [])
    {p : PlacedOrder} (hp : p ∈ s.placed) (hended : Ended s p) : Over s.broker p := by
  refine ⟨?_, by rw [hready]; rfl⟩
  obtain ⟨tracking, htracking⟩ := Option.ne_none_iff_exists'.mp (hs.placed p hp)
  rw [closed, htracking, Option.any_some]
  by_contra hlive
  obtain ⟨kind, hkind, hterminal⟩ := hended
  have hnone := hs.live p.cid tracking htracking (by simpa using hlive) kind
    (List.mem_append_left _ hkind)
  rw [hterminal] at hnone
  cases hnone

/-- In a run in which no error comes late, the stash is bounded whenever the tasks have run. -/
theorem errorStash_bounded (policy : RoundingPolicy) (as : List Action) (s : IBSystem)
    (hwired : Along (step policy) Wired init as) (hlate : Along (step policy) NoLateError init as)
    (hrun : run (step policy) init as = some s) (hready : s.broker.ready = []) :
    StashBounded as s := by
  have hstash : StashOk s :=
    run_invariant_along (I := StashOk)
      (fun _ _ _ hs ha h => hs.step ha.1 ha.2 h) StashOk.init (hwired.and hlate) hrun
  have hpushed : ∀ k ∈ s.broker.errorByOrderId, k ∈ reqIds as := by
    have hhistory : ∀ k ∈ s.broker.errorByOrderId, k ∈ reqIds ([] ++ as) :=
      run_invariant_history (I := fun past s => ∀ k ∈ s.broker.errorByOrderId, k ∈ reqIds past)
        (fun _ _ _ _ hs h => stash_pushed hs h) (fun k hk => absurd hk (Dict.notMem_empty k)) hrun
    simpa using hhistory
  have hended (p : PlacedOrder) (hp : p ∈ s.placed) (hend : Ended s p) :
      s.broker.errorByOrderId.get? p.orderId = none :=
    hstash.clean p hp (hstash.over hready hp hend)
  refine ⟨hended, ?_⟩
  have hsub : s.broker.errorByOrderId.keys ⊆
      (liveOrders s).map PlacedOrder.orderId ++ otherRequests s as := by
    intro k hk
    rw [List.mem_append]
    by_cases hplaced : ∃ p ∈ s.placed, p.orderId = k
    · obtain ⟨p, hp, rfl⟩ := hplaced
      refine .inl (List.mem_map.mpr ⟨p, List.mem_filter.mpr ⟨hp, ?_⟩, rfl⟩)
      by_contra hend
      have hnone := hended p hp (by simpa using hend)
      exact Dict.get?_eq_none_iff.mp hnone hk
    · refine .inr (List.mem_dedup.mpr (List.mem_filter.mpr ⟨hpushed k hk, ?_⟩))
      simpa using hplaced
  have hlength := (List.subperm_of_subset s.broker.errorByOrderId.nodup hsub).length_le
  simpa [Dict.length, Dict.keys] using hlength

/-- An order is canceled and the error that reports it arrives after the status. -/
def lateErrorRun : List Action :=
  [.connect ⟨0⟩, .submit (sampleOrder 1), .acquired 0 (.ok 7) ⟨1⟩,
    .statusEvent 1 { orderId := 7, status := "Cancelled" } ⟨2⟩, .tick [] "" ⟨3⟩,
    .errorEvent 7 202 "Order Canceled - reason:"]

theorem not_errorStash_bounded :
    ¬ ∀ (policy : RoundingPolicy) (as : List Action) (s : IBSystem),
      Along (step policy) Wired init as → run (step policy) init as = some s →
        s.broker.ready = [] → StashBounded as s := by
  intro h
  have hend : (run (step .nearest) init lateErrorRun).map (fun s =>
      (s.broker.ready, decide (StashBounded lateErrorRun s))) = some ([], false) := by
    decide +kernel
  obtain ⟨s, hrun, hs⟩ := Option.map_eq_some_iff.mp hend
  obtain ⟨hready, hbounded⟩ := Prod.mk.inj hs
  exact of_decide_eq_false hbounded
    (h .nearest lateErrorRun s (by decide +kernel) hrun hready)

/-- An Inactive status comes before its error, as the wire sends them, and an error of a request
that is no order comes later. -/
def deferredErrorRun : List Action :=
  [.connect ⟨0⟩, .submit (sampleOrder 1), .acquired 0 (.ok 7) ⟨1⟩,
    .statusEvent 1 { orderId := 7, status := "Inactive" } ⟨2⟩,
    .errorEvent 7 201 "Order rejected - reason:", .tick [] "" ⟨3⟩, .tick [] "" ⟨3⟩,
    .tick [] "" ⟨3⟩, .tick [] "" ⟨3⟩, .errorEvent 12 162 "no data"]

theorem errorStash_bounded_deferredErrorRun :
    ∃ s, run (step .nearest) init deferredErrorRun = some s ∧ StashBounded deferredErrorRun s := by
  have hend : (run (step .nearest) init deferredErrorRun).map (fun s => s.broker.ready) =
      some [] := by decide +kernel
  obtain ⟨s, hrun, hready⟩ := Option.map_eq_some_iff.mp hend
  exact ⟨s, hrun, errorStash_bounded .nearest deferredErrorRun s (by decide +kernel)
    (by decide +kernel) hrun hready⟩

end Blive.IBSystem
