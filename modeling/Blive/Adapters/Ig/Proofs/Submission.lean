import Blive.Adapters.Ig.Broker
import Blive.Domain.OrderFsm

/-!
# Submitting a market order to IG

A submission that IG acknowledged with a deal reference takes one of five courses. Four of them
raise, or leave the order filled or rejected. On the fifth the deal is accepted by a confirm
without a positive size and level: the fill cannot be built, a warning is logged and the call
returns with the order at ACCEPTED. `complete_iff` says that nothing else goes wrong.
-/

namespace Blive

open DecimalValue

/-! ## The confirm -/

/-- `dealStatus` of a confirm. -/
def DealStatus (confirm : List (String × Json)) (status : String) : Prop :=
  (Json.field confirm "dealStatus").str? = some status

/-- A field with a positive number. -/
def Priced (confirm : List (String × Json)) (key : String) (d : DecimalValue) : Prop :=
  ∃ raw, Json.present? confirm key = some raw ∧ ofString raw.toStr = .ok d ∧
    (finite 0).lt d = .ok true

/-- A field that is absent or null, or a number that is not positive. -/
def Unpriced (confirm : List (String × Json)) (key : String) : Prop :=
  ∀ raw, Json.present? confirm key = some raw →
    ∃ d, ofString raw.toStr = .ok d ∧ d.le (.finite 0) = .ok true

/-- A confirm from which no fill can be built: its size is not positive, or it is and the level is
not. The size is read first. -/
def WithoutFill (confirm : List (String × Json)) : Prop :=
  Unpriced confirm "size" ∨ (∃ size, Priced confirm "size" size) ∧ Unpriced confirm "level"

/-- A confirm whose size or level is no number that can be compared. -/
structure Unreadable (confirm : List (String × Json)) : Prop where
  notWithout : ¬ WithoutFill confirm
  notPriced : ∀ size level, Priced confirm "size" size → ¬ Priced confirm "level" level

theorem Priced.le_zero {confirm : List (String × Json)} {key : String} {d : DecimalValue}
    (h : Priced confirm key d) : d.le (.finite 0) = .ok false := by
  obtain ⟨raw, -, -, hpos⟩ := h
  exact (lt_eq_ok_not_iff (r := false)).mp hpos

theorem not_unpriced {confirm : List (String × Json)} {key : String} {d : DecimalValue}
    (h : Priced confirm key d) : ¬ Unpriced confirm key := by
  intro hun
  have hfalse := h.le_zero
  obtain ⟨raw, hraw, hread, -⟩ := h
  obtain ⟨d', hread', hle⟩ := hun raw hraw
  cases hread.symm.trans hread'
  cases hfalse.symm.trans hle

theorem Priced.unique {confirm : List (String × Json)} {key : String} {d d' : DecimalValue}
    (h : Priced confirm key d) (h' : Priced confirm key d') : d = d' := by
  obtain ⟨raw, hraw, hread, -⟩ := h
  obtain ⟨raw', hraw', hread', -⟩ := h'
  cases hraw.symm.trans hraw'
  cases hread.symm.trans hread'
  rfl

/-- What reading a field as a positive number does: it is positive, it is not and the failure is
a caught one, or the exception is not caught. -/
theorem readPositive_cases {α : Type} (confirm : List (String × Json)) (key missing low : String)
    (k : DecimalValue → Except PyError α) :
    let read := do
      let raw ← orRaise (Json.present? confirm key) (.valueError missing)
      let d ← ofString raw.toStr
      requireNot (d.le (.finite 0)) (.valueError low)
      k d
    (∃ d, Priced confirm key d ∧ read = k d) ∨
      (Unpriced confirm key ∧ ∃ text, read = .error (.valueError text)) ∨
        (¬ Unpriced confirm key ∧ ∀ d, ¬ Priced confirm key d) ∧
          ∃ e, isParseFailure e = false ∧ read = .error e := by
  intro read
  cases hraw : Json.present? confirm key with
  | none =>
    refine .inr (.inl ⟨?_, missing, by simp [read, hraw, orRaise, bind, Except.bind]⟩)
    intro raw h
    cases hraw.symm.trans h
  | some raw =>
    cases hread : ofString raw.toStr with
    | error e =>
      cases ofString_error hread
      refine .inr (.inr ⟨⟨?_, ?_⟩, invalidOperation, by decide, ?_⟩)
      · intro hun
        obtain ⟨d, hread', -⟩ := hun raw hraw
        cases hread.symm.trans hread'
      · rintro d ⟨raw', hraw', hread', -⟩
        cases hraw.symm.trans hraw'
        cases hread.symm.trans hread'
      · simp [read, hraw, orRaise, hread, bind, Except.bind]
    | ok d =>
      cases hle : d.le (.finite 0) with
      | error e =>
        rcases comparison_cases (fun x y => decide (x ≤ y)) d (.finite 0) with
          ⟨herror, -⟩ | ⟨x, y, -, -, hok⟩
        · cases herror.symm.trans hle
          refine .inr (.inr ⟨⟨?_, ?_⟩, invalidOperation, by decide, ?_⟩)
          · intro hun
            obtain ⟨d', hread', hle'⟩ := hun raw hraw
            cases hread.symm.trans hread'
            cases hle.symm.trans hle'
          · intro d' hpriced
            obtain ⟨raw', hraw', hread', -⟩ := id hpriced
            cases hraw.symm.trans hraw'
            cases hread.symm.trans hread'
            cases hle.symm.trans hpriced.le_zero
          · simp [read, hraw, orRaise, hread, requireNot, hle, bind, Except.bind]
        · cases hok.symm.trans hle
      | ok low' =>
        cases low' with
        | true =>
          refine .inr (.inl ⟨?_, low, ?_⟩)
          · intro raw' h
            cases hraw.symm.trans h
            exact ⟨d, hread, hle⟩
          · simp [read, hraw, orRaise, hread, requireNot, hle, bind, Except.bind]
        | false =>
          refine .inl ⟨d, ⟨raw, hraw, hread, lt_eq_ok_not_iff (r := false) |>.mpr hle⟩, ?_⟩
          simp [read, hraw, orRaise, hread, requireNot, hle, bind, Except.bind]

/-! ## The fill -/

/-- A currency that one check accepts, every check does. -/
theorem requireIsoCurrency_rename {value fieldName fieldName' : String}
    (h : requireIsoCurrency value fieldName = .ok ()) :
    requireIsoCurrency value fieldName' = .ok () :=
  require_eq_ok_iff.mpr (require_eq_ok_iff.mp h)

/-- The fill of a deal, for a size and a level that are positive. -/
theorem fill_valid (order : Order) {dealId : String} (hdeal : dealId ≠ "")
    {quantity price : DecimalValue} (hquantity : quantity.le (.finite 0) = .ok false)
    (hprice : price.le (.finite 0) = .ok false) (now : Utc) :
    postInit (⟨order.val.clientOrderId, dealId, dealId, order.val.instrument, order.val.side,
      quantity, price, .finite 0, order.val.instrument.val.currency, now.toDatetime⟩ :
        Wire.FillFields) = .ok () := by
  have hiso : requireIsoCurrency order.val.instrument.val.currency "Instrument.currency" =
      .ok () :=
    ((Wire.Instrument.valid_iff _).mp (Wire.Instrument.embed order.val.instrument).valid).2.2.1
  refine (Wire.Fill.valid_iff _).mpr ⟨hdeal, ⟨hquantity, hprice⟩, ?_, ?_, rfl⟩
  · simp
  · exact requireIsoCurrency_rename hiso

/-- The fill of a confirm: built with the size and the level of the confirm, refused with an
exception the caller catches, or refused with one it does not. -/
theorem parseFillFromConfirm_cases (order : Order) {dealId : String} (hdeal : dealId ≠ "")
    (confirm : List (String × Json)) (now : Utc) :
    (∃ fill, parseFillFromConfirm order dealId confirm now.toDatetime = .ok fill ∧
      Priced confirm "size" fill.val.quantity ∧ Priced confirm "level" fill.val.price) ∨
    (∃ e, parseFillFromConfirm order dealId confirm now.toDatetime = .error e ∧
      isParseFailure e = true ∧ WithoutFill confirm) ∨
    ∃ e, parseFillFromConfirm order dealId confirm now.toDatetime = .error e ∧
      isParseFailure e = false ∧ Unreadable confirm := by
  unfold parseFillFromConfirm
  rcases readPositive_cases confirm "size" _ _ _ with
    ⟨quantity, hsize, hread⟩ | ⟨hsize, text, hread⟩ | ⟨hsize, e, he, hread⟩
  · rw [hread]
    rcases readPositive_cases confirm "level" _ _ _ with
      ⟨price, hlevel, hread⟩ | ⟨hlevel, text, hread⟩ | ⟨hlevel, e, he, hread⟩
    · rw [hread]
      have hq := hsize.le_zero
      have hp := hlevel.le_zero
      rw [Frozen.make_of_valid (fill_valid order hdeal hq hp now)]
      exact .inl ⟨_, rfl, hsize, hlevel⟩
    · exact .inr (.inl ⟨_, hread, rfl, .inr ⟨⟨_, hsize⟩, hlevel⟩⟩)
    · refine .inr (.inr ⟨e, hread, he, ?_, fun _ level _ => hlevel.2 level⟩)
      rintro (hun | ⟨-, hun⟩)
      · exact not_unpriced hsize hun
      · exact hlevel.1 hun
  · exact .inr (.inl ⟨_, hread, rfl, .inl hsize⟩)
  · refine .inr (.inr ⟨e, hread, he, ?_, fun size _ h => absurd h (hsize.2 size)⟩)
    rintro (hun | ⟨⟨size, hpriced⟩, -⟩)
    · exact hsize.1 hun
    · exact hsize.2 size hpriced

namespace IGBroker

/-! ## The poll -/

theorem finalConfirm_status {payload : Json} {confirm : List (String × Json)}
    (h : finalConfirm? payload = some confirm) :
    DealStatus confirm "ACCEPTED" ∨ DealStatus confirm "REJECTED" := by
  unfold finalConfirm? at h
  split at h
  · cases h
  · split at h
    · rename_i status hstatus
      split at h
      · rename_i hfinal
        cases h
        rcases hfinal with rfl | rfl
        · exact .inl hstatus
        · exact .inr hstatus
      · cases h
    · cases h

/-- The poll ends with a final status, or raises. -/
theorem pollFrom_status {confirms : Nat → Except RequestError Json}
    {confirm : List (String × Json)} {attempt left : Nat}
    (h : pollFrom confirms attempt left = .ok confirm) :
    DealStatus confirm "ACCEPTED" ∨ DealStatus confirm "REJECTED" := by
  induction left generalizing attempt with
  | zero => cases h
  | succ left ih =>
    rw [pollFrom] at h
    split at h
    · cases h
    · split at h
      · rename_i hfinal
        cases h
        exact finalConfirm_status hfinal
      · exact ih h

theorem pollConfirm_status {b : IGBroker} {confirms : Nat → Except RequestError Json}
    {confirm : List (String × Json)} (h : b.pollConfirm confirms = .ok confirm) :
    DealStatus confirm "ACCEPTED" ∨ DealStatus confirm "REJECTED" := by
  unfold pollConfirm at h
  split at h
  · cases h
  · exact pollFrom_status h

/-! ## The courses of a submission -/

/-- An event of the order, of a kind. -/
def About (order : Order) (kind : OrderEventKind) (event : Wire.OrderEvent) : Prop :=
  event.val.clientOrderId = order.val.clientOrderId ∧ event.val.kind = kind

/-- What an acknowledged submission emits and returns, by what the poll gave. -/
inductive Course (order : Order) (poll : Except CallError (List (String × Json))) :
    List Wire.OrderEvent → Except CallError ClientOrderId → Prop
  /-- The poll raised, or the deal was rejected with a reason that reads as empty. -/
  | unresolved {ack : Wire.OrderEvent} {error : CallError} (hack : About order .submitted ack)
      (hpoll : ∀ confirm, poll = .ok confirm → ¬ DealStatus confirm "ACCEPTED") :
      Course order poll [ack] (.error error)
  | rejected {ack reject : Wire.OrderEvent} {confirm : List (String × Json)}
      (hack : About order .submitted ack) (hreject : About order .rejected reject)
      (hpoll : poll = .ok confirm) (hstatus : DealStatus confirm "REJECTED") :
      Course order poll [ack, reject] (.ok order.val.clientOrderId)
  /-- The deal was accepted, and the exception of its size or level is not caught. -/
  | unread {ack accept : Wire.OrderEvent} {confirm : List (String × Json)} {error : CallError}
      (hack : About order .submitted ack) (haccept : About order .accepted accept)
      (hpoll : poll = .ok confirm) (hprice : Unreadable confirm) :
      Course order poll [ack, accept] (.error error)
  | unfilled {ack accept : Wire.OrderEvent} {confirm : List (String × Json)}
      (hack : About order .submitted ack) (haccept : About order .accepted accept)
      (hpoll : poll = .ok confirm) (hstatus : DealStatus confirm "ACCEPTED")
      (hprice : WithoutFill confirm) :
      Course order poll [ack, accept] (.ok order.val.clientOrderId)
  | filled {ack accept done : Wire.OrderEvent} {confirm : List (String × Json)} {fill : Wire.Fill}
      (hack : About order .submitted ack) (haccept : About order .accepted accept)
      (hdone : About order .filled done) (hfill : done.val.fill = some fill)
      (hpoll : poll = .ok confirm) (hstatus : DealStatus confirm "ACCEPTED")
      (hsize : Priced confirm "size" fill.val.quantity)
      (hlevel : Priced confirm "level" fill.val.price) :
      Course order poll [ack, accept, done] (.ok order.val.clientOrderId)

/-- The broker with one more event on its queue. -/
def queued (b : IGBroker) (event : Wire.OrderEvent) : IGBroker :=
  { b with events := b.events ++ [event] }

@[simp] theorem queued_events (b : IGBroker) (event : Wire.OrderEvent) :
    (b.queued event).events = b.events ++ [event] := rfl

theorem put_of_valid (b : IGBroker) {fields : Wire.OrderEventFields}
    (h : postInit fields = .ok ()) : b.put fields = .ok (b.queued ⟨fields, h⟩) := by
  rw [put, Frozen.make_of_valid h]
  rfl

/-- An event without a reason and a fill is valid unless its kind asks for one. -/
theorem plain_valid (order : Order) (venueId : String) {kind : OrderEventKind} (now : Utc)
    (h : ¬ kind.needsFill ∧ ¬ kind.needsReason) :
    postInit (⟨order.val.clientOrderId, some venueId, kind, none, now.toDatetime, none⟩ :
      Wire.OrderEventFields) = .ok () := by
  obtain ⟨hfill, hreason⟩ := h
  refine (Wire.OrderEvent.valid_iff _).mpr ⟨rfl, ?_, ?_, ?_, fun _ => rfl⟩
  · intro hk
    exact absurd (.inl hk) hreason
  · intro hk
    exact absurd (.inr hk) hreason
  · intro hk
    exact absurd hk hfill

theorem filled_valid (order : Order) (venueId : String) (now : Utc) (fill : Wire.Fill) :
    postInit (⟨order.val.clientOrderId, some venueId, .filled, none, now.toDatetime, some fill⟩ :
      Wire.OrderEventFields) = .ok () := by
  refine (Wire.OrderEvent.valid_iff _).mpr ⟨rfl, ?_, ?_, fun _ => by simp, ?_⟩
  · intro hk
    cases hk
  · intro hk
    cases hk
  · intro hk
    exact absurd filled_needsFill hk

/-- The confirm of an accepted deal, once ACCEPTED is out. -/
theorem emitFill_cases (b : IGBroker) (order : Order) {dealId : String} (hdeal : dealId ≠ "")
    (confirm : List (String × Json)) (now : Utc) :
    (∃ done fill, About order .filled done ∧ done.val.fill = some fill ∧
      Priced confirm "size" fill.val.quantity ∧ Priced confirm "level" fill.val.price ∧
      b.emitFill order dealId confirm now = (b.queued done, .ok ())) ∨
    (WithoutFill confirm ∧ b.emitFill order dealId confirm now = (b, .ok ())) ∨
    Unreadable confirm ∧
      ∃ e, b.emitFill order dealId confirm now = (b, .error e) := by
  rcases parseFillFromConfirm_cases order hdeal confirm now with
    ⟨fill, hparse, hsize, hlevel⟩ | ⟨e, hparse, hcaught, hwithout⟩ | ⟨e, hparse, hcaught, hprice⟩
  · refine .inl ⟨⟨_, filled_valid order dealId now fill⟩, fill, ⟨rfl, rfl⟩, rfl, hsize, hlevel, ?_⟩
    simp only [emitFill, hparse, put_of_valid b (filled_valid order dealId now fill)]
  · exact .inr (.inl ⟨hwithout, by simp [emitFill, hparse, hcaught]⟩)
  · exact .inr (.inr ⟨hprice, e, by simp [emitFill, hparse, hcaught]⟩)

theorem dealIdOf_ne_empty {dealReference : String} (h : dealReference ≠ "")
    (confirm : List (String × Json)) : dealIdOf dealReference confirm ≠ "" := by
  unfold dealIdOf
  split
  · assumption
  · exact h

/-- The terminal events of a confirm, after SUBMITTED. -/
theorem emitTerminalEvents_course (b : IGBroker) (order : Order) {dealReference : String}
    (h : dealReference ≠ "") (confirm : List (String × Json)) (now : Utc)
    {poll : Except CallError (List (String × Json))} (hpoll : poll = .ok confirm)
    (hstatus : DealStatus confirm "ACCEPTED" ∨ DealStatus confirm "REJECTED")
    {ack : Wire.OrderEvent} (hack : About order .submitted ack) :
    ∃ emitted,
      (b.emitTerminalEvents order dealReference confirm now).1.events = b.events ++ emitted ∧
      Course order poll (ack :: emitted)
        (((b.emitTerminalEvents order dealReference confirm now).2.map fun _ =>
          order.val.clientOrderId).mapError .py) := by
  have hdeal := dealIdOf_ne_empty h confirm
  unfold emitTerminalEvents
  by_cases hrejected : (Json.field confirm "dealStatus").str? = some "REJECTED"
  · simp only [hrejected, if_true]
    unfold put
    cases hmake : Frozen.make (⟨order.val.clientOrderId, some (dealIdOf dealReference confirm),
      .rejected, some (rejectReasonOf confirm), now.toDatetime, none⟩ :
        Wire.OrderEventFields) with
    | error e =>
      refine ⟨[], by simp [Except.map], .unresolved hack ?_⟩
      intro confirm' hconfirm' haccepted
      cases hpoll.symm.trans hconfirm'
      exact absurd (haccepted.symm.trans hrejected) (by decide)
    | ok reject =>
      have hval := Frozen.make_eq_ok_iff.mp hmake
      refine ⟨[reject], rfl, .rejected hack ?_ hpoll hrejected⟩
      exact ⟨by rw [hval], by rw [hval]⟩
  · have haccepted := hstatus.resolve_right hrejected
    simp only [hrejected, if_false]
    have hvalid := plain_valid order (dealIdOf dealReference confirm) now accepted_plain
    have haccept : About order .accepted ⟨_, hvalid⟩ := ⟨rfl, rfl⟩
    rw [put_of_valid b hvalid]
    rcases emitFill_cases (b.queued ⟨_, hvalid⟩) order hdeal confirm now with
      ⟨done, fill, hdone, hfill, hsize, hlevel, hemit⟩ | ⟨hwithout, hemit⟩ | ⟨hprice, e, hemit⟩
    · refine ⟨[⟨_, hvalid⟩, done], by simp [hemit], ?_⟩
      simp only [hemit]
      exact .filled hack haccept hdone hfill hpoll haccepted hsize hlevel
    · refine ⟨[⟨_, hvalid⟩], by simp [hemit], ?_⟩
      simp only [hemit]
      exact .unfilled hack haccept hpoll haccepted hwithout
    · refine ⟨[⟨_, hvalid⟩], by simp [hemit], ?_⟩
      simp only [hemit]
      exact .unread hack haccept hpoll hprice

theorem confirmDeal_course (b : IGBroker) (order : Order) {dealReference : String}
    (h : dealReference ≠ "") (answers : SubmitAnswers) :
    ∃ emitted, (b.confirmDeal order dealReference answers).1.events = b.events ++ emitted ∧
      Course order (b.pollConfirm answers.confirm) emitted
        (b.confirmDeal order dealReference answers).2 := by
  have hvalid := plain_valid order dealReference answers.submittedAt submitted_plain
  have hack : About order .submitted ⟨_, hvalid⟩ := ⟨rfl, rfl⟩
  let tracked := { b with
    dealRefToClientId := b.dealRefToClientId.set dealReference order.val.clientOrderId }
  have hsame : (tracked.queued ⟨_, hvalid⟩).pollConfirm answers.confirm =
      b.pollConfirm answers.confirm := rfl
  unfold confirmDeal
  simp only [put_of_valid _ hvalid]
  cases hpoll : b.pollConfirm answers.confirm with
  | error e =>
    rw [hpoll] at hsame
    simp only [tracked] at hsame
    refine ⟨[⟨_, hvalid⟩], by simp [hsame], ?_⟩
    simp only [hsame]
    refine .unresolved hack ?_
    intro confirm hconfirm
    cases hconfirm
  | ok confirm =>
    rw [hpoll] at hsame
    obtain ⟨emitted, hevents, hcourse⟩ := emitTerminalEvents_course
      (tracked.queued ⟨_, hvalid⟩) order h confirm answers.confirmedAt rfl
      (pollConfirm_status hpoll) hack
    simp only [tracked] at hsame hevents hcourse
    simp only [hsame]
    exact ⟨⟨_, hvalid⟩ :: emitted, by rw [hevents]; simp, hcourse⟩

/-! ## Every submission -/

theorem placeDeal_ne_empty {b : IGBroker} {order : Order} {answers : SubmitAnswers}
    {dealReference : String} (h : b.placeDeal order answers = .ok dealReference) :
    dealReference ≠ "" := by
  unfold placeDeal at h
  cases hconnected : b.requireConnected with
  | error e => simp [hconnected, bind, Except.bind] at h
  | ok _ =>
    simp only [hconnected, bind, Except.bind] at h
    split at h
    · cases h
    · cases hepic : answers.epic with
      | error e => simp [hepic] at h
      | ok epic =>
        cases hpost : answers.post with
        | error e => simp [hepic, hpost, Except.mapError] at h
        | ok response =>
          simp only [hepic, hpost, Except.mapError] at h
          cases href : dealReferenceOf response with
          | error e => simp [href] at h
          | ok reference =>
            simp only [href, Except.ok.injEq] at h
            subst h
            unfold dealReferenceOf at href
            obtain ⟨items, -, href⟩ := bind_eq_ok_iff.mp href
            obtain ⟨reference', -, href⟩ := bind_eq_ok_iff.mp href
            obtain ⟨hne, href⟩ := require_bind_eq_ok_iff.mp href
            cases href
            exact hne

/-- The events a submission puts on the queue. -/
def emittedBy (b : IGBroker) (order : Order) (answers : SubmitAnswers) : List Wire.OrderEvent :=
  (b.submit order answers).1.events.drop b.events.length

/-- A submission emits nothing, or IG acknowledged it and it takes a course. -/
theorem submit_cases (b : IGBroker) (order : Order) (answers : SubmitAnswers) :
    (b.submit order answers).1.events = b.events ++ b.emittedBy order answers ∧
      ((∃ e, b.placeDeal order answers = .error e ∧ b.submit order answers = (b, .error e) ∧
          b.emittedBy order answers = []) ∨
        (∃ dealReference, b.placeDeal order answers = .ok dealReference) ∧
          Course order (b.pollConfirm answers.confirm) (b.emittedBy order answers)
            (b.submit order answers).2) := by
  cases hplace : b.placeDeal order answers with
  | error e =>
    have hsubmit : b.submit order answers = (b, .error e) := by simp [submit, hplace]
    have hnone : b.emittedBy order answers = [] := by simp [emittedBy, hsubmit]
    exact ⟨by simp [hsubmit, hnone], .inl ⟨e, rfl, hsubmit, hnone⟩⟩
  | ok dealReference =>
    have hsubmit : b.submit order answers = b.confirmDeal order dealReference answers := by
      simp [submit, hplace]
    obtain ⟨emitted, hevents, hcourse⟩ :=
      b.confirmDeal_course order (placeDeal_ne_empty hplace) answers
    have hemitted : b.emittedBy order answers = emitted := by
      simp [emittedBy, hsubmit, hevents]
    rw [hemitted, hsubmit]
    exact ⟨hevents, .inr ⟨⟨dealReference, rfl⟩, hcourse⟩⟩

/-- The kinds of the events a submission puts on the queue. -/
def kindsBy (b : IGBroker) (order : Order) (answers : SubmitAnswers) : List OrderEventKind :=
  (b.emittedBy order answers).map fun event => event.val.kind

namespace Course

variable {order : Order} {poll : Except CallError (List (String × Json))}
  {emitted : List Wire.OrderEvent} {outcome : Except CallError ClientOrderId}

theorem about (h : Course order poll emitted outcome) :
    ∀ event ∈ emitted, event.val.clientOrderId = order.val.clientOrderId := by
  cases h with
  | unresolved hack => simpa using hack.1
  | rejected hack hreject => simpa using ⟨hack.1, hreject.1⟩
  | unread hack haccept => simpa using ⟨hack.1, haccept.1⟩
  | unfilled hack haccept => simpa using ⟨hack.1, haccept.1⟩
  | filled hack haccept hdone => simpa using ⟨hack.1, haccept.1, hdone.1⟩

theorem legal (h : Course order poll emitted outcome) :
    LegalTrace (emitted.map fun event => event.val.kind) := by
  cases h with
  | unresolved hack => simp only [List.map, hack.2]; decide
  | rejected hack hreject => simp only [List.map, hack.2, hreject.2]; decide
  | unread hack haccept => simp only [List.map, hack.2, haccept.2]; decide
  | unfilled hack haccept => simp only [List.map, hack.2, haccept.2]; decide
  | filled hack haccept hdone => simp only [List.map, hack.2, haccept.2, hdone.2]; decide

/-- A course that returns ends with its one terminal event, or with ACCEPTED where the confirm
has no positive size and level. -/
theorem settled (h : Course order poll emitted outcome) {cid : ClientOrderId}
    (hreturned : outcome = .ok cid) :
    cid = order.val.clientOrderId ∧ ∃ confirm, poll = .ok confirm ∧
      ((emitted.map fun event => event.val.kind) = [.submitted, .accepted] ∧
          DealStatus confirm "ACCEPTED" ∧ WithoutFill confirm ∨
        ¬ (DealStatus confirm "ACCEPTED" ∧ WithoutFill confirm) ∧
          (emitted.map fun event => event.val.kind) ∈
            [[.submitted, .rejected], [.submitted, .accepted, .filled]]) := by
  cases h with
  | unresolved => cases hreturned
  | unread => cases hreturned
  | rejected hack hreject hpoll hstatus =>
    cases hreturned
    refine ⟨rfl, _, hpoll, .inr ⟨?_, by simp [hack.2, hreject.2]⟩⟩
    rintro ⟨haccepted, -⟩
    exact absurd (haccepted.symm.trans hstatus) (by decide)
  | unfilled hack haccept hpoll hstatus hprice =>
    cases hreturned
    exact ⟨rfl, _, hpoll, .inl ⟨by simp [hack.2, haccept.2], hstatus, hprice⟩⟩
  | filled hack haccept hdone hfill hpoll hstatus hsize hlevel =>
    cases hreturned
    refine ⟨rfl, _, hpoll, .inr ⟨?_, by simp [hack.2, haccept.2, hdone.2]⟩⟩
    rintro ⟨-, hwithout⟩
    rcases hwithout with hsize' | ⟨-, hlevel'⟩
    · exact not_unpriced hsize hsize'
    · exact not_unpriced hlevel hlevel'

/-- An accepted deal with a positive size and level is filled at them. -/
theorem filled_at (h : Course order poll emitted outcome) {confirm : List (String × Json)}
    (hpoll : poll = .ok confirm) (hstatus : DealStatus confirm "ACCEPTED")
    {size level : DecimalValue} (hsize : Priced confirm "size" size)
    (hlevel : Priced confirm "level" level) :
    outcome = .ok order.val.clientOrderId ∧ ∃ event ∈ emitted, event.val.kind = .filled ∧
      ∃ fill, event.val.fill = some fill ∧ fill.val.quantity = size ∧ fill.val.price = level := by
  cases h with
  | unresolved hack hnot => exact absurd hstatus (hnot confirm hpoll)
  | rejected hack hreject hpoll' hstatus' =>
    cases hpoll.symm.trans hpoll'
    exact absurd (hstatus.symm.trans hstatus') (by decide)
  | unread hack haccept hpoll' hprice =>
    cases hpoll.symm.trans hpoll'
    exact absurd hlevel (hprice.notPriced size level hsize)
  | unfilled hack haccept hpoll' hstatus' hwithout =>
    cases hpoll.symm.trans hpoll'
    rcases hwithout with hsize' | ⟨-, hlevel'⟩
    · exact absurd hsize' (not_unpriced hsize)
    · exact absurd hlevel' (not_unpriced hlevel)
  | filled hack haccept hdone hfill hpoll' hstatus' hsize' hlevel' =>
    cases hpoll.symm.trans hpoll'
    refine ⟨rfl, _, by simp, hdone.2, _, hfill, hsize'.unique hsize, hlevel'.unique hlevel⟩

/-- An accepted deal whose fill cannot be built returns. -/
theorem returns (h : Course order poll emitted outcome) {confirm : List (String × Json)}
    (hpoll : poll = .ok confirm) (hstatus : DealStatus confirm "ACCEPTED")
    (hwithout : WithoutFill confirm) : outcome = .ok order.val.clientOrderId := by
  cases h with
  | unresolved hack hnot => exact absurd hstatus (hnot confirm hpoll)
  | unread hack haccept hpoll' hprice =>
    cases hpoll.symm.trans hpoll'
    exact absurd hwithout hprice.notWithout
  | rejected => rfl
  | unfilled => rfl
  | filled => rfl

end Course

/-- Exactly one terminal event, FILLED or REJECTED. -/
def Settled (kinds : List OrderEventKind) : Prop :=
  kinds.filter OrderEventKind.isTerminal = [.filled] ∨
    kinds.filter OrderEventKind.isTerminal = [.rejected]

instance (kinds : List OrderEventKind) : Decidable (Settled kinds) :=
  inferInstanceAs (Decidable (_ ∨ _))

/-- A submission emits a legal path of its order. Once IG acknowledged it, it raises or settles
the order, except where the deal is accepted by a confirm without a positive size and level:
there a call that returns leaves the order at ACCEPTED. An accepted deal with a positive size
and level is filled at them. -/
theorem submit_settles (b : IGBroker) (order : Order) (answers : SubmitAnswers) :
    (b.submit order answers).1.events = b.events ++ b.emittedBy order answers ∧
      (∀ event ∈ b.emittedBy order answers,
        event.val.clientOrderId = order.val.clientOrderId) ∧
      LegalTrace (b.kindsBy order answers) ∧
      (∀ dealReference cid, b.placeDeal order answers = .ok dealReference →
        (b.submit order answers).2 = .ok cid →
          cid = order.val.clientOrderId ∧ ∃ confirm, b.pollConfirm answers.confirm = .ok confirm ∧
            (DealStatus confirm "ACCEPTED" ∧ WithoutFill confirm →
              b.kindsBy order answers = [.submitted, .accepted]) ∧
            (¬ (DealStatus confirm "ACCEPTED" ∧ WithoutFill confirm) →
              Settled (b.kindsBy order answers))) ∧
      ∀ dealReference confirm size level, b.placeDeal order answers = .ok dealReference →
        b.pollConfirm answers.confirm = .ok confirm → DealStatus confirm "ACCEPTED" →
        Priced confirm "size" size → Priced confirm "level" level →
          (b.submit order answers).2 = .ok order.val.clientOrderId ∧
            ∃ event ∈ b.emittedBy order answers, event.val.kind = .filled ∧
              ∃ fill, event.val.fill = some fill ∧ fill.val.quantity = size ∧
                fill.val.price = level := by
  obtain ⟨hevents, ⟨e, hplace, -, hnone⟩ | ⟨-, hcourse⟩⟩ := b.submit_cases order answers
  · refine ⟨hevents, by simp [hnone], by simp [kindsBy, hnone, legalTrace_nil], ?_, ?_⟩
    · intro dealReference cid hplace'
      cases hplace.symm.trans hplace'
    · intro dealReference confirm size level hplace'
      cases hplace.symm.trans hplace'
  · refine ⟨hevents, hcourse.about, hcourse.legal, ?_, ?_⟩
    · intro dealReference cid _ hreturned
      obtain ⟨hcid, confirm, hpoll, hkinds⟩ := hcourse.settled hreturned
      refine ⟨hcid, confirm, hpoll, ?_⟩
      rcases hkinds with ⟨hkinds, hwithout⟩ | ⟨hwith, hkinds⟩
      · exact ⟨fun _ => hkinds, fun hwith => absurd hwithout hwith⟩
      · refine ⟨fun hwithout => absurd hwithout hwith, fun _ => ?_⟩
        rcases List.mem_cons.mp hkinds with hrejected | hfilled
        · exact .inr (by rw [kindsBy, hrejected]; decide)
        · exact .inl (by rw [kindsBy, List.mem_singleton.mp hfilled]; decide)
    · intro dealReference confirm size level _ hpoll hstatus hsize hlevel
      exact hcourse.filled_at hpoll hstatus hsize hlevel

/-- What a poll of `/confirms` says of the deal: a final status, none yet, or an exception. -/
def pollAnswer (confirms : Nat → Except RequestError Json) (attempt : Nat) :
    Except RequestError (Option (List (String × Json))) :=
  (pollPayload (confirms attempt)).map finalConfirm?

/-- The first response of `/confirms` with a final status, within the attempts of the broker. -/
def FinalConfirm (b : IGBroker) (confirms : Nat → Except RequestError Json)
    (confirm : List (String × Json)) : Prop :=
  ∃ k < b.confirmPollMaxAttempts, pollAnswer confirms k = .ok (some confirm) ∧
    ∀ j < k, pollAnswer confirms j = .ok none

theorem pollFrom_eq_ok_iff {confirms : Nat → Except RequestError Json}
    {confirm : List (String × Json)} {attempt left : Nat} :
    pollFrom confirms attempt left = .ok confirm ↔
      ∃ k < left, pollAnswer confirms (attempt + k) = .ok (some confirm) ∧
        ∀ j < k, pollAnswer confirms (attempt + j) = .ok none := by
  induction left generalizing attempt with
  | zero => simp [pollFrom]
  | succ left ih =>
    have hanswer : pollAnswer confirms attempt =
        (pollPayload (confirms attempt)).map finalConfirm? := rfl
    rw [pollFrom]
    split
    · rename_i e hpayload
      rw [hpayload] at hanswer
      refine iff_of_false (by simp) ?_
      rintro ⟨k, -, hk, hbefore⟩
      cases k with
      | zero => cases hanswer.symm.trans hk
      | succ k => cases hanswer.symm.trans (hbefore 0 (Nat.succ_pos k))
    · rename_i payload hpayload
      rw [hpayload] at hanswer
      split
      · rename_i items hfinal
        replace hanswer : pollAnswer confirms attempt = .ok (some items) := by
          rw [hanswer, Except.map, hfinal]
        constructor
        · intro h
          cases h
          exact ⟨0, Nat.succ_pos left, hanswer, by simp⟩
        · rintro ⟨k, -, hk, hbefore⟩
          cases k with
          | zero =>
            cases hanswer.symm.trans hk
            rfl
          | succ k => cases hanswer.symm.trans (hbefore 0 (Nat.succ_pos k))
      · rename_i hfinal
        replace hanswer : pollAnswer confirms attempt = .ok none := by
          rw [hanswer, Except.map, hfinal]
        have hshift (n : Nat) : attempt + 1 + n = attempt + (n + 1) := by omega
        rw [ih]
        constructor
        · rintro ⟨k, hk, hlast, hbefore⟩
          refine ⟨k + 1, Nat.succ_lt_succ hk, hshift k ▸ hlast, ?_⟩
          intro j hj
          cases j with
          | zero => exact hanswer
          | succ j => exact hshift j ▸ hbefore j (Nat.lt_of_succ_lt_succ hj)
        · rintro ⟨k, hk, hlast, hbefore⟩
          cases k with
          | zero => cases hanswer.symm.trans hlast
          | succ k =>
            refine ⟨k, Nat.lt_of_succ_lt_succ hk, (hshift k).symm ▸ hlast, ?_⟩
            intro j hj
            exact (hshift j).symm ▸ hbefore (j + 1) (Nat.succ_lt_succ hj)

theorem pollConfirm_eq_ok_iff {b : IGBroker} {confirms : Nat → Except RequestError Json}
    {confirm : List (String × Json)} :
    b.pollConfirm confirms = .ok confirm ↔ b.FinalConfirm confirms confirm := by
  unfold pollConfirm FinalConfirm
  split
  · rename_i hzero
    simp [hzero]
  · simp only [pollFrom_eq_ok_iff, Nat.zero_add]

/-- What is expected of a submission: legal events of its order, one terminal event once IG
acknowledged it unless the call raises, and the size and the level of an accepted deal. -/
structure Complete (b : IGBroker) (order : Order) (answers : SubmitAnswers) : Prop where
  about : ∀ event ∈ b.emittedBy order answers, event.val.clientOrderId = order.val.clientOrderId
  legal : LegalTrace (b.kindsBy order answers)
  settled : ∀ dealReference cid, b.placeDeal order answers = .ok dealReference →
    (b.submit order answers).2 = .ok cid →
      cid = order.val.clientOrderId ∧ Settled (b.kindsBy order answers)
  filled : ∀ dealReference confirm size level, b.placeDeal order answers = .ok dealReference →
    b.FinalConfirm answers.confirm confirm → DealStatus confirm "ACCEPTED" →
    Priced confirm "size" size → Priced confirm "level" level →
      (b.submit order answers).2 = .ok order.val.clientOrderId ∧
        ∃ event ∈ b.emittedBy order answers, event.val.kind = .filled ∧
          ∃ fill, event.val.fill = some fill ∧ fill.val.quantity = size ∧ fill.val.price = level

/-- A submission is complete exactly when, once IG acknowledged it, the final confirm does not
accept the deal with a size or a level that is absent, null or not positive. -/
theorem complete_iff (b : IGBroker) (order : Order) (answers : SubmitAnswers) :
    b.Complete order answers ↔
      ∀ dealReference confirm, b.placeDeal order answers = .ok dealReference →
        b.FinalConfirm answers.confirm confirm →
          ¬ (DealStatus confirm "ACCEPTED" ∧ WithoutFill confirm) := by
  obtain ⟨-, habout, hlegal, hsettles, hfilled⟩ := b.submit_settles order answers
  constructor
  · rintro hcomplete dealReference confirm hplace hfinal ⟨hstatus, hwithout⟩
    have hpoll := pollConfirm_eq_ok_iff.mpr hfinal
    have hreturned : (b.submit order answers).2 = .ok order.val.clientOrderId := by
      obtain ⟨-, ⟨e, hfailed, -⟩ | ⟨-, hcourse⟩⟩ := b.submit_cases order answers
      · cases hplace.symm.trans hfailed
      · exact hcourse.returns hpoll hstatus hwithout
    obtain ⟨-, confirm', hpoll', hleft, -⟩ := hsettles dealReference _ hplace hreturned
    cases hpoll.symm.trans hpoll'
    have hsettled := (hcomplete.settled dealReference _ hplace hreturned).2
    rw [hleft ⟨hstatus, hwithout⟩] at hsettled
    exact absurd hsettled (by decide)
  · intro hpriced
    refine ⟨habout, hlegal, ?_, ?_⟩
    · intro dealReference cid hplace hreturned
      obtain ⟨hcid, confirm, hpoll, -, hsettled⟩ := hsettles dealReference cid hplace hreturned
      exact ⟨hcid, hsettled (hpriced dealReference confirm hplace
        (pollConfirm_eq_ok_iff.mp hpoll))⟩
    · intro dealReference confirm size level hplace hfinal
      exact hfilled dealReference confirm size level hplace (pollConfirm_eq_ok_iff.mpr hfinal)

/-- A connected broker that polls once. -/
def sampleBroker : IGBroker := ⟨"ABC12", 1, true, [], Dict.empty⟩

/-- An acknowledged deal, and the confirm that answers every poll. -/
def sampleAnswers (confirm : Json) : SubmitAnswers where
  epic := .ok "IX.D.CAC40.CASH.IP"
  post := .ok (.dict [("dealReference", .str "REF1")])
  confirm := fun _ => .ok confirm
  submittedAt := ⟨0⟩
  confirmedAt := ⟨1⟩

/-- An accepted confirm without a size leaves the order at ACCEPTED. -/
theorem not_complete :
    ¬ ∀ (b : IGBroker) (order : Order) (answers : SubmitAnswers), order.val.orderType = .mkt →
      b.Complete order answers := by
  intro h
  have hsettled := (h sampleBroker (sampleOrder 1)
    (sampleAnswers (.dict [("dealStatus", .str "ACCEPTED"), ("dealId", .str "DI1")])) rfl).settled
    "REF1" 1 rfl rfl
  exact absurd hsettled.2 (by decide +kernel)

example : sampleBroker.kindsBy (sampleOrder 1) (sampleAnswers (.dict
    [("dealStatus", .str "ACCEPTED"), ("size", .int 10), ("level", .float "7312.5")])) =
      [.submitted, .accepted, .filled] := by
  decide +kernel

end IGBroker

end Blive
