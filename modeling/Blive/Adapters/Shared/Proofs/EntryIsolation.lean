import Blive.Adapters.Ig.Proofs.PoisonedEntries
import Blive.Adapters.Ib.Proofs.PoisonedPositions

/-!
# Malformed entries

A reader of a response is to return what its entries parse to, whatever the other entries are,
and the decoder of a chart subscription is to go on after a consolidation that builds no bar,
and to take the midpoint where the last trade is no number. The handlers name no exception of
the arithmetic, so one entry whose decimals do not parse or do not compare ends the call. The
readers do what they are for exactly when no entry is of that kind.
-/

namespace Blive

open DecimalValue

/-! ## Readers of a list -/

theorem brokerStrategyId_ne_empty (b : IGBroker) : b.brokerStrategyId ≠ "" := by
  simp [IGBroker.brokerStrategyId, String.append_eq_empty_iff]

theorem positions_eq_parses_iff {b : IGBroker} (hconnected : b.connected)
    (parsers : DatetimeParsers) (body : Json) (now : Utc) :
    b.positions parsers (.ok body) now =
        .ok (parses (b.positionOf parsers now) (IGBroker.positionEntries body)) ↔
      ∀ objects ∈ IGBroker.positionEntries body,
        ¬ PoisonedPosition parsers objects.1 objects.2 := by
  have hparse : ∀ objects, Escapes isParseFailure (b.positionOf parsers now objects) ↔
      PoisonedPosition parsers objects.1 objects.2 := fun objects =>
    parsePosition_escapes parsers objects.1 objects.2 (brokerStrategyId_ne_empty b) rfl
  simp only [← hparse, ← collect_eq_parses_iff]
  simp only [IGBroker.positions, IGBroker.requireConnected, hconnected, if_true]
  exact mapError_eq_ok_iff

theorem openOrders_eq_parses_iff {b : IGBroker} (hconnected : b.connected)
    (parsers : DatetimeParsers) (body : Json) (now : Nat → Utc) (fresh : Nat → UUID) :
    b.openOrders parsers (.ok body) now fresh =
        .ok (parses (b.orderOf parsers now fresh) (IGBroker.orderEntries body)) ↔
      ∀ entry ∈ IGBroker.orderEntries body, ¬ PoisonedOrder entry.1.1 entry.1.2 := by
  have hparse : ∀ entry, Escapes isParseFailure (b.orderOf parsers now fresh entry) ↔
      PoisonedOrder entry.1.1 entry.1.2 := fun entry =>
    parseWorkingOrder_escapes parsers entry.1.1 entry.1.2 _ _ (brokerStrategyId_ne_empty b)
  simp only [← hparse, ← collect_eq_parses_iff]
  simp only [IGBroker.openOrders, IGBroker.requireConnected, hconnected, if_true]
  exact mapError_eq_ok_iff

theorem historicalBars_eq_parses_iff {start stop : Datetime}
    (hrange : checkRange start stop = .ok ()) (parsers : DatetimeParsers)
    (instrument : Instrument) (freq : BarFreq) (epic : String) (body : Json) :
    historicalBars parsers instrument freq start stop (.ok epic) (.ok body) =
        .ok (sortBars (parses (parsePriceBar parsers instrument (freqToTimedelta freq))
          (priceEntries body))) ↔
      ∀ entry ∈ priceEntries body, ¬ PoisonedPriceEntry parsers (freqToTimedelta freq) entry := by
  have hcall : historicalBars parsers instrument freq start stop (.ok epic) (.ok body) =
      ((collect isParseFailure (parsePriceBar parsers instrument (freqToTimedelta freq))
        (priceEntries body)).mapError .py).map sortBars := by
    have hmap : ∀ x : Except CallError (List Wire.Bar),
        (x >>= fun out => .ok (sortBars out)) = x.map sortBars := by
      intro x
      cases x <;> rfl
    rw [historicalBars, hrange]
    exact hmap _
  simp only [← parsePriceBar_escapes parsers instrument, hcall]
  rcases collect_cases isParseFailure (parsePriceBar parsers instrument (freqToTimedelta freq))
    (priceEntries body) with ⟨hok, hnone⟩ | ⟨e, herror, entry, hentry, hescapes⟩
  · rw [hok]
    exact ⟨fun _ => hnone, fun _ => rfl⟩
  · rw [herror]
    constructor
    · intro h
      cases h
    · intro h
      exact absurd hescapes (h entry hentry)

theorem ibPositions_eq_parses_iff (accountId : String) (response : List (Option IbPosition))
    (now : Utc) :
    ibPositions true accountId response now =
        .ok (parses (parseIbPosition ("ib_" ++ accountId) now.toDatetime)
          (response.filterMap id)) ↔
      ∀ ibPos ∈ response.filterMap id, ¬ PoisonedIbPosition ibPos := by
  have hstrategy : "ib_" ++ accountId ≠ "" := by simp [String.append_eq_empty_iff]
  simp only [← fun ibPos => parseIbPosition_escapes ibPos hstrategy (rfl :
    now.toDatetime.utcOffset = some 0), ← collect_eq_parses_iff]
  rfl

/-! ## The decoder of a subscription -/

/-- The price of a chart state: the last trade where it is a number, the midpoint elsewhere. -/
def fallbackOhlc (state : ChartState) (suffix : String) : Except PyError DecimalValue :=
  match state.get? ("LTP_" ++ suffix) with
  | none => streamMid state suffix
  | some ltp =>
      if ltp = "" ∨ Malformed ltp then streamMid state suffix else DecimalValue.ofString ltp

/-- The bar a chart state is to yield. -/
def wellFormedBar (instrument : Instrument) (barDuration : Int) (state : ChartState) :
    Except PyError Wire.Bar :=
  buildBarWith (fallbackOhlc state) state instrument barDuration

/-- The chart states at the ends of the consolidations. -/
def consolidatedStates : ChartState → List ChartUpdate → List ChartState
  | _, [] => []
  | state, update :: rest =>
      let merged := mergeItems update.items state
      if merged.get? "CONS_END" ≠ some "1" then consolidatedStates merged rest
      else merged :: consolidatedStates .empty rest

/-- The two computations are the same unless the first raises past the handler. -/
def Agrees {α : Type} (x y : Except PyError α) : Prop := Escapes isParseFailure x ∨ x = y

theorem Agrees.bind {α β : Type} {x y : Except PyError α} {k k' : α → Except PyError β}
    (h : Agrees x y) (hk : ∀ a, Agrees (k a) (k' a)) : Agrees (x >>= k) (y >>= k') := by
  rcases h with hescapes | rfl
  · exact .inl (escapes_bind.mpr (.inl hescapes))
  · cases x with
    | error e => exact .inr rfl
    | ok a => exact hk a

theorem Agrees.refl {α : Type} (x : Except PyError α) : Agrees x x := .inr rfl

theorem streamOhlc_agrees (state : ChartState) (suffix : String) :
    Agrees (streamOhlc state suffix) (fallbackOhlc state suffix) := by
  unfold streamOhlc fallbackOhlc
  cases state.get? ("LTP_" ++ suffix) with
  | none => exact .refl _
  | some ltp =>
    by_cases hempty : ltp = ""
    · simp only [hempty, true_or, if_true]
      exact .refl _
    · unfold decimalOr Malformed
      cases hread : DecimalValue.ofString ltp with
      | ok d =>
        refine .inr ?_
        simp [hempty, hread]
      | error e =>
        cases ofString_error hread
        refine .inl ?_
        simp [hempty, hread, isTypeOrValueError, invalidOperation, isParseFailure]

/-- The decoder builds the bar a state is to yield, or raises. -/
theorem buildBarFromState_agrees (instrument : Instrument) (barDuration : Int)
    (state : ChartState) :
    Agrees (buildBarFromState state instrument barDuration)
      (wellFormedBar instrument barDuration state) := by
  unfold buildBarFromState wellFormedBar buildBarWith
  refine .bind (.refl _) fun _ => .bind (.refl _) fun _ => .bind (.refl _) fun _ =>
    .bind (.refl _) fun _ => ?_
  refine .bind (streamOhlc_agrees state "OPEN") fun _ =>
    .bind (streamOhlc_agrees state "HIGH") fun _ => ?_
  refine .bind (streamOhlc_agrees state "LOW") fun _ =>
    .bind (streamOhlc_agrees state "CLOSE") fun _ => .refl _

/-- The decoder yields the bars of all consolidations and goes on, or an exception ends it. -/
theorem barStream_cases (instrument : Instrument) (barDuration : Int) (state : ChartState)
    (updates : List ChartUpdate) :
    (barStream instrument barDuration state updates =
        (parses (wellFormedBar instrument barDuration) (consolidatedStates state updates), none) ∧
      ∀ s ∈ consolidatedStates state updates, ¬ PoisonedState barDuration s) ∨
    (∃ e, (barStream instrument barDuration state updates).2 = some e) ∧
      ∃ s ∈ consolidatedStates state updates, PoisonedState barDuration s := by
  induction updates generalizing state with
  | nil => exact .inl ⟨rfl, by simp [consolidatedStates]⟩
  | cons update rest ih =>
    by_cases hend : (mergeItems update.items state).get? "CONS_END" = some "1"
    · have hstates : consolidatedStates state (update :: rest) =
          mergeItems update.items state :: consolidatedStates .empty rest := by
        simp [consolidatedStates, hend]
      have hagrees := buildBarFromState_agrees instrument barDuration
        (mergeItems update.items state)
      have hpoison := buildBarFromState_escapes (mergeItems update.items state) instrument
        barDuration
      rw [hstates]
      by_cases hescapes : PoisonedState barDuration (mergeItems update.items state)
      · obtain ⟨e, he, hcaught⟩ := hpoison.mpr hescapes
        refine .inr ⟨⟨e, ?_⟩, _, .head _, hescapes⟩
        simp [barStream, hend, he, hcaught]
      · have hsame : buildBarFromState (mergeItems update.items state) instrument barDuration =
            wellFormedBar instrument barDuration (mergeItems update.items state) :=
          hagrees.resolve_left fun h => hescapes (hpoison.mp h)
        rcases ih .empty with ⟨hrest, hnone⟩ | ⟨⟨e, he⟩, bad, hbad, hbadpoison⟩
        · refine .inl ⟨?_, List.forall_mem_cons.mpr ⟨hescapes, hnone⟩⟩
          cases hbuild : buildBarFromState (mergeItems update.items state) instrument
            barDuration with
          | ok bar =>
            rw [hbuild] at hsame
            simp [barStream, hend, hbuild, hrest, parses, ← hsame, Except.toOption]
          | error e =>
            have hcaught : isParseFailure e = true := by
              rw [hbuild, escapes_error] at hpoison
              simpa using fun h => hescapes (hpoison.mp h)
            rw [hbuild] at hsame
            simp [barStream, hend, hbuild, hcaught, hrest, parses, ← hsame, Except.toOption]
        · refine .inr ⟨⟨e, ?_⟩, bad, .tail _ hbad, hbadpoison⟩
          cases hbuild : buildBarFromState (mergeItems update.items state) instrument
            barDuration with
          | ok bar => simp [barStream, hend, hbuild, he]
          | error e' =>
            have hcaught : isParseFailure e' = true := by
              rw [hbuild, escapes_error] at hpoison
              simpa using fun h => hescapes (hpoison.mp h)
            simp [barStream, hend, hbuild, hcaught, he]
    · simp only [barStream, consolidatedStates, hend, ne_eq, not_false_eq_true, if_true]
      exact ih _

/-! ## All readers -/

/-- What the readers are called with and answered: a connected broker of IG with a response, a
range of time for the bars, a response of the client of IB and the updates of a subscription. -/
structure ReaderCalls where
  broker : IGBroker
  connected : broker.connected
  parsers : DatetimeParsers
  body : Json
  now : Utc
  clock : Nat → Utc
  fresh : Nat → UUID
  instrument : Instrument
  freq : BarFreq
  start : Datetime
  stop : Datetime
  range : checkRange start stop = .ok ()
  epic : String
  accountId : String
  ibResponse : List (Option IbPosition)
  updates : List ChartUpdate

namespace ReaderCalls

variable (r : ReaderCalls)

/-- `IGBroker.positions` returns what its entries parse to. -/
def PositionsIsolated : Prop :=
  r.broker.positions r.parsers (.ok r.body) r.now =
    .ok (parses (r.broker.positionOf r.parsers r.now) (IGBroker.positionEntries r.body))

/-- `IGBroker.open_orders` returns what its entries parse to. -/
def OrdersIsolated : Prop :=
  r.broker.openOrders r.parsers (.ok r.body) r.clock r.fresh =
    .ok (parses (r.broker.orderOf r.parsers r.clock r.fresh) (IGBroker.orderEntries r.body))

/-- `IGMarketData.historical_bars` returns what its entries parse to, sorted. -/
def BarsIsolated : Prop :=
  historicalBars r.parsers r.instrument r.freq r.start r.stop (.ok r.epic) (.ok r.body) =
    .ok (sortBars (parses (parsePriceBar r.parsers r.instrument (freqToTimedelta r.freq))
      (priceEntries r.body)))

/-- `IBBroker.positions` returns what its entries parse to. -/
def IbPositionsIsolated : Prop :=
  ibPositions true r.accountId r.ibResponse r.now =
    .ok (parses (parseIbPosition ("ib_" ++ r.accountId) r.now.toDatetime)
      (r.ibResponse.filterMap id))

/-- `_bar_stream` yields the bar of every well-formed consolidation and does not raise. -/
def StreamIsolated : Prop :=
  barStream r.instrument (freqToTimedelta r.freq) .empty r.updates =
    (parses (wellFormedBar r.instrument (freqToTimedelta r.freq))
      (consolidatedStates .empty r.updates), none)

/-- A response of one entry, whose size is no number. -/
def unreadableSize : ReaderCalls where
  broker := ⟨"ACC123", 30, true, [], .empty⟩
  connected := rfl
  parsers := ⟨fun _ => none, fun _ => none⟩
  body := .dict [("positions", .list [.dict [
    ("position", .dict [("direction", .str "BUY"), ("size", .str "n/a")]),
    ("market", .dict [("epic", .str "IX.D.CAC40.CASH.IP")])]])]
  now := ⟨0⟩
  clock := fun _ => ⟨0⟩
  fresh := fun _ => 0
  instrument := sampleInstrument
  freq := .oneDay
  start := ⟨0, some 0⟩
  stop := ⟨1, some 0⟩
  range := by decide
  epic := "IX.D.CAC40.CASH.IP"
  accountId := "DUTEST"
  ibResponse := []
  updates := []

end ReaderCalls

end Blive
