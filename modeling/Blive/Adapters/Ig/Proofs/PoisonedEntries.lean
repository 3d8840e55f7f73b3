import Blive.Adapters.Ig.Broker
import Blive.Adapters.Ig.MarketData
import Blive.Domain.Proofs.WireTypes

/-!
# Entries that no handler skips
-/

namespace Blive

open DecimalValue

/-- The handler of the readers names `ValueError` and no exception of the arithmetic. -/
theorem isParseFailure_misses : MissesArithmetic isParseFailure :=
  ⟨fun _ => rfl, rfl, rfl⟩

theorem escapes_entryInstrument {epic currency : String} :
    ¬ Escapes isParseFailure (Frozen.make (entryInstrument epic currency)) := by
  rw [escapes_make, Wire.Instrument.escapes_iff isParseFailure_misses]
  simp [entryInstrument]

/-- What raises after the size of a position was read. -/
def PoisonedLevel (parsers : DatetimeParsers) (positionObj marketObj : List (String × Json))
    (size : DecimalValue) : Prop :=
  ∃ levelRaw, Json.present? positionObj "level" = some levelRaw ∧
    MalformedOr levelRaw.toStr fun level =>
      Json.textOf positionObj "currency" ≠ "" ∧
        (createdAt? parsers positionObj = none ∧ size.isSignaling ∨
          postInit (entryInstrument (Json.textOf marketObj "epic")
              (Json.textOf positionObj "currency")) = .ok () ∧
            (size.isSignaling ∨ size ≠ .finite 0 ∧ level.isNan ∧
              ∀ t ∈ createdAt? parsers positionObj, t.utcOffset = some 0))

/-- An entry of `/positions` whose parse raises an exception of the arithmetic: the size or the
level is no decimal and read, or it is one that what follows cannot compute with. -/
def PoisonedPosition (parsers : DatetimeParsers) (positionObj marketObj : List (String × Json)) :
    Prop :=
  Json.textOf marketObj "epic" ≠ "" ∧
    (Json.textOf positionObj "direction" = "BUY" ∨ Json.textOf positionObj "direction" = "SELL") ∧
    ∃ sizeRaw, Json.present? positionObj "size" = some sizeRaw ∧
      MalformedOr sizeRaw.toStr fun size =>
        Json.textOf positionObj "direction" = "SELL" ∧
          (size.isSignaling ∨ ∃ q, size = .finite q ∧ Overflows q) ∨
        PoisonedLevel parsers positionObj marketObj size

theorem escapes_openedAtOf {created : Option Datetime} {qty : DecimalValue} {t : Datetime} :
    Escapes isParseFailure (openedAtOf created qty t) ↔ created = none ∧ qty.isSignaling := by
  cases created with
  | some openedAt => simp [openedAtOf]
  | none =>
    rw [openedAtOf, escapes_bind, escapes_eq isParseFailure_misses.invalidOperation]
    simp

/-- What raises once the instrument and the times are known. -/
theorem escapes_instrument_position {epic currency strategyId : String} {qty level : DecimalValue}
    {openedAt : Option Datetime} {updatedAt : Datetime} (hstrategy : strategyId ≠ "") :
    Escapes isParseFailure (do
      let instrument ← Frozen.make (entryInstrument epic currency)
      Frozen.make (⟨instrument, strategyId, qty, level, currency, openedAt, updatedAt⟩ :
        Wire.PositionFields)) ↔
      postInit (entryInstrument epic currency) = .ok () ∧
        (qty.isSignaling ∨ qty.eq (.finite 0) = .ok false ∧
          ∃ t, openedAt = some t ∧ t.utcOffset = some 0 ∧ level.isNan) := by
  rw [escapes_bind]
  constructor
  · rintro (hinstrument | ⟨instrument, hmake, hescapes⟩)
    · exact absurd hinstrument escapes_entryInstrument
    · have hval := Frozen.make_eq_ok_iff.mp hmake
      refine ⟨hval ▸ instrument.valid, ?_⟩
      exact (Wire.Position.escapes_make isParseFailure_misses _ hstrategy (by rw [hval]; rfl)).mp
        hescapes
  · rintro ⟨hvalid, hescapes⟩
    refine .inr ⟨⟨_, hvalid⟩, Frozen.make_of_valid hvalid, ?_⟩
    exact (Wire.Position.escapes_make isParseFailure_misses _ hstrategy rfl).mpr hescapes

theorem positionWith_escapes (parsers : DatetimeParsers)
    (positionObj marketObj : List (String × Json)) {strategyId : String} {updatedAt : Datetime}
    (hstrategy : strategyId ≠ "") (hutc : updatedAt.utcOffset = some 0) (qty : DecimalValue) :
    Escapes isParseFailure
      (positionWith parsers positionObj marketObj strategyId updatedAt qty) ↔
      PoisonedLevel parsers positionObj marketObj qty := by
  have hmiss := isParseFailure_misses
  unfold positionWith PoisonedLevel
  simp only [escapes_orRaise_bind (hmiss.valueError _), escapes_ofString_bind hmiss,
    escapes_require_bind (hmiss.valueError _)]
  refine exists_congr fun raw => and_congr_right fun _ => malformedOr_congr fun level =>
    and_congr_right fun _ => ?_
  rw [escapes_bind, escapes_openedAtOf]
  simp only [escapes_instrument_position hstrategy]
  cases hcreated : createdAt? parsers positionObj with
  | some created =>
    simp only [openedAtOf, Except.ok.injEq, exists_eq_left', eq_zero_eq_ok_iff]
    cases qty.isSignaling <;> simp
    tauto
  | none =>
    cases hsignaling : qty.isSignaling with
    | true => simp
    | false =>
      by_cases hzero : qty = .finite 0
      · simp [openedAtOf, hzero, bind, Except.bind]
      · have hne : qty.eq (.finite 0) = .ok false :=
          eq_zero_eq_ok_iff.mpr ⟨hsignaling, by simp [hzero]⟩
        simp [openedAtOf, hne, hzero, hutc, bind, Except.bind]

/-- The sign of a size changes nothing of what raises later. -/
theorem poisonedLevel_neg {parsers : DatetimeParsers} {positionObj marketObj : List (String × Json)}
    {size qty : DecimalValue} (h : size.neg = .ok qty) :
    PoisonedLevel parsers positionObj marketObj qty ↔
      PoisonedLevel parsers positionObj marketObj size := by
  obtain ⟨hzero, hqty, hsize, -⟩ := neg_eq_ok h
  simp only [PoisonedLevel, hqty, hsize, ne_eq, hzero]

theorem parsePosition_escapes (parsers : DatetimeParsers)
    (positionObj marketObj : List (String × Json)) {strategyId : String} {updatedAt : Datetime}
    (hstrategy : strategyId ≠ "") (hutc : updatedAt.utcOffset = some 0) :
    Escapes isParseFailure
      (parsePosition parsers positionObj marketObj strategyId updatedAt) ↔
      PoisonedPosition parsers positionObj marketObj := by
  have hmiss := isParseFailure_misses
  unfold parsePosition PoisonedPosition
  simp only [escapes_orRaise_bind (hmiss.valueError _), escapes_ofString_bind hmiss,
    escapes_require_bind (hmiss.valueError _)]
  refine and_congr_right fun _ => and_congr_right fun hdirection =>
    exists_congr fun raw => and_congr_right fun _ => malformedOr_congr fun size => ?_
  rw [escapes_bind]
  simp only [positionWith_escapes parsers positionObj marketObj hstrategy hutc, signedSize]
  rcases hdirection with hbuy | hsell
  · simp [hbuy]
  · simp only [hsell, (by decide : "SELL" ≠ "BUY"), if_false, true_and, escapes_neg hmiss]
    constructor
    · rintro (hraises | ⟨qty, hneg, hlevel⟩)
      · exact .inl hraises
      · exact .inr ((poisonedLevel_neg hneg).mp hlevel)
    · rintro (hraises | hlevel)
      · exact .inl hraises
      · rcases neg_returns_or_escapes hmiss size with ⟨qty, hneg⟩ | hraises
        · exact .inr ⟨qty, hneg, (poisonedLevel_neg hneg).mpr hlevel⟩
        · exact .inl ((escapes_neg hmiss).mp hraises)

/-! ## Working orders -/

/-- The first of the `currencies` of a market is there and no object. -/
def NoCurrencyObject (marketObj : List (String × Json)) : Prop :=
  ∃ first rest, Json.field marketObj "currencies" = .list (first :: rest) ∧ first.dict? = none

theorem escapes_marketCurrency {marketObj : List (String × Json)} :
    Escapes isParseFailure (marketCurrency marketObj) ↔ NoCurrencyObject marketObj := by
  unfold marketCurrency NoCurrencyObject
  split
  · rename_i first rest hfield
    rw [hfield]
    simp [Json.dict?]
  · rename_i first rest hnot hfield
    have hdict : first.dict? = none := by
      cases first <;> first | rfl | exact (hnot _ rfl).elim
    rw [hfield]
    simp [hdict, isParseFailure, isTypeOrValueError]
  · rename_i hdict hlist
    simp only [escapes_ok, false_iff]
    rintro ⟨first, rest, hfield, -⟩
    exact hlist first rest hfield

/-- The prices of an order that its type asks for are those the level stands for. -/
theorem escapes_order_prices {orderTypeRaw : String} {level : DecimalValue} :
    ((igOrderTypeToBlive orderTypeRaw).1.needsLimit ∧
        (∃ d, (if (igOrderTypeToBlive orderTypeRaw).2.1 then some level else none) = some d ∧
          d.isNan) ∨
      ((igOrderTypeToBlive orderTypeRaw).1.needsLimit →
        Wire.notPositive (if (igOrderTypeToBlive orderTypeRaw).2.1 then some level else none) =
          .ok false) ∧
        (¬ (igOrderTypeToBlive orderTypeRaw).1.needsLimit →
          (if (igOrderTypeToBlive orderTypeRaw).2.1 then some level else none) = none) ∧
        (igOrderTypeToBlive orderTypeRaw).1.needsStop ∧
        ∃ d, (if (igOrderTypeToBlive orderTypeRaw).2.2 then some level else none) = some d ∧
          d.isNan) ↔
      level.isNan ∧ orderTypeRaw ≠ "MARKET" := by
  unfold igOrderTypeToBlive
  split
  · rename_i hlimit
    simp [hlimit, OrderType.needsLimit, OrderType.needsStop]
  · split
    · rename_i hstop
      simp [hstop, OrderType.needsLimit, OrderType.needsStop]
    · split
      · rename_i hmarket
        simp [hmarket, OrderType.needsLimit, OrderType.needsStop]
      · rename_i hmarket
        simp [hmarket, OrderType.needsLimit, OrderType.needsStop]

/-- An entry of `/workingorders` whose parse raises an exception that is no parse failure. -/
def PoisonedOrder (orderObj marketObj : List (String × Json)) : Prop :=
  Json.textOf marketObj "epic" ≠ "" ∧
    (Json.textOf orderObj "direction" = "BUY" ∨ Json.textOf orderObj "direction" = "SELL") ∧
    ∃ sizeRaw, Json.present? orderObj "orderSize" = some sizeRaw ∧
      MalformedOr sizeRaw.toStr fun size =>
        ∃ levelRaw, Json.present? orderObj "orderLevel" = some levelRaw ∧
          MalformedOr levelRaw.toStr fun level =>
            NoCurrencyObject marketObj ∨
              ∃ currency, marketCurrency marketObj = .ok currency ∧
                postInit (entryInstrument (Json.textOf marketObj "epic") currency) = .ok () ∧
                (size.isNan ∨ size.le (.finite 0) = .ok false ∧ level.isNan ∧
                  Json.textOf orderObj "orderType" ≠ "MARKET")

theorem parseWorkingOrder_escapes (parsers : DatetimeParsers)
    (orderObj marketObj : List (String × Json)) {strategyId : String} (now : Utc) (fresh : UUID)
    (hstrategy : strategyId ≠ "") :
    Escapes isParseFailure
      (parseWorkingOrder parsers orderObj marketObj strategyId now fresh) ↔
      PoisonedOrder orderObj marketObj := by
  have hmiss := isParseFailure_misses
  unfold parseWorkingOrder PoisonedOrder
  simp only [escapes_orRaise_bind (hmiss.valueError _), escapes_ofString_bind hmiss,
    escapes_require_bind (hmiss.valueError _)]
  refine and_congr_right fun _ => and_congr_right fun hdirection =>
    exists_congr fun raw => and_congr_right fun _ => malformedOr_congr fun size =>
    exists_congr fun raw => and_congr_right fun _ => malformedOr_congr fun level => ?_
  rw [escapes_bind, escapes_marketCurrency]
  refine or_congr_right (exists_congr fun currency => and_congr_right fun _ => ?_)
  rw [escapes_bind]
  constructor
  · rintro (hinstrument | ⟨instrument, hmake, hescapes⟩)
    · exact absurd hinstrument escapes_entryInstrument
    · refine ⟨Frozen.make_eq_ok_iff.mp hmake ▸ instrument.valid, ?_⟩
      rw [escapes_make, Wire.Order.escapes_iff hmiss, escapes_order_prices] at hescapes
      exact hescapes.2
  · rintro ⟨hvalid, hescapes⟩
    refine .inr ⟨⟨_, hvalid⟩, Frozen.make_of_valid hvalid, ?_⟩
    rw [escapes_make, Wire.Order.escapes_iff hmiss, escapes_order_prices]
    exact ⟨hstrategy, hescapes⟩

/-! ## Prices -/

/-- The texts a price is read from: that of the last trade, or those of a bid and an offer. -/
structure Quote where
  traded : Option String
  bid : Option String
  ask : Option String

/-- Reading the price of a quote raises past the handler, or the price has the property. Without
a quote, or without a side of it, the handler skips the entry. -/
def RaisesOr (quote : Option Quote) (p : DecimalValue → Prop) : Prop :=
  ∃ q, quote = some q ∧
    ((∃ traded, q.traded = some traded ∧ MalformedOr traded p) ∨
      q.traded = none ∧ ∃ bid ask, q.bid = some bid ∧ q.ask = some ask ∧
        MalformedOr bid fun b => MalformedOr ask fun a =>
          SumRaises b a ∨ ∃ m, (b.add a >>= fun sum => sum.div (.finite 2)) = .ok m ∧ p m)

theorem raisesOr_congr {quote : Option Quote} {p q : DecimalValue → Prop} (h : ∀ d, p d ↔ q d) :
    RaisesOr quote p ↔ RaisesOr quote q := by
  simp only [RaisesOr, MalformedOr, h]

/-- A reader of the price of a quote. -/
def Reads (reader : Except PyError DecimalValue) (quote : Option Quote) : Prop :=
  ∀ {α : Type} (k : DecimalValue → Except PyError α),
    Escapes isParseFailure (reader >>= k) ↔
      RaisesOr quote fun d => Escapes isParseFailure (k d)

/-- The fallback is never taken: the exception of a malformed decimal gets past its handler. -/
theorem escapes_decimalOr {α : Type} {text : String} {fallback : Except PyError DecimalValue}
    {k : DecimalValue → Except PyError α} :
    Escapes isParseFailure (decimalOr text fallback >>= k) ↔
      MalformedOr text fun d => Escapes isParseFailure (k d) := by
  rw [← escapes_ofString_bind isParseFailure_misses]
  unfold decimalOr
  cases hread : ofString text with
  | ok d => rfl
  | error e =>
    cases ofString_error hread
    rfl

theorem escapes_midpoint {α : Type} {bid ask message : String}
    {k : DecimalValue → Except PyError α} :
    Escapes isParseFailure (midpoint bid ask message >>= k) ↔
      MalformedOr bid fun b => MalformedOr ask fun a =>
        SumRaises b a ∨ ∃ m, (b.add a >>= fun sum => sum.div (.finite 2)) = .ok m ∧
          Escapes isParseFailure (k m) := by
  have hmiss := isParseFailure_misses
  have herror : ∀ {text : String} {e : PyError}, ofString text = .error e →
      Malformed text ∧ e = invalidOperation := by
    intro text e h
    refine ⟨fun d hd => ?_, ofString_error h⟩
    rw [h] at hd
    cases hd
  have hnot : ∀ {text : String} {d : DecimalValue}, ofString text = .ok d → ¬ Malformed text :=
    fun h hm => hm _ h
  unfold midpoint MalformedOr
  cases hbid : ofString bid with
  | error e =>
    obtain ⟨hm, rfl⟩ := herror hbid
    simp [hm, bind, Except.bind, isTypeOrValueError, invalidOperation, isParseFailure]
  | ok b =>
    cases hask : ofString ask with
    | error e =>
      obtain ⟨hm, rfl⟩ := herror hask
      simp [hm, bind, Except.bind, isTypeOrValueError, invalidOperation, isParseFailure]
    | ok a =>
      simp only [hnot hbid, hnot hask, false_or, Except.ok.injEq, exists_eq_left']
      rw [escapes_bind]
      refine or_congr_left ?_
      rcases add_cases hmiss b a with ⟨hsum, hescapes⟩ | ⟨hsum, s, hs, hquiet, hrange⟩
      · simp only [hsum, iff_true]
        exact escapes_bind.mpr (.inl hescapes)
      · obtain ⟨m, hm⟩ := half_eq_ok hquiet hrange
        simp [hs, hm, hsum, bind, Except.bind]

/-- A text that is there and not empty. -/
def nonEmpty (text : Option String) : Option String := text.filter (· ≠ "")

/-- The quote of a chart state. -/
def streamQuote (state : ChartState) (suffix : String) : Quote where
  traded := nonEmpty (state.get? ("LTP_" ++ suffix))
  bid := nonEmpty (state.get? ("BID_" ++ suffix))
  ask := nonEmpty (state.get? ("OFR_" ++ suffix))

theorem nonEmpty_eq_some {text : Option String} {t : String} :
    nonEmpty text = some t ↔ text = some t ∧ t ≠ "" := by
  cases text <;> simp [nonEmpty, Option.filter_eq_some_iff]

theorem nonEmpty_eq_none {text : Option String} :
    nonEmpty text = none ↔ ∀ t, text = some t → t = "" := by
  cases text <;> simp [nonEmpty, Option.filter_eq_none_iff]

/-- A midpoint without a bid or without an offer is skipped. -/
theorem escapes_streamMid {α : Type} {state : ChartState} {suffix : String}
    {k : DecimalValue → Except PyError α} :
    Escapes isParseFailure (streamMid state suffix >>= k) ↔
      ∃ bid ask, (streamQuote state suffix).bid = some bid ∧
        (streamQuote state suffix).ask = some ask ∧
        MalformedOr bid fun b => MalformedOr ask fun a =>
          SumRaises b a ∨ ∃ m, (b.add a >>= fun sum => sum.div (.finite 2)) = .ok m ∧
            Escapes isParseFailure (k m) := by
  simp only [streamQuote, nonEmpty_eq_some]
  unfold streamMid
  cases hbid : state.get? ("BID_" ++ suffix) with
  | none => simp [escapes_bind, isParseFailure, isTypeOrValueError]
  | some bid =>
    cases hask : state.get? ("OFR_" ++ suffix) with
    | none => simp [escapes_bind, isParseFailure, isTypeOrValueError]
    | some ask =>
      by_cases hempty : bid = "" ∨ ask = ""
      · simp [hempty, escapes_bind, isParseFailure, isTypeOrValueError]
        tauto
      · simp only [hempty, if_false, escapes_midpoint]
        simp only [not_or] at hempty
        simp [hempty.1, hempty.2]

theorem reads_streamOhlc (state : ChartState) (suffix : String) :
    Reads (streamOhlc state suffix) (some (streamQuote state suffix)) := by
  intro α k
  simp only [RaisesOr, Option.some.injEq, exists_eq_left']
  unfold streamOhlc
  cases hltp : state.get? ("LTP_" ++ suffix) with
  | none =>
    have htraded : (streamQuote state suffix).traded = none := by simp [streamQuote, hltp, nonEmpty]
    simp [htraded, escapes_streamMid]
  | some ltp =>
    by_cases hempty : ltp = ""
    · have htraded : (streamQuote state suffix).traded = none := by
        simp [streamQuote, hltp, nonEmpty_eq_none, hempty]
      simp [htraded, hempty, escapes_streamMid]
    · have htraded : (streamQuote state suffix).traded = some ltp := by
        simp [streamQuote, hltp, nonEmpty_eq_some, hempty]
      simp [htraded, hempty, escapes_decimalOr]

/-- The quote of an object of a price entry. -/
def entryQuote? (entry : List (String × Json)) (field : String) : Option Quote :=
  (Json.field entry field).dict?.map fun obj =>
    { traded := (Json.present? obj "lastTraded").map Json.toStr
      bid := (Json.present? obj "bid").map Json.toStr
      ask := (Json.present? obj "ask").map Json.toStr }

theorem reads_ohlcValue (entry : List (String × Json)) (field : String) :
    Reads (ohlcValue entry field) (entryQuote? entry field) := by
  intro α k
  unfold ohlcValue RaisesOr entryQuote?
  cases hobj : (Json.field entry field).dict? with
  | none => simp [escapes_bind, isParseFailure, isTypeOrValueError]
  | some obj =>
    simp only [Option.map_some, Option.some.injEq, exists_eq_left']
    have hmid : Escapes isParseFailure (ohlcMid obj >>= k) ↔
        ∃ bid ask, (Json.present? obj "bid").map Json.toStr = some bid ∧
          (Json.present? obj "ask").map Json.toStr = some ask ∧
          MalformedOr bid fun b => MalformedOr ask fun a =>
            SumRaises b a ∨ ∃ m, (b.add a >>= fun sum => sum.div (.finite 2)) = .ok m ∧
              Escapes isParseFailure (k m) := by
      unfold ohlcMid
      cases Json.present? obj "bid" with
      | none => simp [escapes_bind, isParseFailure, isTypeOrValueError]
      | some bid =>
        cases Json.present? obj "ask" with
        | none => simp [escapes_bind, isParseFailure, isTypeOrValueError]
        | some ask => simp [escapes_midpoint]
    cases Json.present? obj "lastTraded" with
    | none => simpa using hmid
    | some lastTraded => simp [escapes_decimalOr]

/-! ## Bars -/

/-- The prices of a bar whose checks compare a NaN. -/
def NanPrices (openPrice high low close : DecimalValue) : Prop :=
  openPrice.isNan ∨ openPrice.le (.finite 0) = .ok false ∧
    (close.isNan ∨ close.le (.finite 0) = .ok false ∧
      (low.isNan ∨ low.le openPrice = .ok true ∧ high.isNan))

/-- What raises once the times of a bar are known. -/
def PoisonedPrices (openQuote highQuote lowQuote closeQuote : Option Quote) (volume : String)
    (timesValid : Prop) : Prop :=
  RaisesOr openQuote fun openPrice => RaisesOr highQuote fun high => RaisesOr lowQuote fun low =>
    RaisesOr closeQuote fun close => MalformedOr volume fun v =>
      v.isNan ∨ timesValid ∧ NanPrices openPrice high low close

/-- The volume of a bar is no NaN once it was read. -/
theorem escapes_volumeOf {α : Type} {text message : String} {k : DecimalValue → Except PyError α}
    {P : Prop} (hk : ∀ v, v.isNan = false → (Escapes isParseFailure (k v) ↔ P)) :
    Escapes isParseFailure (volumeOf text message >>= k) ↔
      MalformedOr text fun v => v.isNan ∨ P := by
  have hmiss := isParseFailure_misses
  unfold volumeOf MalformedOr Malformed
  cases hread : ofString text with
  | error e =>
    cases ofString_error hread
    simp [bind, Except.bind, isTypeOrValueError, invalidOperation, isParseFailure]
  | ok v =>
    rcases comparison_cases (fun x y => decide (x < y)) v (.finite 0) with
      ⟨hraise, hnan⟩ | ⟨x, y, hx, -, hok⟩
    · have hnan' : v.isNan = true := by simpa using hnan
      have hlt : v.lt (.finite 0) = .error invalidOperation := hraise
      simp [hlt, hnan', bind, Except.bind, hmiss.invalidOperation]
    · have hnan : v.isNan = false := by
        cases hv : v.isNan with
        | false => rfl
        | true => cases (rank_eq_none_iff.mpr hv).symm.trans hx
      have hlt : v.lt (.finite 0) = .ok (decide (x < y)) := hok
      cases hneg : decide (x < y) with
      | true => simp [hlt, hneg, hnan, bind, Except.bind, hk (.finite 0) rfl]
      | false => simp [hlt, hneg, hnan, bind, Except.bind, hk]

theorem escapes_bar (instrument : Instrument) (openTime closeTime : Datetime)
    (openPrice high low close v : DecimalValue) (hv : v.isNan = false) :
    Escapes isParseFailure (Frozen.make
      (⟨instrument, openTime, closeTime, openPrice, high, low, close, v, none⟩ : Wire.BarFields)) ↔
      (openTime.utcOffset = some 0 ∧ closeTime.utcOffset = some 0 ∧
        openTime.micros < closeTime.micros) ∧ NanPrices openPrice high low close := by
  rw [escapes_make, Wire.Bar.escapes_iff isParseFailure_misses _ rfl]
  simp [NanPrices, hv, and_assoc]

/-- Four readers of prices, a volume and the checks of the bar. -/
theorem escapes_prices {r₁ r₂ r₃ r₄ : Except PyError DecimalValue} {q₁ q₂ q₃ q₄ : Option Quote}
    (h₁ : Reads r₁ q₁) (h₂ : Reads r₂ q₂) (h₃ : Reads r₃ q₃) (h₄ : Reads r₄ q₄)
    (text message : String) (instrument : Instrument) (openTime closeTime : Datetime) :
    Escapes isParseFailure (do
      let openPrice ← r₁
      let high ← r₂
      let low ← r₃
      let close ← r₄
      let v ← volumeOf text message
      Frozen.make (⟨instrument, openTime, closeTime, openPrice, high, low, close, v, none⟩ :
        Wire.BarFields)) ↔
      PoisonedPrices q₁ q₂ q₃ q₄ text (openTime.utcOffset = some 0 ∧
        closeTime.utcOffset = some 0 ∧ openTime.micros < closeTime.micros) := by
  rw [h₁]
  refine raisesOr_congr fun openPrice => ?_
  rw [h₂]
  refine raisesOr_congr fun high => ?_
  rw [h₃]
  refine raisesOr_congr fun low => ?_
  rw [h₄]
  refine raisesOr_congr fun close => ?_
  exact escapes_volumeOf fun v hv => escapes_bar instrument openTime closeTime _ _ _ _ v hv

/-- A time of a chart update that the clock of the platform or the calendar cannot hold. -/
def TimeOverflows (utmMs barDuration : Int) : Prop :=
  ¬ (-67768040609740800000 ≤ utmMs ∧ utmMs < 67768036191676800000) ∨
    (-62135596800000 ≤ utmMs ∧ utmMs ≤ 253402300799999) ∧
      utmMs * 1000 - barDuration < -62135596800000000

/-- A chart state whose bar raises an exception that is no parse failure. -/
def PoisonedState (barDuration : Int) (state : ChartState) : Prop :=
  (state.get? "UTM").getD "" ≠ "" ∧
    ∃ utmMs, intOfString ((state.get? "UTM").getD "") = some utmMs ∧
      (TimeOverflows utmMs barDuration ∨
        (-62135596800000 ≤ utmMs ∧ utmMs ≤ 253402300799999) ∧
          PoisonedPrices (some (streamQuote state "OPEN")) (some (streamQuote state "HIGH"))
            (some (streamQuote state "LOW")) (some (streamQuote state "CLOSE"))
            ((state.get? "LTV").getD "0") (0 < barDuration))

theorem buildBarFromState_escapes (state : ChartState) (instrument : Instrument)
    (barDuration : Int) :
    Escapes isParseFailure (buildBarFromState state instrument barDuration) ↔
      PoisonedState barDuration state := by
  have hmiss := isParseFailure_misses
  unfold buildBarFromState buildBarWith PoisonedState
  simp only [escapes_require_bind (hmiss.valueError _), escapes_orRaise_bind (hmiss.valueError _)]
  refine and_congr_right fun _ => exists_congr fun utmMs => and_congr_right fun _ => ?_
  unfold TimeOverflows fromTimestampMs
  by_cases hrange : -62135596800000 ≤ utmMs ∧ utmMs ≤ 253402300799999
  · have hplatform : -67768040609740800000 ≤ utmMs ∧ utmMs < 67768036191676800000 := by omega
    simp only [hrange, hplatform, and_self, not_true_eq_false, if_true, false_or, true_and]
    unfold Datetime.minus
    by_cases hopen : -62135596800000000 ≤ utmMs * 1000 - barDuration
    · have hfits : ¬ utmMs * 1000 - barDuration < -62135596800000000 := by omega
      have hprices := escapes_prices (reads_streamOhlc state "OPEN")
        (reads_streamOhlc state "HIGH") (reads_streamOhlc state "LOW")
        (reads_streamOhlc state "CLOSE") ((state.get? "LTV").getD "0")
        "Lightstreamer LTV not numeric: " instrument ⟨utmMs * 1000 - barDuration, some 0⟩
        ⟨utmMs * 1000, some 0⟩
      simp only [true_and, sub_lt_self_iff] at hprices
      simpa [hopen, hfits, streamVolume, bind, Except.bind] using hprices
    · have hover : utmMs * 1000 - barDuration < -62135596800000000 := by omega
      simp [hopen, hover, bind, Except.bind, isParseFailure, isTypeOrValueError]
  · by_cases hplatform : -67768040609740800000 ≤ utmMs ∧ utmMs < 67768036191676800000
    · simp [hrange, hplatform, bind, Except.bind, isParseFailure, isTypeOrValueError]
    · simp [hrange, hplatform, bind, Except.bind, isParseFailure, isTypeOrValueError]

/-- A price entry whose bar raises an exception that is no parse failure. -/
def PoisonedPriceEntry (parsers : DatetimeParsers) (barDuration : Int)
    (entry : List (String × Json)) : Prop :=
  ∃ snapshot openTime,
    ((Json.field entry "snapshotTimeUTC").orElse (Json.field entry "snapshotTime")).str? =
      some snapshot ∧ snapshot ≠ "" ∧ parseIgSnapshot parsers snapshot = .ok openTime ∧
      (253402300799999999 < openTime.micros + openTime.utcOffset.getD 0 + barDuration ∨
        PoisonedPrices (entryQuote? entry "openPrice") (entryQuote? entry "highPrice")
          (entryQuote? entry "lowPrice") (entryQuote? entry "closePrice")
          ((Json.field? entry "lastTradedVolume").getD (.int 0)).toStr
          (openTime.utcOffset = some 0 ∧ 0 < barDuration))

theorem parseTimestamp_caught {parsers : DatetimeParsers} {text unrecognised : String} :
    ¬ Escapes isParseFailure (parseTimestamp parsers text unrecognised) := by
  unfold parseTimestamp
  simp only
  split
  · exact escapes_ok
  · cases parsers.strptime (String.ofList (PyStr.strip text.toList)) <;>
      simp [orRaise, Except.map, isParseFailure, isTypeOrValueError]

/-- The part of `_parse_price_bar` after the time of the start. -/
theorem escapes_plus_prices (instrument : Instrument) (barDuration : Int)
    (entry : List (String × Json)) (openTime : Datetime) :
    Escapes isParseFailure (do
      let closeTime ← openTime.plus barDuration
      let openPrice ← ohlcValue entry "openPrice"
      let high ← ohlcValue entry "highPrice"
      let low ← ohlcValue entry "lowPrice"
      let close ← ohlcValue entry "closePrice"
      let v ← volumeOf ((Json.field? entry "lastTradedVolume").getD (.int 0)).toStr
        "IG /prices lastTradedVolume not numeric: "
      Frozen.make (⟨instrument, openTime, closeTime, openPrice, high, low, close, v, none⟩ :
        Wire.BarFields)) ↔
      253402300799999999 < openTime.micros + openTime.utcOffset.getD 0 + barDuration ∨
        PoisonedPrices (entryQuote? entry "openPrice") (entryQuote? entry "highPrice")
          (entryQuote? entry "lowPrice") (entryQuote? entry "closePrice")
          ((Json.field? entry "lastTradedVolume").getD (.int 0)).toStr
          (openTime.utcOffset = some 0 ∧ 0 < barDuration) := by
  unfold Datetime.plus
  by_cases hfits :
      openTime.micros + openTime.utcOffset.getD 0 + barDuration ≤ 253402300799999999
  · have hnot : ¬ 253402300799999999 <
        openTime.micros + openTime.utcOffset.getD 0 + barDuration := by omega
    have hprices := escapes_prices (reads_ohlcValue entry "openPrice")
      (reads_ohlcValue entry "highPrice") (reads_ohlcValue entry "lowPrice")
      (reads_ohlcValue entry "closePrice")
      ((Json.field? entry "lastTradedVolume").getD (.int 0)).toStr
      "IG /prices lastTradedVolume not numeric: " instrument openTime
      { openTime with micros := openTime.micros + barDuration }
    simp only [lt_add_iff_pos_right, ← and_assoc, and_self] at hprices
    simpa [hfits, hnot, bind, Except.bind] using hprices
  · have hover : 253402300799999999 <
        openTime.micros + openTime.utcOffset.getD 0 + barDuration := by omega
    simp [hfits, hover, bind, Except.bind, isParseFailure, isTypeOrValueError]

theorem parsePriceBar_escapes (parsers : DatetimeParsers) (instrument : Instrument)
    (barDuration : Int) (entry : List (String × Json)) :
    Escapes isParseFailure (parsePriceBar parsers instrument barDuration entry) ↔
      PoisonedPriceEntry parsers barDuration entry := by
  have hmiss := isParseFailure_misses
  unfold parsePriceBar PoisonedPriceEntry snapshotText
  simp only [bind_assoc, escapes_orRaise_bind (hmiss.valueError _),
    escapes_require_bind (hmiss.valueError _)]
  refine exists_congr fun snapshot => ?_
  constructor
  · rintro ⟨htext, hne, hescapes⟩
    rcases escapes_bind.mp hescapes with hnot | ⟨text, htext', hescapes⟩
    · exact absurd hnot escapes_ok
    cases htext'
    rcases escapes_bind.mp hescapes with hnot | ⟨openTime, htime, hescapes⟩
    · exact absurd hnot parseTimestamp_caught
    refine ⟨openTime, htext, hne, htime, ?_⟩
    exact (escapes_plus_prices instrument barDuration entry openTime).mp hescapes
  · rintro ⟨openTime, htext, hne, htime, hpoison⟩
    refine ⟨htext, hne, escapes_bind.mpr (.inr ⟨snapshot, rfl, ?_⟩)⟩
    refine escapes_bind.mpr (.inr ⟨openTime, htime, ?_⟩)
    exact (escapes_plus_prices instrument barDuration entry openTime).mpr hpoison

end Blive
