import Blive.Adapters.Ig.Broker
import Blive.Adapters.Ig.MarketData

/-!
# Timestamps in UTC

`_parse_ig_timestamp` and `_parse_ig_snapshot` are meant to answer in UTC. They keep the offset of
a text that carries one, and drop it in front of a `Z`. The entries of such a text then fail the
checks of the domain, outside the handler of the parser. When a text is read for the instant it
denotes, and what its entries become.
-/

namespace Blive

/-! ## What a text denotes -/

namespace Datetime

/-- The same instant in UTC. -/
def toUtc (value : Datetime) : Datetime := ⟨value.micros, some 0⟩

/-- The wall clock reads UTC: the offset is zero, or the value is naive and read as UTC. -/
def ReadsUtc (value : Datetime) : Prop := value.utcOffset.getD 0 = 0

theorem ReadsUtc.replaceUtc {value : Datetime} (h : value.ReadsUtc) :
    value.replaceUtc = value.toUtc := by
  simp only [Datetime.replaceUtc, toUtc, h.symm ▸ Int.add_zero value.micros]

theorem ReadsUtc.eq_toUtc {value : Datetime} (h : value.ReadsUtc)
    (haware : value.utcOffset ≠ none) : value = value.toUtc := by
  obtain ⟨micros, utcOffset⟩ := value
  cases utcOffset with
  | none => exact absurd rfl haware
  | some offset => exact congrArg (Datetime.mk micros) (congrArg some h)

end Datetime

/-- Parsers that find the same instants and answer them in UTC. -/
def DatetimeParsers.utc (parsers : DatetimeParsers) : DatetimeParsers where
  fromisoformat text := (parsers.fromisoformat text).map Datetime.toUtc
  strptime text := (parsers.strptime text).map Datetime.toUtc

/-- What the date parsers read in a text: in ISO 8601 without a `Z` at the end, else in the
format with slashes. -/
def readTimestamp (parsers : DatetimeParsers) (text : String) : Option Datetime :=
  let stripped := PyStr.strip text.toList
  let iso := if stripped.getLast? = some 'Z' then stripped.dropLast else stripped
  (parsers.fromisoformat (String.ofList iso)).or (parsers.strptime (String.ofList stripped))

section Parse

variable {parsers : DatetimeParsers} {text unrecognised : String} {value : Datetime}

/-- What is left where ISO 8601 does not read the text: the format with slashes. -/
theorem slashed_cases (slashed : Option Datetime) (unrecognised : String) :
    (slashed = none ∧ (orRaise slashed (.valueError unrecognised)).map Datetime.replaceUtc =
      .error (.valueError unrecognised)) ∨
    ∃ value, slashed = some value ∧
      (orRaise slashed (.valueError unrecognised)).map Datetime.replaceUtc =
        .ok value.replaceUtc := by
  cases slashed with
  | none => exact .inl ⟨rfl, rfl⟩
  | some value => exact .inr ⟨value, rfl, rfl⟩

/-- A timestamp is what was read, its wall clock taken as UTC unless it carries an offset. -/
theorem parseTimestamp_cases (parsers : DatetimeParsers) (text unrecognised : String) :
    (readTimestamp parsers text = none ∧
      parseTimestamp parsers text unrecognised = .error (.valueError unrecognised)) ∨
    ∃ value, readTimestamp parsers text = some value ∧
      (parseTimestamp parsers text unrecognised = .ok value.replaceUtc ∨
        (value.utcOffset ≠ none ∧ parseTimestamp parsers text unrecognised = .ok value)) := by
  unfold readTimestamp parseTimestamp
  dsimp only
  generalize PyStr.strip text.toList = stripped
  have hslashed := slashed_cases (parsers.strptime (String.ofList stripped)) unrecognised
  by_cases hz : stripped.getLast? = some 'Z'
  · simp only [if_pos hz]
    cases parsers.fromisoformat (String.ofList stripped.dropLast) with
    | some value => exact .inr ⟨value, rfl, .inl rfl⟩
    | none =>
      rcases hslashed with hnone | ⟨value, hvalue, hok⟩
      · exact .inl hnone
      · exact .inr ⟨value, hvalue, .inl hok⟩
  · simp only [if_neg hz]
    cases parsers.fromisoformat (String.ofList stripped) with
    | some value =>
      refine .inr ⟨value, rfl, ?_⟩
      by_cases hnaive : value.utcOffset = none
      · simp [hnaive]
      · simp [hnaive]
    | none =>
      rcases hslashed with hnone | ⟨value, hvalue, hok⟩
      · exact .inl hnone
      · exact .inr ⟨value, hvalue, .inl hok⟩

theorem readTimestamp_utc (parsers : DatetimeParsers) (text : String) :
    readTimestamp parsers.utc text = (readTimestamp parsers text).map Datetime.toUtc := by
  simp only [readTimestamp, DatetimeParsers.utc, Option.map_or]

/-- A text whose wall clock reads UTC is read for the instant it denotes. -/
theorem parseTimestamp_of_readsUtc (hread : readTimestamp parsers text = some value)
    (hutc : value.ReadsUtc) (unrecognised : String) :
    parseTimestamp parsers text unrecognised = .ok value.toUtc := by
  rcases parseTimestamp_cases parsers text unrecognised with ⟨hnone, _⟩ | ⟨v, hv, hparsed⟩
  · cases hread.symm.trans hnone
  · cases hread.symm.trans hv
    rcases hparsed with hok | ⟨haware, hok⟩
    · rw [hok, hutc.replaceUtc]
    · rw [hok, ← hutc.eq_toUtc haware]

theorem exists_read {parsed : Datetime}
    (hparsed : parseTimestamp parsers text unrecognised = .ok parsed) :
    ∃ value, readTimestamp parsers text = some value := by
  rcases parseTimestamp_cases parsers text unrecognised with ⟨_, herror⟩ | ⟨value, hvalue, _⟩
  · cases herror.symm.trans hparsed
  · exact ⟨value, hvalue⟩

/-- The value is the instant that was read, in UTC, only where the wall clock reads UTC. -/
theorem readsUtc_of_parseTimestamp {parsed : Datetime}
    (hread : readTimestamp parsers text = some value)
    (hparsed : parseTimestamp parsers text unrecognised = .ok parsed)
    (hoffset : parsed.utcOffset = some 0) (hinstant : parsed.micros = value.micros) :
    value.ReadsUtc := by
  rcases parseTimestamp_cases parsers text unrecognised with ⟨hnone, _⟩ | ⟨v, hv, hcases⟩
  · cases hread.symm.trans hnone
  · cases hread.symm.trans hv
    rcases hcases with hok | ⟨_, hok⟩
    · cases hok.symm.trans hparsed
      simp only [Datetime.replaceUtc] at hinstant
      show value.utcOffset.getD 0 = 0
      omega
    · cases hok.symm.trans hparsed
      show value.utcOffset.getD 0 = 0
      rw [hoffset]
      rfl

/-- Where the wall clock reads UTC, parsers that answer in UTC would change nothing. -/
theorem parseTimestamp_utc (h : ∀ value, readTimestamp parsers text = some value → value.ReadsUtc)
    (unrecognised : String) :
    parseTimestamp parsers.utc text unrecognised = parseTimestamp parsers text unrecognised := by
  cases hread : readTimestamp parsers text with
  | none =>
    have hread' : readTimestamp parsers.utc text = none := by
      rw [readTimestamp_utc, hread]
      rfl
    rcases parseTimestamp_cases parsers text unrecognised with ⟨_, herror⟩ | ⟨v, hv, _⟩
    · rcases parseTimestamp_cases parsers.utc text unrecognised with ⟨_, herror'⟩ | ⟨v, hv, _⟩
      · rw [herror, herror']
      · cases hread'.symm.trans hv
    · cases hread.symm.trans hv
  | some value =>
    have hread' : readTimestamp parsers.utc text = some value.toUtc := by
      rw [readTimestamp_utc, hread]
      rfl
    rw [parseTimestamp_of_readsUtc hread (h value hread),
      parseTimestamp_of_readsUtc hread' rfl]
    rfl

end Parse

/-! ## The entries of a text -/

/-- The text of the creation date of a position or a working order. -/
def createdText (items : List (String × Json)) : Option String :=
  ((Json.field items "createdDate").orElse (Json.field items "createdDateUTC")).str?

/-- What is wanted of a text: both parsers read the instant it denotes, in UTC, and no entry is
dropped that would be kept if the parsers answered in UTC. -/
structure UtcAndLossless (parsers : DatetimeParsers) (text : String) : Prop where
  parsed : ∃ value read, parseIgTimestamp parsers text = .ok value ∧
    parseIgSnapshot parsers text = .ok value ∧ readTimestamp parsers text = some read ∧
      value.micros = read.micros ∧ value.utcOffset = some 0 ∧
        ∀ fieldName, requireUtc value fieldName = .ok ()
  position : ∀ positionObj marketObj strategyId updatedAt, createdText positionObj = some text →
    (∃ p, parsePosition parsers.utc positionObj marketObj strategyId updatedAt = .ok p) →
      ∃ p, parsePosition parsers positionObj marketObj strategyId updatedAt = .ok p
  order : ∀ orderObj marketObj strategyId now fresh, createdText orderObj = some text →
    (∃ o, parseWorkingOrder parsers.utc orderObj marketObj strategyId now fresh = .ok o) →
      ∃ o, parseWorkingOrder parsers orderObj marketObj strategyId now fresh = .ok o
  bar : ∀ instrument barDuration entry, snapshotText entry = .ok text →
    (∃ bar, parsePriceBar parsers.utc instrument barDuration entry = .ok bar) →
      ∃ bar, parsePriceBar parsers instrument barDuration entry = .ok bar

section Entries

variable {parsers : DatetimeParsers} {text : String}

theorem createdAt?_utc (h : ∀ value, readTimestamp parsers text = some value → value.ReadsUtc)
    {items : List (String × Json)} (hitems : createdText items = some text) :
    createdAt? parsers.utc items = createdAt? parsers items := by
  unfold createdText at hitems
  simp only [createdAt?, hitems, parseIgTimestamp, parseTimestamp_utc h]

/-- An accepted text is read for what it denotes, and costs no position, order or bar, if and
only if it carries no offset, or the offset zero. -/
theorem timestamps_lossless_iff (haccepted : (∃ value, parseIgTimestamp parsers text = .ok value) ∨
      ∃ value, parseIgSnapshot parsers text = .ok value) :
    UtcAndLossless parsers text ↔
      ∀ value, readTimestamp parsers text = some value → value.ReadsUtc := by
  constructor
  · intro h value hread
    obtain ⟨parsed, read, hparsed, _, hread', hinstant, hoffset, _⟩ := h.parsed
    cases hread.symm.trans hread'
    exact readsUtc_of_parseTimestamp hread hparsed hoffset hinstant
  · intro h
    obtain ⟨value, hread⟩ : ∃ value, readTimestamp parsers text = some value := by
      rcases haccepted with ⟨_, hparsed⟩ | ⟨_, hparsed⟩
      · exact exists_read hparsed
      · exact exists_read hparsed
    have hparse := parseTimestamp_of_readsUtc hread (h value hread)
    refine ⟨⟨value.toUtc, value, hparse _, hparse _, hread, rfl, rfl, fun _ => rfl⟩, ?_, ?_, ?_⟩
    · intro positionObj marketObj strategyId updatedAt htext hkept
      have hcreated := createdAt?_utc h htext
      simpa only [parsePosition, positionWith, hcreated] using hkept
    · intro orderObj marketObj strategyId now fresh htext hkept
      have hcreated := createdAt?_utc h htext
      simpa only [parseWorkingOrder, hcreated] using hkept
    · intro instrument barDuration entry htext hkept
      have hsnapshot : parseIgSnapshot parsers.utc text = parseIgSnapshot parsers text :=
        parseTimestamp_utc h _
      obtain ⟨bar, hbar⟩ := hkept
      refine ⟨bar, ?_⟩
      unfold parsePriceBar at hbar ⊢
      rw [htext] at hbar ⊢
      obtain ⟨_, htime, hbar⟩ := bind_eq_ok_iff.mp hbar
      cases htime
      rw [hsnapshot] at hbar
      exact hbar

end Entries

/-- The date parsers on one text with an offset, and on one with slashes. -/
def mayDayParsers : DatetimeParsers where
  fromisoformat text :=
    if text = "2026-05-01T12:00:00+02:00" then some ⟨1777629600000000, some 7200000000⟩ else none
  strptime text := if text = "2026/05/01 12:00:00" then some ⟨1777636800000000, none⟩ else none

theorem timestamps_lossless_slashes :
    UtcAndLossless mayDayParsers "2026/05/01 12:00:00" ↔
      ∀ value, readTimestamp mayDayParsers "2026/05/01 12:00:00" = some value → value.ReadsUtc :=
  timestamps_lossless_iff (.inl (exists_ok_of_isSome (by decide +kernel)))

/-- A position that was opened at a time with an offset. -/
def offsetPosition : List (String × Json) :=
  [("direction", .str "BUY"), ("size", .str "1"), ("level", .str "7300"),
    ("currency", .str "EUR"), ("createdDate", .str "2026-05-01T12:00:00+02:00")]

/-- Both parsers accept the text and keep its offset, and the position is dropped for it. -/
theorem not_timestamps_lossless :
    (∃ value, parseIgTimestamp mayDayParsers "2026-05-01T12:00:00+02:00" = .ok value) ∧
      ¬ UtcAndLossless mayDayParsers "2026-05-01T12:00:00+02:00" := by
  refine ⟨exists_ok_of_isSome (by decide +kernel), ?_⟩
  intro h
  obtain ⟨p, hp⟩ := h.position offsetPosition [("epic", .str "IX.D.CAC40.CASH.IP")] "ig_ACC123"
    ⟨1777636800000000, some 0⟩ (by decide +kernel) (exists_ok_of_isSome (by decide +kernel))
  have hdropped : (parsePosition mayDayParsers offsetPosition
      [("epic", .str "IX.D.CAC40.CASH.IP")] "ig_ACC123"
      ⟨1777636800000000, some 0⟩).toOption.isSome = false := by
    decide +kernel
  rw [hp] at hdropped
  cases hdropped

end Blive
