import Blive.Domain.WireTypes

/-!
# What the validators of the wire records let through

A validator raises `ValueError` by design. It raises `InvalidOperation` where a check before
which all others passed compares a NaN. For each record, the fields on which that happens.
-/

namespace Blive.Wire

open DecimalValue

variable {caught : PyError → Bool}

theorem escapes_requireUtc (h : MissesArithmetic caught) {t : Datetime} {n : String} :
    ¬ Escapes caught (requireUtc t n) := escapes_require (h.valueError _)

theorem Instrument.escapes_iff (h : MissesArithmetic caught) (i : InstrumentFields) :
    Escapes caught (postInit i) ↔
      (i.symbol ≠ "" ∧ PyStr.isStripped i.symbol ∧ ' ' ∉ i.symbol.toList) ∧
        (i.venue ≠ "" ∧ PyStr.isUpper i.venue) ∧
        requireIsoCurrency i.currency "Instrument.currency" = .ok () ∧ i.multiplier.isNan := by
  simp only [postInit, requireIsoCurrency, escapes_require_bind (h.valueError _),
    escapes_requireNot (h.valueError _), escapes_le h.invalidOperation, isNan_finite,
    require_eq_ok_iff]
  simp

theorem Bar.escapes_iff (h : MissesArithmetic caught) (b : BarFields) (hvwap : b.vwap = none) :
    Escapes caught (postInit b) ↔
      b.openTimeUtc.utcOffset = some 0 ∧ b.closeTimeUtc.utcOffset = some 0 ∧
        b.openTimeUtc.micros < b.closeTimeUtc.micros ∧
        (b.openPrice.isNan ∨ b.openPrice.le (.finite 0) = .ok false ∧
          (b.close.isNan ∨ b.close.le (.finite 0) = .ok false ∧
            (b.low.isNan ∨ b.low.le b.openPrice = .ok true ∧
              (b.high.isNan ∨ b.openPrice.le b.high = .ok true ∧ b.low.le b.close = .ok true ∧
                b.close.le b.high = .ok true ∧ b.volume.isNan)))) := by
  have hopen := fun h => (not_isNan_of_le (a := b.openPrice) (b := .finite 0) (r := false) h).1
  have hclose := fun h => (not_isNan_of_le (a := b.close) (b := .finite 0) (r := false) h).1
  have hlow := fun h => (not_isNan_of_le (a := b.low) (b := b.openPrice) (r := true) h).1
  have hhigh := fun h => (not_isNan_of_le (a := b.openPrice) (b := b.high) (r := true) h).2
  simp only [postInit, hvwap, requireUtc, escapes_require_bind (h.valueError _),
    escapes_requireNot_bind (h.valueError _), escapes_requireThat_bind (h.valueError _),
    escapes_orElse, escapes_andThen, orElse_eq_ok_false_iff, andThen_eq_ok_true_iff,
    escapes_le h.invalidOperation, escapes_lt h.invalidOperation, isNan_finite]
  simp
  grind

theorem notPositive_escapes (h : MissesArithmetic caught) (price : Option DecimalValue) :
    Escapes caught (notPositive price) ↔ ∃ d, price = some d ∧ d.isNan := by
  cases price with
  | none => simp [notPositive]
  | some d => simp [notPositive, escapes_le h.invalidOperation]

theorem Order.escapes_iff (h : MissesArithmetic caught) (o : OrderFields) :
    Escapes caught (postInit o) ↔
      o.strategyId ≠ "" ∧ (o.quantity.isNan ∨ o.quantity.le (.finite 0) = .ok false ∧
        (o.orderType.needsLimit ∧ (∃ d, o.limitPrice = some d ∧ d.isNan) ∨
          (o.orderType.needsLimit → notPositive o.limitPrice = .ok false) ∧
            (¬ o.orderType.needsLimit → o.limitPrice = none) ∧
            o.orderType.needsStop ∧ ∃ d, o.stopPrice = some d ∧ d.isNan)) := by
  simp only [postInit, requireUtc, escapes_require_bind (h.valueError _),
    escapes_requireNot_bind (h.valueError _), escapes_require (h.valueError _), escapes_andThen,
    escapes_ok, andThen_decide_eq_ok_false_iff, notPositive_escapes h,
    escapes_le h.invalidOperation, isNan_finite]
  simp

theorem checkOpened_escapes (h : MissesArithmetic caught) {quantity avgCost : DecimalValue}
    {openedAt : Option Datetime} :
    Escapes caught (checkOpened quantity avgCost openedAt) ↔
      quantity.isSignaling ∨ quantity.eq (.finite 0) = .ok false ∧
        ∃ t, openedAt = some t ∧ t.utcOffset = some 0 ∧ avgCost.isNan := by
  rw [checkOpened, escapes_bind, escapes_eq h.invalidOperation, isSignaling_finite]
  apply or_congr (by simp)
  constructor
  · rintro ⟨zero, hzero, hrest⟩
    cases zero with
    | true => exact absurd hrest (escapes_require (h.valueError _))
    | false =>
      obtain ⟨t, ht, hrest⟩ := (escapes_orRaise_bind (h.valueError _)).mp hrest
      obtain ⟨hutc, hrest⟩ := (escapes_require_bind (h.valueError _)).mp hrest
      rw [escapes_requireNot (h.valueError _), escapes_le h.invalidOperation] at hrest
      exact ⟨hzero, t, ht, hutc, by simpa using hrest⟩
  · rintro ⟨hzero, t, ht, hutc, hnan⟩
    refine ⟨false, hzero, (escapes_orRaise_bind (h.valueError _)).mpr ⟨t, ht, ?_⟩⟩
    refine (escapes_require_bind (h.valueError _)).mpr ⟨hutc, ?_⟩
    rw [escapes_requireNot (h.valueError _), escapes_le h.invalidOperation]
    exact .inl hnan

theorem Position.escapes_iff (h : MissesArithmetic caught) (p : PositionFields) :
    Escapes caught (postInit p) ↔
      p.strategyId ≠ "" ∧ requireIsoCurrency p.currency "Position.currency" = .ok () ∧
        p.currency = p.instrument.val.currency ∧
        (p.quantity.isSignaling ∨ p.quantity.eq (.finite 0) = .ok false ∧
          ∃ t, p.openedAt = some t ∧ t.utcOffset = some 0 ∧ p.avgCost.isNan) := by
  simp only [postInit, requireIsoCurrency, escapes_require_bind (h.valueError _),
    require_eq_ok_iff]
  rw [escapes_bind, checkOpened_escapes h]
  simp [escapes_requireUtc h]

/-- A position in the currency of its instrument. -/
theorem Position.escapes_make (h : MissesArithmetic caught) (p : PositionFields)
    (hstrategy : p.strategyId ≠ "") (hcurrency : p.currency = p.instrument.val.currency) :
    Escapes caught (Frozen.make p) ↔
      p.quantity.isSignaling ∨ p.quantity.eq (.finite 0) = .ok false ∧
        ∃ t, p.openedAt = some t ∧ t.utcOffset = some 0 ∧ p.avgCost.isNan := by
  have hiso : requireIsoCurrency p.currency "Position.currency" = .ok () := by
    rw [hcurrency]
    exact requireIsoCurrency_eq_ok_iff.mpr
      (requireIsoCurrency_eq_ok_iff.mp ((Instrument.valid_iff _).mp p.instrument.valid).2.2.1)
  rw [Blive.escapes_make, Position.escapes_iff h]
  constructor
  · rintro ⟨-, -, -, hnan⟩
    exact hnan
  · intro hnan
    exact ⟨hstrategy, hiso, hcurrency, hnan⟩

end Blive.Wire
