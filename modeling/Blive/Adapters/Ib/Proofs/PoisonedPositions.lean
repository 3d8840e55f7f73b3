import Blive.Adapters.Ib.Positions
import Blive.Domain.Proofs.WireTypes

/-!
# Positions of IB that no handler skips

The handler of `positions` names the exceptions of a wrong shape, of a missing attribute and of
a wrong type, but none of the arithmetic. For which entries that matters.
-/

namespace Blive

open DecimalValue

theorem isIbParseFailure_misses : MissesArithmetic isIbParseFailure :=
  ⟨fun _ => rfl, rfl, rfl⟩

/-- The instrument a contract names, when its fields are strings that the checks before that of
the multiplier accept. -/
def NamesInstrument (contract : IbContract) (symbol venue currency : String) : Prop :=
  contract.symbol.orEmpty = .text symbol ∧ contract.venue = .text venue ∧
    contract.currency.orEmpty = .text currency ∧
    (symbol ≠ "" ∧ PyStr.isStripped symbol ∧ ' ' ∉ symbol.toList) ∧
    (venue ≠ "" ∧ PyStr.isUpper venue) ∧
    requireIsoCurrency currency "Instrument.currency" = .ok ()

/-- The text of the multiplier; `"1"` stands for a missing one. -/
def IbContract.multiplierText (contract : IbContract) : String :=
  if contract.multiplier.orEmpty = .text "" then "1" else contract.multiplier.orEmpty.decimalText

theorem multiplierOf_eq (contract : IbContract) :
    contract.multiplierOf = ofString contract.multiplierText := by
  have hone : ofString "1" = .ok (.finite 1) := by decide +kernel
  unfold IbContract.multiplierOf IbContract.multiplierText
  split
  · exact hone.symm
  · rfl

/-- The text of an attribute that is there. -/
def IbAttr.shown? (attr : IbAttr) : Option String := attr.toStr.toOption

/-- An entry whose parse raises an exception of the arithmetic. -/
def PoisonedIbPosition (ibPos : IbPosition) : Prop :=
  ∃ contract, ibPos.contract = some contract ∧ contract.symbol.orEmpty ≠ .text "" ∧
    contract.currency.orEmpty ≠ .text "" ∧
    MalformedOr contract.multiplierText fun multiplier =>
      ∃ symbol venue currency, NamesInstrument contract symbol venue currency ∧
        (multiplier.isNan ∨ multiplier.le (.finite 0) = .ok false ∧
          ∃ position, ibPos.position.shown? = some position ∧
            MalformedOr position fun quantity =>
              ∃ avgCost, ibPos.avgCost.shown? = some avgCost ∧
                MalformedOr avgCost fun cost =>
                  quantity.isSignaling ∨ quantity ≠ .finite 0 ∧ cost.isNan)

theorem escapes_asText_bind {α : Type} {attr : IbAttr} {e : PyError}
    (he : isIbParseFailure e = true) {k : String → Except PyError α} :
    Escapes isIbParseFailure (attr.asText e >>= k) ↔
      ∃ text, attr = .text text ∧ Escapes isIbParseFailure (k text) := by
  cases attr <;> simp [IbAttr.asText, escapes_bind, he]

theorem escapes_toStr_bind {α : Type} {attr : IbAttr} {k : String → Except PyError α} :
    Escapes isIbParseFailure (attr.toStr >>= k) ↔
      ∃ text, attr.shown? = some text ∧ Escapes isIbParseFailure (k text) := by
  cases attr <;> simp [IbAttr.toStr, IbAttr.shown?, escapes_bind, isIbParseFailure,
    Except.toOption]

/-- An instrument is built, and what follows does not depend on which it is. -/
theorem escapes_ibInstrument_bind {α : Type} {contract : IbContract} {assetClass : AssetClass}
    {multiplier : DecimalValue} {k : Wire.Instrument → Except PyError α} {P : Prop}
    (hk : ∀ instrument, Escapes isIbParseFailure (k instrument) ↔ P) :
    Escapes isIbParseFailure (ibInstrument contract.symbol.orEmpty contract.venue
        contract.currency.orEmpty assetClass multiplier >>= k) ↔
      ∃ symbol venue currency, NamesInstrument contract symbol venue currency ∧
        (multiplier.isNan ∨ multiplier.le (.finite 0) = .ok false ∧ P) := by
  have hmiss := isIbParseFailure_misses
  have hattribute : isIbParseFailure (.other "AttributeError") = true := by decide
  have htype : isIbParseFailure (.other "TypeError") = true := by decide
  have hmake : ∀ fields : Wire.InstrumentFields,
      Escapes isIbParseFailure (Frozen.make fields >>= k) ↔
        Escapes isIbParseFailure (postInit fields) ∨ postInit fields = .ok () ∧ P := by
    intro fields
    rw [escapes_bind, escapes_make]
    apply or_congr_right
    constructor
    · rintro ⟨instrument, hval, hescapes⟩
      exact ⟨Frozen.make_eq_ok_iff.mp hval ▸ instrument.valid, (hk instrument).mp hescapes⟩
    · rintro ⟨hvalid, hP⟩
      exact ⟨_, Frozen.make_of_valid hvalid, (hk _).mpr hP⟩
  unfold ibInstrument NamesInstrument
  simp only [bind_assoc, escapes_asText_bind hattribute, escapes_asText_bind htype, hmake,
    Wire.Instrument.escapes_iff hmiss, Wire.Instrument.valid_iff]
  constructor
  · rintro ⟨symbol, hsymbol, venue, hvenue, currency, hcurrency, hrest⟩
    refine ⟨symbol, venue, currency, ?_⟩
    tauto
  · rintro ⟨symbol, venue, currency, ⟨hsymbol, hvenue, hcurrency, hchecks⟩, hrest⟩
    refine ⟨symbol, hsymbol, venue, hvenue, currency, hcurrency, ?_⟩
    tauto

theorem escapes_ib_quantity {instrument : Wire.Instrument} {strategyId : String}
    {updatedAt : Datetime} {quantity cost : DecimalValue} (hstrategy : strategyId ≠ "")
    (hutc : updatedAt.utcOffset = some 0) :
    Escapes isIbParseFailure (do
      let isZero ← quantity.eq (.finite 0)
      Frozen.make ({
        instrument, strategyId, quantity
        avgCost := if isZero then .finite 0 else cost
        currency := instrument.val.currency
        openedAt := if isZero then none else some updatedAt
        updatedAt } : Wire.PositionFields)) ↔
      quantity.isSignaling ∨ quantity ≠ .finite 0 ∧ cost.isNan := by
  have hmiss := isIbParseFailure_misses
  have hmake : ∀ isZero : Bool, Escapes isIbParseFailure (Frozen.make ({
      instrument, strategyId, quantity
      avgCost := if isZero then .finite 0 else cost
      currency := instrument.val.currency
      openedAt := if isZero then none else some updatedAt
      updatedAt } : Wire.PositionFields)) ↔ _ :=
    fun isZero => Wire.Position.escapes_make hmiss _ hstrategy rfl
  rw [escapes_bind, escapes_eq hmiss.invalidOperation]
  simp only [hmake, eq_zero_eq_ok_iff]
  cases hsignaling : quantity.isSignaling with
  | true => simp
  | false =>
    by_cases hzero : quantity = .finite 0
    · simp [hzero]
    · simp [hzero, hutc]

theorem parseIbPosition_escapes {strategyId : String} {updatedAt : Datetime} (ibPos : IbPosition)
    (hstrategy : strategyId ≠ "") (hutc : updatedAt.utcOffset = some 0) :
    Escapes isIbParseFailure (parseIbPosition strategyId updatedAt ibPos) ↔
      PoisonedIbPosition ibPos := by
  have hmiss := isIbParseFailure_misses
  unfold parseIbPosition PoisonedIbPosition instrumentFromContract
  rw [escapes_orRaise_bind rfl]
  refine exists_congr fun contract => and_congr_right fun _ => ?_
  simp only [bind_assoc, escapes_require_bind (by rfl : isIbParseFailure (.ibShapeError _) = true),
    multiplierOf_eq, escapes_ofString_bind hmiss]
  refine and_congr_right fun _ => and_congr_right fun _ => malformedOr_congr fun multiplier => ?_
  refine escapes_ibInstrument_bind fun instrument => ?_
  simp only [escapes_toStr_bind, escapes_ofString_bind hmiss,
    escapes_ib_quantity hstrategy hutc]

end Blive
