import Mathlib.Algebra.Order.Field.Basic
import Blive.Domain.Types

/-!
# EODHD unit-of-quote conventions

`adapters/eodhd/conventions.py`: the catalogue that converts an EODHD price to the unit IB
quotes the symbol in.
-/

namespace Blive

inductive ConventionKind where
  | identity | manualScale
  deriving DecidableEq, Repr

structure ConventionFields where
  kind : ConventionKind
  divisor : Option Decimal := none
  deriving DecidableEq

instance : PostInit ConventionFields where
  postInit c := do
    if c.kind = .manualScale then
      match c.divisor with
      | none => .error (.valueError "MANUAL_SCALE convention requires a divisor")
      | some divisor => require (0 < divisor) (.valueError "MANUAL_SCALE divisor must be > 0, got ")
    require (¬ (c.kind = .identity ∧ c.divisor ≠ none))
      (.valueError "IDENTITY convention must not specify a divisor")

abbrev Convention := Frozen ConventionFields

/-- `_IDENTITY_DEFAULT` -/
def identityDefault : Convention := ⟨{ kind := .identity }, by decide +kernel⟩

/-- `CONVENTIONS_BY_IB_SYMBOL` -/
def conventionsByIbSymbol (ibSymbol : String) : Option Convention :=
  [("QQL3", (⟨{ kind := .manualScale, divisor := some 10 }, by decide +kernel⟩ : Convention))]
    |>.lookup ibSymbol

/-- `eodhd_to_ib_price` -/
def eodhdToIbPrice (ibSymbol : String) (eodhdPrice : Decimal) : Except PyError Decimal := do
  require (0 < eodhdPrice) (.valueError "eodhd_price must be > 0, got ")
  let convention := (conventionsByIbSymbol ibSymbol).getD identityDefault
  match convention.val.kind with
  | .identity => return eodhdPrice
  | .manualScale =>
      let divisor ← orRaise convention.val.divisor (.other "AssertionError")
      return eodhdPrice / divisor

/-- A manual scale comes with a positive divisor. -/
theorem Convention.exists_divisor {convention : Convention}
    (h : convention.val.kind = .manualScale) :
    ∃ divisor, convention.val.divisor = some divisor ∧ 0 < divisor := by
  obtain ⟨⟨kind, divisor⟩, hvalid⟩ := convention
  cases h
  cases divisor with
  | none => cases hvalid
  | some divisor =>
    simp only [postInit, if_true, require_bind_eq_ok_iff] at hvalid
    exact ⟨divisor, rfl, hvalid.1⟩

/-- The conversion of a positive price succeeds, and its result is positive. -/
theorem eodhdToIbPrice_of_pos (ibSymbol : String) {eodhdPrice : Decimal} (h : 0 < eodhdPrice) :
    ∃ price, eodhdToIbPrice ibSymbol eodhdPrice = .ok price ∧ 0 < price := by
  unfold eodhdToIbPrice
  simp only [require_bind_eq_ok_iff, h, true_and]
  generalize (conventionsByIbSymbol ibSymbol).getD identityDefault = convention
  cases hkind : convention.val.kind with
  | identity => exact ⟨eodhdPrice, rfl, h⟩
  | manualScale =>
    obtain ⟨divisor, hdivisor, hpos⟩ := Convention.exists_divisor hkind
    refine ⟨eodhdPrice / divisor, ?_, div_pos h hpos⟩
    simp [hdivisor, orRaise, pure, Except.pure, bind, Except.bind]

theorem eodhdToIbPrice_pos {ibSymbol : String} {eodhdPrice price : Decimal}
    (h : eodhdToIbPrice ibSymbol eodhdPrice = .ok price) : 0 < price := by
  obtain ⟨price', h', hpos⟩ :=
    eodhdToIbPrice_of_pos ibSymbol (require_bind_eq_ok_iff.mp h).1
  cases h.symm.trans h'
  exact hpos

end Blive
