import Mathlib.Algebra.Order.Group.Unbundled.Abs
import Mathlib.Algebra.Order.Ring.Abs
import Mathlib.Order.WithBot
import Mathlib.Algebra.Order.Field.Basic
import Mathlib.Data.Rat.Cast.Order
import Mathlib.Tactic.Linarith
import Blive.Misc.DecimalContext
import Blive.Misc.Handler
import Blive.Misc.Numeral

/-!
# Decimals with infinities and NaN

`decimal.Decimal` with the values that are no numbers, and the exceptions the default context
raises: `InvalidOperation`, `DivisionByZero` and `Overflow` are traps, rounding is not one.
A finite result is read exactly and overflows where its rounding to 28 digits would. An order
comparison raises on any NaN, `==` and the arithmetic on a signaling one only. The sign of a
zero and the payload of a NaN are left out.
-/

namespace Blive

inductive DecimalValue where
  | finite (value : Decimal)
  | infinity (negative : Bool)
  | nan (signaling : Bool)
  deriving DecidableEq, Repr

/-- `decimal.DivisionByZero` -/
def divisionByZero : PyError := .other "DivisionByZero"

namespace PyStr

/-- `s.lower()`, for the letters of ASCII. -/
def lowerChars (s : List Char) : List Char := s.map Char.toLower

end PyStr

namespace DecimalValue

/-- The words of `Decimal(text)` that are no numeral, after the sign. -/
def special? (negative : Bool) (body : List Char) : Option DecimalValue :=
  let word := PyStr.lowerChars body
  if word = "inf".toList ∨ word = "infinity".toList then some (.infinity negative)
  else if word.take 3 = "nan".toList ∧ (word.drop 3).all PyStr.isDigit then some (.nan false)
  else if word.take 4 = "snan".toList ∧ (word.drop 4).all PyStr.isDigit then some (.nan true)
  else none

/-- `Decimal(text)` -/
def ofString (text : String) : Except PyError DecimalValue :=
  let (negative, body) := PyStr.splitSign (PyStr.decimalChars text)
  match special? negative body with
  | some value => .ok value
  | none => (decimalOfString text).map .finite

/-- A text that `Decimal` refuses. -/
def Malformed (text : String) : Prop := ∀ d, ofString text ≠ .ok d

instance (text : String) : Decidable (Malformed text) :=
  match h : ofString text with
  | .ok d => .isFalse fun hall => hall d h
  | .error _ => .isTrue fun d hd => by rw [h] at hd; cases hd

def isNan : DecimalValue → Bool
  | .nan _ => true
  | _ => false

def isSignaling : DecimalValue → Bool
  | .nan signaling => signaling
  | _ => false

/-- `bool(d)` -/
def truthy : DecimalValue → Bool
  | .finite q => q ≠ 0
  | _ => true

/-! ## Comparisons -/

/-- The place of a value that is a number in the order of the extended rationals. -/
def rank : DecimalValue → Option (WithBot (WithTop Decimal))
  | .finite q => some ((q : WithTop Decimal) : WithBot (WithTop Decimal))
  | .infinity true => some ⊥
  | .infinity false => some ((⊤ : WithTop Decimal) : WithBot (WithTop Decimal))
  | .nan _ => none

/-- An order comparison, which raises when a side is NaN. -/
def comparison
    (relation : WithBot (WithTop Decimal) → WithBot (WithTop Decimal) → Bool)
    (a b : DecimalValue) : Except PyError Bool :=
  match a.rank, b.rank with
  | some x, some y => .ok (relation x y)
  | _, _ => .error invalidOperation

/-- `a < b` -/
def lt : DecimalValue → DecimalValue → Except PyError Bool := comparison fun x y => x < y

/-- `a <= b` -/
def le : DecimalValue → DecimalValue → Except PyError Bool := comparison fun x y => x ≤ y

/-- `a == b` -/
def eq (a b : DecimalValue) : Except PyError Bool :=
  if a.isSignaling ∨ b.isSignaling then .error invalidOperation
  else .ok (!a.isNan && !b.isNan && decide (a = b))

theorem rank_eq_none_iff {d : DecimalValue} : d.rank = none ↔ d.isNan := by
  cases d with
  | finite q => simp [rank, isNan]
  | infinity negative => cases negative <;> simp [rank, isNan]
  | nan signaling => simp [rank, isNan]

/-- A comparison raises on a NaN and on nothing else. -/
theorem comparison_cases
    (relation : WithBot (WithTop Decimal) → WithBot (WithTop Decimal) → Bool)
    (a b : DecimalValue) :
    (comparison relation a b = .error invalidOperation ∧ (a.isNan ∨ b.isNan)) ∨
    ∃ x y, a.rank = some x ∧ b.rank = some y ∧ comparison relation a b = .ok (relation x y) := by
  unfold comparison
  cases ha : a.rank with
  | none => exact .inl ⟨by simp, .inl (rank_eq_none_iff.mp ha)⟩
  | some x =>
    cases hb : b.rank with
    | none => exact .inl ⟨by simp, .inr (rank_eq_none_iff.mp hb)⟩
    | some y => exact .inr ⟨x, y, rfl, rfl, rfl⟩

theorem escapes_comparison {caught : PyError → Bool} (h : caught invalidOperation = false)
    {relation : WithBot (WithTop Decimal) → WithBot (WithTop Decimal) → Bool}
    {a b : DecimalValue} :
    Escapes caught (comparison relation a b) ↔ a.isNan ∨ b.isNan := by
  rcases comparison_cases relation a b with ⟨herror, hnan⟩ | ⟨x, y, hx, hy, hok⟩
  · simp [herror, h, hnan]
  · have ha : ¬ a.isNan := fun hn => by rw [rank_eq_none_iff.mpr hn] at hx; cases hx
    have hb : ¬ b.isNan := fun hn => by rw [rank_eq_none_iff.mpr hn] at hy; cases hy
    simp [hok, ha, hb]

theorem escapes_lt {caught : PyError → Bool} (h : caught invalidOperation = false)
    {a b : DecimalValue} : Escapes caught (lt a b) ↔ a.isNan ∨ b.isNan := escapes_comparison h

theorem escapes_le {caught : PyError → Bool} (h : caught invalidOperation = false)
    {a b : DecimalValue} : Escapes caught (le a b) ↔ a.isNan ∨ b.isNan := escapes_comparison h

theorem escapes_eq {caught : PyError → Bool} (h : caught invalidOperation = false)
    {a b : DecimalValue} : Escapes caught (eq a b) ↔ a.isSignaling ∨ b.isSignaling := by
  unfold eq
  split
  · simp_all
  · simp_all

@[simp] theorem lt_finite (p q : Decimal) : lt (.finite p) (.finite q) = .ok (decide (p < q)) := by
  simp [lt, comparison, rank]

@[simp] theorem le_finite (p q : Decimal) : le (.finite p) (.finite q) = .ok (decide (p ≤ q)) := by
  simp [le, comparison, rank]

@[simp] theorem eq_finite (p q : Decimal) : eq (.finite p) (.finite q) = .ok (decide (p = q)) := by
  simp [eq, isSignaling, isNan]

/-- A comparison that returned compared no NaN. -/
theorem not_isNan_of_le {a b : DecimalValue} {r : Bool} (h : le a b = .ok r) :
    ¬ a.isNan ∧ ¬ b.isNan := by
  constructor <;> intro hnan <;>
    rcases comparison_cases (fun x y => decide (x ≤ y)) a b with
      ⟨herror, -⟩ | ⟨x, y, hx, hy, -⟩
  · cases herror.symm.trans h
  · cases (rank_eq_none_iff.mpr hnan).symm.trans hx
  · cases herror.symm.trans h
  · cases (rank_eq_none_iff.mpr hnan).symm.trans hy

@[simp] theorem isNan_finite (q : Decimal) : (finite q).isNan = false := rfl

@[simp] theorem isSignaling_finite (q : Decimal) : (finite q).isSignaling = false := rfl

/-- What a comparison that returned says about the ranks. -/
theorem comparison_eq_ok_iff
    {relation : WithBot (WithTop Decimal) → WithBot (WithTop Decimal) → Bool}
    {a b : DecimalValue} {r : Bool} : comparison relation a b = .ok r ↔
      ∃ x y, a.rank = some x ∧ b.rank = some y ∧ relation x y = r := by
  unfold comparison
  cases a.rank with
  | none => simp
  | some x => cases b.rank <;> simp

theorem lt_eq_ok_iff {a b : DecimalValue} {r : Bool} : lt a b = .ok r ↔
    ∃ x y, a.rank = some x ∧ b.rank = some y ∧ decide (x < y) = r := comparison_eq_ok_iff

theorem le_eq_ok_iff {a b : DecimalValue} {r : Bool} : le a b = .ok r ↔
    ∃ x y, a.rank = some x ∧ b.rank = some y ∧ decide (x ≤ y) = r := comparison_eq_ok_iff

/-- `b < a` is `not a <= b`, where either returns. -/
theorem lt_eq_ok_not_iff {a b : DecimalValue} {r : Bool} : lt b a = .ok !r ↔ le a b = .ok r := by
  unfold lt le comparison
  cases ha : a.rank with
  | none => cases hb : b.rank <;> simp
  | some x =>
    cases hb : b.rank with
    | none => simp
    | some y =>
      rcases lt_or_ge y x with hlt | hge
      · cases r <;> simp [hlt]
      · cases r <;> simp [hge]

/-! ## Arithmetic -/

/-- Twice the least positive number whose rounding to 28 digits leaves the range of the
exponents. -/
def overflowBound : Nat := (2 * 10 ^ 28 - 1) * 10 ^ 999972

/-- Whether rounding the number to 28 digits leaves the range of the exponents. -/
def Overflows (q : Decimal) : Prop := overflowBound * q.den ≤ 2 * q.num.natAbs

instance (q : Decimal) : Decidable (Overflows q) := inferInstanceAs (Decidable (_ ≤ _))

theorem overflows_iff {q : Decimal} : Overflows q ↔ (overflowBound : Decimal) ≤ 2 * |q| := by
  have hden : (0 : Decimal) < q.den := by exact_mod_cast q.den_pos
  have habs : |q| = (q.num.natAbs : Decimal) / q.den := by
    calc |q| = |(q.num : Decimal) / q.den| := by rw [Rat.num_div_den]
      _ = (q.num.natAbs : Decimal) / q.den := by
        rw [abs_div, abs_of_pos hden, Nat.cast_natAbs, Int.cast_abs]
  rw [habs, ← mul_div_assoc, le_div_iff₀ hden, Overflows]
  exact_mod_cast Iff.rfl

theorem overflows_neg {q : Decimal} : Overflows (-q) ↔ Overflows q := by
  rw [overflows_iff, overflows_iff, abs_neg]

/-- A number no farther from zero than one in range is in range. -/
theorem Overflows.mono {p q : Decimal} (h : Overflows p) (hle : |p| ≤ |q|) : Overflows q := by
  rw [overflows_iff] at *
  linarith

/-- The result of an operation on finite numbers. -/
def rounded (q : Decimal) : Except PyError DecimalValue :=
  if Overflows q then .error decimalOverflow else .ok (.finite q)

/-- A NaN operand: a signaling one raises, a quiet one is the result. -/
def propagate (signaling : Bool) : Except PyError DecimalValue :=
  if signaling then .error invalidOperation else .ok (.nan false)

/-- `-d` -/
def neg : DecimalValue → Except PyError DecimalValue
  | .finite q => rounded (-q)
  | .infinity negative => .ok (.infinity !negative)
  | .nan signaling => propagate signaling

/-- `abs(d)` -/
def abs : DecimalValue → Except PyError DecimalValue
  | .finite q => rounded |q|
  | .infinity _ => .ok (.infinity false)
  | .nan signaling => propagate signaling

/-- `a + b` -/
def add : DecimalValue → DecimalValue → Except PyError DecimalValue
  | .nan s, .nan s' => propagate (s || s')
  | .nan s, _ => propagate s
  | _, .nan s => propagate s
  | .infinity n, .infinity n' => if n = n' then .ok (.infinity n) else .error invalidOperation
  | .infinity n, .finite _ => .ok (.infinity n)
  | .finite _, .infinity n => .ok (.infinity n)
  | .finite p, .finite q => rounded (p + q)

/-- `a - b` -/
def sub : DecimalValue → DecimalValue → Except PyError DecimalValue
  | .nan s, .nan s' => propagate (s || s')
  | .nan s, _ => propagate s
  | _, .nan s => propagate s
  | .infinity n, .infinity n' => if n = n' then .error invalidOperation else .ok (.infinity n)
  | .infinity n, .finite _ => .ok (.infinity n)
  | .finite _, .infinity n => .ok (.infinity !n)
  | .finite p, .finite q => rounded (p - q)

/-- `a / b` -/
def div : DecimalValue → DecimalValue → Except PyError DecimalValue
  | .nan s, .nan s' => propagate (s || s')
  | .nan s, _ => propagate s
  | _, .nan s => propagate s
  | .infinity _, .infinity _ => .error invalidOperation
  | .infinity n, .finite q => .ok (.infinity (n != decide (q < 0)))
  | .finite _, .infinity _ => .ok (.finite 0)
  | .finite p, .finite q =>
      if q = 0 then .error (if p = 0 then invalidOperation else divisionByZero)
      else rounded (p / q)

/-! ## What gets past a handler of `ValueError` -/

/-- A handler that names `ValueError` and none of the exceptions of the arithmetic. -/
structure MissesArithmetic (caught : PyError → Bool) : Prop where
  valueError : ∀ text, caught (.valueError text) = true
  invalidOperation : caught invalidOperation = false
  overflow : caught decimalOverflow = false

theorem decimalOfString_error {text : String} {e : PyError} (h : decimalOfString text = .error e) :
    e = Blive.invalidOperation := by
  simp only [decimalOfString] at h
  repeat' split at h
  all_goals first
    | cases h; rfl
    | cases h

theorem ofString_error {text : String} {e : PyError} (h : ofString text = .error e) :
    e = Blive.invalidOperation := by
  simp only [ofString] at h
  split at h
  · cases h
  · cases hd : decimalOfString text with
    | ok q =>
      rw [hd] at h
      cases h
    | error e' =>
      rw [hd] at h
      cases h
      exact decimalOfString_error hd

/-- The text is no decimal, or a decimal with the property. -/
def MalformedOr (text : String) (p : DecimalValue → Prop) : Prop :=
  Malformed text ∨ ∃ d, ofString text = .ok d ∧ p d

theorem malformedOr_congr {text : String} {p q : DecimalValue → Prop} (h : ∀ d, p d ↔ q d) :
    MalformedOr text p ↔ MalformedOr text q := by
  simp only [MalformedOr, h]

section

variable {α : Type} {caught : PyError → Bool} (h : MissesArithmetic caught)

include h

theorem escapes_ofString_bind {text : String} {k : DecimalValue → Except PyError α} :
    Escapes caught (ofString text >>= k) ↔ MalformedOr text fun d => Escapes caught (k d) := by
  unfold MalformedOr Malformed
  cases hread : ofString text with
  | ok d => simp [bind, Except.bind]
  | error e =>
    cases ofString_error hread
    simp [bind, Except.bind, h.invalidOperation]

/-- A negation raises on a signaling NaN and where it overflows. -/
theorem escapes_neg {d : DecimalValue} :
    Escapes caught d.neg ↔ d.isSignaling ∨ ∃ q, d = .finite q ∧ Overflows q := by
  cases d with
  | finite q =>
    by_cases hq : Overflows q <;> simp [neg, rounded, overflows_neg, hq, h.overflow]
  | infinity negative => simp [neg, isSignaling]
  | nan signaling => cases signaling <;> simp [neg, propagate, isSignaling, h.invalidOperation]

/-- No exception of a negation is one the handler names. -/
theorem neg_returns_or_escapes (d : DecimalValue) :
    (∃ r, d.neg = .ok r) ∨ Escapes caught d.neg := by
  cases d with
  | finite q => by_cases hq : Overflows (-q) <;> simp [neg, rounded, hq, h.overflow]
  | infinity negative => exact .inl ⟨_, rfl⟩
  | nan signaling => cases signaling <;> simp [neg, propagate, h.invalidOperation]

end

/-- The operands of a sum that raises. -/
def SumRaises (a b : DecimalValue) : Prop :=
  a.isSignaling ∨ b.isSignaling ∨ (∃ negative, a = .infinity negative ∧ b = .infinity !negative) ∨
    ∃ p q, a = .finite p ∧ b = .finite q ∧ Overflows (p + q)

/-- A sum returns a value in range that does not signal, or raises past the handler. -/
theorem add_cases {caught : PyError → Bool} (h : MissesArithmetic caught) (a b : DecimalValue) :
    (SumRaises a b ∧ Escapes caught (a.add b)) ∨
      ¬ SumRaises a b ∧ ∃ s, a.add b = .ok s ∧ s.isSignaling = false ∧
        ∀ q, s = .finite q → ¬ Overflows q := by
  cases a with
  | finite p =>
    cases b with
    | finite q =>
      by_cases ho : Overflows (p + q) <;>
        simp [SumRaises, add, rounded, ho, h.overflow, isSignaling]
    | infinity n => simp [SumRaises, add, isSignaling]
    | nan s => cases s <;> simp [SumRaises, add, propagate, isSignaling, h.invalidOperation]
  | infinity n =>
    cases b with
    | finite q => simp [SumRaises, add, isSignaling]
    | infinity n' =>
      cases n <;> cases n' <;> simp [SumRaises, add, isSignaling, h.invalidOperation]
    | nan s => cases s <;> simp [SumRaises, add, propagate, isSignaling, h.invalidOperation]
  | nan s =>
    cases b with
    | finite q => cases s <;> simp [SumRaises, add, propagate, isSignaling, h.invalidOperation]
    | infinity n => cases s <;> simp [SumRaises, add, propagate, isSignaling, h.invalidOperation]
    | nan s' =>
      cases s <;> cases s' <;>
        simp [SumRaises, add, propagate, isSignaling, h.invalidOperation]

/-- The half of a value in range that does not signal. -/
theorem half_eq_ok {s : DecimalValue} (hs : s.isSignaling = false)
    (hrange : ∀ q, s = .finite q → ¬ Overflows q) : ∃ m, s.div (.finite 2) = .ok m := by
  cases s with
  | finite q =>
    have hhalf : ¬ Overflows (q / 2) := by
      intro h
      refine hrange q rfl (h.mono ?_)
      rw [abs_div, abs_two]
      linarith [abs_nonneg q]
    exact ⟨.finite (q / 2), by simp [div, rounded, hhalf]⟩
  | infinity n => exact ⟨_, rfl⟩
  | nan s =>
    cases hs
    exact ⟨_, rfl⟩

/-- A negation keeps what is zero, what is NaN and what is not. -/
theorem neg_eq_ok {d r : DecimalValue} (h : d.neg = .ok r) :
    (r = .finite 0 ↔ d = .finite 0) ∧ r.isSignaling = false ∧ d.isSignaling = false ∧
      r.isNan = d.isNan := by
  cases d with
  | finite q =>
    simp only [neg, rounded] at h
    split at h
    · cases h
    · cases h
      simp [isSignaling, isNan]
  | infinity negative =>
    cases h
    simp [isSignaling, isNan]
  | nan signaling =>
    cases signaling with
    | true => cases h
    | false =>
      cases h
      simp [isSignaling, isNan]

/-- A comparison with zero that returned. -/
theorem eq_zero_eq_ok_iff {d : DecimalValue} {r : Bool} : d.eq (.finite 0) = .ok r ↔
    d.isSignaling = false ∧ (r = true ↔ d = .finite 0) := by
  cases d with
  | finite q => by_cases hq : q = 0 <;> cases r <;> simp [hq, isSignaling]
  | infinity negative => cases r <;> simp [eq, isSignaling, isNan]
  | nan signaling => cases signaling <;> cases r <;> simp [eq, isSignaling, isNan]

example : ofString " -Infinity" = .ok (.infinity true) ∧
    ofString "sNaN1\u0662" = .ok (.nan true) ∧
    ofString "+1_0.50" = .ok (.finite (21 / 2)) ∧ Malformed "n/a" := by
  decide +kernel

example : lt (.finite 1) (.infinity false) = .ok true ∧
    lt (.nan false) (.finite 1) = .error invalidOperation ∧
    neg (.finite 2) = .ok (.finite (-2)) ∧
    add (.finite (10 ^ 1000000)) (.finite 1) = .error decimalOverflow := by
  decide +kernel

end DecimalValue

/-! ## Signs -/

/-- The value is a number or an infinity, and not negative. -/
def NonNegative : DecimalValue → Prop
  | .finite q => 0 ≤ q
  | .infinity negative => negative = false
  | .nan _ => False

theorem nonNegative_iff {d : DecimalValue} : d.lt (.finite 0) = .ok false ↔ NonNegative d := by
  cases d with
  | finite q => simp [NonNegative]
  | infinity negative =>
    cases negative <;> simp [NonNegative, DecimalValue.lt, DecimalValue.comparison,
      DecimalValue.rank]
  | nan signaling =>
    simp [NonNegative, DecimalValue.lt, DecimalValue.comparison, DecimalValue.rank]

/-- The value is a number or an infinity, and above zero. -/
def Positive : DecimalValue → Prop
  | .finite q => 0 < q
  | .infinity negative => negative = false
  | .nan _ => False

theorem positive_iff {d : DecimalValue} :
    DecimalValue.lt (.finite 0) d = .ok true ↔ Positive d := by
  cases d with
  | finite q => simp [Positive]
  | infinity negative =>
    have htop : ((0 : Decimal) : WithBot (WithTop Decimal)) < ((⊤ : WithTop Decimal)) :=
      WithBot.coe_lt_coe.mpr (WithTop.coe_lt_top 0)
    cases negative <;> simp [Positive, DecimalValue.lt, DecimalValue.comparison,
      DecimalValue.rank]
    exact htop
  | nan signaling =>
    simp [Positive, DecimalValue.lt, DecimalValue.comparison, DecimalValue.rank]

end Blive
