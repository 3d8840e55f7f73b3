import Mathlib.Data.List.Basic
import Mathlib.Data.List.Nodup
import Blive.Misc.Handler

/-!
# Floats, series and data frames

What the signal functions use of `float` and of pandas. A float is a value of a type with the
operations of one; the laws that are needed of it are those of IEEE 754 about NaN. A rolling
mean is an argument, with what pandas documents about a trailing window: a value for each row,
from the rows up to it.
-/

namespace Blive

/-- The operations of `float`, and the laws of NaN. -/
class FloatType (F : Type) extends Zero F, One F, NatCast F, Add F, Mul F, Div F, LT F, LE F where
  decidableLT : DecidableLT F
  decidableLE : DecidableLE F
  /-- `0.5` -/
  half : F
  /-- `float(d)` -/
  ofDecimal : Decimal → F
  /-- `pd.isna(x)` -/
  isNa : F → Bool
  not_lt_na : ∀ a b : F, isNa b = true → ¬ a < b
  isNa_mul : ∀ a b : F, isNa a = true → isNa (a * b) = true
  zero_ne_one : (0 : F) ≠ 1

namespace FloatType

variable {F : Type} [FloatType F]

instance : DecidableLT F := decidableLT

instance : DecidableLE F := decidableLE

/-- `b.astype(float)` -/
def ofBool (b : Bool) : F := if b then 1 else 0

theorem ofBool_inj {a b : Bool} : (ofBool a : F) = ofBool b ↔ a = b := by
  have hne : (0 : F) ≠ 1 := FloatType.zero_ne_one
  cases a <;> cases b <;> simp [ofBool, hne, hne.symm]

end FloatType

/-- `rolling(window=w, min_periods=w).mean()` on the values of a series. -/
structure RollingMean (F : Type) where
  mean : Nat → List F → List F
  length_mean : ∀ window values, (mean window values).length = values.length
  /-- The window is a trailing one: later values change no earlier mean. -/
  mean_append : ∀ window values later,
    (mean window (values ++ later)).take values.length = mean window values

/-! ## Series -/

/-- `pd.Series` -/
structure Series (ι α : Type) where
  index : List ι
  values : List α
  length_values : values.length = index.length

namespace Series

variable {ι α F : Type}

/-- `s.loc[label]`. Where the label is not unique it is a series, and the condition it is used
in raises. -/
def loc [DecidableEq ι] (s : Series ι α) (label : ι) : Except PyError α :=
  match (s.index.zip s.values).filter fun row => row.1 = label with
  | [row] => .ok row.2
  | [] => .error (.keyError "")
  | _ => .error (.valueError "The truth value of a Series is ambiguous")

/-- `s.rolling(window=w, min_periods=w).mean()` -/
def rollingMean (s : Series ι F) (rolling : RollingMean F) (window : Nat) : Series ι F :=
  ⟨s.index, rolling.mean window s.values, by rw [rolling.length_mean, s.length_values]⟩

/-- The row of a label that `loc` finds is the one at any place of that label. -/
theorem getElem?_values [DecidableEq ι] {s : Series ι α} {label : ι} {v : α}
    (h : s.loc label = .ok v) {i : Nat} (hi : s.index[i]? = some label) :
    s.values[i]? = some v := by
  obtain ⟨hlt, hlabel⟩ := List.getElem?_eq_some_iff.mp hi
  have hlt' : i < s.values.length := by rw [s.length_values]; exact hlt
  have hmem : (label, s.values[i]) ∈ (s.index.zip s.values).filter fun row => row.1 = label := by
    refine List.mem_filter.mpr ⟨List.mem_iff_getElem?.mpr ⟨i, ?_⟩, by simp⟩
    rw [List.getElem?_zip_eq_some]
    exact ⟨hi, List.getElem?_eq_getElem hlt'⟩
  unfold loc at h
  split at h
  · rename_i row hrow
    rw [hrow] at hmem
    cases h
    rw [← List.mem_singleton.mp hmem, List.getElem?_eq_getElem hlt']
  · cases h
  · cases h

/-- `loc` gives a value for the labels that occur once. -/
theorem exists_loc_iff [DecidableEq ι] {s : Series ι α} {label : ι} :
    (∃ v, s.loc label = .ok v) ↔ s.index.count label = 1 := by
  have hcount : ((s.index.zip s.values).filter fun row => row.1 = label).length =
      s.index.count label := by
    have hfst : (s.index.zip s.values).map Prod.fst = s.index := by
      rw [List.map_fst_zip]
      rw [s.length_values]
    calc ((s.index.zip s.values).filter fun row => row.1 = label).length
        = (((s.index.zip s.values).map Prod.fst).filter (· = label)).length := by
          rw [List.filter_map, List.length_map]
          rfl
      _ = s.index.count label := by
          rw [hfst, List.count_eq_length_filter]
          simp [beq_eq_decide]
  rw [← hcount]
  unfold loc
  split
  · rename_i row hrow
    simp [hrow]
  · rename_i hrow
    simp [hrow]
  · rename_i hone hnone
    constructor
    · rintro ⟨v, hv⟩
      cases hv
    · intro hlength
      obtain ⟨row, hrow⟩ := List.length_eq_one_iff.mp hlength
      exact absurd hrow (hone row)

end Series

/-! ## Exact floats -/

/-- Floats without rounding, infinities and signed zeros: numbers and NaN. -/
inductive ExactFloat where
  | number (q : Rat)
  | na
  deriving DecidableEq, Repr

namespace ExactFloat

/-- An operation on numbers, NaN where an operand is. -/
def lift (f : Rat → Rat → Rat) : ExactFloat → ExactFloat → ExactFloat
  | .number p, .number q => .number (f p q)
  | _, _ => .na

/-- A comparison of numbers, false where an operand is NaN. -/
def compares (r : Rat → Rat → Bool) : ExactFloat → ExactFloat → Bool
  | .number p, .number q => r p q
  | _, _ => false

instance : FloatType ExactFloat where
  zero := .number 0
  one := .number 1
  natCast n := .number n
  add := lift (· + ·)
  mul := lift (· * ·)
  div := lift (· / ·)
  lt a b := compares (· < ·) a b = true
  le a b := compares (· ≤ ·) a b = true
  decidableLT a b := inferInstanceAs (Decidable (compares (· < ·) a b = true))
  decidableLE a b := inferInstanceAs (Decidable (compares (· ≤ ·) a b = true))
  half := .number (1 / 2)
  ofDecimal := .number
  isNa x := x = .na
  not_lt_na a b h := by
    cases a <;> cases b <;> first | (cases h; done) | (intro hlt; cases hlt)
  isNa_mul a b h := by
    cases a with
    | number q => cases h
    | na => rfl
  zero_ne_one h := by
    cases h

/-- The mean of the last `window` values, NaN where there are fewer or one is NaN. -/
def meanOf (window : Nat) (values : List ExactFloat) : ExactFloat :=
  if values.length < window then .na
  else (values.drop (values.length - window)).foldl (· + ·) 0 / ((window : Nat) : ExactFloat)

/-- The trailing mean, computed exactly. -/
def rollingMean : RollingMean ExactFloat where
  mean window values := (List.range values.length).map fun i => meanOf window (values.take (i + 1))
  length_mean window values := by simp
  mean_append window values later := by
    refine List.ext_getElem? fun i => ?_
    by_cases hi : i < values.length
    · have htake : (values ++ later).take (i + 1) = values.take (i + 1) :=
        List.take_append_of_le_length hi
      simp [hi, htake]
    · simp [hi]

end ExactFloat

end Blive
