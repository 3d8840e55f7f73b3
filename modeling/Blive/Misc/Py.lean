import Mathlib.Logic.Basic
import Mathlib.Data.Rat.Defs

/-!
# Python values and exceptions

The parts of the language the model rests on: exceptions, frozen dataclasses whose
`__post_init__` validates them, `datetime` and the string predicates the validators call.
`decimal.Decimal` is read as an exact rational number.
-/

namespace Blive

/-- `decimal.Decimal`, read exactly. -/
abbrev Decimal := Rat

/-- `uuid.UUID` -/
abbrev UUID := BitVec 128

/-- A raised exception. The text is the one of the `raise` statement up to its first
interpolated value; `other` is an exception of code outside the repository. -/
inductive PyError where
  | valueError (text : String)
  | runtimeError (text : String)
  | keyError (text : String)
  | notImplementedError (text : String)
  | instrumentNotResolvable (text : String)
  | priceRuleUnavailable (text : String)
  | ibShapeError (text : String)
  | other (name : String)
  deriving DecidableEq, Repr

/-- `if not p: raise e` -/
def require (p : Prop) [Decidable p] (e : PyError) : Except PyError Unit :=
  if p then .ok () else .error e

@[simp] theorem require_eq_ok_iff {p : Prop} [Decidable p] {e : PyError} :
    require p e = .ok () ↔ p := by
  unfold require
  split <;> simp_all

@[simp] theorem require_bind_eq_ok_iff {α : Type} {p : Prop} [Decidable p] {e : PyError}
    {k : Unit → Except PyError α} {a : α} :
    (require p e >>= k) = .ok a ↔ p ∧ k () = .ok a := by
  unfold require
  split <;> simp_all [bind, Except.bind]

/-- A statement that returned ran both of its parts. -/
theorem bind_eq_ok_iff {ε α β : Type} {x : Except ε α} {k : α → Except ε β} {b : β} :
    (x >>= k) = .ok b ↔ ∃ a, x = .ok a ∧ k a = .ok b := by
  cases x <;> simp [bind, Except.bind]

theorem mapError_eq_ok_iff {α ε δ : Type} {x : Except ε α} {f : ε → δ} {a : α} :
    x.mapError f = .ok a ↔ x = .ok a := by
  cases x <;> simp [Except.mapError]

theorem exists_ok_of_isSome {α ε : Type} {x : Except ε α} (h : x.toOption.isSome) :
    ∃ a, x = .ok a := by
  cases x with
  | error e => cases h
  | ok a => exact ⟨a, rfl⟩

theorem map_eq_ok_iff {α β : Type} {x : Except PyError α} {f : α → β} {b : β} :
    f <$> x = .ok b ↔ ∃ a, x = .ok a ∧ f a = b := by
  cases x <;> simp [Functor.map, Except.map]

/-- `if x is None: raise e` -/
def orRaise {α : Type} (x : Option α) (e : PyError) : Except PyError α :=
  match x with
  | some a => .ok a
  | none => .error e

theorem orRaise_eq_ok_iff {α : Type} {x : Option α} {e : PyError} {a : α} :
    orRaise x e = .ok a ↔ x = some a := by
  cases x <;> simp [orRaise]

/-- The validation a frozen dataclass runs on its fields. -/
class PostInit (α : Type) where
  postInit : α → Except PyError Unit

export PostInit (postInit)

/-- An instance of a frozen dataclass: fields that its `__post_init__` accepted. -/
structure Frozen (α : Type) [PostInit α] where
  val : α
  valid : postInit val = .ok ()

namespace Frozen

variable {α : Type} [PostInit α]

/-- The constructor call: the instance, or the exception of the first failing check. -/
def make (fields : α) : Except PyError (Frozen α) :=
  match h : postInit fields with
  | .ok () => .ok ⟨fields, h⟩
  | .error e => .error e

theorem ext {a b : Frozen α} (h : a.val = b.val) : a = b := by
  cases a; cases b; cases h; rfl

instance [DecidableEq α] : DecidableEq (Frozen α) := fun a b =>
  decidable_of_iff (a.val = b.val) ⟨ext, fun h => h ▸ rfl⟩

theorem make_eq_ok_iff {fields : α} {a : Frozen α} : make fields = .ok a ↔ a.val = fields := by
  unfold make
  split
  · rename_i h
    constructor
    · intro e
      cases e
      rfl
    · intro e
      cases a
      cases e
      rfl
  · rename_i e h
    constructor
    · intro e
      cases e
    · rintro rfl
      rw [a.valid] at h
      cases h

theorem make_of_valid {fields : α} (h : postInit fields = .ok ()) : make fields = .ok ⟨fields, h⟩ :=
  make_eq_ok_iff.mpr rfl

theorem make_of_error {fields : α} {e : PyError} (h : postInit fields = .error e) :
    make fields = .error e := by
  unfold make
  split
  · rename_i hok
    rw [h] at hok
    cases hok
  · rename_i e' he
    cases he.symm.trans h
    rfl

theorem exists_make_error {fields : α} (h : postInit fields ≠ .ok ()) :
    ∃ e, make fields = .error e := by
  cases hfields : postInit fields with
  | ok u => exact absurd hfields h
  | error e => exact ⟨e, make_of_error hfields⟩

end Frozen

/-- A `datetime`: the instant in microseconds since the epoch, and the offset of its time
zone in microseconds, `none` for a naive value (whose instant reads the wall clock as UTC). -/
structure Datetime where
  micros : Int
  utcOffset : Option Int
  deriving DecidableEq, Repr

/-- A reading of a clock that runs in UTC, in microseconds since the epoch. -/
structure Utc where
  micros : Int
  deriving DecidableEq, Repr

/-- The reading as a `datetime` with `tzinfo=timezone.utc`. -/
def Utc.toDatetime (t : Utc) : Datetime := ⟨t.micros, some 0⟩

/-- The civil date of a day number counted from 1970-01-01: year, month and day. -/
def civilFromDays (days : Int) : Int × Int × Int :=
  -- Eras of 400 years that start on a 1 March.
  let shifted := days + 719468
  let era := shifted.fdiv 146097
  let dayOfEra := shifted - era * 146097
  let yearOfEra := (dayOfEra - dayOfEra / 1460 + dayOfEra / 36524 - dayOfEra / 146096) / 365
  let dayOfYear := dayOfEra - (365 * yearOfEra + yearOfEra / 4 - yearOfEra / 100)
  let monthFromMarch := (5 * dayOfYear + 2) / 153
  let month := if monthFromMarch < 10 then monthFromMarch + 3 else monthFromMarch - 9
  (yearOfEra + era * 400 + (if month ≤ 2 then 1 else 0), month,
    dayOfYear - (153 * monthFromMarch + 2) / 5 + 1)

/-- `n` in decimal with leading zeros, `width` characters at least. -/
def padZero (width : Nat) (n : Int) : String :=
  let digits := toString n.toNat
  String.ofList (List.replicate (width - digits.toList.length) '0') ++ digits

/-- `value.isoformat()`, for a value in UTC. -/
def Datetime.isoformat (value : Datetime) : String :=
  let day : Int := 86400 * 1000000
  let (year, month, dayOfMonth) := civilFromDays (value.micros.fdiv day)
  let micros := value.micros.fmod day
  let seconds := micros / 1000000
  let date := padZero 4 year ++ "-" ++ padZero 2 month ++ "-" ++ padZero 2 dayOfMonth
  let time := padZero 2 (seconds / 3600) ++ ":" ++ padZero 2 (seconds / 60 % 60) ++ ":" ++
    padZero 2 (seconds % 60)
  let fraction := if micros % 1000000 = 0 then "" else "." ++ padZero 6 (micros % 1000000)
  date ++ "T" ++ time ++ fraction ++ "+00:00"

example : Datetime.isoformat ⟨1778097600000000, some 0⟩ = "2026-05-06T20:00:00+00:00" := by
  decide +kernel

/-- `(later - earlier).total_seconds()` -/
def Datetime.secondsSince (later earlier : Datetime) : Rat :=
  ((later.micros - earlier.micros : Int) : Rat) / 1000000

/-- `moment + delta`, for a positive difference. The range is that of the wall clock. -/
def Datetime.plus (moment : Datetime) (delta : Int) : Except PyError Datetime :=
  if moment.micros + moment.utcOffset.getD 0 + delta ≤ 253402300799999999 then
    .ok { moment with micros := moment.micros + delta }
  else .error (.other "OverflowError")

/-- `a <= b`. A naive value and an aware one do not compare. -/
def Datetime.le (a b : Datetime) : Except PyError Bool :=
  if a.utcOffset.isSome = b.utcOffset.isSome then .ok (decide (a.micros ≤ b.micros))
  else .error (.other "TypeError")

/-- `a < b` -/
def Datetime.lt (a b : Datetime) : Except PyError Bool :=
  if a.utcOffset.isSome = b.utcOffset.isSome then .ok (decide (a.micros < b.micros))
  else .error (.other "TypeError")

namespace PyStr

/-- The characters `str.strip()` removes. -/
def isSpace (c : Char) : Bool :=
  c.toNat ∈ [9, 10, 11, 12, 13, 28, 29, 30, 31, 32, 133, 160, 5760, 8192, 8193, 8194, 8195, 8196,
    8197, 8198, 8199, 8200, 8201, 8202, 8232, 8233, 8239, 8287, 12288]

/-- `s == s.strip()` -/
def isStripped (s : String) : Bool :=
  !(s.toList.head?.any isSpace) && !(s.toList.getLast?.any isSpace)

def isUpperChar (c : Char) : Bool := 'A' ≤ c && c ≤ 'Z'

def isLowerChar (c : Char) : Bool := 'a' ≤ c && c ≤ 'z'

/-- `s.isupper()`, for the letters of ASCII. -/
def isUpper (s : String) : Bool := s.toList.any isUpperChar && !(s.toList.any isLowerChar)

/-- `s.islower()`, for the letters of ASCII. -/
def isLower (s : String) : Bool := s.toList.any isLowerChar && !(s.toList.any isUpperChar)

end PyStr

end Blive
