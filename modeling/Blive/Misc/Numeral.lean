import Mathlib.Algebra.Order.Ring.Rat
import Mathlib.Algebra.Field.Rat
import Blive.Misc.Py

/-!
# Numerals

The strings `int` and `decimal.Decimal` read as finite numbers. `int` reads decimal digits, and
digits of base sixteen when it is told so. Both read the decimal digits of Unicode like those of
ASCII.
-/

namespace Blive

namespace PyStr

/-- `s.strip()` -/
def strip (s : List Char) : List Char :=
  ((s.dropWhile isSpace).reverse.dropWhile isSpace).reverse

def isDigit (c : Char) : Bool := '0' ≤ c && c ≤ '9'

/-- The number the digits write. -/
def digitsValue (digits : List Char) : Nat :=
  digits.foldl (fun n c => 10 * n + (c.toNat - '0'.toNat)) 0

/-- The sign in front of a numeral, `true` for a minus, and the rest. -/
def splitSign : List Char → Bool × List Char
  | '-' :: rest => (true, rest)
  | '+' :: rest => (false, rest)
  | rest => (false, rest)

/-- The zeros of Unicode's decimal digits, each of which the other nine follow. -/
def decimalZeros : List Nat :=
  [48, 1632, 1776, 1984, 2406, 2534, 2662, 2790, 2918, 3046, 3174, 3302, 3430, 3558, 3664, 3792,
    3872, 4160, 4240, 6112, 6160, 6470, 6608, 6784, 6800, 6992, 7088, 7232, 7248, 42528, 43216,
    43264, 43472, 43504, 43600, 44016, 65296, 66720, 68912, 69734, 69872, 69942, 70096, 70384,
    70736, 70864, 71248, 71360, 71472, 71904, 72016, 72784, 73040, 73120, 92768, 92864, 93008,
    120782, 120792, 120802, 120812, 120822, 123200, 123632, 125264, 130032]

/-- What `int` and `Decimal` make of a character before they read the numeral. -/
def numeralChar (c : Char) : Char :=
  if c.toNat < 127 then c
  else if isSpace c then ' '
  else match decimalZeros.find? fun digit => digit ≤ c.toNat && c.toNat ≤ digit + 9 with
    | some digit => Char.ofNat ('0'.toNat + (c.toNat - digit))
    | none => '?'

/-- The white space that may surround a numeral. -/
def isNumeralSpace (c : Char) : Bool := c = ' ' || ('\t' ≤ c && c ≤ '\r')

/-- The characters `int` reads. -/
def numeralChars (text : String) : List Char :=
  let chars := (text.toList.map numeralChar).dropWhile isNumeralSpace
  (chars.reverse.dropWhile isNumeralSpace).reverse

/-- An underscore may stand between two digits. -/
def ungroup : List Char → Option (List Char)
  | [] => none
  | [c] => if isDigit c then some [c] else none
  | c :: '_' :: rest => if isDigit c then (ungroup rest).map (c :: ·) else none
  | c :: rest => if isDigit c then (ungroup rest).map (c :: ·) else none

end PyStr

/-- `int(text)`: `none` where it raises `ValueError`, also above the limit of 4300 digits. -/
def intOfString (text : String) : Option Int :=
  let (negative, body) := PyStr.splitSign (PyStr.numeralChars text)
  match PyStr.ungroup body with
  | none => none
  | some digits =>
      if 4300 < digits.length then none
      else some (if negative then -(PyStr.digitsValue digits : Int) else PyStr.digitsValue digits)

/-! ### Base sixteen -/

namespace PyStr

def isHexDigit (c : Char) : Bool :=
  isDigit c || ('a' ≤ c && c ≤ 'f') || ('A' ≤ c && c ≤ 'F')

/-- The value of a digit of base sixteen. -/
def hexDigitValue (c : Char) : Nat :=
  if isDigit c then c.toNat - '0'.toNat else 10 + (c.toLower.toNat - 'a'.toNat)

/-- `ungroup`, for digits of base sixteen. -/
def ungroupHex : List Char → Option (List Char)
  | [] => none
  | [c] => if isHexDigit c then some [c] else none
  | c :: '_' :: rest => if isHexDigit c then (ungroupHex rest).map (c :: ·) else none
  | c :: rest => if isHexDigit c then (ungroupHex rest).map (c :: ·) else none

/-- The digits after the prefix `0x`, which an underscore may follow. -/
def dropHexPrefix : List Char → List Char
  | '0' :: x :: '_' :: rest => if x = 'x' ∨ x = 'X' then rest else '0' :: x :: '_' :: rest
  | '0' :: x :: rest => if x = 'x' ∨ x = 'X' then rest else '0' :: x :: rest
  | body => body

end PyStr

/-- `int(text, 16)`: `none` where it raises `ValueError`. -/
def intOfHexString (text : String) : Option Int :=
  let (negative, body) := PyStr.splitSign (PyStr.numeralChars text)
  (PyStr.ungroupHex (PyStr.dropHexPrefix body)).map fun digits =>
    let value := digits.foldl (fun n c => 16 * n + PyStr.hexDigitValue c) 0
    if negative then -(value : Int) else value

/-! ### Decimal numerals -/

namespace PyStr

/-- The characters `Decimal` reads. An underscore may stand anywhere. -/
def decimalChars (text : String) : List Char :=
  ((strip text.toList).map numeralChar).filter (· ≠ '_')

/-- The exponent part of a decimal numeral, `0` when there is none. -/
def exponentOfChars : List Char → Option Int
  | [] => some 0
  | c :: rest =>
      let (negative, digits) := splitSign rest
      if (c = 'e' ∨ c = 'E') ∧ digits ≠ [] ∧ digits.all isDigit then
        some (if negative then -(digitsValue digits : Int) else digitsValue digits)
      else none

end PyStr

/-- `decimal.MAX_PREC` and `decimal.MAX_EMAX` -/
def decimalMax : Nat := 999999999999999999

/-- `decimal.MIN_ETINY` -/
def decimalMinEtiny : Int := -1999999999999999997

/-- The digits of a numeral whose last one stands at `10 ^ scale` fit the widest context, in which
`Decimal` takes a numeral as it is or not at all. -/
def IsExact (digits : List Char) (scale : Int) : Prop :=
  let significant := (digits.dropWhile (· = '0')).length
  significant ≤ decimalMax ∧ decimalMinEtiny ≤ scale ∧
    scale + (significant - 1 : Nat) ≤ (decimalMax : Int)

instance (digits : List Char) (scale : Int) : Decidable (IsExact digits scale) :=
  inferInstanceAs (Decidable (_ ∧ _ ∧ _))

/-- `Decimal(text)`, which raises `decimal.InvalidOperation` on what is no numeral and on what no
context holds exactly. -/
def decimalOfString (text : String) : Except PyError Decimal :=
  let (negative, body) := PyStr.splitSign (PyStr.decimalChars text)
  let whole := body.takeWhile PyStr.isDigit
  let afterWhole := body.dropWhile PyStr.isDigit
  let (fraction, afterFraction) := match afterWhole with
    | '.' :: rest => (rest.takeWhile PyStr.isDigit, rest.dropWhile PyStr.isDigit)
    | rest => ([], rest)
  match PyStr.exponentOfChars afterFraction with
  | none => .error (.other "InvalidOperation")
  | some exponent =>
      let digits := whole ++ fraction
      let scale := exponent - fraction.length
      if digits ≠ [] ∧ fraction.length ≤ decimalMax ∧ IsExact digits scale then
        let value := (PyStr.digitsValue digits : Rat) * (10 : Rat) ^ scale
        .ok (if negative then -value else value)
      else .error (.other "InvalidOperation")

example : intOfString " -1_250 " = some (-1250) ∧ intOfString "12_" = none := by decide +kernel

example : intOfHexString "-0x_fF" = some (-255) ∧ intOfHexString "\u0661\u0662" = some 18 ∧
    intOfHexString "DIAAA" = none := by
  decide +kernel

example : decimalOfString "+7342.50" = .ok (14685 / 2) ∧ decimalOfString ".5e1" = .ok 5 ∧
    decimalOfString "\u0661\u0662.5" = .ok (25 / 2) ∧
    decimalOfString "7,5" = .error (.other "InvalidOperation") ∧
    decimalOfString "-1E+1000000000000000000" = .error (.other "InvalidOperation") := by
  decide +kernel

end Blive
