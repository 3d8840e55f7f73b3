import Blive.Adapters.Ig.Client
import Blive.Misc.Handler
import Blive.Misc.Numeral

/-!
# The payloads of IG

What the readers of `adapters/ig/broker.py` and `adapters/ig/market_data.py` have in common:
the entries of a response, the fields of an object, the two formats of a timestamp and the
exceptions that count as a parse failure. `datetime.fromisoformat` and `datetime.strptime` are
arguments.
-/

namespace Blive

/-- What a call of an adapter raises. -/
inductive CallError where
  | py (error : PyError)
  | request (error : RequestError)
  deriving DecidableEq

/-- `except (TypeError, ValueError)`: the exception of a malformed decimal is neither. -/
def isTypeOrValueError : PyError → Bool
  | .valueError _ => true
  | .other name => name = "TypeError"
  | _ => false

/-- `except (KeyError, ValueError, TypeError)` -/
def isParseFailure : PyError → Bool
  | .keyError _ => true
  | e => isTypeOrValueError e

/-! ## Objects -/

namespace Json

/-- `str(items.get(key, ""))` -/
def textOf (items : List (String × Json)) (key : String) : String :=
  ((field? items key).getD (.str "")).toStr

/-- `items.get(key)`, when it is not `None`. -/
def present? (items : List (String × Json)) (key : String) : Option Json :=
  match field items key with
  | .null => none
  | value => some value

end Json

/-- `body.get(key, [])` of a response, when both are of the expected type. -/
def entriesOf (body : Json) (key : String) : List Json :=
  match body with
  | .dict items =>
      match Json.field? items key with
      | some (.list entries) => entries
      | _ => []
  | _ => []

/-- The two objects of an entry, when the entry is an object and both are. -/
def entryObjects? (first second : String) (entry : Json) :
    Option (List (String × Json) × List (String × Json)) :=
  match entry.dict? with
  | none => none
  | some items =>
      match (Json.field items first).dict?, (Json.field items second).dict? with
      | some a, some b => some (a, b)
      | _, _ => none

/-! ## Timestamps -/

/-- What the date parsers of the standard library make of a text, `none` where they raise
`ValueError`. -/
structure DatetimeParsers where
  fromisoformat : String → Option Datetime
  /-- For the format `%Y/%m/%d %H:%M:%S`. -/
  strptime : String → Option Datetime

/-- `value.replace(tzinfo=timezone.utc)` -/
def Datetime.replaceUtc (value : Datetime) : Datetime :=
  ⟨value.micros + value.utcOffset.getD 0, some 0⟩

/-- A timestamp in ISO 8601 or in the format with slashes. -/
def parseTimestamp (parsers : DatetimeParsers) (text unrecognised : String) :
    Except PyError Datetime :=
  let stripped := PyStr.strip text.toList
  let iso :=
    if stripped.getLast? = some 'Z' then
      (parsers.fromisoformat (String.ofList stripped.dropLast)).map Datetime.replaceUtc
    else
      (parsers.fromisoformat (String.ofList stripped)).map fun value =>
        if value.utcOffset = none then value.replaceUtc else value
  match iso with
  | some value => .ok value
  | none =>
      (orRaise (parsers.strptime (String.ofList stripped)) (.valueError unrecognised)).map
        Datetime.replaceUtc

end Blive
