import Blive.Misc.Py

/-!
# JSON values

What `json.loads` returns, as Python holds it: `str(value)`, `bool(value)` and `value.get(key)`.
A `float` is carried by the text that `repr` writes for it, so that `str` of a number is exact.
The keys of an object are distinct. Strings inside a list or an object are quoted as `repr`
does for the characters of ASCII.
-/

namespace Blive

inductive Json where
  | null
  | bool (value : Bool)
  | int (value : Int)
  | float (repr : String)
  | str (value : String)
  | list (items : List Json)
  | dict (items : List (String × Json))

namespace PyStr

/-- The two digits of `\xNN`. -/
def hexByte (n : Nat) : List Char := [Nat.digitChar (n / 16), Nat.digitChar (n % 16)]

/-- A character inside a quoted string. -/
def reprChar (quote c : Char) : List Char :=
  if c = '\\' ∨ c = quote then ['\\', c]
  else if c = '\n' then ['\\', 'n']
  else if c = '\r' then ['\\', 'r']
  else if c = '\t' then ['\\', 't']
  else if c.toNat < 32 ∨ c.toNat = 127 then '\\' :: 'x' :: hexByte c.toNat
  else [c]

/-- `repr(s)` -/
def repr (s : String) : String :=
  let quote := if '\'' ∈ s.toList ∧ '\"' ∉ s.toList then '\"' else '\''
  String.ofList (quote :: s.toList.flatMap (reprChar quote) ++ [quote])

end PyStr

namespace Json

mutual

/-- `repr(value)` -/
def repr : Json → String
  | .null => "None"
  | .bool b => if b then "True" else "False"
  | .int n => toString n
  | .float text => text
  | .str s => PyStr.repr s
  | .list items => "[" ++ reprItems items ++ "]"
  | .dict items => "\x7b" ++ reprFields items ++ "\x7d"

def reprItems : List Json → String
  | [] => ""
  | [item] => repr item
  | item :: items => repr item ++ ", " ++ reprItems items

def reprFields : List (String × Json) → String
  | [] => ""
  | [(key, value)] => PyStr.repr key ++ ": " ++ repr value
  | (key, value) :: items => PyStr.repr key ++ ": " ++ repr value ++ ", " ++ reprFields items

end

/-- `str(value)` -/
def toStr : Json → String
  | .str s => s
  | value => value.repr

/-- `bool(value)` -/
def truthy : Json → Bool
  | .null => false
  | .bool b => b
  | .int n => n ≠ 0
  | .float text => text ≠ "0.0" ∧ text ≠ "-0.0"
  | .str s => s ≠ ""
  | .list items => !items.isEmpty
  | .dict items => !items.isEmpty

/-- `a or b` -/
def orElse (a b : Json) : Json := if a.truthy then a else b

/-- `items.get(key)` -/
def field? (items : List (String × Json)) (key : String) : Option Json :=
  (items.find? fun item => item.1 = key).map Prod.snd

/-- `items.get(key)`, with `None` for a key that is absent. -/
def field (items : List (String × Json)) (key : String) : Json := (field? items key).getD .null

/-- `value` when `isinstance(value, dict)`. -/
def dict? : Json → Option (List (String × Json))
  | .dict items => some items
  | _ => none

/-- `value` when `isinstance(value, str)`. -/
def str? : Json → Option String
  | .str s => some s
  | _ => none

example : toStr (.list [.str "it's", .dict [("a", .int (-1)), ("b", .float "0.5")], .null]) =
    "[\"it's\", \x7b'a': -1, 'b': 0.5\x7d, None]" := by
  decide +kernel

end Json

end Blive
