import Mathlib.Data.String.Basic
import Blive.Misc.Dict
import Blive.Misc.Json
import Blive.Misc.Lines

/-!
# Texts of JSON

What `json.dumps` writes of a value and what `json.loads` reads from a text. Every character that
is no printable one of ASCII is escaped, so that a text has neither a line break nor a byte above
127 in it. A `float` is kept as the text that stands for it; the names of `float`s that are no
numbers are left out, and a surrogate that stands alone is no character here.
-/

namespace Blive.JsonText

/-! ## Writing -/

/-- What stands between two items and after a key: `separators=(", ", ": ")`, which is the
default, and `separators=(",", ":")`. -/
inductive Separators where
  | spaced
  | compact

/-- The blank after a comma and a colon. -/
def Separators.pad : Separators → List Char
  | .spaced => [' ']
  | .compact => []

/-- `{n:04x}` -/
def hex4 (n : Nat) : List Char :=
  [Nat.digitChar (n / 4096), Nat.digitChar (n / 256 % 16), Nat.digitChar (n / 16 % 16),
    Nat.digitChar (n % 16)]

def unicodeEscape (n : Nat) : List Char := '\\' :: 'u' :: hex4 n

/-- A character inside a string; one beyond the first 65536 is written as two surrogates. -/
def escapeChar (c : Char) : List Char :=
  if c = '\"' ∨ c = '\\' then ['\\', c]
  else if c = '\n' then ['\\', 'n']
  else if c = '\r' then ['\\', 'r']
  else if c = '\t' then ['\\', 't']
  else if c = '\x0c' then ['\\', 'f']
  else if c = '\x08' then ['\\', 'b']
  else if 32 ≤ c.toNat ∧ c.toNat ≤ 126 then [c]
  else if c.toNat < 0x10000 then unicodeEscape c.toNat
  else unicodeEscape (0xD800 + (c.toNat - 0x10000) / 1024) ++
    unicodeEscape (0xDC00 + (c.toNat - 0x10000) % 1024)

def quote (s : String) : List Char := '\"' :: s.toList.flatMap escapeChar ++ ['\"']

mutual

/-- `json.dumps(value, separators=sep)` -/
def dumps (sep : Separators) : Json → List Char
  | .null => "null".toList
  | .bool b => if b then "true".toList else "false".toList
  | .int n => (toString n).toList
  | .float text => text.toList
  | .str s => quote s
  | .list [] => ['[', ']']
  | .list (item :: items) => '[' :: dumps sep item ++ dumpItems sep items
  | .dict [] => ['\x7b', '\x7d']
  | .dict ((key, value) :: items) =>
      '\x7b' :: quote key ++ ':' :: sep.pad ++ dumps sep value ++ dumpFields sep items

/-- The items after the first, to the closing bracket. -/
def dumpItems (sep : Separators) : List Json → List Char
  | [] => [']']
  | item :: items => ',' :: sep.pad ++ dumps sep item ++ dumpItems sep items

/-- The fields after the first, to the closing brace. -/
def dumpFields (sep : Separators) : List (String × Json) → List Char
  | [] => ['\x7d']
  | (key, value) :: items =>
      ',' :: sep.pad ++ quote key ++ ':' :: sep.pad ++ dumps sep value ++ dumpFields sep items

end

/-! ## Reading -/

/-- White space between the tokens. -/
def isBlank (c : Char) : Bool := c = ' ' || c = '\t' || c = '\n' || c = '\r'

def skipBlank (text : List Char) : List Char := text.dropWhile isBlank

/-- Four digits of base sixteen. -/
def readHex4 : List Char → Option (Nat × List Char)
  | a :: b :: c :: d :: rest =>
      if [a, b, c, d].all PyStr.isHexDigit then
        some (4096 * PyStr.hexDigitValue a + 256 * PyStr.hexDigitValue b +
          16 * PyStr.hexDigitValue c + PyStr.hexDigitValue d, rest)
      else none
  | _ => none

/-- What a backslash and a letter stand for. -/
def unescape : Char → Option Char
  | '\"' => some '\"'
  | '\\' => some '\\'
  | '/' => some '/'
  | 'b' => some '\x08'
  | 'f' => some '\x0c'
  | 'n' => some '\n'
  | 'r' => some '\r'
  | 't' => some '\t'
  | _ => none

/-- The second of two surrogates, after the first one `n`. -/
def readLowSurrogate (n : Nat) : List Char → Option (Char × List Char)
  | '\\' :: 'u' :: rest =>
      match readHex4 rest with
      | none => none
      | some (m, rest) =>
          if 0xDC00 ≤ m ∧ m ≤ 0xDFFF then
            some (Char.ofNat (0x10000 + (n - 0xD800) * 1024 + (m - 0xDC00)), rest)
          else none
  | _ => none

/-- The next character of a string. -/
def readChar : List Char → Option (Char × List Char)
  | [] => none
  | '\\' :: 'u' :: rest =>
      match readHex4 rest with
      | none => none
      | some (n, rest) =>
          if n < 0xD800 ∨ 0xDFFF < n then some (Char.ofNat n, rest)
          else if n < 0xDC00 then readLowSurrogate n rest
          else none
  | '\\' :: c :: rest => (unescape c).map fun c => (c, rest)
  | c :: rest => if c = '\\' ∨ c.toNat < 32 then none else some (c, rest)

/-- The characters of a string, to the closing quote. -/
def readChars : Nat → List Char → Option (List Char × List Char)
  | 0, _ => none
  | _ + 1, '\"' :: rest => some ([], rest)
  | fuel + 1, text =>
      match readChar text with
      | none => none
      | some (c, rest) => (readChars fuel rest).map fun read => (c :: read.1, read.2)

/-- A string, after the opening quote. -/
def readString (text : List Char) : Option (String × List Char) :=
  (readChars (text.length + 1) text).map fun read => (String.ofList read.1, read.2)

/-- A character that may be there, `[p]?`, and what follows. -/
def splitOne (p : Char → Bool) : List Char → List Char × List Char
  | [] => ([], [])
  | c :: rest => if p c then ([c], rest) else ([], c :: rest)

/-- `0|[1-9][0-9]*` -/
def splitWhole (text : List Char) : List Char × List Char :=
  let (zero, rest) := splitOne (· = '0') text
  if zero = [] then (text.takeWhile PyStr.isDigit, text.dropWhile PyStr.isDigit) else (zero, rest)

/-- `(\.[0-9]+)?` -/
def splitFraction (text : List Char) : List Char × List Char :=
  let (point, rest) := splitOne (· = '.') text
  let digits := rest.takeWhile PyStr.isDigit
  if point = [] ∨ digits = [] then ([], text)
  else (point ++ digits, rest.dropWhile PyStr.isDigit)

/-- `([eE][-+]?[0-9]+)?` -/
def splitExponent (text : List Char) : List Char × List Char :=
  let (mark, afterMark) := splitOne (fun c => c = 'e' || c = 'E') text
  let (sign, rest) := splitOne (fun c => c = '-' || c = '+') afterMark
  let digits := rest.takeWhile PyStr.isDigit
  if mark = [] ∨ digits = [] then ([], text)
  else (mark ++ sign ++ digits, rest.dropWhile PyStr.isDigit)

/-- A number, and what follows it. -/
def readNumber (text : List Char) : Option (Json × List Char) :=
  let (minus, afterMinus) := splitOne (· = '-') text
  let (whole, afterWhole) := splitWhole afterMinus
  let (fraction, afterFraction) := splitFraction afterWhole
  let (exponent, rest) := splitExponent afterFraction
  if whole = [] then none
  else if fraction = [] ∧ exponent = [] then
    let value : Int := PyStr.digitsValue whole
    some (.int (if minus = [] then value else -value), rest)
  else some (.float (String.ofList (minus ++ whole ++ fraction ++ exponent)), rest)

mutual

/-- A value, and what follows it. -/
def readValue : Nat → List Char → Option (Json × List Char)
  | 0, _ => none
  | fuel + 1, text =>
      match text with
      | '\"' :: rest => (readString rest).map fun read => (.str read.1, read.2)
      | '[' :: rest =>
          match skipBlank rest with
          | ']' :: rest => some (.list [], rest)
          | rest => (readItems fuel rest).map fun read => (.list read.1, read.2)
      | '\x7b' :: rest =>
          match skipBlank rest with
          | '\x7d' :: rest => some (.dict [], rest)
          | rest => (readFields fuel rest).map fun read =>
              (.dict (Dict.ofList read.1).items, read.2)
      | 'n' :: 'u' :: 'l' :: 'l' :: rest => some (.null, rest)
      | 't' :: 'r' :: 'u' :: 'e' :: rest => some (.bool true, rest)
      | 'f' :: 'a' :: 'l' :: 's' :: 'e' :: rest => some (.bool false, rest)
      | text => readNumber text

/-- The items of a list that is not empty, to the closing bracket. -/
def readItems : Nat → List Char → Option (List Json × List Char)
  | 0, _ => none
  | fuel + 1, text =>
      match readValue fuel text with
      | none => none
      | some (item, rest) =>
          match skipBlank rest with
          | ']' :: rest => some ([item], rest)
          | ',' :: rest => (readItems fuel (skipBlank rest)).map fun read =>
              (item :: read.1, read.2)
          | _ => none

/-- The fields of an object that is not empty, to the closing brace. -/
def readFields : Nat → List Char → Option (List (String × Json) × List Char)
  | 0, _ => none
  | fuel + 1, text =>
      match text with
      | '\"' :: rest =>
          match readString rest with
          | none => none
          | some (key, rest) =>
              match skipBlank rest with
              | ':' :: rest =>
                  match readValue fuel (skipBlank rest) with
                  | none => none
                  | some (value, rest) =>
                      match skipBlank rest with
                      | '\x7d' :: rest => some ([(key, value)], rest)
                      | ',' :: rest => (readFields fuel (skipBlank rest)).map fun read =>
                          ((key, value) :: read.1, read.2)
                      | _ => none
              | _ => none
      | _ => none

end

/-- `json.loads(text)`: `none` where it raises `JSONDecodeError`. -/
def loads (text : List Char) : Option Json :=
  match readValue (text.length + 1) (skipBlank text) with
  | some (value, rest) => if skipBlank rest = [] then some value else none
  | none => none

/-! ## Strings come back -/

theorem hexDigit_digitChar {d : Nat} (h : d < 16) :
    PyStr.isHexDigit (Nat.digitChar d) ∧ PyStr.hexDigitValue (Nat.digitChar d) = d := by
  have hall : ∀ d < 16, PyStr.isHexDigit (Nat.digitChar d) ∧
      PyStr.hexDigitValue (Nat.digitChar d) = d := by decide
  exact hall d h

theorem readHex4_hex4 {n : Nat} (h : n < 0x10000) (rest : List Char) :
    readHex4 (hex4 n ++ rest) = some (n, rest) := by
  have h3 := hexDigit_digitChar (d := n / 4096) (by omega)
  have h2 := hexDigit_digitChar (d := n / 256 % 16) (by omega)
  have h1 := hexDigit_digitChar (d := n / 16 % 16) (by omega)
  have h0 := hexDigit_digitChar (d := n % 16) (by omega)
  have hsum : 4096 * (n / 4096) + 256 * (n / 256 % 16) + 16 * (n / 16 % 16) + n % 16 = n := by omega
  simp only [hex4, List.cons_append, List.nil_append, readHex4, List.all_cons, List.all_nil, h3, h2,
    h1, h0, Bool.and_true, if_true, hsum]

theorem readChar_unicodeEscape {n : Nat} (h : n < 0x10000) (rest : List Char) :
    readChar (unicodeEscape n ++ rest) =
      if n < 0xD800 ∨ 0xDFFF < n then some (Char.ofNat n, rest)
      else if n < 0xDC00 then readLowSurrogate n rest
      else none := by
  simp only [unicodeEscape, List.cons_append, readChar, readHex4_hex4 h]

theorem not_surrogate (c : Char) : c.toNat < 0xD800 ∨ 0xDFFF < c.toNat := by
  rcases c.valid with h | ⟨h, -⟩
  · exact .inl h
  · exact .inr h

theorem toNat_lt (c : Char) : c.toNat < 0x110000 := by
  have hvalid := c.valid
  unfold UInt32.isValidChar Nat.isValidChar at hvalid
  unfold Char.toNat
  omega

theorem readChar_surrogates {m : Nat} (h : m < 0x100000) (rest : List Char) :
    readChar (unicodeEscape (0xD800 + m / 1024) ++ unicodeEscape (0xDC00 + m % 1024) ++ rest) =
      some (Char.ofNat (0x10000 + m), rest) := by
  have hsum : 0x10000 + (0xD800 + m / 1024 - 0xD800) * 1024 + (0xDC00 + m % 1024 - 0xDC00) =
      0x10000 + m := by omega
  rw [List.append_assoc, readChar_unicodeEscape (by omega), if_neg (by omega), if_pos (by omega)]
  simp only [unicodeEscape, List.cons_append, readLowSurrogate]
  rw [readHex4_hex4 (by omega)]
  simp only
  rw [if_pos (by omega), hsum]

theorem readChar_of_ne {c : Char} (hslash : c ≠ '\\') (h : 32 ≤ c.toNat) (rest : List Char) :
    readChar (c :: rest) = some (c, rest) := by
  rw [readChar]
  · rw [if_neg (not_or.mpr ⟨hslash, not_lt.mpr h⟩)]
  all_goals
    intros
    simp_all

/-- Each character comes back from its escape. -/
theorem readChar_escapeChar (c : Char) (rest : List Char) :
    readChar (escapeChar c ++ rest) = some (c, rest) := by
  unfold escapeChar
  split
  · rename_i h
    rcases h with rfl | rfl <;> rfl
  split
  · subst c; rfl
  split
  · subst c; rfl
  split
  · subst c; rfl
  split
  · subst c; rfl
  split
  · subst c; rfl
  split
  · rename_i hquote _ _ _ _ _ hprintable
    exact readChar_of_ne (fun h => hquote (.inr h)) hprintable.1 rest
  split
  · rename_i hplane
    rw [readChar_unicodeEscape hplane, if_pos (not_surrogate c), Char.ofNat_toNat]
  · rename_i hplane
    obtain ⟨m, hm⟩ := Nat.exists_eq_add_of_le (not_lt.mp hplane)
    have hrest : c.toNat - 0x10000 = m := Nat.sub_eq_of_eq_add' hm
    rw [hrest, readChar_surrogates (by have := toNat_lt c; omega), ← hm, Char.ofNat_toNat]

theorem escapeChar_cons (c : Char) : ∃ first rest, escapeChar c = first :: rest ∧ first ≠ '\"' := by
  unfold escapeChar unicodeEscape
  repeat' split
  all_goals try exact ⟨_, _, rfl, by decide⟩
  rename_i hquote _ _ _ _ _ _
  exact ⟨_, _, rfl, fun h => hquote (.inl h)⟩

theorem readChars_escapeChar (fuel : Nat) (c : Char) (rest : List Char) :
    readChars (fuel + 1) (escapeChar c ++ rest) =
      (readChars fuel rest).map fun read => (c :: read.1, read.2) := by
  obtain ⟨first, others, hescape, hquote⟩ := escapeChar_cons c
  have hread := readChar_escapeChar c rest
  rw [hescape, List.cons_append] at hread ⊢
  rw [readChars, hread]
  intro rest' heq
  exact hquote (List.cons.inj heq).1

theorem readChars_escaped {fuel : Nat} {s : List Char} (h : s.length < fuel) (rest : List Char) :
    readChars fuel (s.flatMap escapeChar ++ '\"' :: rest) = some (s, rest) := by
  induction s generalizing fuel with
  | nil =>
    obtain ⟨n, rfl⟩ := Nat.exists_eq_succ_of_ne_zero h.ne'
    rfl
  | cons c s ih =>
    obtain ⟨n, rfl⟩ := Nat.exists_eq_succ_of_ne_zero (Nat.ne_zero_of_lt h)
    rw [List.flatMap_cons, List.append_assoc, readChars_escapeChar,
      ih (Nat.lt_of_succ_lt_succ h)]
    rfl

theorem length_le_escaped (s : List Char) : s.length ≤ (s.flatMap escapeChar).length := by
  induction s with
  | nil => exact Nat.le_refl _
  | cons c s ih =>
    obtain ⟨first, rest, hescape, -⟩ := escapeChar_cons c
    rw [List.flatMap_cons, List.length_append, hescape, List.length_cons, List.length_cons]
    omega

/-- A string comes back from its quotation. -/
theorem readString_escaped (s : String) (rest : List Char) :
    readString (s.toList.flatMap escapeChar ++ '\"' :: rest) = some (s, rest) := by
  have hlength := length_le_escaped s.toList
  rw [readString, readChars_escaped (by simp only [List.length_append, List.length_cons]; omega)]
  simp

/-! ## Numbers come back -/

/-- A character that may stand in a number. -/
def isNumeralChar (c : Char) : Bool :=
  PyStr.isDigit c || c = '.' || c = 'e' || c = 'E' || c = '+' || c = '-'

theorem isNumeralChar_of_eq {d : Char} (hd : isNumeralChar d) :
    ∀ c, decide (c = d) → isNumeralChar c := by
  intro c hc
  rwa [of_decide_eq_true hc]

theorem isNumeralChar_of_or {d e : Char} (hd : isNumeralChar d) (he : isNumeralChar e) :
    ∀ c, (decide (c = d) || decide (c = e)) → isNumeralChar c := by
  intro c hc
  rcases Bool.or_eq_true_iff.mp hc with hc | hc
  · exact isNumeralChar_of_eq hd c hc
  · exact isNumeralChar_of_eq he c hc

/-- A number ends where this text begins. -/
def Stops (rest : List Char) : Prop := ∀ c ∈ rest.head?, isNumeralChar c = false

theorem stops_cons {c : Char} (h : isNumeralChar c = false) (rest : List Char) :
    Stops (c :: rest) := by
  rintro c' hc'
  rwa [← Option.some.inj hc']

theorem stops_nil : Stops [] := by
  rintro c hc
  cases hc

theorem span_append {p : Char → Bool} {rest : List Char} (h : ∀ c ∈ rest.head?, p c = false)
    (text : List Char) : (text ++ rest).takeWhile p = text.takeWhile p ∧
      (text ++ rest).dropWhile p = text.dropWhile p ++ rest := by
  induction text with
  | nil =>
    cases rest with
    | nil => exact ⟨rfl, rfl⟩
    | cons c rest =>
      have hc : ¬p c = true := Bool.eq_false_iff.mp (h c rfl)
      exact ⟨List.takeWhile_cons_of_neg hc, List.dropWhile_cons_of_neg hc⟩
  | cons c text ih =>
    rw [List.cons_append, List.takeWhile_cons, List.takeWhile_cons, List.dropWhile_cons,
      List.dropWhile_cons]
    split
    · exact ⟨congrArg (c :: ·) ih.1, ih.2⟩
    · exact ⟨rfl, rfl⟩

section Append

variable {rest : List Char} (h : Stops rest)
include h

theorem Stops.eq_false {p : Char → Bool} (hp : ∀ c, p c → isNumeralChar c) :
    ∀ c ∈ rest.head?, p c = false := fun c hc =>
  Bool.eq_false_iff.mpr fun hpc => Bool.eq_false_iff.mp (h c hc) (hp c hpc)

theorem splitOne_append {p : Char → Bool} (hp : ∀ c, p c → isNumeralChar c) (text : List Char) :
    splitOne p (text ++ rest) = ((splitOne p text).1, (splitOne p text).2 ++ rest) := by
  cases text with
  | nil =>
    cases rest with
    | nil => rfl
    | cons c rest =>
      have hc := h.eq_false hp c rfl
      simp [splitOne, hc]
  | cons c text =>
    simp only [List.cons_append, splitOne]
    split <;> rfl

theorem digits_append (text : List Char) :
    (text ++ rest).takeWhile PyStr.isDigit = text.takeWhile PyStr.isDigit ∧
      (text ++ rest).dropWhile PyStr.isDigit = text.dropWhile PyStr.isDigit ++ rest :=
  span_append (h.eq_false fun c hc => by simp [isNumeralChar, hc]) text

theorem splitWhole_append (text : List Char) :
    splitWhole (text ++ rest) = ((splitWhole text).1, (splitWhole text).2 ++ rest) := by
  have hzero := splitOne_append h (isNumeralChar_of_eq (d := '0') rfl) text
  simp only [splitWhole, hzero, digits_append h]
  split <;> rfl

theorem splitFraction_append (text : List Char) :
    splitFraction (text ++ rest) = ((splitFraction text).1, (splitFraction text).2 ++ rest) := by
  have hpoint := splitOne_append h (isNumeralChar_of_eq (d := '.') rfl) text
  simp only [splitFraction, hpoint, digits_append h]
  split <;> rfl

theorem splitExponent_append (text : List Char) :
    splitExponent (text ++ rest) = ((splitExponent text).1, (splitExponent text).2 ++ rest) := by
  have hmark := splitOne_append h (isNumeralChar_of_or (d := 'e') (e := 'E') rfl rfl) text
  have hsign (afterMark : List Char) :=
    splitOne_append h (isNumeralChar_of_or (d := '-') (e := '+') rfl rfl) afterMark
  simp only [splitExponent, hmark, hsign, digits_append h]
  split <;> rfl

/-- What follows a number does not change it. -/
theorem readNumber_append (text : List Char) :
    readNumber (text ++ rest) = (readNumber text).map fun read => (read.1, read.2 ++ rest) := by
  have hminus := splitOne_append h (isNumeralChar_of_eq (d := '-') rfl) text
  simp only [readNumber, hminus, splitWhole_append h, splitFraction_append h,
    splitExponent_append h]
  split
  · rfl
  split <;> rfl

end Append

theorem isDigit_eq (c : Char) : PyStr.isDigit c = c.isDigit := by
  rw [Bool.eq_iff_iff]
  simp [PyStr.isDigit, Char.isDigit, Char.le_def]

/-- Only the digits of zero begin with a zero. -/
theorem eq_zero_of_toDigits {n : Nat} {rest : List Char} (h : Nat.toDigits 10 n = '0' :: rest) :
    n = 0 := by
  induction n using Nat.strong_induction_on generalizing rest with
  | _ n ih =>
    rcases Nat.lt_or_ge n 10 with hn | hn
    · rw [Nat.toDigits_of_lt_base hn] at h
      have hall : ∀ d < 10, Nat.digitChar d = '0' → d = 0 := by decide
      exact hall n hn (List.cons.inj h).1
    · rw [Nat.toDigits_of_base_le (by decide) hn] at h
      obtain ⟨first, higher, hhigher⟩ :=
        List.exists_cons_of_ne_nil (Nat.toDigits_ne_nil (n := n / 10) (b := 10))
      rw [hhigher, List.cons_append] at h
      have hzero := ih (n / 10) (by omega) ((List.cons.inj h).1 ▸ hhigher)
      omega

theorem isDigit_of_mem_toDigits {n : Nat} {c : Char} (h : c ∈ Nat.toDigits 10 n) :
    PyStr.isDigit c := by
  rw [isDigit_eq]
  exact Nat.isDigit_of_mem_toDigits (by decide) (by decide) h

theorem splitWhole_toDigits (n : Nat) :
    splitWhole (Nat.toDigits 10 n) = (Nat.toDigits 10 n, []) := by
  have hdigits : ∀ c ∈ Nat.toDigits 10 n, PyStr.isDigit c := fun c => isDigit_of_mem_toDigits
  obtain ⟨first, rest, hcons⟩ :=
    List.exists_cons_of_ne_nil (Nat.toDigits_ne_nil (n := n) (b := 10))
  by_cases hzero : first = '0'
  · subst hzero
    rw [eq_zero_of_toDigits hcons]
    rfl
  · rw [hcons] at hdigits ⊢
    have hspan := List.takeWhile_eq_self_iff.mpr hdigits
    have hend := List.dropWhile_eq_nil_iff.mpr hdigits
    simp [splitWhole, splitOne, hzero, hspan, hend]

theorem digitsValue_toDigits (n : Nat) : PyStr.digitsValue (Nat.toDigits 10 n) = n :=
  Nat.ofDigitChars_ten_toDigits

/-- A sign that may be there, and digits after which nothing follows. -/
theorem readNumber_of_digits {text minus : List Char} {n : Nat}
    (h : splitOne (· = '-') text = (minus, Nat.toDigits 10 n)) :
    readNumber text = some (.int (if minus = [] then n else -n), []) := by
  have hfraction : splitFraction [] = ([], []) := rfl
  have hexponent : splitExponent [] = ([], []) := rfl
  simp only [readNumber, h, splitWhole_toDigits, hfraction, hexponent, Nat.toDigits_ne_nil,
    if_false, and_self, if_true, digitsValue_toDigits]

theorem toList_negSucc (n : Nat) :
    (toString (Int.negSucc n)).toList = '-' :: Nat.toDigits 10 (n + 1) := by
  have hrepr : toString (Int.negSucc n) = "-" ++ (n + 1).repr := rfl
  rw [hrepr, String.toList_append, Nat.toList_repr]
  rfl

/-- An integer comes back from its digits. -/
theorem readNumber_toString (n : Int) : readNumber (toString n).toList = some (.int n, []) := by
  cases n with
  | ofNat n =>
    have htext : (toString (Int.ofNat n)).toList = Nat.toDigits 10 n := Nat.toList_repr
    have hminus : splitOne (· = '-') (Nat.toDigits 10 n) = ([], Nat.toDigits 10 n) := by
      obtain ⟨first, rest, hcons⟩ :=
        List.exists_cons_of_ne_nil (Nat.toDigits_ne_nil (n := n) (b := 10))
      have hfirst : PyStr.isDigit first :=
        isDigit_of_mem_toDigits (n := n) (hcons ▸ List.mem_cons_self)
      have hne : first ≠ '-' := by
        rintro rfl
        exact absurd hfirst (by decide)
      rw [hcons, splitOne, if_neg (by simp [hne])]
    rw [htext, readNumber_of_digits hminus]
    rfl
  | negSucc n =>
    have hminus : splitOne (· = '-') ('-' :: Nat.toDigits 10 (n + 1)) =
        (['-'], Nat.toDigits 10 (n + 1)) := rfl
    rw [toList_negSucc, readNumber_of_digits hminus, Int.negSucc_eq]
    rfl

/-- A number begins with its sign or with a digit. -/
theorem head_of_readNumber {text : List Char} {read : Json × List Char}
    (h : readNumber text = some read) :
    ∃ c rest, text = c :: rest ∧ (c = '-' ∨ PyStr.isDigit c) := by
  cases text with
  | nil => cases h
  | cons c rest =>
    refine ⟨c, rest, rfl, ?_⟩
    by_contra hc
    obtain ⟨hminus, hdigit⟩ := not_or.mp hc
    have hzero : c ≠ '0' := by
      rintro rfl
      exact hdigit (by decide)
    have hnone : readNumber (c :: rest) = none := by
      simp [readNumber, splitWhole, splitOne, hminus, hzero, hdigit]
    cases hnone.symm.trans h

theorem readValue_of_readNumber {text : List Char} {read : Json × List Char}
    (h : readNumber text = some read) (fuel : Nat) : readValue (fuel + 1) text = some read := by
  obtain ⟨c, rest, rfl, hc⟩ := head_of_readNumber h
  rw [readValue]
  · exact h
  all_goals
    intro rest' heq
    obtain ⟨rfl, -⟩ := List.cons.inj heq
    exact absurd hc (by decide)

/-! ## Values come back -/

mutual

/-- A value that can be read back: the text of a `float` is a number with a fraction or an
exponent, and no object has a key twice. -/
def Writable : Json → Prop
  | .null | .bool _ | .int _ | .str _ => True
  | .float text => readNumber text.toList = some (.float text, [])
  | .list items => WritableItems items
  | .dict items => (items.map Prod.fst).Nodup ∧ WritableFields items

def WritableItems : List Json → Prop
  | [] => True
  | item :: items => Writable item ∧ WritableItems items

def WritableFields : List (String × Json) → Prop
  | [] => True
  | (_, value) :: items => Writable value ∧ WritableFields items

end

variable {sep : Separators}

theorem dumps_cons (sep : Separators) {v : Json} (h : Writable v) :
    ∃ c rest, dumps sep v = c :: rest ∧ isBlank c = false ∧ c ≠ ']' := by
  have hnumber {text : List Char} {read : Json × List Char} (hread : readNumber text = some read) :
      ∃ c rest, text = c :: rest ∧ isBlank c = false ∧ c ≠ ']' := by
    obtain ⟨c, rest, rfl, hc⟩ := head_of_readNumber hread
    refine ⟨c, rest, rfl, ?_, ?_⟩
    · by_contra hblank
      simp only [isBlank, Bool.not_eq_false, Bool.or_eq_true, decide_eq_true_eq] at hblank
      rcases hblank with ((rfl | rfl) | rfl) | rfl <;> exact absurd hc (by decide)
    · rintro rfl
      exact absurd hc (by decide)
  cases v with
  | null => exact ⟨_, _, rfl, by decide, by decide⟩
  | bool b => cases b <;> exact ⟨_, _, rfl, by decide, by decide⟩
  | int n => exact hnumber (readNumber_toString n)
  | float text => exact hnumber h
  | str s => exact ⟨_, _, rfl, by decide, by decide⟩
  | list items => cases items <;> exact ⟨_, _, rfl, by decide, by decide⟩
  | dict items => cases items <;> exact ⟨_, _, rfl, by decide, by decide⟩

theorem skipBlank_pad (sep : Separators) {c : Char} (hc : isBlank c = false) (rest : List Char) :
    skipBlank (sep.pad ++ c :: rest) = c :: rest := by
  have hstop : (c :: rest).dropWhile isBlank = c :: rest :=
    List.dropWhile_cons_of_neg (Bool.eq_false_iff.mp hc)
  cases sep with
  | spaced => exact (List.dropWhile_cons_of_pos (by decide)).trans hstop
  | compact => exact hstop

theorem skipBlank_dumps {v : Json} (h : Writable v) (rest : List Char) :
    skipBlank (sep.pad ++ (dumps sep v ++ rest)) = dumps sep v ++ rest := by
  obtain ⟨c, others, hcons, hblank, -⟩ := dumps_cons sep h
  rw [hcons, List.cons_append, skipBlank_pad sep hblank]

/-- The value is read from its text, whatever follows. -/
def Reads (sep : Separators) (v : Json) : Prop :=
  ∀ fuel rest, (dumps sep v).length ≤ fuel → Stops rest →
    readValue fuel (dumps sep v ++ rest) = some (v, rest)

theorem reads_of_readNumber {v : Json} (h : readNumber (dumps sep v) = some (v, [])) :
    Reads sep v := by
  intro fuel rest hfuel hstops
  obtain ⟨c, others, hcons, -⟩ := head_of_readNumber h
  rw [hcons, List.length_cons] at hfuel
  obtain ⟨fuel, rfl⟩ := Nat.exists_eq_succ_of_ne_zero (Nat.ne_zero_of_lt hfuel)
  refine readValue_of_readNumber ?_ fuel
  rw [readNumber_append hstops, h]
  rfl

theorem readValue_list {c : Char} (hblank : isBlank c = false) (hbracket : c ≠ ']')
    (fuel : Nat) (rest : List Char) :
    readValue (fuel + 1) ('[' :: c :: rest) =
      (readItems fuel (c :: rest)).map fun read => (.list read.1, read.2) := by
  have hskip : skipBlank (c :: rest) = c :: rest :=
    List.dropWhile_cons_of_neg (Bool.eq_false_iff.mp hblank)
  rw [readValue, hskip]
  split
  · rename_i rest' heq
    exact absurd (List.cons.inj heq).1 hbracket
  · rfl

theorem readValue_dict (fuel : Nat) (rest : List Char) :
    readValue (fuel + 1) ('\x7b' :: '\"' :: rest) =
      (readFields fuel ('\"' :: rest)).map fun read =>
        (.dict (Dict.ofList read.1).items, read.2) := rfl

theorem readItems_last {fuel : Nat} {text rest : List Char} {item : Json}
    (h : readValue fuel text = some (item, ']' :: rest)) :
    readItems (fuel + 1) text = some ([item], rest) := by
  rw [readItems, h]
  rfl

theorem readItems_next {fuel : Nat} {text rest : List Char} {item : Json}
    (h : readValue fuel text = some (item, ',' :: rest)) :
    readItems (fuel + 1) text =
      (readItems fuel (skipBlank rest)).map fun read => (item :: read.1, read.2) := by
  rw [readItems, h]
  rfl

theorem stops_dumpFields (items : List (String × Json)) (rest : List Char) :
    Stops (dumpFields sep items ++ rest) := by
  cases items with
  | nil => exact stops_cons (by decide) _
  | cons item items => exact stops_cons (by decide) _

/-- A key and its value in front of `after`. -/
theorem readFields_key {fuel : Nat} {key : String} {value : Json} (h : Reads sep value)
    (hw : Writable value) (hfuel : (dumps sep value).length ≤ fuel) {after : List Char}
    (hstops : Stops after) :
    readFields (fuel + 1) (quote key ++ ':' :: sep.pad ++ dumps sep value ++ after) =
      match skipBlank after with
      | '\x7d' :: rest => some ([(key, value)], rest)
      | ',' :: rest => (readFields fuel (skipBlank rest)).map fun read =>
          ((key, value) :: read.1, read.2)
      | _ => none := by
  have hcolon (rest : List Char) : skipBlank (':' :: rest) = ':' :: rest := rfl
  have htext : quote key ++ ':' :: sep.pad ++ dumps sep value ++ after =
      '\"' :: (key.toList.flatMap escapeChar ++
        '\"' :: ':' :: (sep.pad ++ (dumps sep value ++ after))) := by
    simp [quote]
  rw [htext, readFields]
  simp only [readString_escaped, hcolon, skipBlank_dumps hw, h fuel after hfuel hstops]

mutual

theorem reads (sep : Separators) : ∀ v, Writable v → Reads sep v
  | .null, _ => by
      rintro (_ | fuel) rest hfuel -
      · cases hfuel
      · rfl
  | .bool true, _ => by
      rintro (_ | fuel) rest hfuel -
      · cases hfuel
      · rfl
  | .bool false, _ => by
      rintro (_ | fuel) rest hfuel -
      · cases hfuel
      · rfl
  | .int n, _ => reads_of_readNumber (readNumber_toString n)
  | .float _, h => reads_of_readNumber h
  | .str s, _ => by
      rintro (_ | fuel) rest hfuel -
      · cases hfuel
      · simp [dumps, quote, readValue, readString_escaped]
  | .list [], _ => by
      rintro (_ | fuel) rest hfuel -
      · cases hfuel
      · rfl
  | .list (item :: items), h => by
      rintro (_ | fuel) rest hfuel -
      · cases hfuel
      · have hread := readItems_dumps sep items h.2 item (reads sep item h.1) fuel rest
          (Nat.le_of_succ_le_succ hfuel)
        obtain ⟨c, others, hcons, hblank, hbracket⟩ := dumps_cons sep h.1
        rw [dumps]
        simp only [hcons, List.cons_append] at hread ⊢
        rw [readValue_list hblank hbracket, hread]
        rfl
  | .dict [], _ => by
      rintro (_ | fuel) rest hfuel -
      · cases hfuel
      · rfl
  | .dict ((key, value) :: items), h => by
      rintro (_ | fuel) rest hfuel -
      · cases hfuel
      · have hread := readFields_dumps sep items h.2.2 key value h.2.1 (reads sep value h.2.1) fuel
          rest (Nat.le_of_succ_le_succ hfuel)
        have hitems := Dict.items_ofList h.1
        rw [dumps]
        simp only [quote, List.cons_append, List.append_assoc] at hread ⊢
        rw [readValue_dict, hread, Option.map_some, hitems]

theorem readItems_dumps (sep : Separators) : ∀ items, WritableItems items →
    ∀ item, Reads sep item →
      ∀ fuel rest, (dumps sep item ++ dumpItems sep items).length ≤ fuel →
        readItems fuel (dumps sep item ++ dumpItems sep items ++ rest) = some (item :: items, rest)
  | [], _ => by
      rintro item hitem (_ | fuel) rest hfuel
      · simp [dumpItems] at hfuel
      · simp only [dumpItems, List.length_append, List.length_singleton] at hfuel
        rw [List.append_assoc]
        exact readItems_last (hitem fuel (']' :: rest) (by omega) (stops_cons (by decide) rest))
  | next :: items, h => by
      rintro item hitem (_ | fuel) rest hfuel
      · simp [dumpItems] at hfuel
      · simp only [dumpItems, List.length_append, List.length_cons] at hfuel
        have hrest := readItems_dumps sep items h.2 next (reads sep next h.1) fuel rest
          (by rw [List.length_append]; omega)
        have hhead := hitem fuel (',' :: (sep.pad ++ (dumps sep next ++
          (dumpItems sep items ++ rest)))) (by omega) (stops_cons (by decide) _)
        rw [dumpItems]
        simp only [List.append_assoc, List.cons_append] at hrest ⊢
        rw [readItems_next hhead, skipBlank_dumps h.1, hrest]
        rfl

theorem readFields_dumps (sep : Separators) : ∀ items, WritableFields items →
    ∀ key value, Writable value → Reads sep value →
      ∀ fuel rest,
        (quote key ++ ':' :: sep.pad ++ dumps sep value ++ dumpFields sep items).length ≤ fuel →
        readFields fuel
            (quote key ++ ':' :: sep.pad ++ dumps sep value ++ dumpFields sep items ++ rest) =
          some ((key, value) :: items, rest)
  | [], _ => by
      rintro key value hw hvalue (_ | fuel) rest hfuel
      · simp [dumpFields] at hfuel
      · simp only [dumpFields, List.length_append, List.length_cons] at hfuel
        have hlength : (dumps sep value).length ≤ fuel := by omega
        rw [List.append_assoc, readFields_key hvalue hw hlength (stops_dumpFields [] rest)]
        rfl
  | (key', next) :: items, h => by
      rintro key value hw hvalue (_ | fuel) rest hfuel
      · simp [dumpFields] at hfuel
      · simp only [dumpFields, List.length_append, List.length_cons] at hfuel
        have hrest := readFields_dumps sep items h.2 key' next h.1 (reads sep next h.1) fuel rest
          (by simp only [List.length_append, List.length_cons]; omega)
        have hquote : skipBlank (sep.pad ++ (quote key' ++ ':' :: sep.pad ++ dumps sep next ++
            dumpFields sep items ++ rest)) = quote key' ++ ':' :: sep.pad ++ dumps sep next ++
            dumpFields sep items ++ rest := skipBlank_pad sep (by decide) _
        have hcomma (text : List Char) : skipBlank (',' :: text) = ',' :: text := rfl
        have hlength : (dumps sep value).length ≤ fuel := by omega
        rw [List.append_assoc, readFields_key hvalue hw hlength
          (stops_dumpFields ((key', next) :: items) rest)]
        simp only [dumpFields, List.append_assoc, List.cons_append, hcomma] at hquote hrest ⊢
        rw [hquote, hrest]
        rfl

end

/-- What was written is read back. -/
theorem loads_dumps (sep : Separators) {v : Json} (h : Writable v) :
    loads (dumps sep v) = some v := by
  have hread := reads sep v h ((dumps sep v).length + 1) [] (Nat.le_succ _) stops_nil
  obtain ⟨c, rest, hcons, hblank, -⟩ := dumps_cons sep h
  have hskip : skipBlank (dumps sep v) = dumps sep v := by
    rw [hcons]
    exact List.dropWhile_cons_of_neg (Bool.eq_false_iff.mp hblank)
  rw [List.append_nil] at hread
  rw [loads, hskip, hread]
  rfl

/-- Two values with one text are the same. -/
theorem dumps_inj {v w : Json} (hv : Writable v) (hw : Writable w)
    (h : dumps sep v = dumps sep w) : v = w := by
  have hread := loads_dumps sep hv
  rw [h, loads_dumps sep hw] at hread
  exact (Option.some.inj hread).symm

/-- The text `repr` writes of a finite `float`. -/
structure FloatText where
  text : String
  number : readNumber text.toList = some (.float text, [])

/-- A finite `float`, by its text. -/
def ofFloat (x : FloatText) : Json := .float x.text

theorem toString_injective : Function.Injective (toString : Int → String) := by
  intro m n h
  have hread := readNumber_toString m
  rw [h, readNumber_toString] at hread
  cases hread
  rfl

end Blive.JsonText
