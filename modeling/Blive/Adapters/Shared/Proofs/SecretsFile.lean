import Blive.Adapters.Shared.Credentials

/-!
# Reading a secrets file back

A file that lists fields as `KEY="VALUE"` among comments, blank lines and other keys is meant to be
read for exactly these values. The loader ends a line at every line boundary of Unicode, so a value
is cut at a form feed or a line separator, and what follows on the line is read as another one.
When a file is read for what it lists.
-/

namespace Blive

open PyStr

/-! ## One line -/

/-- The name of a variable: no white space, no equals sign, and no `#` in front. -/
structure IdentifierLike (name : String) : Prop where
  nonempty : name ≠ ""
  noSpace : ∀ c ∈ name.toList, isSpace c = false
  noEquals : '=' ∉ name.toList
  noHash : name.toList.head? ≠ some '#'

instance (name : String) : Decidable (IdentifierLike name) :=
  decidable_of_iff (name ≠ "" ∧ (name.toList.all fun c => !isSpace c) ∧ '=' ∉ name.toList ∧
    name.toList.head? ≠ some '#')
    ⟨fun ⟨hnonempty, hnoSpace, hnoEquals, hnoHash⟩ =>
        ⟨hnonempty, by simpa using hnoSpace, hnoEquals, hnoHash⟩,
      fun h => ⟨h.nonempty, by simpa using h.noSpace, h.noEquals, h.noHash⟩⟩

/-- The line assigns the value to the name: they stand before and after its first equals sign,
with white space around them and quotes around the value. -/
def Assigns (line : List Char) (name value : String) : Prop :=
  ∃ key rest, line = key ++ '=' :: rest ∧ '=' ∉ key ∧ strip key = name.toList ∧
    value = String.ofList (stripQuotes (strip rest))

theorem takeWhile_partition {key : List Char} (hkey : '=' ∉ key) (rest : List Char) :
    (key ++ '=' :: rest).takeWhile (· ≠ '=') = key := by
  rw [List.takeWhile_append_of_pos, List.takeWhile_cons_of_neg (by simp), List.append_nil]
  intro c hc
  exact decide_eq_true fun h => hkey (h ▸ hc)

theorem dropWhile_partition {key : List Char} (hkey : '=' ∉ key) (rest : List Char) :
    (key ++ '=' :: rest).dropWhile (· ≠ '=') = '=' :: rest := by
  rw [List.dropWhile_append_of_pos, List.dropWhile_cons_of_neg (by simp)]
  intro c hc
  exact decide_eq_true fun h => hkey (h ▸ hc)

/-- A line with an equals sign assigns, unless its key is empty or starts a comment. -/
theorem parseLine_partition {key : List Char} (hkey : '=' ∉ key) (rest : List Char) :
    parseLine (key ++ '=' :: rest) =
      if strip key = [] ∨ (strip key).head? = some '#' then none
      else some (String.ofList (strip key), String.ofList (stripQuotes (strip rest))) := by
  have hstrip := strip_append_cons (c := '=') (by decide) key rest
  have hleft : '=' ∉ key.dropWhile isSpace := fun h =>
    hkey ((List.dropWhile_sublist isSpace).subset h)
  have hne : key.dropWhile isSpace ++ '=' :: rest.rdropWhile isSpace ≠ [] := by simp
  have hmem : '=' ∈ key.dropWhile isSpace ++ '=' :: rest.rdropWhile isSpace := by simp
  have hhead : (key.dropWhile isSpace ++ '=' :: rest.rdropWhile isSpace).head? = some '#' ↔
      (strip key).head? = some '#' := by
    rw [head?_strip]
    cases key.dropWhile isSpace <;> simp
  unfold parseLine
  simp only [hstrip, takeWhile_partition hleft, dropWhile_partition hleft, List.tail_cons,
    strip_dropWhile, strip_rdropWhile, hhead, hne, hmem, false_or, not_true_eq_false, if_false]
  split_ifs <;> simp_all

theorem parseLine_of_notMem {line : List Char} (h : '=' ∉ line) : parseLine line = none := by
  have hstrip : '=' ∉ strip line := fun hmem => h (mem_of_mem_strip hmem)
  simp only [parseLine, if_pos hstrip, ite_self]

/-- A field is given the value that stands on the line. -/
theorem parseLine_eq_some_iff {name : String} (hname : IdentifierLike name) {line : List Char}
    {value : String} : parseLine line = some (name, value) ↔ Assigns line name value := by
  constructor
  · intro hparse
    by_cases hmem : '=' ∈ line
    · obtain ⟨key, rest, rfl, hkey⟩ := List.eq_append_cons_of_mem hmem
      rw [parseLine_partition hkey] at hparse
      split at hparse
      · cases hparse
      · cases hparse
        exact ⟨key, rest, rfl, hkey, String.toList_ofList.symm, rfl⟩
    · cases (parseLine_of_notMem hmem).symm.trans hparse
  · rintro ⟨key, rest, rfl, hkey, hstrip, rfl⟩
    rw [parseLine_partition hkey, hstrip, String.ofList_toList, if_neg]
    rintro (hnil | hhash)
    · exact hname.nonempty (String.toList_eq_nil_iff.mp hnil)
    · exact hname.noHash hhash

/-- What a line gives to a name. -/
def valueFor (name : String) (line : List Char) : Option String :=
  (parseLine line).bind fun item => if item.1 = name then some item.2 else none

theorem valueFor_eq_some_iff {name : String} (hname : IdentifierLike name) {line : List Char}
    {value : String} : valueFor name line = some value ↔ Assigns line name value := by
  rw [← parseLine_eq_some_iff hname]
  unfold valueFor
  cases parseLine line with
  | none => simp
  | some item =>
    obtain ⟨key, v⟩ := item
    by_cases hkey : key = name <;> simp [hkey]

theorem valueFor_nil (name : String) : valueFor name [] = none := rfl

/-! ## The lines of a file -/

/-- The line is read as several, the last of which to assign to the name gives it the value. -/
def LastAssigns (line : List Char) (name value : String) : Prop :=
  ∃ before piece after, line.splitOnP isLineBoundary = before ++ piece :: after ∧
    Assigns piece name value ∧ ∀ later ∈ after, ∀ other, ¬Assigns later name other

/-- What a line of the file gives to a name, when it is read as the lines it is split into. -/
def lastValue (name : String) (line : List Char) : Option String :=
  ((splitlines line).filterMap (valueFor name)).getLast?

theorem lastValue_eq (name : String) (line : List Char) :
    lastValue name line = (line.splitOnP isLineBoundary).reverse.findSome? (valueFor name) := by
  rw [lastValue, filterMap_splitlines (valueFor_nil name), List.getLast?_eq_head?_reverse,
    ← List.filterMap_reverse, List.head?_filterMap]

theorem lastValue_eq_some_iff {name : String} (hname : IdentifierLike name) {line : List Char}
    {value : String} : lastValue name line = some value ↔ LastAssigns line name value := by
  rw [lastValue_eq, List.findSome?_eq_some_iff]
  constructor
  · rintro ⟨after, piece, before, hsplit, hpiece, hafter⟩
    refine ⟨before.reverse, piece, after.reverse, ?_, (valueFor_eq_some_iff hname).mp hpiece, ?_⟩
    · rw [← List.reverse_reverse (line.splitOnP isLineBoundary), hsplit]
      simp
    · intro later hlater other hassigns
      have hnone := hafter later (List.mem_reverse.mp hlater)
      cases hnone.symm.trans ((valueFor_eq_some_iff hname).mpr hassigns)
  · rintro ⟨before, piece, after, hsplit, hpiece, hafter⟩
    refine ⟨after.reverse, piece, before.reverse, ?_, (valueFor_eq_some_iff hname).mpr hpiece, ?_⟩
    · rw [hsplit]
      simp
    · intro later hlater
      cases hvalue : valueFor name later with
      | none => rfl
      | some other =>
        exact absurd ((valueFor_eq_some_iff hname).mp hvalue)
          (hafter later (List.mem_reverse.mp hlater) other)

/-- A line that no boundary breaks is read as it stands. -/
theorem lastValue_of_unbroken {line : List Char} (h : Unbroken line) (name : String) :
    lastValue name line = valueFor name line := by
  rw [lastValue_eq, List.splitOnP_eq_singleton h]
  simp

theorem mem_of_mem_stripQuotes {c : Char} {value : List Char} (h : c ∈ stripQuotes value) :
    c ∈ value := by
  unfold stripQuotes at h
  split at h
  · exact List.mem_of_mem_tail (List.dropLast_subset _ h)
  · exact h

theorem Assigns.mem {line : List Char} {name value : String} (h : Assigns line name value)
    {c : Char} (hc : c ∈ value.toList) : c ∈ line := by
  obtain ⟨key, rest, rfl, _, _, rfl⟩ := h
  rw [String.toList_ofList] at hc
  have hrest : c ∈ rest := mem_of_mem_strip (mem_of_mem_stripQuotes hc)
  exact List.mem_append_right key (List.mem_cons_of_mem _ hrest)

/-- A value never contains a line boundary. -/
theorem LastAssigns.unbroken {line : List Char} {name value : String}
    (h : LastAssigns line name value) : Unbroken value.toList := by
  obtain ⟨before, piece, after, hsplit, hpiece, _⟩ := h
  have hmem : piece ∈ line.splitOnP isLineBoundary := by
    rw [hsplit]
    exact List.mem_append_right _ List.mem_cons_self
  exact fun c hc => forall_mem_of_mem_splitOnP hmem c (hpiece.mem hc)

/-- Of the assignments to a name in a file, the last one counts. -/
theorem get?_parseDotenv (name : String) (order : List String) :
    (parseDotenv ("\n".intercalate order)).get? name =
      order.reverse.findSome? fun line => lastValue name line.toList := by
  have hcomp : (fun rawLine => (parseLine rawLine).bind fun item =>
      if item.1 = name then some item.2 else none) = valueFor name := rfl
  have hjoined : ("\n".intercalate order).toList =
      List.intercalate ['\n'] (order.map String.toList) := String.toList_intercalate
  rw [parseDotenv, Dict.get?_ofList_eq_getLast?, List.filterMap_filterMap, hcomp, hjoined,
    filterMap_splitlines_intercalate (valueFor_nil name), List.getLast?_flatMap,
    ← List.map_reverse, List.findSome?_map]
  rfl

/-! ## Resolving the fields -/

/-- The value of a field: that of the environment, else the one listed. -/
def available (envMap listed : Dict String String) (name : String) : Option String :=
  (envMap.get? name).or (listed.get? name)

/-- The required fields that neither source has. -/
def unavailable (schema : CredentialSchema) (envMap listed : Dict String String) : List String :=
  schema.requiredFieldNames.filter fun name => available envMap listed name = none

section Resolve

variable {schema : CredentialSchema} {envMap fileValues listed : Dict String String}

theorem resolveField_of_available {f : CredentialField} {value : String}
    (h : available envMap fileValues f.val.name = some value) (out : Dict String String)
    (missing : List String) :
    resolveField envMap fileValues (out, missing) f = (out.set f.val.name value, missing) := by
  rcases Option.or_eq_some_iff.mp h with henv | ⟨henv, hfile⟩
  · simp only [resolveField, henv]
  · simp only [resolveField, henv, hfile]

theorem resolveField_of_unavailable {f : CredentialField}
    (h : available envMap fileValues f.val.name = none) (out : Dict String String)
    (missing : List String) :
    resolveField envMap fileValues (out, missing) f =
      (out, if f.val.required then missing ++ [f.val.name] else missing) := by
  obtain ⟨henv, hfile⟩ := Option.or_eq_none_iff.mp h
  simp only [resolveField, henv, hfile]
  split <;> rfl

theorem foldl_resolveField_missing (fields : List CredentialField) (out : Dict String String)
    (missing : List String) :
    (fields.foldl (resolveField envMap fileValues) (out, missing)).2 =
      missing ++ ((fields.filter fun f => f.val.required).map fun f => f.val.name).filter
        fun name => available envMap fileValues name = none := by
  induction fields generalizing out missing with
  | nil => simp
  | cons f rest ih =>
    rw [List.foldl_cons]
    cases hf : available envMap fileValues f.val.name with
    | some value =>
      rw [resolveField_of_available hf, ih]
      by_cases hrequired : f.val.required <;> simp [hrequired, hf]
    | none =>
      rw [resolveField_of_unavailable hf, ih]
      by_cases hrequired : f.val.required <;> simp [hrequired, hf]

theorem get?_foldl_resolveField (fields : List CredentialField) (out : Dict String String)
    (missing : List String) (key : String) :
    (fields.foldl (resolveField envMap fileValues) (out, missing)).1.get? key =
      if key ∈ fields.map (fun f => f.val.name) then
        (available envMap fileValues key).or (out.get? key)
      else out.get? key := by
  induction fields generalizing out missing with
  | nil => simp
  | cons f rest ih =>
    rw [List.foldl_cons]
    cases hf : available envMap fileValues f.val.name with
    | some value =>
      rw [resolveField_of_available hf, ih, Dict.get?_set]
      by_cases hkey : key = f.val.name
      · subst hkey
        simp [hf]
      · simp [hkey]
    | none =>
      rw [resolveField_of_unavailable hf, ih]
      by_cases hkey : key = f.val.name
      · subst hkey
        simp [hf]
      · simp [hkey]

/-- The loader answers what is available, or raises with all that is not. -/
theorem resolveFields_cases (schema : CredentialSchema) (envMap fileValues : Dict String String)
    (envPath : String) :
    (unavailable schema envMap fileValues = [] ∧
      ∃ out, resolveFields schema envMap fileValues envPath = .ok out ∧
        ∀ key, out.get? key =
          if key ∈ schema.fieldNames then available envMap fileValues key else none) ∨
    (unavailable schema envMap fileValues ≠ [] ∧
      resolveFields schema envMap fileValues envPath =
        .error (.missing
          ⟨schema.val.brokerName, unavailable schema envMap fileValues, envPath⟩)) := by
  have hmissing : (schema.val.fields.foldl (resolveField envMap fileValues) (Dict.empty, [])).2 =
      unavailable schema envMap fileValues := foldl_resolveField_missing _ _ []
  unfold resolveFields
  by_cases hnil : unavailable schema envMap fileValues = []
  · refine .inl ⟨hnil, _, if_pos (hmissing.trans hnil), fun key => ?_⟩
    rw [get?_foldl_resolveField, Dict.get?_empty, Option.or_none]
    rfl
  · refine .inr ⟨hnil, ?_⟩
    rw [← hmissing]
    exact if_neg fun h => hnil (hmissing.symm.trans h)

/-- The outcome of loading where the file lists these values: each field has the value of the
environment or the one listed, there is no other key, and what raises names the required fields
in neither. -/
def LoadsExactly (schema : CredentialSchema) (envMap listed : Dict String String) :
    Except LoadError (Dict String String) → Prop
  | .ok out =>
      unavailable schema envMap listed = [] ∧ ∀ key, out.get? key =
        if key ∈ schema.fieldNames then available envMap listed key else none
  | .error (.missing e) =>
      unavailable schema envMap listed ≠ [] ∧ e.missing = unavailable schema envMap listed
  | .error (.py _) => False

/-- The outcome depends on what the file gives to the name: the environment lacks the field, and
where a required one is in neither source, this is one. -/
structure Needed (schema : CredentialSchema) (envMap listed : Dict String String)
    (name : String) : Prop where
  field : name ∈ schema.fieldNames
  lacking : name ∉ envMap
  reported : unavailable schema envMap listed = [] ∨ name ∈ unavailable schema envMap listed

theorem mem_unavailable_iff {name : String} : name ∈ unavailable schema envMap listed ↔
    name ∈ schema.requiredFieldNames ∧ available envMap listed name = none := by
  rw [unavailable, List.mem_filter, decide_eq_true_iff]

theorem mem_fieldNames_of_required {name : String} (h : name ∈ schema.requiredFieldNames) :
    name ∈ schema.fieldNames := by
  obtain ⟨f, hf, rfl⟩ := List.mem_map.mp h
  exact List.mem_map_of_mem (List.mem_filter.mp hf).1

theorem needed_of_mem_unavailable {name : String} (h : name ∈ unavailable schema envMap listed) :
    Needed schema envMap listed name := by
  obtain ⟨hrequired, hnone⟩ := mem_unavailable_iff.mp h
  exact ⟨mem_fieldNames_of_required hrequired,
    Dict.get?_eq_none_iff.mp (Option.or_eq_none_iff.mp hnone).1, .inr h⟩

/-- What a file lacks is in neither source: it holds at least what it lists. -/
theorem mem_unavailable_of_fileValues
    (hcovers : ∀ name ∈ schema.fieldNames, fileValues.get? name = none → listed.get? name = none)
    {name : String} (h : name ∈ unavailable schema envMap fileValues) :
    name ∈ unavailable schema envMap listed := by
  obtain ⟨hrequired, hnone⟩ := mem_unavailable_iff.mp h
  obtain ⟨henv, hfile⟩ := Option.or_eq_none_iff.mp hnone
  have hlisted := hcovers name (mem_fieldNames_of_required hrequired) hfile
  exact mem_unavailable_iff.mpr ⟨hrequired, Option.or_eq_none_iff.mpr ⟨henv, hlisted⟩⟩

/-- Where every needed field has the listed value, the same required fields are missing. -/
theorem unavailable_eq
    (hcovers : ∀ name ∈ schema.fieldNames, fileValues.get? name = none → listed.get? name = none)
    (hsame : ∀ name, Needed schema envMap listed name →
      fileValues.get? name = listed.get? name) :
    unavailable schema envMap fileValues = unavailable schema envMap listed := by
  refine List.filter_congr fun name hname => decide_eq_decide.mpr ⟨fun hnone => ?_, fun hnone => ?_⟩
  · have hmem := mem_unavailable_of_fileValues hcovers (mem_unavailable_iff.mpr ⟨hname, hnone⟩)
    exact (mem_unavailable_iff.mp hmem).2
  · have hmem : name ∈ unavailable schema envMap listed := mem_unavailable_iff.mpr ⟨hname, hnone⟩
    obtain ⟨henv, hlisted⟩ := Option.or_eq_none_iff.mp hnone
    have hfile := (hsame name (needed_of_mem_unavailable hmem)).trans hlisted
    exact Option.or_eq_none_iff.mpr ⟨henv, hfile⟩

/-- A file that holds at least what it lists is loaded exactly when every needed field has the
listed value. -/
theorem loadsExactly_resolveFields_iff
    (hcovers : ∀ name ∈ schema.fieldNames, fileValues.get? name = none → listed.get? name = none)
    (envPath : String) :
    LoadsExactly schema envMap listed (resolveFields schema envMap fileValues envPath) ↔
      ∀ name, Needed schema envMap listed name → fileValues.get? name = listed.get? name := by
  constructor
  · intro hloads name hneeded
    have henv : envMap.get? name = none := Dict.get?_eq_none_iff.mpr hneeded.lacking
    rcases resolveFields_cases schema envMap fileValues envPath with
      ⟨_, out, hok, hout⟩ | ⟨_, herror⟩
    · rw [hok] at hloads
      have hkey := (hout name).symm.trans (hloads.2 name)
      rwa [if_pos hneeded.field, if_pos hneeded.field, available, available, henv, Option.none_or,
        Option.none_or] at hkey
    · rw [herror] at hloads
      obtain ⟨hne, hmissing⟩ := hloads
      change unavailable schema envMap fileValues = _ at hmissing
      have hlisted : name ∈ unavailable schema envMap listed := hneeded.reported.resolve_left hne
      have hfile : name ∈ unavailable schema envMap fileValues := hmissing.symm ▸ hlisted
      have hnone := (mem_unavailable_iff.mp hlisted).2
      have hnone' := (mem_unavailable_iff.mp hfile).2
      exact (Option.or_eq_none_iff.mp hnone').2.trans (Option.or_eq_none_iff.mp hnone).2.symm
  · intro hsame
    have hunavailable := unavailable_eq hcovers hsame
    rcases resolveFields_cases schema envMap fileValues envPath with
      ⟨hnil, out, hok, hout⟩ | ⟨hne, herror⟩
    · rw [hok]
      have hnone : unavailable schema envMap listed = [] := hunavailable.symm.trans hnil
      refine ⟨hnone, fun key => (hout key).trans ?_⟩
      by_cases hkey : key ∈ schema.fieldNames
      · rw [if_pos hkey, if_pos hkey, available, available]
        cases henv : envMap.get? key with
        | some value => rfl
        | none => rw [hsame key ⟨hkey, Dict.get?_eq_none_iff.mp henv, .inl hnone⟩]
      · rw [if_neg hkey, if_neg hkey]
    · rw [herror]
      exact ⟨hunavailable ▸ hne, hunavailable⟩

end Resolve

/-! ## The file -/

/-- The line that lists a value. -/
def entryLine (name value : String) : String := name ++ "=\"" ++ value ++ "\""

/-- A line beside the listed ones: blank, a comment, or for a key that is no field. -/
inductive OtherLine (names : List String) (line : List Char) : Prop
  | blank (h : strip line = [])
  | comment (h : (strip line).head? = some '#')
  | unrelated (key rest : List Char) (hline : line = key ++ '=' :: rest) (hkey : '=' ∉ key)
      (h : String.ofList (strip key) ∉ names)

section Lines

variable {names : List String} {name value : String} {line : List Char}

theorem toList_entryLine (name value : String) :
    (entryLine name value).toList = name.toList ++ '=' :: '"' :: (value.toList ++ ['"']) := by
  simp [entryLine]

theorem stripQuotes_quoted (value : List Char) : stripQuotes ('"' :: (value ++ ['"'])) = value := by
  have hlast : ('"' :: (value ++ ['"'])).getLast? = some '"' := by
    rw [← List.cons_append, List.getLast?_concat]
  rw [stripQuotes, if_pos ⟨by simp, .inl ⟨rfl, hlast⟩⟩, List.tail_cons, List.dropLast_concat]

theorem strip_quoted (value : List Char) :
    strip ('"' :: (value ++ ['"'])) = '"' :: (value ++ ['"']) := by
  have hquote : isSpace '"' = false := by decide
  rw [← List.nil_append ('"' :: (value ++ ['"'])), strip_append_cons hquote,
    List.rdropWhile_concat_neg isSpace _ _ (Bool.eq_false_iff.mp hquote)]
  rfl

theorem assigns_entryLine (hname : IdentifierLike name) (value : String) :
    Assigns (entryLine name value).toList name value := by
  refine ⟨name.toList, _, toList_entryLine name value, hname.noEquals,
    strip_of_forall hname.noSpace, ?_⟩
  rw [strip_quoted, stripQuotes_quoted, String.ofList_toList]

/-- However its value breaks it, the line gives the field some value. -/
theorem exists_lastValue_entryLine (hname : IdentifierLike name) (value : String) :
    ∃ w, lastValue name (entryLine name value).toList = some w := by
  obtain ⟨first, rest, hsplit⟩ :=
    List.exists_cons_of_ne_nil (List.splitOnP_ne_nil isLineBoundary (value.toList ++ ['"']))
  have hunbroken : Unbroken (name.toList ++ ['=', '"']) := by
    intro c hc
    rcases List.mem_append.mp hc with hc | hc
    · refine Bool.eq_false_iff.mpr fun hboundary => ?_
      cases (hname.noSpace c hc).symm.trans (isSpace_of_isLineBoundary hboundary)
    · exact (by decide : Unbroken ['=', '"']) c hc
  have hpieces : (entryLine name value).toList.splitOnP isLineBoundary =
      (name.toList ++ '=' :: '"' :: first) :: rest := by
    have hline : (entryLine name value).toList =
        (name.toList ++ ['=', '"']) ++ (value.toList ++ ['"']) := by simp [entryLine]
    rw [hline, splitOnP_append_of_forall hunbroken, hsplit]
    simp
  have hassigns : Assigns (name.toList ++ '=' :: '"' :: first) name _ :=
    ⟨name.toList, _, rfl, hname.noEquals, strip_of_forall hname.noSpace, rfl⟩
  rw [lastValue_eq, ← Option.isSome_iff_exists, List.findSome?_isSome_iff, hpieces]
  refine ⟨_, List.mem_reverse.mpr List.mem_cons_self, ?_⟩
  exact Option.isSome_of_eq_some ((valueFor_eq_some_iff hname).mpr hassigns)

theorem OtherLine.valueFor_eq_none (hline : OtherLine names line) (hmem : name ∈ names) :
    valueFor name line = none := by
  have hskip (h : parseLine line = none) : valueFor name line = none := by
    rw [valueFor, h]
    rfl
  cases hline with
  | blank h => exact hskip (if_pos (.inl h))
  | comment h => exact hskip (if_pos (.inr h))
  | unrelated key rest hline hkey h =>
    subst hline
    have hparse := parseLine_partition hkey rest
    split at hparse
    · exact hskip hparse
    · have hne : String.ofList (strip key) ≠ name := fun heq => h (heq ▸ hmem)
      rw [valueFor, hparse, Option.bind_some, if_neg hne]

end Lines

/-- The text is one line of a file. -/
def OneLine (text : String) : Prop := '\n' ∉ text.toList ∧ '\r' ∉ text.toList

instance (text : String) : Decidable (OneLine text) :=
  inferInstanceAs (Decidable ('\n' ∉ text.toList ∧ '\r' ∉ text.toList))

/-- What a secrets file lists, and its other lines. -/
structure SecretsFile (names : List String) where
  values : Dict String String
  others : List String
  listed : ∀ name ∈ values, name ∈ names
  oneLine : ∀ value ∈ values.values, OneLine value
  other : ∀ line ∈ others, OneLine line ∧ OtherLine names line.toList

namespace SecretsFile

variable {names : List String} (file : SecretsFile names)

def lines : List String :=
  (file.values.items.map fun item => entryLine item.1 item.2) ++ file.others

/-- The file has these lines, in any order. -/
def HeldBy (secretsDir : String → Option (Except PyError String)) (brokerName : String) : Prop :=
  ∃ order, order.Perm file.lines ∧
    secretsDir (brokerName ++ ".env") = some (.ok ("\n".intercalate order))

/-- No listed value of a needed field contains a line boundary, and no line that contains one
gives a needed field another value than the listed one. -/
structure Legible (needed : String → Prop) : Prop where
  whole : ∀ name value, needed name → file.values.get? name = some value →
    Unbroken value.toList
  noStray : ∀ line ∈ file.lines, ¬Unbroken line.toList → ∀ name value, needed name →
    LastAssigns line.toList name value → file.values.get? name = some value

variable {file}

theorem mem_lines {line : String} (h : line ∈ file.lines) :
    (∃ name value, file.values.get? name = some value ∧ line = entryLine name value) ∨
      (OneLine line ∧ OtherLine names line.toList) := by
  rcases List.mem_append.mp h with hentry | hother
  · obtain ⟨⟨name, value⟩, hitem, rfl⟩ := List.mem_map.mp hentry
    exact .inl ⟨name, value, Dict.get?_eq_some_iff.mpr hitem, rfl⟩
  · exact .inr (file.other line hother)

theorem entryLine_mem_lines {name value : String} (h : file.values.get? name = some value) :
    entryLine name value ∈ file.lines :=
  List.mem_append_left _ (List.mem_map.mpr ⟨(name, value), Dict.get?_eq_some_iff.mp h, rfl⟩)

theorem mem_names_of_get? {name value : String} (h : file.values.get? name = some value) :
    name ∈ names := file.listed name (Dict.mem_of_get? h)

/-- No line gives a needed field another value than the listed one, exactly when the file is
legible: a line that nothing breaks gives the listed value or none. -/
theorem legible_iff (hnames : ∀ name ∈ names, IdentifierLike name) {needed : String → Prop}
    (hneeded : ∀ name, needed name → name ∈ names) :
    file.Legible needed ↔ ∀ name, needed name → ∀ line ∈ file.lines, ∀ value,
      lastValue name line.toList = some value → file.values.get? name = some value := by
  constructor
  · intro hlegible name hname line hline value hvalue
    have hidentifier := hnames name (hneeded name hname)
    by_cases hunbroken : Unbroken line.toList
    · rw [lastValue_of_unbroken hunbroken] at hvalue
      rcases mem_lines hline with ⟨key, listed, hlisted, rfl⟩ | ⟨_, hother⟩
      · have hentry := (parseLine_eq_some_iff (hnames key (mem_names_of_get? hlisted))).mpr
          (assigns_entryLine (hnames key (mem_names_of_get? hlisted)) listed)
        have hparse := (parseLine_eq_some_iff hidentifier).mpr
          ((valueFor_eq_some_iff hidentifier).mp hvalue)
        cases hentry.symm.trans hparse
        exact hlisted
      · cases (hother.valueFor_eq_none (hneeded name hname)).symm.trans hvalue
    · exact hlegible.noStray line hline hunbroken name value hname
        ((lastValue_eq_some_iff hidentifier).mp hvalue)
  · intro hgiven
    refine ⟨fun name value hname hlisted => ?_, fun line hline _ name value hname hvalue => ?_⟩
    · have hidentifier := hnames name (hneeded name hname)
      obtain ⟨w, hw⟩ := exists_lastValue_entryLine hidentifier value
      have hsame := hgiven name hname _ (entryLine_mem_lines hlisted) w hw
      cases hsame.symm.trans hlisted
      exact ((lastValue_eq_some_iff hidentifier).mp hw).unbroken
    · have hidentifier := hnames name (hneeded name hname)
      exact hgiven name hname line hline value ((lastValue_eq_some_iff hidentifier).mpr hvalue)

end SecretsFile

/-- The last to answer decides, whatever the order, only when all answers are the one wanted. -/
theorem forall_perm_findSome?_iff {α β : Type} {l : List α} {g : α → Option β} {wanted : Option β}
    (hgiven : ∀ b, wanted = some b → ∃ a ∈ l, (g a).isSome) :
    (∀ order : List α, order.Perm l → order.reverse.findSome? g = wanted) ↔
      ∀ a ∈ l, ∀ b, g a = some b → wanted = some b := by
  constructor
  · intro hall a ha b hb
    obtain ⟨before, after, rfl⟩ := List.append_of_mem ha
    have horder : (before ++ after ++ [a]).Perm (before ++ a :: after) := by
      rw [List.append_assoc]
      exact List.Perm.append_left before (List.perm_append_comm)
    have hlast := hall _ horder
    rw [List.reverse_append, List.reverse_singleton, List.singleton_append,
      List.findSome?_cons_of_isSome (by rw [hb]; rfl)] at hlast
    exact hlast.symm.trans hb
  · intro hall order horder
    cases hfound : order.reverse.findSome? g with
    | some b =>
      obtain ⟨a, ha, hb⟩ := List.exists_of_findSome?_eq_some hfound
      exact (hall a (horder.mem_iff.mp (List.mem_reverse.mp ha)) b hb).symm
    | none =>
      cases hwanted : wanted with
      | none => rfl
      | some b =>
        obtain ⟨a, ha, hsome⟩ := hgiven b hwanted
        have hnone := List.findSome?_eq_none_iff.mp hfound a
          (List.mem_reverse.mpr (horder.mem_iff.mpr ha))
        rw [hnone] at hsome
        cases hsome

/-! ## Loading the file -/

theorem loadCredentials_of_text {schema : CredentialSchema} {text : String}
    {secretsDir : String → Option (Except PyError String)}
    (h : secretsDir (schema.val.brokerName ++ ".env") = some (.ok text))
    (envMap : Dict String String) :
    loadCredentials schema secretsDir envMap =
      resolveFields schema envMap (parseDotenv text) (schema.val.brokerName ++ ".env") := by
  simp only [loadCredentials, h]

theorem loadsExactly_iff {schema : CredentialSchema}
    (hnames : ∀ name ∈ schema.fieldNames, IdentifierLike name) (envMap : Dict String String)
    {file : SecretsFile schema.fieldNames} {order : List String} (horder : order.Perm file.lines)
    {secretsDir : String → Option (Except PyError String)}
    (hheld : secretsDir (schema.val.brokerName ++ ".env") = some (.ok ("\n".intercalate order))) :
    LoadsExactly schema envMap file.values (loadCredentials schema secretsDir envMap) ↔
      ∀ name, Needed schema envMap file.values name →
        order.reverse.findSome? (fun line => lastValue name line.toList) =
          file.values.get? name := by
  rw [loadCredentials_of_text hheld, loadsExactly_resolveFields_iff]
  · simp only [get?_parseDotenv]
  · intro name hname hnone
    rw [get?_parseDotenv, List.findSome?_eq_none_iff] at hnone
    cases hlisted : file.values.get? name with
    | none => rfl
    | some value =>
      obtain ⟨w, hw⟩ := exists_lastValue_entryLine (hnames name hname) value
      have hmem := horder.mem_iff.mpr (SecretsFile.entryLine_mem_lines hlisted)
      cases (hnone _ (List.mem_reverse.mpr hmem)).symm.trans hw

/-- Whatever order its lines are in, the file is loaded for exactly what it lists if and only if
it is legible. -/
theorem loadCredentials_exact_iff {schema : CredentialSchema}
    (hnames : ∀ name ∈ schema.fieldNames, IdentifierLike name) (envMap : Dict String String)
    (file : SecretsFile schema.fieldNames) :
    (∀ secretsDir, file.HeldBy secretsDir schema.val.brokerName →
      LoadsExactly schema envMap file.values (loadCredentials schema secretsDir envMap)) ↔
    file.Legible (Needed schema envMap file.values) := by
  have hgiven (name : String) (hname : Needed schema envMap file.values name) :
      ∀ value, file.values.get? name = some value →
        ∃ line ∈ file.lines, (lastValue name line.toList).isSome := by
    intro value hlisted
    obtain ⟨w, hw⟩ := exists_lastValue_entryLine (hnames name hname.field) value
    exact ⟨_, SecretsFile.entryLine_mem_lines hlisted, Option.isSome_of_eq_some hw⟩
  rw [SecretsFile.legible_iff hnames fun name hname => hname.field]
  constructor
  · intro hloads name hname
    refine (forall_perm_findSome?_iff (hgiven name hname)).mp fun order horder => ?_
    have hexact := hloads (fun _ => some (.ok ("\n".intercalate order))) ⟨order, horder, rfl⟩
    exact (loadsExactly_iff hnames envMap horder rfl).mp hexact name hname
  · rintro hlines secretsDir ⟨order, horder, hheld⟩
    exact (loadsExactly_iff hnames envMap horder hheld).mpr fun name hname =>
      (forall_perm_findSome?_iff (hgiven name hname)).mpr (hlines name hname) order horder

theorem igSchema_identifierLike : ∀ name ∈ igSchema.fieldNames, IdentifierLike name := by
  decide +kernel

/-- An environment with the settings that are no secrets. -/
def settingsEnv : Dict String String :=
  Dict.ofList [("IG_ACCOUNT_ID", "ABC12"), ("IG_ENVIRONMENT", "demo")]

/-- A file of values with quotes and spaces, with a comment, a blank line and another key. -/
def quotedSecrets : SecretsFile igSchema.fieldNames where
  values := Dict.ofList
    [("IG_API_KEY", "k=1#2"), ("IG_USERNAME", " o'hara "), ("IG_PASSWORD", "\"\"")]
  others := ["  # demo", "", "IG_LABEL = \"x\""]
  listed := fun name hname => (by decide +kernel :
    ∀ name ∈ ["IG_API_KEY", "IG_USERNAME", "IG_PASSWORD"], name ∈ igSchema.fieldNames) name hname
  oneLine := by decide +kernel
  other := by
    intro line hline
    refine ⟨(by decide +kernel : ∀ line ∈ ["  # demo", "", "IG_LABEL = \"x\""], OneLine line)
      line hline, ?_⟩
    simp only [List.mem_cons, List.not_mem_nil, or_false] at hline
    rcases hline with rfl | rfl | rfl
    · exact .comment (by decide +kernel)
    · exact .blank rfl
    · exact .unrelated "IG_LABEL ".toList " \"x\"".toList (by decide +kernel) (by decide +kernel)
        (by decide +kernel)

theorem quotedSecrets_exact :
    quotedSecrets.Legible (Needed igSchema settingsEnv quotedSecrets.values) ∧
      ∀ secretsDir, quotedSecrets.HeldBy secretsDir "ig" → LoadsExactly igSchema settingsEnv
        quotedSecrets.values (loadCredentials igSchema secretsDir settingsEnv) := by
  have hvalues : ∀ value ∈ quotedSecrets.values.values, Unbroken value.toList := by
    decide +kernel
  have hlines : ∀ line ∈ quotedSecrets.lines, Unbroken line.toList := by decide +kernel
  have hlegible : quotedSecrets.Legible (Needed igSchema settingsEnv quotedSecrets.values) := by
    refine ⟨fun name value _ hlisted => ?_, fun line hline hbroken => ?_⟩
    · exact hvalues value (List.mem_map_of_mem (Dict.get?_eq_some_iff.mp hlisted))
    · exact absurd (hlines line hline) hbroken
  exact ⟨hlegible,
    (loadCredentials_exact_iff igSchema_identifierLike settingsEnv quotedSecrets).mpr hlegible⟩

/-- A file of a password that contains a line separator. -/
def separatorSecrets : SecretsFile igSchema.fieldNames where
  values := Dict.ofList
    [("IG_API_KEY", "k"), ("IG_USERNAME", "u"), ("IG_PASSWORD", "ab\u2028cd")]
  others := []
  listed := fun name hname => (by decide +kernel :
    ∀ name ∈ ["IG_API_KEY", "IG_USERNAME", "IG_PASSWORD"], name ∈ igSchema.fieldNames) name hname
  oneLine := by decide +kernel
  other := fun _ hline => absurd hline List.not_mem_nil

/-- The password is cut at the separator, with the quote in front of it. -/
theorem not_loadCredentials_exact :
    ¬∀ (schema : CredentialSchema) (envMap : Dict String String)
      (file : SecretsFile schema.fieldNames) (secretsDir : String → Option (Except PyError String)),
      (∀ name ∈ schema.fieldNames, IdentifierLike name) →
      file.HeldBy secretsDir schema.val.brokerName →
      LoadsExactly schema envMap file.values (loadCredentials schema secretsDir envMap) := by
  intro hall
  have hexact := hall igSchema settingsEnv separatorSecrets
    (fun _ => some (.ok ("\n".intercalate separatorSecrets.lines))) igSchema_identifierLike
    ⟨_, List.Perm.refl _, rfl⟩
  have hloaded : (loadCredentials igSchema
      (fun _ => some (.ok ("\n".intercalate separatorSecrets.lines)))
      settingsEnv).toOption.bind (·.get? "IG_PASSWORD") = some "\"ab" := by decide +kernel
  cases hload : loadCredentials igSchema
      (fun _ => some (.ok ("\n".intercalate separatorSecrets.lines))) settingsEnv with
  | error e =>
    rw [hload] at hloaded
    cases hloaded
  | ok out =>
    rw [hload] at hloaded hexact
    have hlisted : some "\"ab" = some "ab\u2028cd" := hloaded.symm.trans (hexact.2 "IG_PASSWORD")
    exact absurd hlisted (by decide)

end Blive
