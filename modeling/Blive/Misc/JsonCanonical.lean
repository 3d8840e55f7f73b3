import Mathlib.Data.List.Sort
import Blive.Misc.JsonText

/-!
# Canonical lines of JSON

A text that `json.dumps` writes is a single line of printable characters, and under
`sort_keys=True` it depends only on the values under the keys.
-/

namespace Blive.JsonText

variable {sep : Separators}

/-! ## Every character is printable -/

def Printable (text : List Char) : Prop := ∀ c ∈ text, 32 ≤ c.toNat ∧ c.toNat ≤ 126

instance (text : List Char) : Decidable (Printable text) :=
  List.decidableBAll _ text

theorem printable_append {text text' : List Char} :
    Printable (text ++ text') ↔ Printable text ∧ Printable text' := List.forall_mem_append

theorem printable_cons {c : Char} {text : List Char} :
    Printable (c :: text) ↔ (32 ≤ c.toNat ∧ c.toNat ≤ 126) ∧ Printable text :=
  List.forall_mem_cons

theorem Printable.unbroken {text : List Char} (h : Printable text) : PyStr.Unbroken text := by
  intro c hc
  have hrange := h c hc
  simp only [PyStr.isLineBoundary, decide_eq_false_iff_not, List.mem_cons, List.not_mem_nil,
    or_false]
  omega

theorem printable_unicodeEscape {n : Nat} (h : n < 0x10000) : Printable (unicodeEscape n) := by
  have hall : ∀ d < 16, 32 ≤ (Nat.digitChar d).toNat ∧ (Nat.digitChar d).toNat ≤ 126 := by decide
  simp only [unicodeEscape, hex4, printable_cons]
  exact ⟨by decide, by decide, hall _ (by omega), hall _ (by omega), hall _ (by omega),
    hall _ (by omega), fun c hc => absurd hc List.not_mem_nil⟩

theorem printable_escapeChar (c : Char) : Printable (escapeChar c) := by
  have hletter {d : Char} (hd : 32 ≤ d.toNat ∧ d.toNat ≤ 126) : Printable ['\\', d] :=
    printable_cons.mpr ⟨by decide, printable_cons.mpr ⟨hd, fun c hc => absurd hc List.not_mem_nil⟩⟩
  unfold escapeChar
  split
  · rename_i h
    rcases h with rfl | rfl <;> exact hletter (by decide)
  split
  · exact hletter (by decide)
  split
  · exact hletter (by decide)
  split
  · exact hletter (by decide)
  split
  · exact hletter (by decide)
  split
  · exact hletter (by decide)
  split
  · rename_i h
    exact printable_cons.mpr ⟨h, fun c hc => absurd hc List.not_mem_nil⟩
  split
  · rename_i h
    exact printable_unicodeEscape h
  · rename_i hplane
    obtain ⟨m, hm⟩ := Nat.exists_eq_add_of_le (not_lt.mp hplane)
    have hrest : c.toNat - 0x10000 = m := Nat.sub_eq_of_eq_add' hm
    have hlt := toNat_lt c
    rw [hrest]
    exact printable_append.mpr
      ⟨printable_unicodeEscape (by omega), printable_unicodeEscape (by omega)⟩

theorem printable_quote (s : String) : Printable (quote s) := by
  have hbody : Printable (s.toList.flatMap escapeChar) := by
    intro c hc
    obtain ⟨c', -, hc⟩ := List.mem_flatMap.mp hc
    exact printable_escapeChar c' c hc
  have hend : Printable ['\"'] := by
    intro c hc
    rw [List.mem_singleton.mp hc]
    decide
  exact printable_cons.mpr ⟨by decide, printable_append.mpr ⟨hbody, hend⟩⟩

theorem isNumeralChar_printable {c : Char} (h : isNumeralChar c) :
    32 ≤ c.toNat ∧ c.toNat ≤ 126 := by
  simp only [isNumeralChar, Bool.or_eq_true, decide_eq_true_eq] at h
  rcases h with ((((h | rfl) | rfl) | rfl) | rfl) | rfl
  · simp only [PyStr.isDigit, Bool.and_eq_true, decide_eq_true_eq, Char.le_def,
      UInt32.le_iff_toNat_le] at h
    have hlow : '0'.val.toNat = 48 := rfl
    have hhigh : '9'.val.toNat = 57 := rfl
    unfold Char.toNat
    omega
  all_goals decide

theorem forall_splitOne {p : Char → Bool} (hp : ∀ c, p c → isNumeralChar c) (text : List Char) :
    ∀ c ∈ (splitOne p text).1, isNumeralChar c := by
  cases text with
  | nil => exact fun c hc => absurd hc List.not_mem_nil
  | cons c rest =>
    rw [splitOne]
    split
    · rename_i hc
      exact fun c' hc' => List.mem_singleton.mp hc' ▸ hp c hc
    · exact fun c' hc' => absurd hc' List.not_mem_nil

theorem forall_digits (text : List Char) :
    ∀ c ∈ text.takeWhile PyStr.isDigit, isNumeralChar c := by
  intro c hc
  simp [isNumeralChar, List.mem_takeWhile_imp hc]

theorem forall_splitWhole (text : List Char) : ∀ c ∈ (splitWhole text).1, isNumeralChar c := by
  have hzero := forall_splitOne (isNumeralChar_of_eq (d := '0') rfl) text
  unfold splitWhole
  dsimp only
  split
  · exact forall_digits text
  · exact hzero

theorem forall_splitFraction (text : List Char) :
    ∀ c ∈ (splitFraction text).1, isNumeralChar c := by
  have hpoint := forall_splitOne (isNumeralChar_of_eq (d := '.') rfl) text
  unfold splitFraction
  dsimp only
  split
  · exact fun c hc => absurd hc List.not_mem_nil
  · exact List.forall_mem_append.mpr ⟨hpoint, forall_digits _⟩

theorem forall_splitExponent (text : List Char) :
    ∀ c ∈ (splitExponent text).1, isNumeralChar c := by
  have hmark := forall_splitOne (isNumeralChar_of_or (d := 'e') (e := 'E') rfl rfl) text
  have hsign := forall_splitOne (isNumeralChar_of_or (d := '-') (e := '+') rfl rfl)
  unfold splitExponent
  dsimp only
  split
  · exact fun c hc => absurd hc List.not_mem_nil
  · simp only [List.forall_mem_append]
    exact ⟨⟨hmark, hsign _⟩, forall_digits _⟩

/-- The text of a `float` has the characters of a number. -/
theorem printable_float {text rest : List Char} {s : String}
    (h : readNumber text = some (.float s, rest)) : Printable s.toList := by
  have hminus := forall_splitOne (isNumeralChar_of_eq (d := '-') rfl) text
  simp only [readNumber] at h
  split at h
  · cases h
  split at h
  · cases h
  · obtain ⟨hs, -⟩ := Prod.mk.inj (Option.some.inj h)
    rw [← Json.float.inj hs, String.toList_ofList]
    intro c hc
    refine isNumeralChar_printable ?_
    simp only [List.mem_append] at hc
    rcases hc with ((hc | hc) | hc) | hc
    · exact hminus c hc
    · exact forall_splitWhole _ c hc
    · exact forall_splitFraction _ c hc
    · exact forall_splitExponent _ c hc

theorem printable_int (n : Int) : Printable (toString n).toList := by
  have hdigits (n : Nat) : Printable (Nat.toDigits 10 n) := fun c hc =>
    isNumeralChar_printable (by simp [isNumeralChar, isDigit_of_mem_toDigits hc])
  cases n with
  | ofNat n =>
    have htext : (toString (Int.ofNat n)).toList = Nat.toDigits 10 n := Nat.toList_repr
    rw [htext]
    exact hdigits n
  | negSucc n =>
    rw [toList_negSucc]
    exact printable_cons.mpr ⟨by decide, hdigits (n + 1)⟩

theorem printable_pad (sep : Separators) : Printable sep.pad := by
  cases sep <;> decide

mutual

theorem printable_dumps (sep : Separators) : ∀ v, Writable v → Printable (dumps sep v)
  | .null, _ => by rw [dumps]; decide
  | .bool true, _ => by rw [dumps]; decide
  | .bool false, _ => by rw [dumps]; decide
  | .int n, _ => printable_int n
  | .float _, h => printable_float h
  | .str s, _ => printable_quote s
  | .list [], _ => by rw [dumps]; decide
  | .list (item :: items), h => printable_cons.mpr ⟨by decide, printable_append.mpr
      ⟨printable_dumps sep item h.1, printable_dumpItems sep items h.2⟩⟩
  | .dict [], _ => by rw [dumps]; decide
  | .dict ((key, value) :: items), h => by
      rw [dumps]
      simp only [List.cons_append, printable_cons, printable_append]
      exact ⟨by decide, ⟨⟨printable_quote key, by decide, printable_pad sep⟩,
        printable_dumps sep value h.2.1⟩, printable_dumpFields sep items h.2.2⟩

theorem printable_dumpItems (sep : Separators) : ∀ items, WritableItems items →
    Printable (dumpItems sep items)
  | [], _ => by rw [dumpItems]; decide
  | item :: items, h => by
      rw [dumpItems]
      simp only [List.cons_append, printable_cons, printable_append]
      exact ⟨by decide, ⟨printable_pad sep, printable_dumps sep item h.1⟩,
        printable_dumpItems sep items h.2⟩

theorem printable_dumpFields (sep : Separators) : ∀ items, WritableFields items →
    Printable (dumpFields sep items)
  | [], _ => by rw [dumpFields]; decide
  | (key, value) :: items, h => by
      rw [dumpFields]
      simp only [List.cons_append, printable_cons, printable_append]
      exact ⟨by decide, ⟨⟨⟨printable_pad sep, printable_quote key⟩, by decide, printable_pad sep⟩,
        printable_dumps sep value h.1⟩, printable_dumpFields sep items h.2⟩

end

/-! ## Sorted keys -/

section Sorted

variable {κ ν : Type} [LinearOrder κ]

abbrev KeyLe (a b : κ × ν) : Prop := a.1 ≤ b.1

instance : Std.Total (KeyLe (κ := κ) (ν := ν)) := ⟨fun a b => le_total a.1 b.1⟩

instance : IsTrans (κ × ν) KeyLe := ⟨fun _ _ _ => le_trans⟩

/-- The items of a dictionary under `sort_keys=True`. -/
def sortedItems (d : Dict κ ν) : List (κ × ν) := d.items.insertionSort KeyLe

/-- A dictionary under `sort_keys=True`: its keys are sorted before they are made strings. -/
def sortedDict (key : κ → String) (value : ν → Json) (d : Dict κ ν) : Json :=
  .dict ((sortedItems d).map fun item => (key item.1, value item.2))

theorem sortedItems_perm (d : Dict κ ν) : (sortedItems d).Perm d.items :=
  List.perm_insertionSort KeyLe _

theorem nodup_sortedItems (d : Dict κ ν) : ((sortedItems d).map Prod.fst).Nodup :=
  ((sortedItems_perm d).map Prod.fst).nodup_iff.mpr d.nodup

theorem pairwise_sortedItems (d : Dict κ ν) : (sortedItems d).Pairwise KeyLe :=
  List.pairwise_insertionSort KeyLe _

/-- Only the keys and their values decide how a dictionary is written. -/
theorem sortedItems_congr {d d' : Dict κ ν} (h : ∀ k, d.get? k = d'.get? k) :
    sortedItems d = sortedItems d' := by
  have hperm : (sortedItems d).Perm (sortedItems d') :=
    (sortedItems_perm d).trans ((Dict.items_perm h).trans (sortedItems_perm d').symm)
  refine hperm.eq_of_pairwise (fun a b ha hb hab hba => ?_) (pairwise_sortedItems d)
    (pairwise_sortedItems d')
  have hkey : a.1 = b.1 := le_antisymm hab hba
  have hvalue := Dict.get?_eq_some_iff.mpr ((sortedItems_perm d).mem_iff.mp ha)
  have hvalue' := Dict.get?_eq_some_iff.mpr ((sortedItems_perm d').mem_iff.mp hb)
  rw [h, hkey, hvalue'] at hvalue
  exact Prod.ext hkey (Option.some.inj hvalue).symm

variable {key : κ → String} (hkey : Function.Injective key)
include hkey

theorem field?_map_items (value : ν → Json) (items : List (κ × ν)) (k : κ) :
    Json.field? (items.map fun item => (key item.1, value item.2)) (key k) =
      (Dict.lookupItems k items).map value := by
  induction items with
  | nil => rfl
  | cons item rest ih =>
    obtain ⟨k', v⟩ := item
    by_cases h : k' = k
    · subst h
      simp [Json.field?, Dict.lookupItems]
    · have hne : key k' ≠ key k := fun heq => h (hkey heq)
      simpa [Json.field?, Dict.lookupItems, h, hne] using ih

/-- A field is read back under its key. -/
theorem field?_sortedItems (value : ν → Json) (d : Dict κ ν) (k : κ) :
    Json.field? ((sortedItems d).map fun item => (key item.1, value item.2)) (key k) =
      (d.get? k).map value := by
  have hlookup : Dict.lookupItems k (sortedItems d) = d.get? k := by
    ext v
    rw [Dict.lookupItems_eq_some_iff (nodup_sortedItems d), (sortedItems_perm d).mem_iff,
      Dict.get?_eq_some_iff]
  rw [field?_map_items hkey, hlookup]

/-- Two dictionaries are written alike just when they have the same values under the same keys. -/
theorem sortedDict_eq_iff {value : ν → Json} {d d' : Dict κ ν} :
    sortedDict key value d = sortedDict key value d' ↔
      ∀ k, (d.get? k).map value = (d'.get? k).map value := by
  constructor
  · intro h k
    rw [← field?_sortedItems hkey, ← field?_sortedItems hkey, Json.dict.inj h]
  · intro h
    have hmap (d : Dict κ ν) : sortedDict key value d = sortedDict key id (d.mapValues value) := by
      have hitems : sortedItems (d.mapValues value) =
          (sortedItems d).map fun item => (item.1, value item.2) :=
        (List.map_insertionSort KeyLe KeyLe (fun item : κ × ν => (item.1, value item.2)) _
          fun _ _ _ _ => Iff.rfl).symm
      rw [sortedDict, sortedDict, hitems, List.map_map]
      rfl
    rw [hmap, hmap, sortedDict, sortedDict, sortedItems_congr]
    intro k
    rw [Dict.get?_mapValues, Dict.get?_mapValues, h]

theorem writable_sortedDict {value : ν → Json} {d : Dict κ ν}
    (h : ∀ item ∈ d.items, Writable (value item.2)) : Writable (sortedDict key value d) := by
  have hfields (items : List (κ × ν)) (hmem : ∀ item ∈ items, Writable (value item.2)) :
      WritableFields (items.map fun item => (key item.1, value item.2)) := by
    induction items with
    | nil => trivial
    | cons item rest ih =>
      obtain ⟨hitem, hrest⟩ := List.forall_mem_cons.mp hmem
      exact ⟨hitem, ih hrest⟩
  refine ⟨?_, hfields _ fun item hitem => h item ((sortedItems_perm d).mem_iff.mp hitem)⟩
  have hkeys : ((sortedItems d).map fun item => (key item.1, value item.2)).map Prod.fst =
      ((sortedItems d).map Prod.fst).map key := by
    rw [List.map_map, List.map_map]
    rfl
  rw [hkeys]
  exact (nodup_sortedItems d).map hkey

end Sorted

/-! ## Objects with known keys -/

section Fields

variable {fields fields' : List (String × Json)}

theorem writable_ofList (hnodup : (fields.map Prod.fst).Nodup)
    (h : ∀ item ∈ fields, Writable item.2) : Writable (sortedDict id id (Dict.ofList fields)) := by
  refine writable_sortedDict Function.injective_id fun item hitem => ?_
  rw [Dict.items_ofList hnodup] at hitem
  exact h item hitem

theorem sortedDict_ofList_eq_iff (hkeys : fields.map Prod.fst = fields'.map Prod.fst)
    (hnodup : (fields.map Prod.fst).Nodup) :
    sortedDict id id (Dict.ofList fields) = sortedDict id id (Dict.ofList fields') ↔
      fields = fields' := by
  rw [sortedDict_eq_iff Function.injective_id]
  simp only [Option.map_id, id_eq, Dict.get?_ofList hnodup, Dict.get?_ofList (hkeys ▸ hnodup)]
  exact ⟨Dict.eq_of_lookupItems hkeys hnodup, fun h k => h ▸ rfl⟩

end Fields

section Kernel

variable {α β γ : Type} {f : α → γ} {g : α → β} (h : ∀ x y, f x = f y ↔ g x = g y)
include h

theorem map_option_eq_iff {a b : Option α} : a.map f = b.map f ↔ a.map g = b.map g := by
  cases a <;> cases b <;> simp [h]

theorem map_list_eq_iff {l l' : List α} : l.map f = l'.map f ↔ l.map g = l'.map g := by
  induction l generalizing l' with
  | nil => cases l' <;> simp
  | cons x l ih =>
    cases l' with
    | nil => simp
    | cons y l' => simp [h, ih]

end Kernel

/-- Dictionaries of strings are written alike just when they are equal as mappings. -/
theorem sortedDict_str_eq_iff {d d' : Dict String String} :
    sortedDict id .str d = sortedDict id .str d' ↔ ∀ k, d.get? k = d'.get? k := by
  rw [sortedDict_eq_iff Function.injective_id]
  refine forall_congr' fun k => ?_
  rw [map_option_eq_iff (g := id) (by simp), Option.map_id, id_eq, id_eq]

end Blive.JsonText
