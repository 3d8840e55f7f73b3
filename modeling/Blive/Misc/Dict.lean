import Mathlib.Data.List.Induction
import Mathlib.Algebra.GroupWithZero.Nat
import Mathlib.Data.List.Nodup

/-!
# Insertion-ordered dictionaries

A Python `dict`: distinct keys in the order of their first insertion. Assigning to a key
that is present keeps its place; deleting a key and assigning it again moves it to the end.
-/

namespace Blive

/-- A finite map with distinct keys, in insertion order. -/
structure Dict (κ ν : Type*) where
  items : List (κ × ν)
  nodup : (items.map Prod.fst).Nodup

namespace Dict

variable {κ ν : Type*} [DecidableEq κ]

/-- The value stored under the first item with key `k`. -/
def lookupItems (k : κ) : List (κ × ν) → Option ν
  | [] => none
  | (k', v) :: rest => if k' = k then some v else lookupItems k rest

/-- The items after `d[k] = v`. -/
def setItems (k : κ) (v : ν) : List (κ × ν) → List (κ × ν)
  | [] => [(k, v)]
  | (k', v') :: rest => if k' = k then (k, v) :: rest else (k', v') :: setItems k v rest

/-- The items after `del d[k]`. -/
def eraseItems (k : κ) (items : List (κ × ν)) : List (κ × ν) :=
  items.filter fun p => !decide (p.1 = k)

theorem mem_keys_setItems (k : κ) (v : ν) (items : List (κ × ν)) (k' : κ) :
    k' ∈ (setItems k v items).map Prod.fst ↔ k' = k ∨ k' ∈ items.map Prod.fst := by
  induction items with
  | nil => simp [setItems]
  | cons p rest ih =>
    obtain ⟨k₀, v₀⟩ := p
    by_cases h : k₀ = k
    · subst h; simp [setItems]
    · simp only [setItems, if_neg h, List.map_cons, List.mem_cons, ih]
      tauto

theorem nodup_setItems (k : κ) (v : ν) {items : List (κ × ν)}
    (h : (items.map Prod.fst).Nodup) : ((setItems k v items).map Prod.fst).Nodup := by
  induction items with
  | nil => simp [setItems]
  | cons p rest ih =>
    obtain ⟨k₀, v₀⟩ := p
    obtain ⟨hfresh, hrest⟩ := List.nodup_cons.mp h
    by_cases hk : k₀ = k
    · subst hk
      simp only [setItems, if_true]
      exact h
    · simp only [setItems, if_neg hk, List.map_cons]
      refine List.nodup_cons.mpr ⟨?_, ih hrest⟩
      rw [mem_keys_setItems]
      rintro (e | hmem)
      · exact hk e
      · exact hfresh hmem

theorem lookupItems_setItems (k k' : κ) (v : ν) (items : List (κ × ν)) :
    lookupItems k' (setItems k v items) = if k' = k then some v else lookupItems k' items := by
  induction items with
  | nil => simp [setItems, lookupItems, eq_comm]
  | cons p rest ih =>
    obtain ⟨k₀, v₀⟩ := p
    by_cases hk : k₀ = k
    · subst hk
      by_cases h : k' = k₀ <;> simp [setItems, lookupItems, h, eq_comm]
    · by_cases h : k₀ = k'
      · subst h; simp [setItems, lookupItems, hk]
      · simp [setItems, lookupItems, hk, h, ih]

theorem lookupItems_eraseItems (k k' : κ) (items : List (κ × ν)) :
    lookupItems k' (eraseItems k items) = if k' = k then none else lookupItems k' items := by
  induction items with
  | nil => simp [eraseItems, lookupItems]
  | cons p rest ih =>
    obtain ⟨k₀, v₀⟩ := p
    simp only [eraseItems] at ih ⊢
    by_cases hk : k₀ = k
    · subst hk
      by_cases h : k' = k₀
      · simpa [h] using ih
      · simp [lookupItems, h, Ne.symm h, ih]
    · by_cases h : k₀ = k'
      · subst h; simp [lookupItems, hk]
      · simp [lookupItems, hk, h, ih]

theorem eraseItems_setItems (k : κ) (v : ν) (items : List (κ × ν)) :
    eraseItems k (setItems k v items) = eraseItems k items := by
  induction items with
  | nil => simp [eraseItems, setItems]
  | cons p rest ih =>
    obtain ⟨k₀, v₀⟩ := p
    simp only [eraseItems] at ih ⊢
    by_cases hk : k₀ = k <;> simp [setItems, hk, ih]

theorem lookupItems_eq_none_iff (k : κ) (items : List (κ × ν)) :
    lookupItems k items = none ↔ k ∉ items.map Prod.fst := by
  induction items with
  | nil => simp [lookupItems]
  | cons p rest ih =>
    obtain ⟨k₀, v₀⟩ := p
    by_cases h : k₀ = k
    · simp [lookupItems, h]
    · simpa [lookupItems, h, Ne.symm h] using ih

/-- `{}` -/
def empty : Dict κ ν := ⟨[], List.nodup_nil⟩

instance : Inhabited (Dict κ ν) := ⟨empty⟩

/-- `d.keys()` -/
def keys (d : Dict κ ν) : List κ := d.items.map Prod.fst

/-- `d.values()` -/
def values (d : Dict κ ν) : List ν := d.items.map Prod.snd

instance : Membership κ (Dict κ ν) := ⟨fun d k => k ∈ d.keys⟩

instance (d : Dict κ ν) (k : κ) : Decidable (k ∈ d) := inferInstanceAs (Decidable (k ∈ d.keys))

/-- `d.get(k)` -/
def get? (d : Dict κ ν) (k : κ) : Option ν := lookupItems k d.items

/-- `d[k] = v` -/
def set (d : Dict κ ν) (k : κ) (v : ν) : Dict κ ν :=
  ⟨setItems k v d.items, nodup_setItems k v d.nodup⟩

/-- `d.pop(k, None)`: nothing happens when `k` is absent. -/
def erase (d : Dict κ ν) (k : κ) : Dict κ ν :=
  ⟨eraseItems k d.items, d.nodup.sublist (List.filter_sublist.map Prod.fst)⟩

/-- `{k: v for k, v in items}` -/
def ofList (items : List (κ × ν)) : Dict κ ν :=
  items.foldl (fun d item => d.set item.1 item.2) empty

/-- `{k: f(v) for k, v in d.items()}` -/
def mapValues {μ : Type*} (d : Dict κ ν) (f : ν → μ) : Dict κ μ :=
  ⟨d.items.map fun p => (p.1, f p.2), by simpa [List.map_map, Function.comp_def] using d.nodup⟩

/-- `len(d)` -/
def length (d : Dict κ ν) : Nat := d.items.length

/-- `{k: v for k, v in d.items() if p(k, v)}` -/
def filter (d : Dict κ ν) (p : κ → ν → Bool) : Dict κ ν :=
  ⟨d.items.filter fun item => p item.1 item.2, d.nodup.sublist (List.filter_sublist.map Prod.fst)⟩

theorem lookupItems_eq_some_iff {items : List (κ × ν)} (h : (items.map Prod.fst).Nodup) {k : κ}
    {v : ν} : lookupItems k items = some v ↔ (k, v) ∈ items := by
  induction items with
  | nil => simp [lookupItems]
  | cons p rest ih =>
    obtain ⟨k', v'⟩ := p
    obtain ⟨hfresh, hrest⟩ := List.nodup_cons.mp h
    by_cases hk : k' = k
    · subst hk
      have hnot : (k', v) ∉ rest := fun hmem => hfresh (List.mem_map.mpr ⟨_, hmem, rfl⟩)
      simp [lookupItems, hnot, eq_comm]
    · simp [lookupItems, hk, Ne.symm hk, ih hrest]

theorem get?_eq_some_iff {d : Dict κ ν} {k : κ} {v : ν} :
    d.get? k = some v ↔ (k, v) ∈ d.items :=
  lookupItems_eq_some_iff d.nodup

theorem get?_eq_none_iff {d : Dict κ ν} {k : κ} : d.get? k = none ↔ k ∉ d :=
  lookupItems_eq_none_iff k d.items

theorem isSome_get?_iff {d : Dict κ ν} {k : κ} : (d.get? k).isSome ↔ k ∈ d := by
  rw [← not_iff_not, ← get?_eq_none_iff, Option.not_isSome_iff_eq_none]

theorem mem_of_get? {d : Dict κ ν} {k : κ} {v : ν} (h : d.get? k = some v) : k ∈ d :=
  isSome_get?_iff.mp (by rw [h]; rfl)

theorem exists_get?_of_mem {d : Dict κ ν} {k : κ} (h : k ∈ d) : ∃ v, d.get? k = some v :=
  Option.isSome_iff_exists.mp (isSome_get?_iff.mpr h)

theorem get?_mapValues {μ : Type*} (d : Dict κ ν) (f : ν → μ) (k : κ) :
    (d.mapValues f).get? k = (d.get? k).map f := by
  show lookupItems k (d.items.map fun p => (p.1, f p.2)) = (lookupItems k d.items).map f
  induction d.items with
  | nil => rfl
  | cons p rest ih =>
    by_cases h : p.1 = k
    · simp [lookupItems, h]
    · simp [lookupItems, h, ih]

@[simp] theorem get?_empty (k : κ) : (empty : Dict κ ν).get? k = none := rfl

@[simp] theorem notMem_empty (k : κ) : k ∉ (empty : Dict κ ν) :=
  get?_eq_none_iff.mp (get?_empty k)

/-- Reading after an assignment. -/
@[simp] theorem get?_set (d : Dict κ ν) (k k' : κ) (v : ν) :
    (d.set k v).get? k' = if k' = k then some v else d.get? k' :=
  lookupItems_setItems k k' v d.items

/-- Reading after a deletion. -/
@[simp] theorem get?_erase (d : Dict κ ν) (k k' : κ) :
    (d.erase k).get? k' = if k' = k then none else d.get? k' :=
  lookupItems_eraseItems k k' d.items

/-- An entry that is deleted might as well not have been set. -/
theorem erase_set (d : Dict κ ν) (k : κ) (v : ν) : (d.set k v).erase k = d.erase k := by
  simp only [set, erase, eraseItems_setItems]

@[simp] theorem mem_set (d : Dict κ ν) (k k' : κ) (v : ν) :
    k' ∈ d.set k v ↔ k' = k ∨ k' ∈ d :=
  mem_keys_setItems k v d.items k'

@[simp] theorem mem_erase (d : Dict κ ν) (k k' : κ) :
    k' ∈ d.erase k ↔ k' ≠ k ∧ k' ∈ d := by
  rw [← isSome_get?_iff, get?_erase, ← isSome_get?_iff]
  by_cases h : k' = k <;> simp [h]

/-- All that a dictionary with no other key than `key` holds. -/
theorem items_of_forall_keys {d : Dict κ ν} {key : κ} (h : ∀ k ∈ d, k = key) :
    d.items = (d.get? key).toList.map fun v => (key, v) := by
  obtain ⟨items, hnodup⟩ := d
  cases items with
  | nil => rfl
  | cons item rest =>
    have hfirst : item.1 = key := h item.1 List.mem_cons_self
    have hrest : rest = [] := by
      cases rest with
      | nil => rfl
      | cons other more =>
        have hsecond : other.1 = key :=
          h other.1 (List.mem_cons_of_mem item.1 List.mem_cons_self)
        simp [hfirst, hsecond] at hnodup
    subst hrest
    simp [get?, lookupItems, ← hfirst]

/-! ## Counting -/

section Count

variable (p : κ → ν → Bool)

def countItems (items : List (κ × ν)) : Nat := items.countP fun item => p item.1 item.2

/-- The number of entries for which `p` holds. -/
def count (d : Dict κ ν) : Nat := countItems p d.items

theorem countItems_setItems_of_none {k : κ} (v : ν) {items : List (κ × ν)}
    (h : lookupItems k items = none) :
    countItems p (setItems k v items) = countItems p items + if p k v then 1 else 0 := by
  induction items with
  | nil => simp [setItems, countItems, List.countP_cons]
  | cons item rest ih =>
    obtain ⟨k', v'⟩ := item
    by_cases hk : k' = k
    · simp [lookupItems, hk] at h
    · simp only [lookupItems, if_neg hk] at h
      simp only [setItems, if_neg hk, countItems, List.countP_cons] at ih ⊢
      rw [ih h]
      omega

theorem countItems_setItems_of_some {k : κ} {v : ν} (v' : ν) {items : List (κ × ν)}
    (h : lookupItems k items = some v) :
    countItems p (setItems k v' items) + (if p k v then 1 else 0) =
      countItems p items + if p k v' then 1 else 0 := by
  induction items with
  | nil => simp [lookupItems] at h
  | cons item rest ih =>
    obtain ⟨k₀, v₀⟩ := item
    by_cases hk : k₀ = k
    · subst hk
      simp only [lookupItems, if_true, Option.some.injEq] at h
      subst h
      simp only [setItems, if_true, countItems, List.countP_cons]
      omega
    · simp only [lookupItems, if_neg hk] at h
      have hrest := ih h
      simp only [setItems, if_neg hk, countItems, List.countP_cons] at hrest ⊢
      omega

theorem countItems_eraseItems {k : κ} {v : ν} {items : List (κ × ν)}
    (hnodup : (items.map Prod.fst).Nodup) (h : lookupItems k items = some v) :
    countItems p (eraseItems k items) + (if p k v then 1 else 0) = countItems p items := by
  induction items with
  | nil => simp [lookupItems] at h
  | cons item rest ih =>
    obtain ⟨k₀, v₀⟩ := item
    obtain ⟨hfresh, hrest⟩ := List.nodup_cons.mp hnodup
    by_cases hk : k₀ = k
    · subst hk
      simp only [lookupItems, if_true, Option.some.injEq] at h
      subst h
      -- The key does not occur again, so nothing else is erased.
      have hkept : eraseItems k₀ rest = rest := by
        rw [eraseItems, List.filter_eq_self]
        rintro ⟨k', v'⟩ hmem
        have hne : k' ≠ k₀ := by
          rintro rfl
          exact hfresh (List.mem_map.mpr ⟨_, hmem, rfl⟩)
        simp [hne]
      have herase : eraseItems k₀ ((k₀, v₀) :: rest) = eraseItems k₀ rest := by
        simp [eraseItems]
      rw [herase, hkept]
      simp [countItems, List.countP_cons]
    · simp only [lookupItems, if_neg hk] at h
      have herase : eraseItems k ((k₀, v₀) :: rest) = (k₀, v₀) :: eraseItems k rest := by
        simp [eraseItems, hk]
      have htail := ih hrest h
      rw [herase]
      simp only [countItems, List.countP_cons] at htail ⊢
      omega

variable {p} {d : Dict κ ν} {k : κ} {v : ν}

omit [DecidableEq κ] in
theorem length_eq_count (d : Dict κ ν) : d.length = d.count fun _ _ => true :=
  (congrFun List.countP_true d.items).symm

theorem count_set_of_none (v : ν) (h : d.get? k = none) :
    (d.set k v).count p = d.count p + if p k v then 1 else 0 :=
  countItems_setItems_of_none p v h

theorem count_set_of_some (v' : ν) (h : d.get? k = some v) :
    (d.set k v').count p + (if p k v then 1 else 0) = d.count p + if p k v' then 1 else 0 :=
  countItems_setItems_of_some p v' h

theorem count_erase (h : d.get? k = some v) :
    (d.erase k).count p + (if p k v then 1 else 0) = d.count p :=
  countItems_eraseItems p d.nodup h

end Count

/-! ## Dictionaries that are rebuilt -/

/-- Distinct keys are not overwritten. -/
theorem get?_ofList {items : List (κ × ν)} (h : (items.map Prod.fst).Nodup) (k : κ) :
    (ofList items).get? k = lookupItems k items := by
  have hfold (d : Dict κ ν) : (items.foldl (fun d item => d.set item.1 item.2) d).get? k =
      (lookupItems k items).or (d.get? k) := by
    induction items generalizing d with
    | nil => simp [lookupItems]
    | cons item rest ih =>
      obtain ⟨k₀, v₀⟩ := item
      obtain ⟨hfresh, hrest⟩ := List.nodup_cons.mp h
      rw [List.foldl_cons, ih hrest, get?_set]
      by_cases hk : k₀ = k
      · subst hk
        have hnone : lookupItems k₀ rest = none := (lookupItems_eq_none_iff k₀ rest).mpr hfresh
        simp [lookupItems, hnone]
      · simp [lookupItems, hk, Ne.symm hk]
  rw [ofList, hfold, get?_empty, Option.or_none]

theorem setItems_of_notMem {k : κ} (v : ν) {items : List (κ × ν)}
    (h : k ∉ items.map Prod.fst) : setItems k v items = items ++ [(k, v)] := by
  induction items with
  | nil => rfl
  | cons item rest ih =>
    obtain ⟨hne, hrest⟩ := not_or.mp (mt List.mem_cons.mpr h)
    rw [setItems, if_neg (Ne.symm hne), ih hrest, List.cons_append]

/-- Distinct keys stay as they are. -/
theorem items_ofList {items : List (κ × ν)} (h : (items.map Prod.fst).Nodup) :
    (ofList items).items = items := by
  induction items using List.reverseRecOn with
  | nil => rfl
  | append_singleton items item ih =>
    rw [List.map_append, List.nodup_append] at h
    obtain ⟨hitems, -, hfresh⟩ := h
    have hnew : item.1 ∉ items.map Prod.fst := fun hmem => hfresh _ hmem _ (by simp) rfl
    have hset : ofList (items ++ [item]) = (ofList items).set item.1 item.2 := by
      rw [ofList, List.foldl_append]
      rfl
    calc (ofList (items ++ [item])).items
        = setItems item.1 item.2 (ofList items).items := by rw [hset, set]
      _ = items ++ [item] := by rw [ih hitems, setItems_of_notMem _ hnew]

/-- Items with the same keys in the same order differ in a value, if they differ. -/
theorem eq_of_lookupItems {items items' : List (κ × ν)}
    (hkeys : items.map Prod.fst = items'.map Prod.fst) (hnodup : (items.map Prod.fst).Nodup)
    (h : ∀ k, lookupItems k items = lookupItems k items') : items = items' := by
  induction items generalizing items' with
  | nil => exact (List.map_eq_nil_iff.mp hkeys.symm).symm
  | cons item rest ih =>
    obtain ⟨item', rest', rfl, hkey, hkeys⟩ := List.map_eq_cons_iff.mp hkeys.symm
    obtain ⟨hfresh, hnodup⟩ := List.nodup_cons.mp hnodup
    have hhead := h item.1
    simp only [lookupItems, hkey, if_true, Option.some.injEq] at hhead
    refine congrArg₂ List.cons (Prod.ext hkey.symm hhead) (ih hkeys.symm hnodup fun k => ?_)
    have hk := h k
    by_cases hne : item.1 = k
    · subst hne
      rw [(lookupItems_eq_none_iff _ _).mpr hfresh,
        (lookupItems_eq_none_iff _ _).mpr (hkeys.symm ▸ hfresh)]
    · simpa [lookupItems, hkey, hne] using hk

/-- The same values under the same keys make the same items, in some order. -/
theorem items_perm {d d' : Dict κ ν} (h : ∀ k, d.get? k = d'.get? k) : d.items.Perm d'.items := by
  refine (List.perm_ext_iff_of_nodup d.nodup.of_map d'.nodup.of_map).mpr fun item => ?_
  obtain ⟨k, v⟩ := item
  rw [← get?_eq_some_iff, ← get?_eq_some_iff, h]

/-- Of the values of a key, the last one stays. -/
theorem get?_ofList_eq_getLast? (items : List (κ × ν)) (k : κ) :
    (ofList items).get? k =
      (items.filterMap fun item => if item.1 = k then some item.2 else none).getLast? := by
  induction items using List.reverseRecOn with
  | nil => rfl
  | append_singleton items item ih =>
    have hset : ofList (items ++ [item]) = (ofList items).set item.1 item.2 := by
      rw [ofList, List.foldl_append]
      rfl
    rw [hset, get?_set, List.filterMap_append]
    by_cases hk : item.1 = k
    · simp [hk]
    · simp [hk, Ne.symm hk, ih]

theorem get?_filter (d : Dict κ ν) (p : κ → ν → Bool) (k : κ) :
    (d.filter p).get? k = (d.get? k).filter (p k) := by
  ext v
  rw [get?_eq_some_iff, Option.filter_eq_some_iff, get?_eq_some_iff, filter, List.mem_filter]

/-- `{k: f(k, v) for k, v in d.items()}` -/
theorem get?_ofList_map {μ : Type*} (d : Dict κ ν) (f : κ → ν → μ) (k : κ) :
    (ofList (d.items.map fun item => (item.1, f item.1 item.2))).get? k =
      (d.get? k).map (f k) := by
  have hkeys : ((d.items.map fun item => (item.1, f item.1 item.2)).map Prod.fst).Nodup := by
    rw [List.map_map]
    exact d.nodup
  rw [get?_ofList hkeys, get?]
  induction d.items with
  | nil => rfl
  | cons item rest ih =>
    by_cases h : item.1 = k
    · simp [lookupItems, h]
    · simp [lookupItems, h, ih]

/-! ## Tallies -/

section Tally

variable (d : Dict κ Nat)

/-- `d.get(k, 0)` -/
def tally (k : κ) : Nat := (d.get? k).getD 0

@[simp] theorem tally_empty (k : κ) : (empty : Dict κ Nat).tally k = 0 := rfl

@[simp] theorem tally_set (k k' : κ) (n : Nat) :
    (d.set k n).tally k' = if k' = k then n else d.tally k' := by
  unfold tally
  rw [get?_set]
  split <;> rfl

theorem sum_setItems (k : κ) (n : Nat) (items : List (κ × Nat)) :
    ((setItems k n items).map Prod.snd).sum + (lookupItems k items).getD 0 =
      (items.map Prod.snd).sum + n := by
  induction items with
  | nil => simp [setItems, lookupItems]
  | cons item rest ih =>
    obtain ⟨k₀, n₀⟩ := item
    by_cases hk : k₀ = k
    · simp only [setItems, lookupItems, if_pos hk, List.map_cons, List.sum_cons, Option.getD_some]
      omega
    · simp only [setItems, lookupItems, if_neg hk, List.map_cons, List.sum_cons]
      omega

/-- `d[k] = d.get(k, 0) + 1` counts one more. -/
theorem sum_values_increment (k : κ) :
    (d.set k (d.tally k + 1)).values.sum = d.values.sum + 1 := by
  have hsum := sum_setItems k (d.tally k + 1) d.items
  simp only [values, set, tally, get?] at hsum ⊢
  omega

end Tally

end Dict

end Blive
