import Mathlib.Data.List.Sort

/-!
# Scans and sorted lists

The loop that remembers the last element it has passed and stops at the first one that fails a
condition, and when it finds the element of the greatest key among those that meet the
condition. Lists in the order of a key that hold the same elements differ in the order of equal
keys only.
-/

namespace Blive

variable {α κ : Type*}

/-! ## The scan -/

/-- The scan, after an element it has passed. -/
def lastWhile (p : α → Bool) : Option α → List α → Option α
  | latest, [] => latest
  | latest, x :: rest => if p x then lastWhile p (some x) rest else latest

/-- An element of the greatest key among those that meet the condition; none if none does. -/
def IsLatest [LE κ] (key : α → κ) (p : α → Bool) (xs : List α) : Option α → Prop
  | none => ∀ x ∈ xs, p x = false
  | some x => x ∈ xs ∧ p x = true ∧ ∀ y ∈ xs, p y = true → key y ≤ key x

/-- The list begins with elements that meet the condition and end in `x`, and the next one, if
there is one, does not meet it. -/
def StopsAfter (p : α → Bool) (xs : List α) (x : α) : Prop :=
  ∃ front rest, xs = front ++ x :: rest ∧ (∀ y ∈ front, p y = true) ∧ p x = true ∧
    ∀ y ∈ rest.head?, p y = false

theorem lastWhile_of_head {p : α → Bool} {latest : Option α} {xs : List α}
    (h : ∀ y ∈ xs.head?, p y = false) : lastWhile p latest xs = latest := by
  cases xs with
  | nil => rfl
  | cons x rest =>
    have hx : p x = false := h x rfl
    simp [lastWhile, hx]

theorem lastWhile_append {p : α → Bool} {latest : Option α} {front : List α} {x : α}
    {rest : List α} (hfront : ∀ y ∈ front, p y = true) (hx : p x = true)
    (hrest : ∀ y ∈ rest.head?, p y = false) :
    lastWhile p latest (front ++ x :: rest) = some x := by
  induction front generalizing latest with
  | nil =>
    rw [List.nil_append, lastWhile, if_pos hx]
    exact lastWhile_of_head hrest
  | cons y front ih =>
    have hy : p y = true := hfront y (.head front)
    rw [List.cons_append, lastWhile, if_pos hy]
    exact ih fun z hz => hfront z (.tail y hz)

/-- The scan passes no element, or it stops after one. -/
theorem lastWhile_cases (p : α → Bool) (latest : Option α) (xs : List α) :
    (lastWhile p latest xs = latest ∧ ∀ y ∈ xs.head?, p y = false) ∨
      ∃ x, StopsAfter p xs x ∧ lastWhile p latest xs = some x := by
  induction xs generalizing latest with
  | nil => exact .inl ⟨rfl, by simp⟩
  | cons x rest ih =>
    cases hx : p x with
    | false => exact .inl ⟨lastWhile_of_head (by simpa using hx), by simpa using hx⟩
    | true =>
      refine .inr ?_
      rcases ih (some x) with ⟨hlast, hhead⟩ | ⟨y, ⟨front, tail, rfl, hfront, hy, hhead⟩, hlast⟩
      · refine ⟨x, ⟨[], rest, rfl, by simp, hx, hhead⟩, ?_⟩
        rw [lastWhile, if_pos hx, hlast]
      · refine ⟨y, ⟨x :: front, tail, rfl, ?_, hy, hhead⟩, ?_⟩
        · intro z hz
          rcases List.mem_cons.mp hz with rfl | hz
          · exact hx
          · exact hfront z hz
        · rw [lastWhile, if_pos hx, hlast]

/-- The scan finds a latest element exactly where none meets the condition, or where it stops
after one whose key no other exceeds. -/
theorem isLatest_lastWhile_iff [LE κ] {key : α → κ} {p : α → Bool} {xs : List α} :
    IsLatest key p xs (lastWhile p none xs) ↔
      (∀ x ∈ xs, p x = false) ∨
        ∃ x, StopsAfter p xs x ∧ ∀ y ∈ xs, p y = true → key y ≤ key x := by
  constructor
  · intro h
    rcases lastWhile_cases p none xs with ⟨hnone, -⟩ | ⟨x, hstop, hsome⟩
    · rw [hnone] at h
      exact .inl h
    · rw [hsome] at h
      exact .inr ⟨x, hstop, h.2.2⟩
  · rintro (hnone | ⟨x, ⟨front, rest, rfl, hfront, hx, hhead⟩, hgreatest⟩)
    · have hscan : lastWhile p none xs = none :=
        lastWhile_of_head fun y hy => hnone y (List.mem_of_mem_head? hy)
      rw [hscan]
      exact hnone
    · rw [lastWhile_append hfront hx hhead]
      exact ⟨by simp, hx, hgreatest⟩

/-- Where the keys ascend and the condition is a bound on the key, the scan is right. -/
theorem isLatest_lastWhile_of_sorted [LinearOrder κ] {key : α → κ} {xs : List α} (bound : κ)
    (h : xs.Pairwise fun x y => key x ≤ key y) :
    IsLatest key (fun x => decide (key x ≤ bound)) xs
      (lastWhile (fun x => decide (key x ≤ bound)) none xs) := by
  rcases lastWhile_cases (fun x => decide (key x ≤ bound)) none xs with
    ⟨hnone, hhead⟩ | ⟨x, ⟨front, rest, rfl, hfront, hx, hhead⟩, hsome⟩
  · rw [hnone]
    cases xs with
    | nil => simp [IsLatest]
    | cons x rest =>
      have hx : bound < key x := by simpa using hhead x rfl
      intro y hy
      rcases List.mem_cons.mp hy with rfl | hy
      · simpa using hx
      · simpa using hx.trans_le ((List.pairwise_cons.mp h).1 y hy)
  · rw [hsome]
    obtain ⟨-, htail, hcross⟩ := List.pairwise_append.mp h
    refine ⟨by simp, hx, ?_⟩
    intro y hy hle
    rcases List.mem_append.mp hy with hy | hy
    · exact hcross y hy x (.head rest)
    · rcases List.mem_cons.mp hy with rfl | hy
      · exact le_rfl
      · -- What stands behind the place of the stop exceeds the bound.
        cases rest with
        | nil => cases hy
        | cons z rest =>
          have hz : bound < key z := by simpa using hhead z rfl
          have hzy : key z ≤ key y := by
            obtain ⟨-, hrest⟩ := List.pairwise_cons.mp htail
            rcases List.mem_cons.mp hy with rfl | hy
            · exact le_rfl
            · exact (List.pairwise_cons.mp hrest).1 y hy
          have hyle : key y ≤ bound := by simpa using hle
          exact absurd (hz.trans_le hzy) (not_lt.mpr hyle)

/-! ## Lists in the order of a key -/

section Sorted

variable [LinearOrder κ] {key : α → κ}

/-- Lists in the order of a key are equal if for each key they hold the same elements of it in the
same order. -/
theorem eq_of_filter_key_eq {xs ys : List α} (hxs : xs.Pairwise fun x y => key x ≤ key y)
    (hys : ys.Pairwise fun x y => key x ≤ key y)
    (h : ∀ k, xs.filter (fun x => decide (key x = k)) = ys.filter fun y => decide (key y = k)) :
    xs = ys := by
  induction xs generalizing ys with
  | nil =>
    cases ys with
    | nil => rfl
    | cons y ys => simpa using h (key y)
  | cons x xs ih =>
    cases ys with
    | nil => simpa using h (key x)
    | cons y ys =>
      obtain ⟨hx, htail⟩ := List.pairwise_cons.mp hxs
      obtain ⟨hy, htail'⟩ := List.pairwise_cons.mp hys
      have hmem : ∀ z, z ∈ x :: xs ↔ z ∈ y :: ys := by
        intro z
        have hz : z ∈ (x :: xs).filter (fun w => decide (key w = key z)) ↔
            z ∈ (y :: ys).filter fun w => decide (key w = key z) := by rw [h (key z)]
        simpa [List.mem_filter] using hz
      have hkey : key x = key y := by
        apply le_antisymm
        · rcases List.mem_cons.mp ((hmem y).mpr (.head ys)) with rfl | hmem
          · exact le_rfl
          · exact hx y hmem
        · rcases List.mem_cons.mp ((hmem x).mp (.head xs)) with rfl | hmem
          · exact le_rfl
          · exact hy x hmem
      have hfirst := h (key x)
      simp only [List.filter_cons, decide_true, if_true, hkey] at hfirst
      obtain ⟨rfl, -⟩ := List.cons.inj hfirst
      congr 1
      refine ih htail htail' fun k => ?_
      have hk := h k
      by_cases hxk : key x = k
      · simpa [List.filter_cons, hxk] using hk
      · simpa [List.filter_cons, hxk] using hk

/-- A stable sort by the key keeps the order of the elements of one key. -/
theorem filter_mergeSort_key (xs : List α) (k : κ) :
    (xs.mergeSort fun x y => decide (key x ≤ key y)).filter (fun x => decide (key x = k)) =
      xs.filter fun x => decide (key x = k) := by
  have hsub : (xs.filter fun x => decide (key x = k)).Sublist
      (xs.mergeSort fun x y => decide (key x ≤ key y)) := by
    refine List.sublist_mergeSort ?_ ?_ ?_ List.filter_sublist
    · intro a b c hab hbc
      simp only [decide_eq_true_eq] at *
      exact hab.trans hbc
    · intro a b
      simpa using le_total (key a) (key b)
    · refine List.pairwise_of_forall_mem_list ?_
      intro a ha b hb
      have hak : key a = k := by simpa using List.of_mem_filter ha
      have hbk : key b = k := by simpa using List.of_mem_filter hb
      simp [hak, hbk]
  have hfilter := hsub.filter fun x => decide (key x = k)
  rw [List.filter_filter] at hfilter
  simp only [Bool.and_self] at hfilter
  refine (hfilter.eq_of_length ?_).symm
  exact ((List.mergeSort_perm xs _).filter _).length_eq.symm

theorem pairwise_mergeSort_key (key : α → κ) (xs : List α) :
    (xs.mergeSort fun x y => decide (key x ≤ key y)).Pairwise fun x y => key x ≤ key y := by
  have htrans : ∀ a b c : α, decide (key a ≤ key b) = true → decide (key b ≤ key c) = true →
      decide (key a ≤ key c) = true := by
    intro a b c hab hbc
    simp only [decide_eq_true_eq] at *
    exact hab.trans hbc
  have htotal : ∀ a b : α, (decide (key a ≤ key b) || decide (key b ≤ key a)) = true := by
    intro a b
    simpa using le_total (key a) (key b)
  exact (List.pairwise_mergeSort htrans htotal xs).imp fun hle => by simpa using hle

/-- What one condition keeps of a sorted list is what another keeps of a permutation of it, sorted,
exactly where the conditions keep the same elements and the lists agree on the order of those of
one key. -/
theorem filter_eq_mergeSort_filter_iff (key : α → κ) {p q : α → Bool} {xs ys : List α}
    (hsorted : xs.Pairwise fun x y => key x ≤ key y) (hperm : xs.Perm ys)
    (himp : ∀ x ∈ xs, p x = true → q x = true) :
    xs.filter p = (ys.filter q).mergeSort (fun x y => decide (key x ≤ key y)) ↔
      (∀ x ∈ xs, q x = true → p x = true) ∧
        ∀ k, (xs.filter p).filter (fun x => decide (key x = k)) =
          (ys.filter p).filter fun x => decide (key x = k) := by
  have hsame : (∀ x ∈ xs, q x = true → p x = true) → ys.filter q = ys.filter p := by
    intro h
    refine List.filter_congr fun y hy => ?_
    have hy' : y ∈ xs := hperm.mem_iff.mpr hy
    exact Bool.eq_iff_iff.mpr ⟨h y hy', himp y hy'⟩
  constructor
  · intro heq
    have hq : ∀ x ∈ xs, q x = true → p x = true := by
      intro x hx hqx
      have hmem : x ∈ (ys.filter q).mergeSort fun x y => decide (key x ≤ key y) :=
        (List.mergeSort_perm _ _).mem_iff.mpr (List.mem_filter.mpr ⟨hperm.mem_iff.mp hx, hqx⟩)
      rw [← heq] at hmem
      exact List.of_mem_filter hmem
    refine ⟨hq, fun k => ?_⟩
    rw [heq, filter_mergeSort_key, hsame hq]
  · rintro ⟨hq, hties⟩
    refine eq_of_filter_key_eq (hsorted.sublist List.filter_sublist)
      (pairwise_mergeSort_key key _) fun k => ?_
    rw [filter_mergeSort_key, hsame hq]
    exact hties k

/-- Permutations of a list without two elements of one key agree on the order of each key. -/
theorem filter_key_eq_of_nodup {xs ys : List α} (hperm : xs.Perm ys)
    (hnodup : (xs.map key).Nodup) (k : κ) :
    xs.filter (fun x => decide (key x = k)) = ys.filter fun x => decide (key x = k) := by
  have hfilter : (xs.filter fun x => decide (key x = k)).Perm
      (ys.filter fun x => decide (key x = k)) := hperm.filter _
  have hshort : (xs.filter fun x => decide (key x = k)).length ≤ 1 := by
    have hcount : (xs.map key).count k ≤ 1 := List.nodup_iff_count_le_one.mp hnodup k
    rw [List.count, List.countP_map, List.countP_eq_length_filter] at hcount
    simpa [Function.comp_def, beq_eq_decide] using hcount
  cases hxs : xs.filter fun x => decide (key x = k) with
  | nil =>
    rw [hxs] at hfilter
    exact hfilter.nil_eq
  | cons x rest =>
    rw [hxs] at hfilter hshort
    have hrest : rest = [] := by
      apply List.eq_nil_of_length_eq_zero
      rw [List.length_cons] at hshort
      omega
    subst hrest
    exact hfilter.singleton_eq

end Sorted

end Blive
