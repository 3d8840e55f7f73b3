import Mathlib.Data.List.Basic
import Mathlib.Order.Lattice

/-!
# Sequences in time

A sequence whose elements have a time each, and what of it is there up to some time. Of a sequence
that is in order this is a first part, and what is computed along the sequence up to that time
depends on nothing that comes later.
-/

namespace Blive.Timeline

variable {α β τ : Type*} [LinearOrder τ] {time : α → τ} {t : τ}

/-- The times never go back. -/
def InOrder (time : α → τ) (xs : List α) : Prop :=
  xs.Pairwise fun x later => time x ≤ time later

/-- The elements up to `t`. -/
def upTo (time : α → τ) (t : τ) (xs : List α) : List α := xs.filter fun x => time x ≤ t

theorem mem_upTo {x : α} {xs : List α} : x ∈ upTo time t xs ↔ x ∈ xs ∧ time x ≤ t := by
  simp [upTo]

@[simp] theorem upTo_append (xs ys : List α) :
    upTo time t (xs ++ ys) = upTo time t xs ++ upTo time t ys := by
  simp [upTo]

theorem upTo_eq_nil {xs : List α} (h : ∀ x ∈ xs, t < time x) : upTo time t xs = [] := by
  apply List.filter_eq_nil_iff.mpr
  intro x hx
  simpa using h x hx

theorem upTo_cons_of_le {x : α} {xs : List α} (h : time x ≤ t) :
    upTo time t (x :: xs) = x :: upTo time t xs := by
  simp [upTo, h]

theorem upTo_map (f : β → α) (xs : List β) :
    upTo time t (xs.map f) = (upTo (fun x => time (f x)) t xs).map f := by
  simp only [upTo, List.filter_map]
  rfl

/-- What is there up to an earlier time is part of what is there up to a later one. -/
theorem upTo_upTo {earlier : τ} (h : earlier ≤ t) (xs : List α) :
    upTo time earlier (upTo time t xs) = upTo time earlier xs := by
  simp only [upTo, List.filter_filter]
  congr 1
  funext x
  by_cases hx : time x ≤ earlier
  · simp [hx, hx.trans h]
  · simp [hx]

namespace InOrder

variable {xs : List α}

theorem tail {x : α} (h : InOrder time (x :: xs)) : InOrder time xs :=
  (List.pairwise_cons.mp h).2

/-- Once an element is past `t`, so are those after it. -/
theorem past {x : α} (h : InOrder time (x :: xs)) (hx : t < time x) :
    ∀ later ∈ x :: xs, t < time later := by
  intro later hlater
  rcases List.mem_cons.mp hlater with rfl | hlater
  · exact hx
  · exact hx.trans_le ((List.pairwise_cons.mp h).1 later hlater)

/-- A sequence in order is what is there up to `t` and then what comes later. -/
theorem split (h : InOrder time xs) (t : τ) :
    ∃ later, xs = upTo time t xs ++ later ∧ ∀ x ∈ later, t < time x := by
  induction xs with
  | nil => exact ⟨[], rfl, by simp⟩
  | cons x xs ih =>
    by_cases hx : time x ≤ t
    · obtain ⟨later, hsplit, hlater⟩ := ih h.tail
      refine ⟨later, ?_, hlater⟩
      rw [upTo_cons_of_le hx, List.cons_append, ← hsplit]
    · have hpast := h.past (not_le.mp hx)
      exact ⟨x :: xs, by rw [upTo_eq_nil hpast]; rfl, hpast⟩

theorem take_upTo (h : InOrder time xs) (t : τ) :
    xs.take (upTo time t xs).length = upTo time t xs := by
  obtain ⟨later, hsplit, -⟩ := h.split t
  generalize upTo time t xs = first at hsplit
  rw [hsplit, List.take_left]

/-- A scan that stops at the first element past `t` has seen all elements up to `t`. -/
theorem takeWhile_eq (h : InOrder time xs) (t : τ) :
    xs.takeWhile (fun x => time x ≤ t) = upTo time t xs := by
  induction xs with
  | nil => rfl
  | cons x xs ih =>
    by_cases hx : time x ≤ t
    · rw [upTo_cons_of_le hx, ← ih h.tail]
      simp [hx]
    · rw [upTo_eq_nil (h.past (not_le.mp hx))]
      simp [hx]

end InOrder

/-! ## Values along a sequence -/

section Zip

variable {values : List β} {xs : List α}

/-- The values at the times up to `t` are the first ones. -/
theorem upTo_zip (h : InOrder time xs) (hlength : values.length = xs.length) :
    upTo (fun row => time row.1) t (xs.zip values) =
      (upTo time t xs).zip (values.take (upTo time t xs).length) := by
  obtain ⟨later, hsplit, hlater⟩ := h.split t
  have hfirst : (upTo time t xs).length ≤ values.length := by
    rw [hlength]
    exact List.length_filter_le _ _
  generalize hn : (upTo time t xs).length = n at hfirst
  have hvalues : xs.zip values =
      (upTo time t xs).zip (values.take n) ++ later.zip (values.drop n) := by
    conv_lhs => rw [hsplit, ← List.take_append_drop n values]
    apply List.zip_append
    rw [hn, List.length_take]
    omega
  rw [hvalues, upTo_append]
  have hbefore : upTo (fun row => time row.1) t ((upTo time t xs).zip (values.take n)) =
      (upTo time t xs).zip (values.take n) := by
    apply List.filter_eq_self.mpr
    intro row hrow
    simpa using (mem_upTo.mp (List.of_mem_zip hrow).1).2
  have hafter : upTo (fun row => time row.1) t (later.zip (values.drop n)) = [] :=
    upTo_eq_nil fun row hrow => hlater row.1 (List.of_mem_zip hrow).1
  rw [hbefore, hafter, List.append_nil]

/-- Two sequences of values are the same up to `t` when their times are, and the values there. -/
theorem upTo_zip_congr {xs' : List α} {values' : List β} (h : InOrder time xs)
    (h' : InOrder time xs') (hlength : values.length = xs.length)
    (hlength' : values'.length = xs'.length) :
    upTo (fun row => time row.1) t (xs.zip values) =
        upTo (fun row => time row.1) t (xs'.zip values') ↔
      upTo time t xs = upTo time t xs' ∧
        values.take (upTo time t xs).length = values'.take (upTo time t xs).length := by
  have hcount : (values.take (upTo time t xs).length).length = (upTo time t xs).length := by
    rw [List.length_take, hlength]
    exact Nat.min_eq_left (List.length_filter_le _ _)
  have hcount' : (values'.take (upTo time t xs').length).length = (upTo time t xs').length := by
    rw [List.length_take, hlength']
    exact Nat.min_eq_left (List.length_filter_le _ _)
  rw [upTo_zip h hlength, upTo_zip h' hlength']
  constructor
  · intro hzip
    have htimes := congrArg (List.map Prod.fst) hzip
    have hvalues := congrArg (List.map Prod.snd) hzip
    rw [List.map_fst_zip (by omega), List.map_fst_zip (by omega)] at htimes
    rw [List.map_snd_zip (by omega), List.map_snd_zip (by omega)] at hvalues
    refine ⟨htimes, ?_⟩
    rw [hvalues, htimes]
  · rintro ⟨htimes, hvalues⟩
    rw [hvalues, htimes]

end Zip

end Blive.Timeline
