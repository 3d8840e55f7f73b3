import Mathlib.Algebra.BigOperators.Group.List.Basic
import Mathlib.Tactic.Abel
import Blive.Misc.Dict

/-!
# Totals over a dictionary

The sum of a function of the keys and values of a `Dict`. An assignment moves it by what it puts
under the key, less what was there.
-/

namespace Blive.Dict

variable {κ ν M : Type*} [AddCommGroup M] (f : κ → ν → M)

def totalItems (items : List (κ × ν)) : M := (items.map fun item => f item.1 item.2).sum

/-- `sum(f(k, v) for k, v in d.items())` -/
def total (d : Dict κ ν) : M := totalItems f d.items

@[simp] theorem total_empty : (empty : Dict κ ν).total f = 0 := rfl

theorem total_congr {f g : κ → ν → M} {d : Dict κ ν}
    (h : ∀ item ∈ d.items, f item.1 item.2 = g item.1 item.2) : d.total f = d.total g := by
  unfold total totalItems
  rw [List.map_congr_left h]

theorem total_mapValues {μ : Type*} (d : Dict κ ν) (h : ν → μ) (g : κ → μ → M) :
    (d.mapValues h).total g = d.total fun k v => g k (h v) := by
  unfold total totalItems mapValues
  rw [List.map_map]
  rfl

variable [DecidableEq κ]

theorem totalItems_setItems (k : κ) (v : ν) (items : List (κ × ν)) :
    totalItems f (setItems k v items) =
      totalItems f items - ((lookupItems k items).map (f k)).getD 0 + f k v := by
  induction items with
  | nil => simp [totalItems, setItems, lookupItems]
  | cons item rest ih =>
    obtain ⟨k', v'⟩ := item
    by_cases hk : k' = k
    · subst hk
      simp only [totalItems, setItems, lookupItems, if_pos, List.map_cons, List.sum_cons,
        Option.map_some, Option.getD_some]
      abel
    · unfold totalItems at ih ⊢
      simp only [setItems, lookupItems, if_neg hk, List.map_cons, List.sum_cons, ih]
      abel

/-- An assignment takes what was under the key out of the total. -/
theorem total_set (d : Dict κ ν) (k : κ) (v : ν) :
    (d.set k v).total f = d.total f - ((d.get? k).map (f k)).getD 0 + f k v :=
  totalItems_setItems f k v d.items

end Blive.Dict
