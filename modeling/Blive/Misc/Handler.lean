import Mathlib.Data.List.Basic
import Mathlib.Data.List.Forall2
import Blive.Misc.Py

/-!
# Exception handlers

What a `try` whose `except` names some classes lets through, and the loop that parses the
entries of a list, skips those whose parse raises a named exception and keeps the others.
-/

namespace Blive

variable {α β : Type} {caught : PyError → Bool}

/-- The computation raises an exception that the handler does not name. -/
def Escapes (caught : PyError → Bool) (x : Except PyError α) : Prop :=
  ∃ e, x = .error e ∧ caught e = false

theorem exists_const_unit {P : Unit → Prop} : (∃ u, P u) ↔ P () :=
  ⟨fun ⟨(), h⟩ => h, fun h => ⟨(), h⟩⟩

@[simp] theorem escapes_ok {a : α} : ¬ Escapes caught (.ok a) := by
  rintro ⟨e, he, -⟩
  cases he

@[simp] theorem escapes_pure {a : α} : ¬ Escapes caught (pure a : Except PyError α) := escapes_ok

@[simp] theorem escapes_error {e : PyError} :
    Escapes caught (.error e : Except PyError α) ↔ caught e = false := by
  constructor
  · rintro ⟨e', he, hcaught⟩
    cases he
    exact hcaught
  · intro h
    exact ⟨e, rfl, h⟩

/-- A sequence lets an exception through where its first part does, or where its second part
does after the first returned. -/
theorem escapes_bind {x : Except PyError α} {k : α → Except PyError β} :
    Escapes caught (x >>= k) ↔ Escapes caught x ∨ ∃ a, x = .ok a ∧ Escapes caught (k a) := by
  cases x with
  | error e => simp [bind, Except.bind]
  | ok a => simp [bind, Except.bind]

theorem escapes_require {p : Prop} [Decidable p] {e : PyError} (he : caught e = true) :
    ¬ Escapes caught (require p e) := by
  unfold require
  split
  · exact escapes_ok
  · rw [escapes_error, he]
    simp

/-- A check whose exception the handler names is no way out: what follows it is reached where
the check passes. -/
theorem escapes_require_bind {p : Prop} [Decidable p] {e : PyError} (he : caught e = true)
    {k : Unit → Except PyError β} :
    Escapes caught (require p e >>= k) ↔ p ∧ Escapes caught (k ()) := by
  rw [escapes_bind]
  simp [escapes_require he, exists_const_unit]

theorem escapes_orRaise_bind {x : Option α} {e : PyError} (he : caught e = true)
    {k : α → Except PyError β} :
    Escapes caught (orRaise x e >>= k) ↔ ∃ a, x = some a ∧ Escapes caught (k a) := by
  cases x with
  | none => simp [escapes_bind, orRaise, he]
  | some a => simp [escapes_bind, orRaise]

theorem escapes_make [PostInit α] {fields : α} :
    Escapes caught (Frozen.make fields) ↔ Escapes caught (postInit fields) := by
  cases h : postInit fields with
  | ok u =>
    cases u
    rw [Frozen.make_of_valid h]
    simp
  | error e =>
    rw [Frozen.make_of_error h]
    simp

/-- `x or y`, for conditions that may raise. -/
def orElse (x y : Except PyError Bool) : Except PyError Bool := do
  if ← x then .ok true else y

/-- `x and y`, for conditions that may raise. -/
def andThen (x y : Except PyError Bool) : Except PyError Bool := do
  if ← x then y else .ok false

theorem orElse_ok (a b : Bool) : orElse (.ok a) (.ok b) = .ok (a || b) := by
  cases a <;> rfl

theorem andThen_ok (a b : Bool) : andThen (.ok a) (.ok b) = .ok (a && b) := by
  cases a <;> rfl

theorem orElse_eq_ok_false_iff {x y : Except PyError Bool} :
    orElse x y = .ok false ↔ x = .ok false ∧ y = .ok false := by
  cases x with
  | error e => simp [orElse, bind, Except.bind]
  | ok b => cases b <;> simp [orElse, bind, Except.bind]

theorem andThen_eq_ok_true_iff {x y : Except PyError Bool} :
    andThen x y = .ok true ↔ x = .ok true ∧ y = .ok true := by
  cases x with
  | error e => simp [andThen, bind, Except.bind]
  | ok b => cases b <;> simp [andThen, bind, Except.bind]

/-- `p and x`, for a condition `p` that cannot raise. -/
theorem andThen_decide_eq_ok_false_iff {p : Prop} [Decidable p] {x : Except PyError Bool} :
    andThen (.ok (decide p)) x = .ok false ↔ (p → x = .ok false) := by
  by_cases h : p <;> simp [h, andThen, bind, Except.bind]

theorem escapes_orElse {x y : Except PyError Bool} :
    Escapes caught (orElse x y) ↔ Escapes caught x ∨ x = .ok false ∧ Escapes caught y := by
  cases x with
  | error e => simp [orElse, bind, Except.bind]
  | ok b => cases b <;> simp [orElse, bind, Except.bind]

theorem escapes_andThen {x y : Except PyError Bool} :
    Escapes caught (andThen x y) ↔ Escapes caught x ∨ x = .ok true ∧ Escapes caught y := by
  cases x with
  | error e => simp [andThen, bind, Except.bind]
  | ok b => cases b <;> simp [andThen, bind, Except.bind]

/-- `if condition: raise e`, for a condition that may raise. -/
def requireNot (condition : Except PyError Bool) (e : PyError) : Except PyError Unit := do
  if ← condition then .error e else .ok ()

/-- `if not condition: raise e`, for a condition that may raise. -/
def requireThat (condition : Except PyError Bool) (e : PyError) : Except PyError Unit := do
  if ← condition then .ok () else .error e

@[simp] theorem requireNot_eq_ok_iff {condition : Except PyError Bool} {e : PyError} :
    requireNot condition e = .ok () ↔ condition = .ok false := by
  cases condition with
  | error e' => simp [requireNot, bind, Except.bind]
  | ok b => cases b <;> simp [requireNot, bind, Except.bind]

@[simp] theorem requireThat_eq_ok_iff {condition : Except PyError Bool} {e : PyError} :
    requireThat condition e = .ok () ↔ condition = .ok true := by
  cases condition with
  | error e' => simp [requireThat, bind, Except.bind]
  | ok b => cases b <;> simp [requireThat, bind, Except.bind]

theorem escapes_requireNot {condition : Except PyError Bool} {e : PyError}
    (he : caught e = true) :
    Escapes caught (requireNot condition e) ↔ Escapes caught condition := by
  cases condition with
  | error e' => simp [requireNot, bind, Except.bind]
  | ok b => cases b <;> simp [requireNot, bind, Except.bind, he]

theorem escapes_requireThat {condition : Except PyError Bool} {e : PyError}
    (he : caught e = true) :
    Escapes caught (requireThat condition e) ↔ Escapes caught condition := by
  cases condition with
  | error e' => simp [requireThat, bind, Except.bind]
  | ok b => cases b <;> simp [requireThat, bind, Except.bind, he]

/-- A check that may itself raise, and what follows it. -/
theorem escapes_requireNot_bind {condition : Except PyError Bool} {e : PyError}
    (he : caught e = true) {k : Unit → Except PyError β} :
    Escapes caught (requireNot condition e >>= k) ↔
      Escapes caught condition ∨ condition = .ok false ∧ Escapes caught (k ()) := by
  rw [escapes_bind, escapes_requireNot he]
  simp only [exists_const_unit, requireNot_eq_ok_iff]

theorem escapes_requireThat_bind {condition : Except PyError Bool} {e : PyError}
    (he : caught e = true) {k : Unit → Except PyError β} :
    Escapes caught (requireThat condition e >>= k) ↔
      Escapes caught condition ∨ condition = .ok true ∧ Escapes caught (k ()) := by
  rw [escapes_bind, escapes_requireThat he]
  simp only [exists_const_unit, requireThat_eq_ok_iff]

/-- `for x in xs: check(x)`, for a check that may raise. -/
def forEach (xs : List β) (check : β → Except PyError Unit) : Except PyError Unit :=
  match xs with
  | [] => .ok ()
  | x :: rest => do
      check x
      forEach rest check

theorem forEach_eq_ok_iff {xs : List β} {check : β → Except PyError Unit} :
    forEach xs check = .ok () ↔ ∀ x ∈ xs, check x = .ok () := by
  induction xs with
  | nil => simp [forEach]
  | cons x rest ih =>
    simp only [forEach, bind_eq_ok_iff, exists_const_unit, ih, List.forall_mem_cons]

theorem forEach_bind_eq_ok_iff {xs : List β} {check : β → Except PyError Unit}
    {k : Unit → Except PyError α} {a : α} :
    (forEach xs check >>= k) = .ok a ↔ (∀ x ∈ xs, check x = .ok ()) ∧ k () = .ok a := by
  rw [bind_eq_ok_iff]
  simp only [exists_const_unit, forEach_eq_ok_iff]

/-- A loop of checks that all raise the same exception raises it where one of them does. -/
theorem forEach_of_uniform {xs : List β} {check : β → Except PyError Unit} {e : PyError}
    (h : ∀ x, check x = .ok () ∨ check x = .error e) (hfails : ∃ x ∈ xs, check x ≠ .ok ()) :
    forEach xs check = .error e := by
  induction xs with
  | nil => simp at hfails
  | cons x rest ih =>
    rcases h x with hx | hx
    · obtain ⟨y, hy, hbad⟩ := hfails
      rcases List.mem_cons.mp hy with rfl | hy
      · exact absurd hx hbad
      · rw [forEach, hx]
        exact ih ⟨y, hy, hbad⟩
    · rw [forEach, hx]
      rfl

/-- The elements a loop computes, one for each of its inputs. -/
theorem mapM_eq_ok_iff {f : α → Except PyError β} {xs : List α} {ys : List β} :
    xs.mapM f = .ok ys ↔ List.Forall₂ (fun x y => f x = .ok y) xs ys := by
  induction xs generalizing ys with
  | nil =>
    rw [List.mapM_nil, List.forall₂_nil_left_iff]
    constructor
    · intro h
      cases h
      rfl
    · rintro rfl
      rfl
  | cons x xs ih =>
    rw [List.mapM_cons, bind_eq_ok_iff, List.forall₂_cons_left_iff]
    constructor
    · rintro ⟨y, hy, h⟩
      obtain ⟨ys', hys', h⟩ := bind_eq_ok_iff.mp h
      cases h
      exact ⟨y, ys', hy, ih.mp hys', rfl⟩
    · rintro ⟨y, ys', hy, hys', rfl⟩
      exact ⟨y, hy, bind_eq_ok_iff.mpr ⟨ys', ih.mpr hys', rfl⟩⟩

theorem mem_of_mapM {f : α → Except PyError β} {xs : List α} {ys : List β} {y : β}
    (h : xs.mapM f = .ok ys) (hy : y ∈ ys) : ∃ x ∈ xs, f x = .ok y := by
  induction mapM_eq_ok_iff.mp h with
  | nil => cases hy
  | cons hx hrest ih =>
    rcases List.mem_cons.mp hy with rfl | hy
    · exact ⟨_, .head _, hx⟩
    · obtain ⟨x, hmem, hfx⟩ := ih (mapM_eq_ok_iff.mpr hrest) hy
      exact ⟨x, .tail _ hmem, hfx⟩

theorem mapM_mem {f : α → Except PyError β} {xs : List α} {ys : List β} {x : α}
    (h : xs.mapM f = .ok ys) (hx : x ∈ xs) : ∃ y ∈ ys, f x = .ok y := by
  induction mapM_eq_ok_iff.mp h with
  | nil => cases hx
  | cons hfx hrest ih =>
    rcases List.mem_cons.mp hx with rfl | hx
    · exact ⟨_, .head _, hfx⟩
    · obtain ⟨y, hmem, hfy⟩ := ih (mapM_eq_ok_iff.mpr hrest) hx
      exact ⟨y, .tail _ hmem, hfy⟩

/-- What each step keeps of its element, the whole keeps of the list. -/
theorem map_eq_of_mapM {γ : Type} {f : α → Except PyError β} (g : α → γ) (g' : β → γ)
    (hkeeps : ∀ x y, f x = .ok y → g' y = g x) {xs : List α} {ys : List β}
    (h : xs.mapM f = .ok ys) : ys.map g' = xs.map g := by
  induction mapM_eq_ok_iff.mp h with
  | nil => rfl
  | cons hx hrest ih =>
    rw [List.map_cons, List.map_cons, hkeeps _ _ hx, ih (mapM_eq_ok_iff.mpr hrest)]

theorem exists_mapM {f : α → Except PyError β} {xs : List α}
    (h : ∀ x ∈ xs, ∃ y, f x = .ok y) : ∃ ys, xs.mapM f = .ok ys := by
  induction xs with
  | nil => exact ⟨[], rfl⟩
  | cons x xs ih =>
    obtain ⟨y, hy⟩ := h x List.mem_cons_self
    obtain ⟨ys, hys⟩ := ih fun x' hx' => h x' (List.mem_cons_of_mem x hx')
    exact ⟨y :: ys, mapM_eq_ok_iff.mpr (.cons hy (mapM_eq_ok_iff.mp hys))⟩

/-- `[x for x in xs if condition(x)]`, for a condition that may raise. -/
def keep (condition : β → Except PyError Bool) : List β → Except PyError (List β)
  | [] => .ok []
  | x :: rest => do
      if ← condition x then (keep condition rest).map (x :: ·) else keep condition rest

theorem keep_of_ok {condition : β → Except PyError Bool} {p : β → Bool} {xs : List β}
    (h : ∀ x ∈ xs, condition x = .ok (p x)) : keep condition xs = .ok (xs.filter p) := by
  induction xs with
  | nil => rfl
  | cons x rest ih =>
    have hrest := ih fun y hy => h y (.tail x hy)
    rw [keep, h x (.head rest), hrest]
    cases hp : p x <;> simp [bind, Except.bind, Except.map, hp]

/-- `try: x except caught: None` -/
def attempt (caught : PyError → Bool) (x : Except PyError α) : Except PyError (Option α) :=
  match x with
  | .ok a => .ok (some a)
  | .error e => if caught e then .ok none else .error e

/-- A handler that names all that the statement can raise. -/
theorem attempt_of_caught {x : Except PyError α} (h : ∀ e, x = .error e → caught e = true) :
    attempt caught x = .ok x.toOption := by
  cases x with
  | ok a => rfl
  | error e => simp [attempt, h e rfl, Except.toOption]

/-- No exception of the computation is one that the handler names. -/
def Unnamed (caught : PyError → Bool) (x : Except PyError α) : Prop :=
  ∀ e, x = .error e → caught e = false

theorem unnamed_ok (a : α) : Unnamed caught (.ok a) := by
  intro e he
  cases he

theorem unnamed_error {e : PyError} (h : caught e = false) :
    Unnamed caught (.error e : Except PyError α) := by
  intro e' he
  cases he
  exact h

theorem Unnamed.bind {x : Except PyError α} {k : α → Except PyError β} (hx : Unnamed caught x)
    (hk : ∀ a, Unnamed caught (k a)) : Unnamed caught (x >>= k) := by
  cases x with
  | ok a => exact hk a
  | error e => exact unnamed_error (hx e rfl)

theorem unnamed_require {p : Prop} [Decidable p] {e : PyError} (h : caught e = false) :
    Unnamed caught (require p e) := by
  unfold require
  split
  · exact unnamed_ok ()
  · exact unnamed_error h

theorem Unnamed.requireNot {condition : Except PyError Bool} {e : PyError}
    (hcondition : Unnamed caught condition) (h : caught e = false) :
    Unnamed caught (requireNot condition e) := by
  refine hcondition.bind ?_
  intro b
  cases b with
  | true => exact unnamed_error h
  | false => exact unnamed_ok ()

theorem unnamed_forEach {xs : List β} {check : β → Except PyError Unit}
    (h : ∀ x, Unnamed caught (check x)) : Unnamed caught (forEach xs check) := by
  induction xs with
  | nil => exact unnamed_ok ()
  | cons x rest ih => exact (h x).bind fun _ => ih

theorem Unnamed.make [PostInit α] {fields : α} (h : Unnamed caught (postInit fields)) :
    Unnamed caught (Frozen.make fields) := by
  cases hfields : postInit fields with
  | ok u =>
    rw [Frozen.make_of_valid hfields]
    exact unnamed_ok _
  | error e =>
    rw [Frozen.make_of_error hfields]
    exact unnamed_error (h e hfields)

/-- `for entry in entries: try: x = parse(entry) except caught: continue; out.append(x)` -/
def collect (caught : PyError → Bool) (parse : β → Except PyError α) :
    List β → Except PyError (List α)
  | [] => .ok []
  | entry :: rest =>
      match parse entry with
      | .ok x => (collect caught parse rest).map (x :: ·)
      | .error e => if caught e then collect caught parse rest else .error e

/-- The parses of the entries that parse, in order. -/
def parses (parse : β → Except PyError α) (entries : List β) : List α :=
  entries.filterMap fun entry => (parse entry).toOption

/-- The loop either keeps exactly what parses or raises what the handler lets through. -/
theorem collect_cases (caught : PyError → Bool) (parse : β → Except PyError α)
    (entries : List β) :
    (collect caught parse entries = .ok (parses parse entries) ∧
      ∀ entry ∈ entries, ¬ Escapes caught (parse entry)) ∨
    ∃ e, collect caught parse entries = .error e ∧
      ∃ entry ∈ entries, Escapes caught (parse entry) := by
  induction entries with
  | nil => exact .inl ⟨rfl, by simp⟩
  | cons entry rest ih =>
    cases hparse : parse entry with
    | ok x =>
      rcases ih with ⟨hrest, hnone⟩ | ⟨e, hrest, bad, hbad, hescapes⟩
      · refine .inl ⟨?_, ?_⟩
        · simp [collect, parses, hparse, hrest, Except.map, Except.toOption]
        · intro other hother
          rcases List.mem_cons.mp hother with rfl | hother
          · rw [hparse]
            exact escapes_ok
          · exact hnone other hother
      · refine .inr ⟨e, ?_, bad, .tail entry hbad, hescapes⟩
        simp [collect, hparse, hrest, Except.map]
    | error e =>
      cases hcaught : caught e with
      | false =>
        refine .inr ⟨e, by simp [collect, hparse, hcaught], entry, .head rest, ?_⟩
        exact ⟨e, hparse, hcaught⟩
      | true =>
        have hskip : collect caught parse (entry :: rest) = collect caught parse rest := by
          simp [collect, hparse, hcaught]
        have hself : ¬ Escapes caught (parse entry) := by simp [hparse, hcaught]
        rcases ih with ⟨hrest, hnone⟩ | ⟨e', hrest, bad, hbad, hescapes⟩
        · refine .inl ⟨?_, ?_⟩
          · rw [hskip, hrest]
            simp [parses, hparse, Except.toOption]
          · intro other hother
            rcases List.mem_cons.mp hother with rfl | hother
            · exact hself
            · exact hnone other hother
        · exact .inr ⟨e', by rw [hskip, hrest], bad, .tail entry hbad, hescapes⟩

/-- A loop that returned kept every entry that parses. -/
theorem mem_collect {parse : β → Except PyError α} {entries : List β} {xs : List α} {entry : β}
    {x : α} (h : collect caught parse entries = .ok xs) (hentry : entry ∈ entries)
    (hparse : parse entry = .ok x) : x ∈ xs := by
  rcases collect_cases caught parse entries with ⟨hok, -⟩ | ⟨e, herror, -⟩
  · rw [hok] at h
    cases h
    exact List.mem_filterMap.mpr ⟨entry, hentry, by rw [hparse]; rfl⟩
  · rw [herror] at h
    cases h

/-- The loop keeps exactly what parses if and only if no entry raises past the handler. -/
theorem collect_eq_parses_iff {parse : β → Except PyError α} {entries : List β} :
    collect caught parse entries = .ok (parses parse entries) ↔
      ∀ entry ∈ entries, ¬ Escapes caught (parse entry) := by
  rcases collect_cases caught parse entries with ⟨hok, hnone⟩ | ⟨e, herror, bad, hbad, hescapes⟩
  · exact ⟨fun _ => hnone, fun _ => hok⟩
  · constructor
    · intro h
      rw [herror] at h
      cases h
    · intro h
      exact absurd hescapes (h bad hbad)

end Blive
