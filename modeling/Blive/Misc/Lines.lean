import Mathlib.Data.List.DropRight
import Blive.Misc.Numeral

/-!
# Lines of a text

`str.splitlines` ends a line at every line boundary of Unicode, while a file is made of lines that
line feeds separate. The lines a text is split into, and those of lines that were joined.
-/

namespace Blive

theorem forall_mem_of_mem_splitOnP {α : Type*} {p : α → Bool} {l piece : List α}
    (h : piece ∈ l.splitOnP p) : ∀ a ∈ piece, p a = false := by
  induction l generalizing piece with
  | nil =>
    rw [List.splitOnP_nil, List.mem_singleton] at h
    rw [h]
    exact fun a ha => absurd ha List.not_mem_nil
  | cons x l ih =>
    rw [List.splitOnP_cons_eq_if_modifyHead] at h
    split at h
    · rcases List.mem_cons.mp h with rfl | h
      · exact fun a ha => absurd ha List.not_mem_nil
      · exact ih h
    · rename_i hx
      obtain ⟨first, rest, hsplit⟩ := List.exists_cons_of_ne_nil (List.splitOnP_ne_nil p l)
      rw [hsplit, List.modifyHead_cons] at h
      have hmem : ∀ s ∈ first :: rest, ∀ a ∈ s, p a = false := fun s hs => ih (hsplit ▸ hs)
      rcases List.mem_cons.mp h with rfl | h
      · intro a ha
        rcases List.mem_cons.mp ha with rfl | ha
        · exact Bool.eq_false_iff.mpr hx
        · exact hmem first List.mem_cons_self a ha
      · exact hmem piece (List.mem_cons_of_mem _ h)

/-- What no boundary breaks stays in one piece with what follows. -/
theorem splitOnP_append_of_forall {α : Type*} {p : α → Bool} {before : List α}
    (h : ∀ a ∈ before, p a = false) (after : List α) :
    (before ++ after).splitOnP p = (after.splitOnP p).modifyHead (before ++ ·) := by
  induction before with
  | nil => cases hsplit : after.splitOnP p <;> simp [hsplit]
  | cons a before ih =>
    obtain ⟨ha, hbefore⟩ := List.forall_mem_cons.mp h
    rw [List.cons_append, List.splitOnP_cons_eq_if_modifyHead, if_neg (Bool.eq_false_iff.mp ha),
      ih hbefore]
    cases after.splitOnP p <;> rfl

namespace PyStr

/-- The characters at which `str.splitlines()` ends a line. -/
def isLineBoundary (c : Char) : Bool :=
  c.toNat ∈ [10, 11, 12, 13, 28, 29, 30, 133, 8232, 8233]

theorem isSpace_of_isLineBoundary {c : Char} (h : isLineBoundary c) : isSpace c := by
  have hsub : ([10, 11, 12, 13, 28, 29, 30, 133, 8232, 8233] : List Nat) ⊆
      [9, 10, 11, 12, 13, 28, 29, 30, 31, 32, 133, 160, 5760, 8192, 8193, 8194, 8195, 8196, 8197,
        8198, 8199, 8200, 8201, 8202, 8232, 8233, 8239, 8287, 12288] := by decide
  exact decide_eq_true (hsub (of_decide_eq_true h))

/-- No boundary is among the characters of the line. -/
def Unbroken (line : List Char) : Prop := ∀ c ∈ line, isLineBoundary c = false

instance (line : List Char) : Decidable (Unbroken line) :=
  decidable_of_iff (line.all fun c => !isLineBoundary c) (by simp [Unbroken])

/-- `text.splitlines()` -/
def splitlines : List Char → List (List Char)
  | [] => []
  | '\r' :: '\n' :: rest => [] :: splitlines rest
  | c :: rest =>
      if isLineBoundary c then [] :: splitlines rest
      else match splitlines rest with
        | [] => [[c]]
        | line :: lines => (c :: line) :: lines

example : splitlines "a\r\nb\u2028\nc\x0b".toList =
    ["a".toList, "b".toList, [], "c".toList] := by
  decide +kernel

theorem splitlines_cons {c : Char} (hc : isLineBoundary c = false) (rest : List Char) :
    splitlines (c :: rest) = match splitlines rest with
      | [] => [[c]]
      | line :: lines => (c :: line) :: lines := by
  rw [splitlines, if_neg (Bool.eq_false_iff.mp hc)]
  rintro rest' rfl -
  exact absurd hc (by decide)

theorem splitlines_ne_nil (c : Char) (rest : List Char) : splitlines (c :: rest) ≠ [] := by
  by_cases hc : isLineBoundary c
  · rw [splitlines.eq_def]
    split
    · simp_all
    · exact List.cons_ne_nil _ _
    · simp_all
  · rw [splitlines_cons (Bool.eq_false_iff.mpr hc)]
    split <;> exact List.cons_ne_nil _ _

/-- Nothing, or lines the last of which is ended by a line feed. -/
def Complete (text : List Char) : Prop := text = [] ∨ text.getLast? = some '\n'

/-- After complete lines, what follows has lines of its own. -/
theorem splitlines_append {text : List Char} (h : Complete text) (after : List Char) :
    splitlines (text ++ after) = splitlines text ++ splitlines after := by
  have hrest {c c' : Char} {rest : List Char} (h : Complete (c :: c' :: rest)) :
      Complete (c' :: rest) := by
    rcases h with h | h
    · cases h
    · exact .inr (by rwa [List.getLast?_cons_cons] at h)
  fun_induction splitlines text with
  | case1 => rfl
  | case2 rest ih =>
    have hcomplete : Complete rest := by
      cases rest with
      | nil => exact .inl rfl
      | cons c rest => exact hrest (hrest h)
    exact congrArg ([] :: ·) (ih hcomplete)
  | case3 c rest hcr hc ih =>
    cases rest with
    | nil =>
      obtain rfl : c = '\n' := Option.some.inj (h.resolve_left (List.cons_ne_nil c []))
      rfl
    | cons c' rest =>
      rw [List.cons_append, splitlines, if_pos hc, ih (hrest h), List.cons_append]
      rintro rest' rfl heq
      obtain ⟨rfl, rfl⟩ := List.cons.inj heq
      exact hcr rest rfl rfl
  | case4 c rest hcr hc hnil ih =>
    cases rest with
    | nil =>
      obtain rfl : c = '\n' := Option.some.inj (h.resolve_left (List.cons_ne_nil c []))
      exact absurd (by decide) hc
    | cons c' rest => exact absurd hnil (splitlines_ne_nil c' rest)
  | case5 c rest hcr hc line lines hcons ih =>
    cases rest with
    | nil => cases hcons
    | cons c' rest =>
      rw [List.cons_append, splitlines_cons (Bool.eq_false_iff.mpr hc), ih (hrest h), hcons]
      rfl

/-- A line that nothing breaks, and its line feed. -/
theorem splitlines_line {line : List Char} (h : Unbroken line) :
    splitlines (line ++ ['\n']) = [line] := by
  induction line with
  | nil => rfl
  | cons c line ih =>
    obtain ⟨hc, hline⟩ := List.forall_mem_cons.mp h
    rw [List.cons_append, splitlines_cons hc, ih hline]

section Ignoring

variable {α : Type} {f : List Char → Option α}

/-- A text splits at every boundary: into the same lines, up to empty ones after the first. -/
theorem splitlines_cases (hf : f [] = none) (text : List Char) :
    (text = [] ∧ splitlines text = []) ∨
    ∃ line lines pieces, splitlines text = line :: lines ∧
      text.splitOnP isLineBoundary = line :: pieces ∧ lines.filterMap f = pieces.filterMap f := by
  fun_induction splitlines text with
  | case1 => exact .inl ⟨rfl, rfl⟩
  | case2 rest ih =>
    refine .inr ⟨[], splitlines rest, [] :: rest.splitOnP isLineBoundary, rfl, rfl, ?_⟩
    rw [List.filterMap_cons_none hf]
    rcases ih with ⟨rfl, hnil⟩ | ⟨line, lines, pieces, hlines, hpieces, hsame⟩
    · rw [hnil, List.splitOnP_nil, List.filterMap_cons_none hf]
    · rw [hlines, hpieces, List.filterMap_cons, List.filterMap_cons, hsame]
  | case3 c rest _ hc ih =>
    refine .inr ⟨[], splitlines rest, rest.splitOnP isLineBoundary, rfl, ?_, ?_⟩
    · rw [List.splitOnP_cons_eq_if_modifyHead, if_pos hc]
    · rcases ih with ⟨rfl, hnil⟩ | ⟨line, lines, pieces, hlines, hpieces, hsame⟩
      · rw [hnil, List.splitOnP_nil, List.filterMap_cons_none hf]
      · rw [hlines, hpieces, List.filterMap_cons, List.filterMap_cons, hsame]
  | case4 c rest _ hc hnil ih =>
    rcases ih with ⟨rfl, _⟩ | ⟨line, lines, pieces, hlines, _⟩
    · refine .inr ⟨[c], [], [], rfl, ?_, rfl⟩
      rw [List.splitOnP_cons_eq_if_modifyHead, if_neg hc, List.splitOnP_nil, List.modifyHead_cons]
    · cases hnil.symm.trans hlines
  | case5 c rest _ hc line lines hcons ih =>
    rcases ih with ⟨_, hnil⟩ | ⟨line', lines', pieces, hlines, hpieces, hsame⟩
    · cases hcons.symm.trans hnil
    · cases hcons.symm.trans hlines
      refine .inr ⟨c :: line, lines, pieces, rfl, ?_, hsame⟩
      rw [List.splitOnP_cons_eq_if_modifyHead, if_neg hc, hpieces, List.modifyHead_cons]

/-- Where the empty line is ignored, a text is the pieces between its boundaries. -/
theorem filterMap_splitlines (hf : f [] = none) (text : List Char) :
    (splitlines text).filterMap f = (text.splitOnP isLineBoundary).filterMap f := by
  rcases splitlines_cases hf text with ⟨rfl, hnil⟩ | ⟨line, lines, pieces, hlines, hpieces, hsame⟩
  · rw [hnil, List.splitOnP_nil, List.filterMap_cons_none hf]
  · rw [hlines, hpieces, List.filterMap_cons, List.filterMap_cons, hsame]

/-- The lines of a file give what each of them gives alone. -/
theorem filterMap_splitlines_intercalate (hf : f [] = none) (lines : List (List Char)) :
    (splitlines (List.intercalate ['\n'] lines)).filterMap f =
      lines.flatMap fun line => (splitlines line).filterMap f := by
  rw [filterMap_splitlines hf]
  induction lines with
  | nil => simp [hf]
  | cons line rest ih =>
    cases rest with
    | nil => simp [filterMap_splitlines hf]
    | cons next rest =>
      rw [List.intercalate_cons_cons, List.append_assoc, List.singleton_append,
        List.splitOnP_append_cons _ _ (by decide), List.filterMap_append, ih,
        ← filterMap_splitlines hf line]
      rfl

end Ignoring

/-! ## White space at the ends -/

theorem rdropWhile_append_cons {c : Char} (hc : isSpace c = false) (before after : List Char) :
    (before ++ c :: after).rdropWhile isSpace = before ++ c :: after.rdropWhile isSpace := by
  induction after using List.reverseRecOn with
  | nil => exact List.rdropWhile_concat_neg isSpace before c (Bool.eq_false_iff.mp hc)
  | append_singleton after last ih =>
    rw [← List.cons_append, ← List.append_assoc, List.rdropWhile_concat, List.rdropWhile_concat]
    split
    · exact ih
    · simp

theorem rdropWhile_append_of_forall {spaces : List Char} (h : ∀ c ∈ spaces, isSpace c)
    (s : List Char) : (s ++ spaces).rdropWhile isSpace = s.rdropWhile isSpace := by
  rw [List.rdropWhile, List.reverse_append, List.dropWhile_append_of_pos]
  · rfl
  · exact fun c hc => h c (List.mem_reverse.mp hc)

theorem strip_eq (s : List Char) : strip s = (s.dropWhile isSpace).rdropWhile isSpace := rfl

@[simp] theorem strip_nil : strip [] = [] := rfl

theorem mem_of_mem_strip {c : Char} {s : List Char} (h : c ∈ strip s) : c ∈ s :=
  (List.dropWhile_sublist isSpace).subset ((List.rdropWhile_prefix isSpace _).subset h)

theorem strip_of_forall {s : List Char} (h : ∀ c ∈ s, isSpace c = false) : strip s = s := by
  have hleft : s.dropWhile isSpace = s :=
    List.dropWhile_eq_self_iff.mpr fun hl => Bool.eq_false_iff.mp (h _ (List.getElem_mem hl))
  rw [strip_eq, hleft]
  exact List.rdropWhile_eq_self_iff.mpr fun hl =>
    Bool.eq_false_iff.mp (h _ (List.getLast_mem hl))

/-- Around a character that stays, each end is stripped by itself. -/
theorem strip_append_cons {c : Char} (hc : isSpace c = false) (before after : List Char) :
    strip (before ++ c :: after) =
      before.dropWhile isSpace ++ c :: after.rdropWhile isSpace := by
  have hleft : (before ++ c :: after).dropWhile isSpace =
      before.dropWhile isSpace ++ c :: after := by
    rw [List.dropWhile_append]
    split
    · rename_i hempty
      rw [List.isEmpty_iff.mp hempty, List.dropWhile_cons_of_neg (Bool.eq_false_iff.mp hc)]
      rfl
    · rfl
  rw [strip_eq, hleft, rdropWhile_append_cons hc]

theorem strip_dropWhile (s : List Char) : strip (s.dropWhile isSpace) = strip s := by
  rw [strip_eq, List.dropWhile_idempotent, strip_eq]

theorem strip_rdropWhile (s : List Char) : strip (s.rdropWhile isSpace) = strip s := by
  have hspaces : ∀ c ∈ s.rtakeWhile isSpace, isSpace c := fun c hc => List.mem_rtakeWhile_imp hc
  have hsplit : strip s = strip (s.rdropWhile isSpace ++ s.rtakeWhile isSpace) :=
    congrArg strip List.rdropWhile_append_rtakeWhile.symm
  rw [hsplit, strip_eq, strip_eq, List.dropWhile_append]
  split
  · rename_i hempty
    rw [List.isEmpty_iff.mp hempty, List.dropWhile_eq_nil_iff.mpr hspaces]
  · rw [rdropWhile_append_of_forall hspaces]

theorem head?_strip (s : List Char) : (strip s).head? = (s.dropWhile isSpace).head? := by
  rw [strip_eq]
  cases hleft : s.dropWhile isSpace with
  | nil => rfl
  | cons c rest =>
    have hc : isSpace c = false := by
      have hhead := List.head?_dropWhile_not isSpace s
      rwa [hleft] at hhead
    rw [← List.nil_append (c :: rest), rdropWhile_append_cons hc]
    rfl

end PyStr

end Blive
