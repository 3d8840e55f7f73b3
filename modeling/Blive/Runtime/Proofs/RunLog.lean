import Blive.Runtime.RunLog

/-!
# The log of the runs is read back

However many runs append to the file, its lines are read back as the records in the order in which
they were appended, behind what the file held before. Two histories leave the same file just when
their records are equal one by one.
-/

namespace Blive.M32Record

open JsonText PyStr

/-! ## A record can be written -/

theorem writableItems_map {α : Type} {f : α → Json} (h : ∀ item, Writable (f item))
    (items : List α) : WritableItems (items.map f) := by
  induction items with
  | nil => trivial
  | cons item items ih => exact ⟨h item, ih⟩

variable (t : Texts)

theorem writable_counts (d : Dict String Nat) : Writable (counts d) :=
  writable_sortedDict Function.injective_id fun _ _ => trivial

theorem writable_str (s : String) : Writable (.str s) := trivial

theorem writable_ofFloat (x : FloatText) : Writable (ofFloat x) := x.number

theorem nodup_jsonFields (record : RunRecord) :
    ((jsonFields t record).map Prod.fst).Nodup := by
  simp only [jsonFields, List.map_cons, List.map_nil]
  decide

theorem writable_recordJson (record : RunRecord) : Writable (recordJson t record) := by
  have hrates : Writable (sortedDict id (fun rate => ofFloat (t.repr rate))
      record.fillRateBySymbol) :=
    writable_sortedDict Function.injective_id fun item _ => writable_ofFloat (t.repr item.2)
  have hcodes : Writable (sortedDict toString (fun n : Nat => .int n)
      record.observedErrorCodes) :=
    writable_sortedDict toString_injective fun _ _ => trivial
  have htrace : Writable (sortedDict id ofFloat (record.fsmTrace.toJsonDict t)) :=
    writable_sortedDict Function.injective_id fun item _ => writable_ofFloat item.2
  have hbreaches : WritableItems (record.breaches.map fun row =>
      sortedDict id .str (row.toJsonDict t)) :=
    writableItems_map (fun _ => writable_sortedDict Function.injective_id
      fun item _ => writable_str item.2) _
  have hinstruments : WritableItems (record.instruments.map Json.str) :=
    writableItems_map writable_str _
  refine writable_ofList (nodup_jsonFields t record) ?_
  simp [jsonFields, Writable, writable_counts, hrates, hcodes, htrace, hbreaches, hinstruments]

/-! ## The file -/

/-- The file after the runs, each with the texts of its record. -/
def appendRuns (file : Option (List Char)) (runs : List (Texts × RunRecord)) :
    Option (List Char) :=
  runs.foldl (fun file run => appendRunRecord run.1 file run.2) file

theorem getD_appendRuns (file : Option (List Char)) (runs : List (Texts × RunRecord)) :
    (appendRuns file runs).getD [] =
      file.getD [] ++ runs.flatMap fun run => runLine run.1 run.2 ++ ['\n'] := by
  induction runs generalizing file with
  | nil => simp [appendRuns]
  | cons run runs ih =>
    have hcons : appendRuns file (run :: runs) =
        appendRuns (appendRunRecord run.1 file run.2) runs := rfl
    rw [hcons, ih, List.flatMap_cons, appendRunRecord, Option.getD_some, List.append_assoc]

theorem unbroken_runLine (record : RunRecord) : Unbroken (runLine t record) :=
  (printable_dumps .spaced _ (writable_recordJson t record)).unbroken

theorem splitlines_runs (runs : List (Texts × RunRecord)) :
    splitlines (runs.flatMap fun run => runLine run.1 run.2 ++ ['\n']) =
      runs.map fun run => runLine run.1 run.2 := by
  induction runs with
  | nil => rfl
  | cons run runs ih =>
    have hcomplete : Complete (runLine run.1 run.2 ++ ['\n']) :=
      .inr (List.getLast?_concat)
    rw [List.flatMap_cons, splitlines_append hcomplete,
      splitlines_line (unbroken_runLine run.1 run.2), ih]
    rfl

theorem loads_runLine (record : RunRecord) :
    loads (runLine t record) = some (recordJson t record) :=
  loads_dumps .spaced (writable_recordJson t record)

/-- What the file held before stays, and behind it each run is read back as its record. -/
theorem run_log_read_back (file : Option (List Char)) (h : Complete (file.getD []))
    (runs : List (Texts × RunRecord)) :
    (splitlines ((appendRuns file runs).getD [])).map loads =
      (splitlines (file.getD [])).map loads ++
        runs.map fun run => some (recordJson run.1 run.2) := by
  have hread : (loads ∘ fun run : Texts × RunRecord => runLine run.1 run.2) =
      fun run => some (recordJson run.1 run.2) := by
    funext run
    rw [Function.comp_apply, loads_runLine]
  rw [getD_appendRuns, splitlines_append h, splitlines_runs, List.map_append, List.map_map, hread]

/-- A run that placed nothing. -/
def quietRun : RunRecord where
  schemaVersion := schemaVersion
  runId := "day-1"
  recordedAtUtc := "2026-05-04T16:30:00+00:00"
  strategyId := "triple_lev_sma_filter_dsl"
  instruments := ["QQL3", "IBTL"]
  orderType := "MARKET"
  maxBars := 1
  navSlice := 1 / 20
  startingCash := 1000000
  finalEquity := 1000000
  rebalanceRows := 1
  regimeFlipCount := 0
  submittedCount := 0
  acceptedCount := 0
  filledCount := 0
  canceledCount := 0
  rejectedCount := 0
  breachCount := 1
  capBinding2161Count := 0
  submittedBySymbol := Dict.empty
  fillsBySymbol := Dict.empty
  fillRateBySymbol := Dict.empty
  observedErrorCodes := Dict.ofList [(2161, 1), (-1, 2), (399, 1)]
  fsmTrace := ⟨0, 0, 0, 0⟩
  breaches := [⟨.rc08, .block, .noBar "QQL3"⟩]
  note := "caf\u00e9\u2028day 1"

/-- Its numbers as texts, when all of them are the same. -/
def flatTexts : Texts where
  str _ := "0.05"
  repr _ := ⟨"0.0", rfl⟩
  detail _ := "no bar received for \"QQL3\""

theorem run_log_read_back_twice :
    Complete ((some "\x7b\"run_id\": \"day-0\"\x7d\n".toList).getD []) ∧
      (splitlines ((appendRuns (some "\x7b\"run_id\": \"day-0\"\x7d\n".toList)
        [(flatTexts, quietRun), (flatTexts, quietRun)]).getD [])).map loads =
        (splitlines ((some "\x7b\"run_id\": \"day-0\"\x7d\n".toList).getD [])).map loads ++
          [(flatTexts, quietRun), (flatTexts, quietRun)].map fun run =>
            some (recordJson run.1 run.2) :=
  ⟨.inr (by decide +kernel), run_log_read_back _ (.inr (by decide +kernel)) _⟩

example : (runLine flatTexts quietRun).take 29 = "\x7b\"accepted_count\": 0, \"breach".toList := by
  decide +kernel

/-! ## What decides the file -/

/-- The records are equal, their dictionaries as mappings. -/
structure SameRow (record record' : RunRecord) : Prop where
  schemaVersion : record.schemaVersion = record'.schemaVersion
  runId : record.runId = record'.runId
  recordedAtUtc : record.recordedAtUtc = record'.recordedAtUtc
  strategyId : record.strategyId = record'.strategyId
  instruments : record.instruments = record'.instruments
  orderType : record.orderType = record'.orderType
  maxBars : record.maxBars = record'.maxBars
  navSlice : t.str record.navSlice = t.str record'.navSlice
  startingCash : t.str record.startingCash = t.str record'.startingCash
  finalEquity : t.str record.finalEquity = t.str record'.finalEquity
  rebalanceRows : record.rebalanceRows = record'.rebalanceRows
  regimeFlipCount : record.regimeFlipCount = record'.regimeFlipCount
  submittedCount : record.submittedCount = record'.submittedCount
  acceptedCount : record.acceptedCount = record'.acceptedCount
  filledCount : record.filledCount = record'.filledCount
  canceledCount : record.canceledCount = record'.canceledCount
  rejectedCount : record.rejectedCount = record'.rejectedCount
  breachCount : record.breachCount = record'.breachCount
  capBinding2161Count : record.capBinding2161Count = record'.capBinding2161Count
  submittedBySymbol : ∀ symbol,
    record.submittedBySymbol.get? symbol = record'.submittedBySymbol.get? symbol
  fillsBySymbol : ∀ symbol, record.fillsBySymbol.get? symbol = record'.fillsBySymbol.get? symbol
  fillRateBySymbol : ∀ symbol,
    (record.fillRateBySymbol.get? symbol).map (fun rate => (t.repr rate).text) =
      (record'.fillRateBySymbol.get? symbol).map fun rate => (t.repr rate).text
  observedErrorCodes : ∀ code,
    record.observedErrorCodes.get? code = record'.observedErrorCodes.get? code
  fsmTrace : ∀ rate, ((record.fsmTrace.toJsonDict t).get? rate).map FloatText.text =
    ((record'.fsmTrace.toJsonDict t).get? rate).map FloatText.text
  breaches : record.breaches.map (fun row => (row.check, row.severity, t.detail row.detail)) =
    record'.breaches.map fun row => (row.check, row.severity, t.detail row.detail)
  note : record.note = record'.note

variable {t}

theorem counts_eq_iff {d d' : Dict String Nat} :
    counts d = counts d' ↔ ∀ symbol, d.get? symbol = d'.get? symbol := by
  rw [counts, counts, sortedDict_eq_iff Function.injective_id]
  refine forall_congr' fun symbol => ?_
  rw [map_option_eq_iff (g := id) (by simp), Option.map_id, id_eq, id_eq]

theorem floats_eq_iff {α : Type} {f : α → FloatText} {d d' : Dict String α} :
    sortedDict id (fun x => ofFloat (f x)) d = sortedDict id (fun x => ofFloat (f x)) d' ↔
      ∀ k, (d.get? k).map (fun x => (f x).text) = (d'.get? k).map fun x => (f x).text := by
  rw [sortedDict_eq_iff Function.injective_id]
  exact forall_congr' fun k => map_option_eq_iff fun x y => by simp [ofFloat]

theorem codes_eq_iff {d d' : Dict Int Nat} :
    sortedDict toString (fun n : Nat => .int n) d = sortedDict toString (fun n : Nat => .int n) d' ↔
      ∀ code, d.get? code = d'.get? code := by
  rw [sortedDict_eq_iff toString_injective]
  refine forall_congr' fun code => ?_
  rw [map_option_eq_iff (g := id) (by simp), Option.map_id, id_eq, id_eq]

theorem value_injective : Function.Injective RiskCheckCode.value := by
  intro a b h
  cases a <;> cases b <;> first | rfl | exact absurd h (by decide)

theorem severity_injective : Function.Injective RiskBreachSeverity.value := by
  intro a b h
  cases a <;> cases b <;> first | rfl | exact absurd h (by decide)

theorem breachRow_eq_iff (row row' : BreachRow) :
    sortedDict id Json.str (row.toJsonDict t) = sortedDict id Json.str (row'.toJsonDict t) ↔
      (row.check, row.severity, t.detail row.detail) =
        (row'.check, row'.severity, t.detail row'.detail) := by
  have hget (row : BreachRow) (k : String) : (row.toJsonDict t).get? k =
      Dict.lookupItems k [("check", row.check.value), ("severity", row.severity.value),
        ("detail", t.detail row.detail)] :=
    Dict.get?_ofList (by simp only [List.map_cons, List.map_nil]; decide) k
  rw [sortedDict_str_eq_iff]
  constructor
  · intro h
    have hcheck := h "check"
    have hseverity := h "severity"
    have hdetail := h "detail"
    simp only [hget, Dict.lookupItems, String.reduceEq, if_true, if_false, Option.some.injEq]
      at hcheck hseverity hdetail
    rw [value_injective hcheck, severity_injective hseverity, hdetail]
  · intro h k
    simp only [Prod.mk.injEq] at h
    rw [hget, hget, h.1, h.2.1, h.2.2]

theorem recordJson_eq_iff {record record' : RunRecord} :
    recordJson t record = recordJson t record' ↔ SameRow t record record' := by
  have hfields : recordJson t record = recordJson t record' ↔
      jsonFields t record = jsonFields t record' :=
    sortedDict_ofList_eq_iff rfl (nodup_jsonFields t record)
  have hstrings {l l' : List String} : l.map Json.str = l'.map Json.str ↔ l = l' := by
    rw [map_list_eq_iff (g := id) (by simp), List.map_id, List.map_id]
  rw [hfields]
  simp only [jsonFields, List.cons.injEq, Prod.mk.injEq, true_and, and_true, Json.int.injEq,
    Json.str.injEq, Json.list.injEq, Nat.cast_inj, counts_eq_iff, hstrings, floats_eq_iff,
    codes_eq_iff, map_list_eq_iff breachRow_eq_iff]
  constructor
  · rintro ⟨h1, h2, h3, h4, h5, h6, h7, h8, h9, h10, h11, h12, h13, h14, h15, h16, h17, h18, h19,
      h20, h21, h22, h23, h24, h25, h26⟩
    exact ⟨h1, h2, h3, h4, h5, h6, h7, h8, h9, h10, h11, h12, h13, h14, h15, h16, h17, h18, h19,
      h20, h21, h22, h23, floats_eq_iff (f := id).mp h24, h25, h26⟩
  · rintro ⟨h1, h2, h3, h4, h5, h6, h7, h8, h9, h10, h11, h12, h13, h14, h15, h16, h17, h18, h19,
      h20, h21, h22, h23, h24, h25, h26⟩
    exact ⟨h1, h2, h3, h4, h5, h6, h7, h8, h9, h10, h11, h12, h13, h14, h15, h16, h17, h18, h19,
      h20, h21, h22, h23, floats_eq_iff (f := id).mpr h24, h25, h26⟩

theorem runLine_eq_iff {record record' : RunRecord} :
    runLine t record = runLine t record' ↔ SameRow t record record' := by
  rw [← recordJson_eq_iff]
  exact ⟨dumps_inj (writable_recordJson t record) (writable_recordJson t record'),
    congrArg (dumps .spaced)⟩

/-- Two histories leave the same file just when they are the same runs in the same order. -/
theorem run_log_eq_iff (t : Texts) (file : Option (List Char)) (records records' : List RunRecord) :
    appendRuns file (records.map (t, ·)) = appendRuns file (records'.map (t, ·)) ↔
      List.Forall₂ (SameRow t) records records' := by
  constructor
  · intro h
    have htext := congrArg (fun file => Option.getD file []) h
    simp only [getD_appendRuns, List.append_cancel_left_eq] at htext
    have hlines := congrArg splitlines htext
    rw [splitlines_runs, splitlines_runs, List.map_map, List.map_map] at hlines
    rw [← List.forall₂_eq_eq_eq, List.forall₂_map_left_iff, List.forall₂_map_right_iff] at hlines
    exact hlines.imp fun _ _ => runLine_eq_iff.mp
  · intro h
    induction h generalizing file with
    | nil => rfl
    | cons hrow _ ih =>
      rw [List.map_cons, List.map_cons, appendRuns, appendRuns, List.foldl_cons, List.foldl_cons,
        appendRunRecord, appendRunRecord, runLine_eq_iff.mpr hrow]
      exact ih _

end Blive.M32Record
