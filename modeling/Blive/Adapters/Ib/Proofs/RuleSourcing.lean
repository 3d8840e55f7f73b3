import Blive.Adapters.Ib.PriceRules

/-!
# The tables the price rules yield

A market rule with a band in every readable row is a table; it covers all prices exactly when one
of the bands starts at zero. A row whose step is NaN, or whose step is positive and whose edge is
NaN or negative, makes the parser raise, which drops the whole rule. The minimum tick stands in for
a rule that was dropped or not fetched, and the table it yields is cached like any other; if it is
NaN, its comparison raises.
-/

namespace Blive

open Transition

/-! ## Rows -/

theorem wirePriceIncrement_valid_iff {low step : DecimalValue} :
    postInit (⟨low, step⟩ : Wire.PriceIncrementFields) = .ok () ↔
      Positive step ∧ NonNegative low := by
  simp only [postInit, bind_eq_ok_iff, exists_const_unit, requireNot_eq_ok_iff]
  rw [nonNegative_iff, ← positive_iff, ← DecimalValue.lt_eq_ok_not_iff]
  rfl

theorem Wire.PriceIncrement.positive (band : Wire.PriceIncrement) : Positive band.val.increment :=
  (wirePriceIncrement_valid_iff.mp band.valid).1

theorem Wire.PriceIncrement.nonNegative (band : Wire.PriceIncrement) :
    NonNegative band.val.lowEdge :=
  (wirePriceIncrement_valid_iff.mp band.valid).2

namespace MarketRuleRow

/-- The two numbers of the row can be read. -/
def Reads (row : MarketRuleRow) (low step : DecimalValue) : Prop :=
  safeDecimal row.lowEdge = some low ∧ safeDecimal row.increment = some step

/-- The row is a valid one: it is the band. -/
def IsBand (row : MarketRuleRow) (band : Wire.PriceIncrement) : Prop :=
  row.Reads band.val.lowEdge band.val.increment

/-- The parser raises on the row. -/
def Broken (row : MarketRuleRow) : Prop :=
  ∃ low step, row.Reads low step ∧ (step.isNan ∨ Positive step ∧ ¬ NonNegative low)

end MarketRuleRow

/-- What a row that can be read leads to. -/
theorem readRow_of_reads {row : MarketRuleRow} {low step : DecimalValue} (h : row.Reads low step) :
    (step.isNan ∧ readRow row = .error invalidOperation) ∨
      (¬ step.isNan ∧ ¬ Positive step ∧ readRow row = .ok none) ∨
      (Positive step ∧ readRow row = some <$> Frozen.make ⟨low, step⟩) := by
  have hread : readRow row = (do
      if ← step.le (.finite 0) then return none
      some <$> Frozen.make ⟨low, step⟩) := by
    simp only [readRow, h.1, h.2]
  rcases DecimalValue.comparison_cases (fun x y => decide (x ≤ y)) step (.finite 0) with
    ⟨herror, hnan⟩ | ⟨x, y, hx, hy, hle⟩
  · refine .inl ⟨by simpa using hnan, ?_⟩
    rw [hread, DecimalValue.le, herror]
    rfl
  · have hnan : ¬ step.isNan := by
      intro hn
      rw [DecimalValue.rank_eq_none_iff.mpr hn] at hx
      cases hx
    cases hb : decide (x ≤ y) with
    | true =>
      replace hle : step.le (.finite 0) = .ok true := by rw [DecimalValue.le, hle, hb]
      refine .inr (.inl ⟨hnan, ?_, ?_⟩)
      · intro hpos
        have hlt := DecimalValue.lt_eq_ok_not_iff.mpr hle
        rw [positive_iff.mpr hpos] at hlt
        cases hlt
      · rw [hread, hle]
        rfl
    | false =>
      replace hle : step.le (.finite 0) = .ok false := by rw [DecimalValue.le, hle, hb]
      refine .inr (.inr ⟨positive_iff.mp (DecimalValue.lt_eq_ok_not_iff.mpr hle), ?_⟩)
      rw [hread, hle]
      rfl

theorem readRow_of_unread {row : MarketRuleRow} (h : ¬ ∃ low step, row.Reads low step) :
    readRow row = .ok none := by
  unfold readRow
  split
  · rename_i low step hlow hstep
    exact absurd ⟨low, step, hlow, hstep⟩ h
  · rfl

theorem readRow_of_broken {row : MarketRuleRow} (h : row.Broken) : ∃ e, readRow row = .error e := by
  obtain ⟨low, step, hreads, hbad⟩ := h
  rcases readRow_of_reads hreads with ⟨-, hrow⟩ | ⟨hnan, hpos, -⟩ | ⟨hpos, hrow⟩
  · exact ⟨_, hrow⟩
  · rcases hbad with hn | ⟨hp, -⟩
    · exact absurd hn hnan
    · exact absurd hp hpos
  · have hlow : ¬ NonNegative low := by
      rcases hbad with hn | ⟨-, hlow⟩
      · cases step <;> simp_all [Positive, DecimalValue.isNan]
      · exact hlow
    have hinvalid : postInit (⟨low, step⟩ : Wire.PriceIncrementFields) ≠ .ok () :=
      fun hvalid => hlow (wirePriceIncrement_valid_iff.mp hvalid).2
    obtain ⟨e, he⟩ := Frozen.exists_make_error hinvalid
    refine ⟨e, ?_⟩
    rw [hrow, he]
    rfl

theorem readRow_of_not_broken {row : MarketRuleRow} (h : ¬ row.Broken) :
    ∃ band?, readRow row = .ok band? ∧ ∀ band, band? = some band ↔ row.IsBand band := by
  by_cases hreads : ∃ low step, row.Reads low step
  · obtain ⟨low, step, hreads⟩ := hreads
    -- The row reads as these two numbers only.
    have hunique {band : Wire.PriceIncrement} (hband : row.IsBand band) :
        band.val.lowEdge = low ∧ band.val.increment = step :=
      ⟨Option.some.inj (hband.1.symm.trans hreads.1), Option.some.inj (hband.2.symm.trans hreads.2)⟩
    rcases readRow_of_reads hreads with ⟨hnan, -⟩ | ⟨-, hpos, hrow⟩ | ⟨hpos, hrow⟩
    · exact absurd ⟨low, step, hreads, .inl hnan⟩ h
    · refine ⟨none, hrow, ?_⟩
      intro band
      refine iff_of_false (by simp) ?_
      intro hband
      rw [← (hunique hband).2] at hpos
      exact hpos band.positive
    · have hlow : NonNegative low := by
        by_contra hlow
        exact h ⟨low, step, hreads, .inr ⟨hpos, hlow⟩⟩
      have hvalid := wirePriceIncrement_valid_iff.mpr ⟨hpos, hlow⟩
      refine ⟨some ⟨⟨low, step⟩, hvalid⟩, ?_, ?_⟩
      · rw [hrow, Frozen.make_of_valid hvalid]
        rfl
      · intro band
        constructor
        · intro heq
          cases heq
          exact hreads
        · intro hband
          obtain ⟨rfl, rfl⟩ := hunique hband
          rfl
  · refine ⟨none, readRow_of_unread hreads, ?_⟩
    intro band
    exact iff_of_false (by simp) fun hband => hreads ⟨_, _, hband⟩

/-! ## Market rules -/

instance : Std.Total Below where
  total a b := by
    rcases DecimalValue.comparison_cases (fun x y => decide (x ≤ y)) a.val.lowEdge
        b.val.lowEdge with ⟨-, hnan⟩ | ⟨x, y, hx, hy, hab⟩
    · have ha := a.nonNegative
      have hb := b.nonNegative
      rcases hnan with hnan | hnan
      · cases h : a.val.lowEdge <;> simp_all [NonNegative, DecimalValue.isNan]
      · cases h : b.val.lowEdge <;> simp_all [NonNegative, DecimalValue.isNan]
    · rcases le_total x y with hle | hle
      · refine .inl ?_
        rw [Below, DecimalValue.le, hab, decide_eq_true hle]
      · refine .inr ?_
        simp only [Below, DecimalValue.le, DecimalValue.comparison, hx, hy, decide_eq_true hle]

instance : IsTrans Wire.PriceIncrement Below where
  trans a b c hab hbc := by
    obtain ⟨x, y, hx, hy, hle⟩ := DecimalValue.le_eq_ok_iff.mp hab
    obtain ⟨y', z, hy', hz, hle'⟩ := DecimalValue.le_eq_ok_iff.mp hbc
    cases hy.symm.trans hy'
    exact DecimalValue.le_eq_ok_iff.mpr ⟨x, z, hx, hz,
      decide_eq_true ((of_decide_eq_true hle).trans (of_decide_eq_true hle'))⟩

/-- The rule is read without an exception and has a valid row. -/
def ReadsAsTable (rows : List MarketRuleRow) : Prop :=
  (∀ row ∈ rows, ¬ row.Broken) ∧ ∃ row ∈ rows, ∃ band, row.IsBand band

/-- A rule without broken rows is the table of its valid rows. -/
theorem fetchMarketRule_of_unbroken {rows : Option (List MarketRuleRow)}
    (h : ∀ row ∈ rows.getD [], ¬ row.Broken) :
    ∃ table, fetchMarketRule (.ok rows) = .ok table ∧ table.Pairwise Below ∧
      ∀ band, band ∈ table ↔ ∃ row ∈ rows.getD [], row.IsBand band := by
  obtain ⟨out, hout⟩ := exists_mapM (f := readRow) fun row hrow => by
    obtain ⟨band?, hread, -⟩ := readRow_of_not_broken (h row hrow)
    exact ⟨band?, hread⟩
  refine ⟨sortBands (out.filterMap id), ?_, List.pairwise_insertionSort _ _, ?_⟩
  · rw [fetchMarketRule]
    simp only [bind, Except.bind, hout]
    rfl
  · intro band
    rw [sortBands, List.mem_insertionSort, List.mem_filterMap]
    constructor
    · rintro ⟨band?, hmem, hband⟩
      obtain ⟨row, hrow, hread⟩ := mem_of_mapM hout hmem
      obtain ⟨band?', hread', hbands⟩ := readRow_of_not_broken (h row hrow)
      cases hread.symm.trans hread'
      exact ⟨row, hrow, (hbands band).mp hband⟩
    · rintro ⟨row, hrow, hband⟩
      obtain ⟨band?, hread, hbands⟩ := readRow_of_not_broken (h row hrow)
      obtain ⟨band?', hmem, hread'⟩ := mapM_mem hout hrow
      cases hread.symm.trans hread'
      exact ⟨_, hmem, (hbands band).mpr hband⟩

/-- One broken row and the rule is dropped. -/
theorem fetchMarketRule_of_broken {rows : Option (List MarketRuleRow)}
    (h : ∃ row ∈ rows.getD [], row.Broken) : ∃ e, fetchMarketRule (.ok rows) = .error e := by
  obtain ⟨row, hrow, hbroken⟩ := h
  obtain ⟨e, he⟩ := readRow_of_broken hbroken
  cases hfetch : fetchMarketRule (.ok rows) with
  | error e => exact ⟨e, rfl⟩
  | ok table =>
    obtain ⟨_, hrows, hfetch⟩ := bind_eq_ok_iff.mp hfetch
    cases hrows
    obtain ⟨out, hout, -⟩ := bind_eq_ok_iff.mp hfetch
    obtain ⟨band?, -, hread⟩ := mapM_mem hout hrow
    cases he.symm.trans hread

/-! ## The table of a contract -/

/-- The rows of the rule that is fetched for the contract; none if the fetch fails. -/
def fetchedRows (details : ContractDetails) (rules : MarketRules) : List MarketRuleRow :=
  match governingRuleId details with
  | none => []
  | some ruleId =>
      match rules ruleId with
      | .ok rows => rows.getD []
      | .error _ => []

/-- The governing exchange has a rule. -/
def HasGoverningRule (details : ContractDetails) : Prop :=
  ∃ rid ruleId, details.governingEntry = some rid ∧ intOfString rid = some ruleId

/-- The rule is asked for and the answer is an exception of the kind. -/
def FetchFails (kind : PyError → Bool) (details : ContractDetails) (rules : MarketRules) : Prop :=
  ∃ ruleId e, governingRuleId details = some ruleId ∧ rules ruleId = .error e ∧ kind e = true

/-- A rule that reads as a table is the table. -/
theorem incrementsFromDetails_of_table {details : ContractDetails} {rules : MarketRules}
    (h : ReadsAsTable (fetchedRows details rules)) :
    ∃ table, incrementsFromDetails details rules = .ok table ∧ table.Pairwise Below ∧
      ∀ band, band ∈ table ↔ ∃ row ∈ fetchedRows details rules, row.IsBand band := by
  obtain ⟨hunbroken, row, hrow, band, hband⟩ := h
  unfold incrementsFromDetails
  unfold fetchedRows at hunbroken hrow ⊢
  cases hrule : governingRuleId details with
  | none => simp [hrule] at hrow
  | some ruleId =>
    simp only [hrule] at hunbroken hrow ⊢
    cases hrows : rules ruleId with
    | error e => simp [hrows] at hrow
    | ok rows =>
      simp only [hrows] at hunbroken hrow ⊢
      obtain ⟨table, hfetch, hsorted, hmem⟩ := fetchMarketRule_of_unbroken hunbroken
      have hne : table ≠ [] := List.ne_nil_of_mem ((hmem band).mpr ⟨row, hrow, hband⟩)
      exact ⟨table, by simp [hfetch, hne], hsorted, hmem⟩

/-- Without such a rule the minimum tick decides. -/
theorem incrementsFromDetails_of_not_table {details : ContractDetails} {rules : MarketRules}
    (h : ¬ ReadsAsTable (fetchedRows details rules)) :
    incrementsFromDetails details rules = minTickBand details := by
  unfold incrementsFromDetails
  unfold fetchedRows at h
  cases hrule : governingRuleId details with
  | none => simp
  | some ruleId =>
    simp only [hrule] at h ⊢
    cases hrows : rules ruleId with
    | error e => simp [fetchMarketRule, bind, Except.bind]
    | ok rows =>
      simp only [hrows] at h
      by_cases hbroken : ∃ row ∈ rows.getD [], row.Broken
      · obtain ⟨e, he⟩ := fetchMarketRule_of_broken hbroken
        simp [he]
      · have hunbroken : ∀ row ∈ rows.getD [], ¬ row.Broken :=
          fun row hrow hb => hbroken ⟨row, hrow, hb⟩
        obtain ⟨table, hfetch, -, hmem⟩ := fetchMarketRule_of_unbroken hunbroken
        have hempty : table = [] := by
          rw [List.eq_nil_iff_forall_not_mem]
          intro band hband
          obtain ⟨row, hrow, hread⟩ := (hmem band).mp hband
          exact h ⟨hunbroken, row, hrow, band, hread⟩
        simp [hfetch, hempty]

/-- How the minimum tick decides. -/
theorem minTickBand_cases (details : ContractDetails) :
    (∃ minTick, safeDecimal details.minTick = some minTick ∧ minTick.isNan ∧
        minTickBand details = .error invalidOperation) ∨
      (∃ minTick band, safeDecimal details.minTick = some minTick ∧ Positive minTick ∧
        band.val = ⟨.finite 0, minTick⟩ ∧ minTickBand details = .ok [band]) ∨
      ((∀ minTick, safeDecimal details.minTick = some minTick →
          ¬ minTick.isNan ∧ ¬ Positive minTick) ∧
        ∃ text, minTickBand details = .error (.priceRuleUnavailable text)) := by
  unfold minTickBand
  cases htick : safeDecimal details.minTick with
  | none => exact .inr (.inr ⟨by simp, _, rfl⟩)
  | some minTick =>
    dsimp only
    rcases DecimalValue.comparison_cases (fun x y => decide (x < y)) (.finite 0) minTick with
      ⟨herror, hnan⟩ | ⟨x, y, hx, hy, hlt⟩
    · refine .inl ⟨minTick, rfl, by simpa using hnan, ?_⟩
      rw [DecimalValue.lt, herror]
      rfl
    · have hnan : ¬ minTick.isNan := by
        intro hn
        rw [DecimalValue.rank_eq_none_iff.mpr hn] at hy
        cases hy
      cases hb : decide (x < y) with
      | true =>
        replace hlt : DecimalValue.lt (.finite 0) minTick = .ok true := by
          rw [DecimalValue.lt, hlt, hb]
        have hpos : Positive minTick := positive_iff.mp hlt
        have hvalid : postInit (⟨.finite 0, minTick⟩ : Wire.PriceIncrementFields) = .ok () :=
          wirePriceIncrement_valid_iff.mpr ⟨hpos, le_refl (0 : Decimal)⟩
        refine .inr (.inl ⟨minTick, ⟨_, hvalid⟩, rfl, hpos, rfl, ?_⟩)
        rw [hlt]
        simp only [bind, Except.bind, if_true, Frozen.make_of_valid hvalid]
        rfl
      | false =>
        replace hlt : DecimalValue.lt (.finite 0) minTick = .ok false := by
          rw [DecimalValue.lt, hlt, hb]
        refine .inr (.inr ⟨?_, _, by rw [hlt]; rfl⟩)
        intro minTick' heq
        cases heq
        refine ⟨hnan, ?_⟩
        intro hpos
        rw [positive_iff.mpr hpos] at hlt
        cases hlt

/-! ## Calls -/

/-- The table is sorted, its increments are positive and it begins with a band from zero. -/
structure SoundTable (table : List Wire.PriceIncrement) : Prop where
  sorted : table.Pairwise Below
  positive : ∀ band ∈ table, Positive band.val.increment
  fromZero : ∃ band, table.head? = some band ∧ band.val.lowEdge = .finite 0

/-- The call returns a sound table, or raises `PriceRuleUnavailable` and leaves the cache alone. A
table that was fetched holds the valid rows of the rule of the governing exchange, and is not
cached if the fetch of the rule failed in a transient way. -/
def SoundCall (transient : PyError → Bool) (cache : PriceRuleCache) : PriceRuleCall → Prop
  | .clearCache _ => True
  | .incrementsFor instrument details rules =>
      match incrementsFor cache instrument (.ok details) rules with
      | (.ok table, cache') => SoundTable table ∧ (instrument ∉ cache →
          ∀ contract chosen, toContract instrument = .ok contract →
            chooseDetails contract details = some chosen →
            (HasGoverningRule chosen →
              ∀ row ∈ fetchedRows chosen rules, ∀ band, row.IsBand band → band ∈ table) ∧
            (FetchFails transient chosen rules → instrument ∉ cache'))
      | (.error (.priceRuleUnavailable _), cache') => cache' = cache
      | (.error _, _) => False

/-- A rule that reads as a table has a valid row from zero. Where the minimum tick decides instead,
it is not NaN, and if it is positive, the fetch of the rule did not fail in a transient way, and no
valid row of the rule of the governing exchange differs from the band it yields. -/
structure WellSourced (transient : PyError → Bool) (details : ContractDetails)
    (rules : MarketRules) : Prop where
  fromZero : ReadsAsTable (fetchedRows details rules) →
    ∃ row ∈ fetchedRows details rules, ∃ band, row.IsBand band ∧ band.val.lowEdge = .finite 0
  number : ¬ ReadsAsTable (fetchedRows details rules) →
    ∀ minTick, safeDecimal details.minTick = some minTick → ¬ minTick.isNan
  lasting : ¬ ReadsAsTable (fetchedRows details rules) →
    ∀ minTick, safeDecimal details.minTick = some minTick → Positive minTick →
      ¬ FetchFails transient details rules
  whole : ¬ ReadsAsTable (fetchedRows details rules) →
    ∀ minTick, safeDecimal details.minTick = some minTick → Positive minTick →
      HasGoverningRule details →
        ∀ row ∈ fetchedRows details rules, ∀ band, row.IsBand band →
          band.val = ⟨.finite 0, minTick⟩

/-- The table of the instrument is cached, or the instrument has a contract and the details that
are chosen, if there are any, are well sourced. -/
def CallSourced (transient : PyError → Bool) (cache : PriceRuleCache) : PriceRuleCall → Prop
  | .clearCache _ => True
  | .incrementsFor instrument details rules => instrument ∈ cache ∨
      ∃ contract, toContract instrument = .ok contract ∧
        ∀ chosen, chooseDetails contract details = some chosen →
          WellSourced transient chosen rules

/-- Every table of the cache is sound. -/
def PriceRuleCache.Sound (cache : PriceRuleCache) : Prop :=
  ∀ instrument table, cache.get? instrument = some table → SoundTable table

theorem toContract_error {instrument : Instrument} {e : PyError}
    (h : toContract instrument = .error e) : ∃ text, e = .instrumentNotResolvable text := by
  unfold toContract require orRaise at h
  split at h
  · cases hsec : assetClassToSecType instrument.val.assetClass with
    | none =>
      rw [hsec] at h
      cases h
      exact ⟨_, rfl⟩
    | some secType =>
      rw [hsec] at h
      cases hmic : micToIbExchange instrument.val.venue with
      | none =>
        rw [hmic] at h
        cases h
        exact ⟨_, rfl⟩
      | some exchange =>
        rw [hmic] at h
        cases h
  · cases h
    exact ⟨_, rfl⟩

/-- A sorted table is sound exactly when it has a band from zero. -/
theorem soundTable_iff {table : List Wire.PriceIncrement} (hsorted : table.Pairwise Below) :
    SoundTable table ↔ ∃ band ∈ table, band.val.lowEdge = .finite 0 := by
  constructor
  · rintro ⟨-, -, band, hhead, hzero⟩
    exact ⟨band, List.mem_of_mem_head? hhead, hzero⟩
  · rintro ⟨band, hband, hzero⟩
    refine ⟨hsorted, fun band _ => band.positive, ?_⟩
    cases table with
    | nil => cases hband
    | cons first rest =>
      refine ⟨first, rfl, ?_⟩
      rcases List.mem_cons.mp hband with rfl | hrest
      · exact hzero
      · have hbelow : Below first band := List.rel_of_pairwise_cons hsorted hrest
        rw [Below, hzero] at hbelow
        have hfirst := first.nonNegative
        cases hlow : first.val.lowEdge with
        | finite q =>
          rw [hlow] at hbelow hfirst
          simp only [DecimalValue.le_finite, Except.ok.injEq, decide_eq_true_eq] at hbelow
          rw [le_antisymm hbelow hfirst]
        | infinity negative =>
          rw [hlow] at hbelow hfirst
          cases hfirst
          simp only [DecimalValue.le, DecimalValue.comparison, DecimalValue.rank, Except.ok.injEq,
            decide_eq_true_eq, WithBot.coe_le_coe] at hbelow
          exact absurd (top_le_iff.mp hbelow) WithTop.coe_ne_top
        | nan signaling =>
          rw [hlow] at hfirst
          cases hfirst

section Calls

variable {transient : PyError → Bool} {cache : PriceRuleCache} {instrument : Instrument}
  {details : List ContractDetails} {rules : MarketRules}

/-- How a call ends whose table is not cached, in terms of the details that are chosen. -/
theorem incrementsFor_of_chosen {contract : Contract} {chosen : ContractDetails}
    (hnew : instrument ∉ cache) (hcontract : toContract instrument = .ok contract)
    (hchosen : chooseDetails contract details = some chosen) :
    incrementsFor cache instrument (.ok details) rules =
      match incrementsFromDetails chosen rules with
      | .ok table => (.ok table, cache.set instrument table)
      | .error e => (.error e, cache) := by
  have hfetch : fetchIncrements instrument (.ok details) rules =
      incrementsFromDetails chosen rules := by
    simp only [fetchIncrements, hcontract, bind, Except.bind, hchosen, orRaise]
  have hmissing := Dict.get?_eq_none_iff.mpr hnew
  cases htable : incrementsFromDetails chosen rules with
  | ok table => simp only [incrementsFor, hmissing, hfetch, htable]
  | error e => simp only [incrementsFor, hmissing, hfetch, htable]

/-- A call that returns has returned the table that is cached afterwards. -/
theorem incrementsFor_ok {table : List Wire.PriceIncrement} {cache' : PriceRuleCache}
    (h : incrementsFor cache instrument (.ok details) rules = (.ok table, cache')) :
    cache'.get? instrument = some table ∧
      ∀ other, other ≠ instrument → cache'.get? other = cache.get? other := by
  unfold incrementsFor at h
  split at h
  · rename_i cached hcached
    cases h
    exact ⟨hcached, fun other _ => rfl⟩
  · split at h
    · cases h
      refine ⟨by simp, ?_⟩
      intro other hne
      simp [hne]
    · cases h

theorem incrementsFor_error {e : PyError} {cache' : PriceRuleCache}
    (h : incrementsFor cache instrument (.ok details) rules = (.error e, cache')) :
    cache' = cache := by
  unfold incrementsFor at h
  split at h
  · cases h
  · split at h
    · cases h
    · cases h
      rfl

/-- What a sound call may lead to that found the details of its contract. -/
def SoundOutcome (transient : PyError → Bool) (chosen : ContractDetails) (rules : MarketRules) :
    Except PyError (List Wire.PriceIncrement) → Prop
  | .ok table => SoundTable table ∧
      (HasGoverningRule chosen →
        ∀ row ∈ fetchedRows chosen rules, ∀ band, row.IsBand band → band ∈ table) ∧
      ¬ FetchFails transient chosen rules
  | .error e => ∃ text, e = .priceRuleUnavailable text

theorem soundCall_of_chosen {contract : Contract} {chosen : ContractDetails}
    (hnew : instrument ∉ cache) (hcontract : toContract instrument = .ok contract)
    (hchosen : chooseDetails contract details = some chosen) :
    SoundCall transient cache (.incrementsFor instrument details rules) ↔
      SoundOutcome transient chosen rules (incrementsFromDetails chosen rules) := by
  simp only [SoundCall, incrementsFor_of_chosen hnew hcontract hchosen]
  cases incrementsFromDetails chosen rules with
  | ok table =>
    apply and_congr_right
    intro _
    constructor
    · intro h
      obtain ⟨hrows, hcached⟩ := h hnew contract chosen hcontract hchosen
      exact ⟨hrows, fun hfails => hcached hfails (by simp)⟩
    · rintro ⟨hrows, hfails⟩ - contract' chosen' hcontract' hchosen'
      cases hcontract.symm.trans hcontract'
      cases hchosen.symm.trans hchosen'
      exact ⟨hrows, fun h => absurd h hfails⟩
  | error e => cases e <;> simp [SoundOutcome]

theorem fetchedRows_of_fetchFails {chosen : ContractDetails}
    (h : FetchFails transient chosen rules) : fetchedRows chosen rules = [] := by
  obtain ⟨ruleId, e, hrule, hfails, -⟩ := h
  simp only [fetchedRows, hrule, hfails]

/-- The outcome is sound exactly when the details and the rule are well sourced. -/
theorem soundOutcome_iff (chosen : ContractDetails) :
    SoundOutcome transient chosen rules (incrementsFromDetails chosen rules) ↔
      WellSourced transient chosen rules := by
  by_cases htable : ReadsAsTable (fetchedRows chosen rules)
  · obtain ⟨table, hok, hsorted, hmem⟩ := incrementsFromDetails_of_table htable
    have hfetched : ¬ FetchFails transient chosen rules := by
      intro hfails
      obtain ⟨-, row, hrow, -⟩ := htable
      rw [fetchedRows_of_fetchFails hfails] at hrow
      cases hrow
    rw [hok]
    simp only [SoundOutcome, soundTable_iff hsorted, hmem]
    constructor
    · rintro ⟨⟨band, ⟨row, hrow, hband⟩, hzero⟩, -, -⟩
      exact ⟨fun _ => ⟨row, hrow, band, hband, hzero⟩, fun h => absurd htable h,
        fun h => absurd htable h, fun h => absurd htable h⟩
    · intro h
      obtain ⟨row, hrow, band, hband, hzero⟩ := h.fromZero htable
      exact ⟨⟨band, ⟨row, hrow, hband⟩, hzero⟩, fun _ row hrow band hband => ⟨row, hrow, hband⟩,
        hfetched⟩
  · rw [incrementsFromDetails_of_not_table htable]
    rcases minTickBand_cases chosen with
      ⟨minTick, htick, hnan, hband⟩ | ⟨minTick, band, htick, hpos, hval, hband⟩ |
        ⟨hnone, text, hband⟩
    · rw [hband]
      refine iff_of_false ?_ fun h => h.number htable minTick htick hnan
      rintro ⟨text, htext⟩
      cases htext
    · rw [hband]
      have hsound : SoundTable [band] :=
        (soundTable_iff (List.pairwise_singleton _ _)).mpr ⟨band, .head _, by rw [hval]⟩
      constructor
      · rintro ⟨-, hrows, hfails⟩
        refine ⟨fun h => absurd h htable, ?_, ?_, ?_⟩
        · intro _ minTick' htick' hnan
          cases htick.symm.trans htick'
          cases minTick <;> simp_all [Positive, DecimalValue.isNan]
        · intro _ _ _ _
          exact hfails
        · intro _ minTick' htick' _ hgoverns row hrow band' hband'
          cases htick.symm.trans htick'
          rw [List.mem_singleton.mp (hrows hgoverns row hrow band' hband'), hval]
      · intro h
        refine ⟨hsound, ?_, h.lasting htable minTick htick hpos⟩
        intro hgoverns row hrow band' hband'
        rw [List.mem_singleton]
        apply Frozen.ext
        rw [h.whole htable minTick htick hpos hgoverns row hrow band' hband', hval]
    · rw [hband]
      refine iff_of_true ⟨text, rfl⟩ ⟨fun h => absurd h htable, ?_, ?_, ?_⟩
      · intro _ minTick htick
        exact (hnone minTick htick).1
      · intro _ minTick htick hpos
        exact absurd hpos (hnone minTick htick).2
      · intro _ minTick htick hpos
        exact absurd hpos (hnone minTick htick).2

/-- A call is sound exactly when it is well sourced, if the tables of the cache are sound. -/
theorem soundCall_iff (hcache : cache.Sound) (call : PriceRuleCall) :
    SoundCall transient cache call ↔ CallSourced transient cache call := by
  cases call with
  | clearCache instrument => exact Iff.rfl
  | incrementsFor instrument details rules =>
    by_cases hcached : instrument ∈ cache
    · obtain ⟨table, htable⟩ := Dict.exists_get?_of_mem hcached
      refine iff_of_true ?_ (.inl hcached)
      simp only [SoundCall, incrementsFor, htable]
      exact ⟨hcache instrument table htable, fun hnew => absurd hcached hnew⟩
    · simp only [CallSourced, hcached, false_or]
      cases hcontract : toContract instrument with
      | error e =>
        obtain ⟨text, rfl⟩ := toContract_error hcontract
        have hcall : incrementsFor cache instrument (.ok details) rules =
            (.error (.instrumentNotResolvable text), cache) := by
          simp only [incrementsFor, Dict.get?_eq_none_iff.mpr hcached, fetchIncrements, hcontract,
            bind, Except.bind]
        exact iff_of_false (by simp [SoundCall, hcall]) (by simp)
      | ok contract =>
        simp only [Except.ok.injEq, exists_eq_left']
        cases hchosen : chooseDetails contract details with
        | none =>
          have hcall : ∃ text, incrementsFor cache instrument (.ok details) rules =
              (.error (.priceRuleUnavailable text), cache) := by
            simp only [incrementsFor, Dict.get?_eq_none_iff.mpr hcached, fetchIncrements,
              hcontract, bind, Except.bind, hchosen, orRaise]
            exact ⟨_, rfl⟩
          obtain ⟨text, hcall⟩ := hcall
          exact iff_of_true (by simp [SoundCall, hcall]) (by simp)
        | some chosen =>
          rw [soundCall_of_chosen hcached hcontract hchosen, soundOutcome_iff]
          simp

/-- A sound call leaves sound tables in the cache. -/
theorem PriceRuleCache.Sound.step {call : PriceRuleCall} {cache' : PriceRuleCache}
    (hcache : cache.Sound) (hcall : SoundCall transient cache call)
    (h : PriceRuleCache.step cache call = some cache') : cache'.Sound := by
  cases call with
  | clearCache instrument =>
    cases h
    intro other table hother
    cases instrument with
    | none => cases hother
    | some instrument =>
      simp only [clearCache, Dict.get?_erase] at hother
      split at hother
      · cases hother
      · exact hcache other table hother
  | incrementsFor instrument details rules =>
    simp only [PriceRuleCache.step, Option.some_inj] at h
    intro other table hother
    simp only [SoundCall] at hcall
    cases hends : incrementsFor cache instrument (.ok details) rules with
    | mk result cache'' =>
      rw [hends] at h hcall
      cases h
      cases result with
      | error e =>
        rw [incrementsFor_error hends] at hother
        exact hcache other table hother
      | ok table' =>
        obtain ⟨hget, hothers⟩ := incrementsFor_ok hends
        by_cases hinst : other = instrument
        · subst hinst
          cases hget.symm.trans hother
          exact hcall.1
        · rw [hothers other hinst] at hother
          exact hcache other table hother

/-- In any sequence of calls, from an empty cache, all calls are sound exactly when all of them are
well sourced. -/
theorem soundCalls_iff (transient : PyError → Bool) (calls : List PriceRuleCall) :
    Along PriceRuleCache.step (SoundCall transient) Dict.empty calls ↔
      Along PriceRuleCache.step (CallSourced transient) Dict.empty calls := by
  have hempty : PriceRuleCache.Sound Dict.empty := fun instrument table h => by cases h
  exact along_congr_of_kept (I := PriceRuleCache.Sound)
    (fun cache call cache' hcache hcall => hcache.step hcall)
    (fun cache call hcache => soundCall_iff hcache call) hempty

end Calls

/-- The request for the rule times out. -/
def timeoutCall : PriceRuleCall :=
  .incrementsFor sampleInstrument [sampleDetails] fun _ => .error (.other "TimeoutError")

theorem not_soundCalls :
    ¬ ∀ (transient : PyError → Bool) (calls : List PriceRuleCall),
      Along PriceRuleCache.step (SoundCall transient) Dict.empty calls := by
  intro h
  have hempty : PriceRuleCache.Sound Dict.empty := fun instrument table h => by cases h
  obtain ⟨hcall, -⟩ := h (fun e => e = .other "TimeoutError") [timeoutCall]
  obtain hcached | ⟨contract, hcontract, hsourced⟩ := (soundCall_iff hempty timeoutCall).mp hcall
  · cases hcached
  · have hcac : toContract sampleInstrument = .ok ⟨"CAC", "STK", "EUR", "SBF", "", none⟩ := by
      decide +kernel
    cases hcac.symm.trans hcontract
    have hchosen := hsourced sampleDetails rfl
    have hfails : FetchFails (fun e => e = .other "TimeoutError") sampleDetails
        (fun _ => .error (.other "TimeoutError")) :=
      ⟨32, _, by decide +kernel, rfl, by decide⟩
    refine hchosen.lasting ?_ (.finite (1 / 100)) (by decide +kernel) ?_ hfails
    · rintro ⟨-, row, hrow, -⟩
      rw [fetchedRows_of_fetchFails hfails] at hrow
      cases hrow
    · show (0 : Decimal) < 1 / 100
      decide +kernel

end Blive
