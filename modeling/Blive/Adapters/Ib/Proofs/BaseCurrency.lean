import Blive.Adapters.Ib.Account

/-!
# The inference of the base currency

Three scans of the cache, each in the order of its rows: for an explicit currency, for a unit
exchange rate, for the largest net liquidation value. `Inferred` says what they can come to for the
values alone; `Untied` holds where that is one thing only.
-/

namespace Blive

open DecimalValue

/-- The last value pushed for each currency and tag. -/
abbrev Latest := String × String → Option String

namespace Latest

/-- The code is that of an `AccountCurrency` row. -/
def Explicit (latest : Latest) (code : String) : Prop :=
  code ≠ "" ∧ ∃ ccy, latest (ccy, tagAccountCurrency) = some code

/-- The currency has a unit exchange rate. -/
def UnitRate (latest : Latest) (ccy : String) : Prop :=
  (ccy ≠ "" ∧ ccy ≠ "BASE") ∧
    ∃ text, latest (ccy, tagExchangeRate) = some text ∧ ofString text = .ok (.finite 1)

/-- The currency has a net liquidation value. -/
def NetLiquidation (latest : Latest) (ccy : String) (equity : DecimalValue) : Prop :=
  (ccy ≠ "" ∧ ccy ≠ "BASE") ∧
    ∃ text, latest (ccy, tagNetLiquidation) = some text ∧ ofString text = .ok equity

/-- The currency has the largest net liquidation value, and none of the values is NaN. -/
def Largest (latest : Latest) (ccy : String) : Prop :=
  ∃ equity x, latest.NetLiquidation ccy equity ∧ equity.rank = some x ∧ ⊥ < x ∧
    ∀ other equity', latest.NetLiquidation other equity' → ∃ x', equity'.rank = some x' ∧ x' ≤ x

/-- What the inference of the base currency can come to, whatever the order of the rows. -/
inductive Inferred (latest : Latest) : Except PyError String → Prop
  | explicit (code : String) (h : latest.Explicit code) : Inferred latest (.ok code)
  | unitRate (ccy : String) (hexplicit : ∀ code, ¬ latest.Explicit code)
      (h : latest.UnitRate ccy) : Inferred latest (.ok ccy)
  | nan (ccy : String) (equity : DecimalValue) (hexplicit : ∀ code, ¬ latest.Explicit code)
      (hunit : ∀ ccy, ¬ latest.UnitRate ccy) (h : latest.NetLiquidation ccy equity)
      (hnan : equity.isNan = true) : Inferred latest (.error invalidOperation)
  | largest (ccy : String) (hexplicit : ∀ code, ¬ latest.Explicit code)
      (hunit : ∀ ccy, ¬ latest.UnitRate ccy) (h : latest.Largest ccy) : Inferred latest (.ok ccy)
  | fallback (hexplicit : ∀ code, ¬ latest.Explicit code)
      (hunit : ∀ ccy, ¬ latest.UnitRate ccy)
      (h : ∀ ccy equity, latest.NetLiquidation ccy equity → equity = .infinity true) :
      Inferred latest (.ok "USD")

/-- No two rows tie for the base currency at the stage that decides it. -/
structure Untied (latest : Latest) : Prop where
  explicit : ∀ c c', latest.Explicit c → latest.Explicit c' → c = c'
  unitRate : (∀ code, ¬ latest.Explicit code) →
    ∀ c c', latest.UnitRate c → latest.UnitRate c' → c = c'
  largest : (∀ code, ¬ latest.Explicit code) → (∀ ccy, ¬ latest.UnitRate ccy) →
    ∀ c c', latest.Largest c → latest.Largest c' → c = c'

variable {latest : Latest}

theorem Largest.not_nan {ccy : String} (h : latest.Largest ccy) {other : String}
    {equity : DecimalValue} (hrow : latest.NetLiquidation other equity) : equity.isNan = false := by
  obtain ⟨_, _, _, _, _, hall⟩ := h
  obtain ⟨x, hx, -⟩ := hall other equity hrow
  by_contra hnan
  rw [rank_eq_none_iff.mpr (by simpa using hnan)] at hx
  cases hx

theorem not_largest_of_infinity
    (hall : ∀ ccy equity, latest.NetLiquidation ccy equity → equity = .infinity true)
    (ccy : String) : ¬ latest.Largest ccy := by
  rintro ⟨equity, x, hrow, hrank, hpos, -⟩
  rw [hall ccy equity hrow] at hrank
  cases hrank
  exact lt_irrefl _ hpos

theorem Untied.of_no_largest (hexplicit : ∀ code, ¬ latest.Explicit code)
    (hunit : ∀ ccy, ¬ latest.UnitRate ccy) (h : ∀ ccy, ¬ latest.Largest ccy) : latest.Untied where
  explicit c _ hc _ := absurd hc (hexplicit c)
  unitRate _ c _ hc _ := absurd hc (hunit c)
  largest _ _ c _ hc _ := absurd hc (h c)

/-- Where no rows tie the inference can come to one thing only. -/
theorem Inferred.unique {r r' : Except PyError String} (huntied : Untied latest)
    (h : Inferred latest r) (h' : Inferred latest r') : r = r' := by
  cases h with
  | explicit code hcode =>
    cases h' with
    | explicit code' hcode' => rw [huntied.explicit code code' hcode hcode']
    | unitRate _ hnone _ => exact absurd hcode (hnone code)
    | nan _ _ hnone _ _ _ => exact absurd hcode (hnone code)
    | largest _ hnone _ _ => exact absurd hcode (hnone code)
    | fallback hnone _ _ => exact absurd hcode (hnone code)
  | unitRate ccy hexplicit hunit =>
    cases h' with
    | explicit code hcode => exact absurd hcode (hexplicit code)
    | unitRate ccy' _ hunit' => rw [huntied.unitRate hexplicit ccy ccy' hunit hunit']
    | nan _ _ _ hnone _ _ => exact absurd hunit (hnone ccy)
    | largest _ _ hnone _ => exact absurd hunit (hnone ccy)
    | fallback _ hnone _ => exact absurd hunit (hnone ccy)
  | nan ccy equity hexplicit hunit hrow hnan =>
    cases h' with
    | explicit code hcode => exact absurd hcode (hexplicit code)
    | unitRate ccy' _ hccy => exact absurd hccy (hunit ccy')
    | nan _ _ _ _ _ _ => rfl
    | largest ccy' _ _ hlargest =>
      rw [hlargest.not_nan hrow] at hnan
      cases hnan
    | fallback _ _ hall =>
      rw [hall ccy equity hrow] at hnan
      cases hnan
  | largest ccy hexplicit hunit hlargest =>
    cases h' with
    | explicit code hcode => exact absurd hcode (hexplicit code)
    | unitRate ccy' _ hccy => exact absurd hccy (hunit ccy')
    | nan ccy' equity _ _ hrow hnan =>
      rw [hlargest.not_nan hrow] at hnan
      cases hnan
    | largest ccy' _ _ hlargest' =>
      rw [huntied.largest hexplicit hunit ccy ccy' hlargest hlargest']
    | fallback _ _ hall => exact absurd hlargest (not_largest_of_infinity hall ccy)
  | fallback hexplicit hunit hall =>
    cases h' with
    | explicit code hcode => exact absurd hcode (hexplicit code)
    | unitRate ccy _ hccy => exact absurd hccy (hunit ccy)
    | nan ccy equity _ _ hrow hnan =>
      rw [hall ccy equity hrow] at hnan
      cases hnan
    | largest ccy _ _ hlargest => exact absurd hlargest (not_largest_of_infinity hall ccy)
    | fallback _ _ _ => rfl

end Latest

namespace AccountValues

/-! ## The scans -/

theorem attempt_ofString (text : String) :
    attempt isNotDecimal (ofString text) = .ok (ofString text).toOption := by
  apply attempt_of_caught
  intro e he
  rw [ofString_error he]
  rfl

theorem attempt_isUnitRate (text : String) : ∃ answer,
    attempt isNotDecimal (isUnitRate text) = .ok answer ∧
      (answer = some true ↔ ofString text = .ok (.finite 1)) := by
  unfold isUnitRate
  cases hread : ofString text with
  | error e =>
    cases ofString_error hread
    exact ⟨none, rfl, by simp⟩
  | ok rate =>
    cases rate with
    | finite q => exact ⟨some (decide (q = 1)), by simp [bind, Except.bind, attempt], by simp⟩
    | infinity negative => exact ⟨some false, rfl, by simp⟩
    | nan signaling => cases signaling <;> exact ⟨_, rfl, by simp⟩

theorem accountCurrency_cases (rows : List AccountRow) :
    (accountCurrency rows = none ∧
      ∀ row ∈ rows, ¬ (row.tag = tagAccountCurrency ∧ row.value ≠ "")) ∨
    ∃ row ∈ rows, accountCurrency rows = some row.value ∧ row.tag = tagAccountCurrency ∧
      row.value ≠ "" := by
  induction rows with
  | nil => exact .inl ⟨rfl, by simp⟩
  | cons row rest ih =>
    unfold accountCurrency
    by_cases hrow : row.tag = tagAccountCurrency ∧ row.value ≠ ""
    · rw [if_pos hrow]
      exact .inr ⟨row, .head _, rfl, hrow⟩
    · rw [if_neg hrow]
      rcases ih with ⟨hnone, hall⟩ | ⟨found, hfound, heq, hcode⟩
      · exact .inl ⟨hnone, List.forall_mem_cons.mpr ⟨hrow, hall⟩⟩
      · exact .inr ⟨found, .tail _ hfound, heq, hcode⟩

/-- The row gives its currency a unit exchange rate. -/
def UnitRow (row : AccountRow) : Prop :=
  row.tag = tagExchangeRate ∧ row.isSleeve ∧ ofString row.value = .ok (.finite 1)

theorem unitRateCurrency_cons (row : AccountRow) (rest : List AccountRow) :
    (UnitRow row ∧ unitRateCurrency (row :: rest) = .ok (some row.ccy)) ∨
      (¬ UnitRow row ∧ unitRateCurrency (row :: rest) = unitRateCurrency rest) := by
  by_cases hother : row.tag ≠ tagExchangeRate ∨ ¬ row.isSleeve
  · refine .inr ⟨?_, by rw [unitRateCurrency, if_pos hother]⟩
    rintro ⟨htag, hsleeve, -⟩
    exact hother.elim (fun h => h htag) (fun h => h hsleeve)
  · obtain ⟨answer, hanswer, hunit⟩ := attempt_isUnitRate row.value
    have hstep : unitRateCurrency (row :: rest) =
        if answer = some true then .ok (some row.ccy) else unitRateCurrency rest := by
      rw [unitRateCurrency, if_neg hother, hanswer]
      rfl
    simp only [ne_eq, not_or, not_not] at hother
    by_cases hyes : answer = some true
    · exact .inl ⟨⟨hother.1, hother.2, hunit.mp hyes⟩, by rw [hstep, if_pos hyes]⟩
    · exact .inr ⟨fun h => hyes (hunit.mpr h.2.2), by rw [hstep, if_neg hyes]⟩

theorem unitRateCurrency_cases (rows : List AccountRow) :
    (unitRateCurrency rows = .ok none ∧ ∀ row ∈ rows, ¬ UnitRow row) ∨
      ∃ row ∈ rows, unitRateCurrency rows = .ok (some row.ccy) ∧ UnitRow row := by
  induction rows with
  | nil => exact .inl ⟨rfl, by simp⟩
  | cons row rest ih =>
    rcases unitRateCurrency_cons row rest with ⟨hrow, heq⟩ | ⟨hrow, heq⟩
    · exact .inr ⟨row, .head _, heq, hrow⟩
    · rcases ih with ⟨hnone, hall⟩ | ⟨found, hfound, hsome, hunit⟩
      · exact .inl ⟨heq.trans hnone, List.forall_mem_cons.mpr ⟨hrow, hall⟩⟩
      · exact .inr ⟨found, .tail _ hfound, heq.trans hsome, hunit⟩

/-- The row gives its currency a net liquidation value. -/
def EquityRow (row : AccountRow) (equity : DecimalValue) : Prop :=
  row.tag = tagNetLiquidation ∧ row.isSleeve ∧ ofString row.value = .ok equity

/-- One turn of the search keeps the best value, takes a larger one or raises on a NaN. -/
theorem largerNetLiquidation_cases (best : String × DecimalValue) (row : AccountRow) :
    ((∀ equity, ¬ EquityRow row equity) ∧ largerNetLiquidation best row = .ok best) ∨
      ∃ equity, EquityRow row equity ∧ largerNetLiquidation best row =
        best.2.lt equity >>= fun larger => .ok (if larger then (row.ccy, equity) else best) := by
  unfold largerNetLiquidation
  by_cases hother : row.tag ≠ tagNetLiquidation ∨ ¬ row.isSleeve
  · refine .inl ⟨?_, by rw [if_pos hother]⟩
    rintro equity ⟨htag, hsleeve, -⟩
    exact hother.elim (fun h => h htag) (fun h => h hsleeve)
  · rw [if_neg hother, attempt_ofString]
    simp only [ne_eq, not_or, not_not] at hother
    cases hread : ofString row.value with
    | error e =>
      refine .inl ⟨?_, rfl⟩
      rintro equity ⟨-, -, hequity⟩
      cases hread.symm.trans hequity
    | ok equity =>
      refine .inr ⟨equity, ⟨hother.1, hother.2, hread⟩, ?_⟩
      simp only [Except.toOption, bind, Except.bind]
      cases best.2.lt equity with
      | error e => rfl
      | ok larger => cases larger <;> rfl

/-- A turn at a number ends at the larger of the two values. -/
theorem largerNetLiquidation_number {best : String × DecimalValue} {row : AccountRow}
    {equity : DecimalValue} {x e : WithBot (WithTop Decimal)} (hx : best.2.rank = some x)
    (he : equity.rank = some e)
    (hstep : largerNetLiquidation best row =
      best.2.lt equity >>= fun larger => .ok (if larger then (row.ccy, equity) else best)) :
    ∃ best' x', largerNetLiquidation best row = .ok best' ∧ best'.2.rank = some x' ∧ x ≤ x' ∧
      e ≤ x' ∧ (best' = best ∨ x < x' ∧ best' = (row.ccy, equity)) := by
  have hlt : best.2.lt equity = .ok (decide (x < e)) := by
    simp [DecimalValue.lt, comparison, hx, he]
  rw [hlt] at hstep
  by_cases hlarger : x < e
  · refine ⟨(row.ccy, equity), e, ?_, he, hlarger.le, le_rfl, .inr ⟨hlarger, rfl⟩⟩
    simpa [hlarger, bind, Except.bind] using hstep
  · refine ⟨best, x, ?_, hx, le_rfl, not_lt.mp hlarger, .inl rfl⟩
    simpa [hlarger, bind, Except.bind] using hstep

/-- The search from a value that is a number: it raises where a row is NaN, and else ends with a
value that is at least as large as the first and all of the rows. It keeps the first where none
is larger. -/
theorem foldlM_larger_cases (rows : List AccountRow) (best : String × DecimalValue)
    {x : WithBot (WithTop Decimal)} (hx : best.2.rank = some x) :
    (rows.foldlM largerNetLiquidation best = .error invalidOperation ∧
        ∃ row ∈ rows, ∃ equity, EquityRow row equity ∧ equity.isNan = true) ∨
      ∃ last y, rows.foldlM largerNetLiquidation best = .ok last ∧ last.2.rank = some y ∧ x ≤ y ∧
        (last = best ∨ x < y ∧ ∃ row ∈ rows, row.ccy = last.1 ∧ EquityRow row last.2) ∧
        ∀ row ∈ rows, ∀ equity, EquityRow row equity → ∃ z, equity.rank = some z ∧ z ≤ y := by
  induction rows generalizing best x with
  | nil => exact .inr ⟨best, x, rfl, hx, le_rfl, .inl rfl, by simp⟩
  | cons row rest ih =>
    rw [List.foldlM_cons]
    rcases largerNetLiquidation_cases best row with ⟨hnone, hstep⟩ | ⟨equity, hrow, hstep⟩
    · rw [hstep]
      rcases ih best hx with ⟨herror, bad, hbad, hnan⟩ | ⟨last, y, hlast, hy, hle, hfrom, hall⟩
      · exact .inl ⟨herror, bad, .tail _ hbad, hnan⟩
      · refine .inr ⟨last, y, hlast, hy, hle, hfrom.imp_right (And.imp_right ?_), ?_⟩
        · rintro ⟨found, hfound, hequity⟩
          exact ⟨found, .tail _ hfound, hequity⟩
        · exact List.forall_mem_cons.mpr ⟨fun equity h => absurd h (hnone equity), hall⟩
    · cases he : equity.rank with
      | none =>
        refine .inl ⟨?_, row, .head _, equity, hrow, rank_eq_none_iff.mp he⟩
        have hraises : best.2.lt equity = .error invalidOperation := by
          simp [DecimalValue.lt, comparison, hx, he]
        rw [hstep, hraises]
        rfl
      | some e =>
        obtain ⟨best', x', hnext, hx', hxx', hex', hbest'⟩ :=
          largerNetLiquidation_number hx he hstep
        rw [hnext]
        rcases ih best' hx' with
          ⟨herror, bad, hbad, hnan⟩ | ⟨last, y, hlast, hy, hle, hfrom, hall⟩
        · exact .inl ⟨herror, bad, .tail _ hbad, hnan⟩
        refine .inr ⟨last, y, hlast, hy, hxx'.trans hle, ?_, List.forall_mem_cons.mpr ⟨?_, hall⟩⟩
        · rcases hfrom with rfl | ⟨hlt, found, hfound, hequity⟩
          · cases hx'.symm.trans hy
            refine hbest'.imp_right ?_
            rintro ⟨hlt, rfl⟩
            exact ⟨hlt, row, .head _, rfl, hrow⟩
          · exact .inr ⟨hxx'.trans_lt hlt, found, .tail _ hfound, hequity⟩
        · intro other hother
          have heq : other = equity := by
            have hread := hother.2.2.symm.trans hrow.2.2
            cases hread
            rfl
          rw [heq]
          exact ⟨e, he, hex'.trans hle⟩

/-! ## What the inference comes to -/

section Inference

variable {values : AccountValues}

theorem explicit_iff {code : String} : Latest.Explicit values.get? code ↔
    ∃ row : AccountRow, row ∈ values.items ∧
      row.tag = tagAccountCurrency ∧ row.value ≠ "" ∧ row.value = code := by
  constructor
  · rintro ⟨hcode, ccy, hrow⟩
    exact ⟨((ccy, tagAccountCurrency), code), Dict.get?_eq_some_iff.mp hrow, rfl, hcode, rfl⟩
  · rintro ⟨⟨⟨ccy, tag⟩, value⟩, hrow, rfl, hcode, rfl⟩
    exact ⟨hcode, ccy, Dict.get?_eq_some_iff.mpr hrow⟩

theorem unitRate_iff {ccy : String} : Latest.UnitRate values.get? ccy ↔
    ∃ row : AccountRow, row ∈ values.items ∧ UnitRow row ∧ row.ccy = ccy := by
  constructor
  · rintro ⟨hsleeve, text, hrow, hunit⟩
    exact ⟨((ccy, tagExchangeRate), text), Dict.get?_eq_some_iff.mp hrow, ⟨rfl, hsleeve, hunit⟩,
      rfl⟩
  · rintro ⟨⟨⟨ccy, tag⟩, value⟩, hrow, ⟨rfl, hsleeve, hunit⟩, rfl⟩
    exact ⟨hsleeve, value, Dict.get?_eq_some_iff.mpr hrow, hunit⟩

theorem netLiquidation_iff {ccy : String} {equity : DecimalValue} :
    Latest.NetLiquidation values.get? ccy equity ↔
      ∃ row : AccountRow, row ∈ values.items ∧ EquityRow row equity ∧ row.ccy = ccy := by
  constructor
  · rintro ⟨hsleeve, text, hrow, hequity⟩
    exact ⟨((ccy, tagNetLiquidation), text), Dict.get?_eq_some_iff.mp hrow,
      ⟨rfl, hsleeve, hequity⟩, rfl⟩
  · rintro ⟨⟨⟨ccy, tag⟩, value⟩, hrow, ⟨rfl, hsleeve, hequity⟩, rfl⟩
    exact ⟨hsleeve, value, Dict.get?_eq_some_iff.mpr hrow, hequity⟩

theorem eq_infinity_of_rank {d : DecimalValue} (h : d.rank = some ⊥) : d = .infinity true := by
  cases d with
  | finite q => simp [rank] at h
  | infinity negative => cases negative <;> simp_all [rank]
  | nan signaling => cases h

/-- The inference comes to one of the things it can come to. -/
theorem inferBaseCurrency_inferred (values : AccountValues) :
    Latest.Inferred values.get? values.inferBaseCurrency := by
  unfold inferBaseCurrency
  rcases accountCurrency_cases values.items with ⟨hnone, hall⟩ | ⟨row, hrow, heq, htag, hcode⟩
  swap
  · rw [heq]
    exact .explicit row.value (explicit_iff.mpr ⟨row, hrow, htag, hcode, rfl⟩)
  rw [hnone]
  have hexplicit (code : String) : ¬ Latest.Explicit values.get? code := by
    intro h
    obtain ⟨row, hrow, htag, hcode, -⟩ := explicit_iff.mp h
    exact hall row hrow ⟨htag, hcode⟩
  rcases unitRateCurrency_cases values.items with ⟨hrates, hall⟩ | ⟨row, hrow, heq, hunit⟩
  swap
  · rw [heq]
    exact .unitRate row.ccy hexplicit (unitRate_iff.mpr ⟨row, hrow, hunit, rfl⟩)
  rw [hrates]
  have hunit (ccy : String) : ¬ Latest.UnitRate values.get? ccy := by
    intro h
    obtain ⟨row, hrow, hunit, -⟩ := unitRate_iff.mp h
    exact hall row hrow hunit
  rcases foldlM_larger_cases values.items ("", .infinity true) rfl with
    ⟨herror, row, hrow, equity, hequity, hnan⟩ | ⟨last, y, hlast, hy, -, hfrom, hmax⟩
  · simp only [bind, Except.bind, herror]
    exact .nan row.ccy equity hexplicit hunit
      (netLiquidation_iff.mpr ⟨row, hrow, hequity, rfl⟩) hnan
  simp only [bind, Except.bind, hlast]
  rcases hfrom with rfl | ⟨hlt, row, hrow, hccy, hequity⟩
  · rw [if_neg (by simp)]
    refine .fallback hexplicit hunit ?_
    intro ccy equity h
    obtain ⟨row, hrow, hequity, -⟩ := netLiquidation_iff.mp h
    obtain ⟨z, hz, hle⟩ := hmax row hrow equity hequity
    cases hy
    rw [le_bot_iff.mp hle] at hz
    exact eq_infinity_of_rank hz
  · rw [if_pos (by rw [← hccy]; exact hequity.2.1.1)]
    refine .largest last.1 hexplicit hunit ⟨last.2, y, ?_, hy, hlt, ?_⟩
    · exact netLiquidation_iff.mpr ⟨row, hrow, hequity, hccy⟩
    · intro other equity h
      obtain ⟨row, hrow, hequity, -⟩ := netLiquidation_iff.mp h
      exact hmax row hrow equity hequity

end Inference

end AccountValues

end Blive
