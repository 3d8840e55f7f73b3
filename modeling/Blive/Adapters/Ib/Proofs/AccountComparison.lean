import Mathlib.Data.List.Dedup
import Blive.Adapters.Ib.Proofs.AccountSnapshot

/-!
# Two account snapshots

What the comparisons of a tick come to, in the order they are made: snapshots are `Close` where no
value moved, and a comparison raises where two values have no difference. The second part says for
which values the snapshot builds at all.
-/

namespace Blive

open DecimalValue

/-! ## Comparisons -/

/-- The values are numbers less than the threshold apart. -/
def Near (threshold : Decimal) : DecimalValue → DecimalValue → Prop
  | .finite x, .finite y => |x - y| < threshold
  | _, _ => False

/-- The values have a difference: a number in range or an infinity. -/
def Comparable : DecimalValue → DecimalValue → Prop
  | .finite x, .finite y => ¬ Overflows (x - y)
  | .finite _, .infinity _ => True
  | .infinity _, .finite _ => True
  | .infinity negative, .infinity negative' => negative ≠ negative'
  | _, _ => False

theorem two_le_mul_pow (n : Nat) : 2 ≤ (2 * 10 ^ 28 - 1) * 10 ^ n :=
  calc 2 ≤ (2 * 10 ^ 28 - 1) * 1 := by norm_num
    _ ≤ (2 * 10 ^ 28 - 1) * 10 ^ n := Nat.mul_le_mul_left _ (Nat.one_le_pow _ _ (by norm_num))

theorem not_overflows_of_lt_one {q : Decimal} (h : |q| < 1) : ¬ Overflows q := by
  have hbound : 2 ≤ overflowBound := two_le_mul_pow 999972
  have hcast : (2 : Decimal) ≤ (overflowBound : Decimal) := by exact_mod_cast hbound
  rw [overflows_iff]
  intro hover
  linarith

section Moved

variable {threshold : Decimal} {a b : DecimalValue}

theorem moved_finite (x y : Decimal) : moved threshold (.finite x) (.finite y) =
    if Overflows (x - y) then .error decimalOverflow else .ok (decide (threshold ≤ |x - y|)) := by
  have habs : Overflows |x - y| ↔ Overflows (x - y) := by
    rw [overflows_iff, overflows_iff, abs_abs]
  unfold moved
  by_cases h : Overflows (x - y)
  · simp [sub, rounded, h, bind, Except.bind]
  · simp [sub, DecimalValue.abs, rounded, h, habs, bind, Except.bind]

/-- Values that are not both numbers: an infinite difference has moved, any other raises. -/
theorem moved_not_finite (h : ∀ x y, ¬ (a = .finite x ∧ b = .finite y)) :
    (Comparable a b ∧ moved threshold a b = .ok true) ∨
      (¬ Comparable a b ∧ moved threshold a b = .error invalidOperation) := by
  have hraises (signaling : Bool) (hsub : a.sub b = propagate signaling) :
      moved threshold a b = .error invalidOperation := by
    rw [moved, hsub]
    cases signaling <;> rfl
  cases a with
  | finite x =>
    cases b with
    | finite y => exact absurd ⟨rfl, rfl⟩ (h x y)
    | infinity negative => exact .inl ⟨trivial, rfl⟩
    | nan signaling => exact .inr ⟨not_false, hraises signaling rfl⟩
  | infinity negative =>
    cases b with
    | finite y => exact .inl ⟨trivial, rfl⟩
    | infinity negative' =>
      by_cases heq : negative = negative'
      · refine .inr ⟨fun hne => hne heq, ?_⟩
        rw [moved, sub, if_pos heq]
        rfl
      · refine .inl ⟨heq, ?_⟩
        rw [moved, sub, if_neg heq]
        rfl
    | nan signaling => exact .inr ⟨not_false, hraises signaling rfl⟩
  | nan signaling =>
    cases b with
    | finite y => exact .inr ⟨not_false, hraises signaling rfl⟩
    | infinity negative => exact .inr ⟨not_false, hraises signaling rfl⟩
    | nan signaling' => exact .inr ⟨not_false, hraises (signaling || signaling') rfl⟩

theorem moved_cases (hthreshold : threshold ≤ 1) :
    (Near threshold a b ∧ Comparable a b ∧ moved threshold a b = .ok false) ∨
      (¬ Near threshold a b ∧ Comparable a b ∧ moved threshold a b = .ok true) ∨
      (¬ Near threshold a b ∧ ¬ Comparable a b ∧ ∃ e, moved threshold a b = .error e) := by
  by_cases hfinite : ∃ x y, a = .finite x ∧ b = .finite y
  · obtain ⟨x, y, rfl, rfl⟩ := hfinite
    rw [moved_finite]
    by_cases hnear : |x - y| < threshold
    · have hrange := not_overflows_of_lt_one (hnear.trans_le hthreshold)
      exact .inl ⟨hnear, hrange, by rw [if_neg hrange, decide_eq_false (not_le.mpr hnear)]⟩
    · by_cases hover : Overflows (x - y)
      · exact .inr (.inr ⟨hnear, fun h => h hover, _, if_pos hover⟩)
      · refine .inr (.inl ⟨hnear, hover, ?_⟩)
        rw [if_neg hover, decide_eq_true (not_lt.mp hnear)]
  · have hnear : ¬ Near threshold a b := by
      cases a <;> cases b <;> simp_all [Near]
    rcases moved_not_finite (fun x y h => hfinite ⟨x, y, h⟩) with ⟨hc, hmoved⟩ | ⟨hc, hmoved⟩
    · exact .inr (.inl ⟨hnear, hc, hmoved⟩)
    · exact .inr (.inr ⟨hnear, hc, _, hmoved⟩)

end Moved

/-- Every value has a difference with its last one, up to the first that moved. -/
def Comparables : List Comparison → Prop
  | [] => True
  | c :: rest =>
      Comparable c.current c.last ∧ (Near c.threshold c.current c.last → Comparables rest)

theorem anyMoved_cases {cs : List Comparison} (hthreshold : ∀ c ∈ cs, c.threshold ≤ 1) :
    (Comparables cs ∧ ((anyMoved cs = .ok false ∧ ∀ c ∈ cs, Near c.threshold c.current c.last) ∨
        (anyMoved cs = .ok true ∧ ∃ c ∈ cs, ¬ Near c.threshold c.current c.last))) ∨
      (¬ Comparables cs ∧ ∃ e, anyMoved cs = .error e) := by
  induction cs with
  | nil => exact .inl ⟨trivial, .inl ⟨rfl, by simp⟩⟩
  | cons c rest ih =>
    obtain ⟨hc, hrest⟩ := List.forall_mem_cons.mp hthreshold
    unfold anyMoved
    rcases moved_cases (a := c.current) (b := c.last) hc with
      ⟨hnear, hcomparable, hmoved⟩ | ⟨hfar, hcomparable, hmoved⟩ | ⟨hfar, hnot, e, hmoved⟩
    · have hskip : orElse (moved c.threshold c.current c.last) (anyMoved rest) = anyMoved rest := by
        rw [hmoved]
        rfl
      rw [hskip]
      rcases ih hrest with ⟨hall, ⟨hsame, hclose⟩ | ⟨hmoves, far, hfar, hnotnear⟩⟩ | ⟨hnot, e, he⟩
      · exact .inl ⟨⟨hcomparable, fun _ => hall⟩, .inl ⟨hsame, List.forall_mem_cons.mpr
          ⟨hnear, hclose⟩⟩⟩
      · exact .inl ⟨⟨hcomparable, fun _ => hall⟩, .inr ⟨hmoves, far, .tail _ hfar, hnotnear⟩⟩
      · exact .inr ⟨fun h => hnot (h.2 hnear), e, he⟩
    · refine .inl ⟨⟨hcomparable, fun h => absurd h hfar⟩, .inr ⟨?_, c, .head _, hfar⟩⟩
      rw [hmoved]
      rfl
    · refine .inr ⟨fun h => hnot h.1, e, ?_⟩
      rw [hmoved]
      rfl

/-! ## Close snapshots -/

/-- The snapshots are less than a threshold apart in every field that a tick compares. -/
structure Close (last current : Wire.AccountSnapshotFields) : Prop where
  equity : Near accountValueThreshold current.equity last.equity
  buyingPower : Near accountValueThreshold current.buyingPower last.buyingPower
  grossExposure : Near accountValueThreshold current.grossExposure last.grossExposure
  netExposure : Near accountValueThreshold current.netExposure last.netExposure
  marginUsed : Near accountValueThreshold current.marginUsed last.marginUsed
  leverage : Near leverageThreshold current.leverage last.leverage
  cashByCcy : ∀ ccy, Near accountValueThreshold (cashOf current ccy) (cashOf last ccy)

theorem comparisons_threshold (setOrder : SetOrder) (current last : Wire.AccountSnapshotFields) :
    ∀ c ∈ comparisons setOrder current last, c.threshold ≤ 1 := by
  intro c hc
  simp only [comparisons, List.mem_append, List.mem_cons, List.not_mem_nil, or_false,
    List.mem_map] at hc
  rcases hc with (rfl | rfl | rfl | rfl | rfl | rfl) | ⟨ccy, -, rfl⟩ <;>
    norm_num [accountValueThreshold, leverageThreshold]

theorem cashOf_of_notMem {snapshot : Wire.AccountSnapshotFields} {ccy : String}
    (h : ccy ∉ snapshot.cashByCcy.keys) : cashOf snapshot ccy = .finite 0 := by
  rw [cashOf, Dict.get?_eq_none_iff.mpr h]
  rfl

theorem close_iff {setOrder : SetOrder} {current last : Wire.AccountSnapshotFields} :
    Close last current ↔
      ∀ c ∈ comparisons setOrder current last, Near c.threshold c.current c.last := by
  have hccys (ccy : String) : ccy ∈ setOrder.order (allCcys current last) ↔
      ccy ∈ current.cashByCcy.keys ∨ ccy ∈ last.cashByCcy.keys := by
    rw [(setOrder.perm _).mem_iff, allCcys, List.mem_dedup, List.mem_append]
  simp only [comparisons, List.forall_mem_append, List.forall_mem_cons, List.forall_mem_map,
    List.not_mem_nil, false_implies, implies_true, and_true]
  constructor
  · intro h
    exact ⟨⟨h.equity, h.buyingPower, h.grossExposure, h.netExposure, h.marginUsed, h.leverage⟩,
      fun ccy _ => h.cashByCcy ccy⟩
  · rintro ⟨⟨hequity, hbuying, hgross, hnet, hmargin, hleverage⟩, hcash⟩
    refine ⟨hequity, hbuying, hgross, hnet, hmargin, hleverage, ?_⟩
    intro ccy
    by_cases hccy : ccy ∈ setOrder.order (allCcys current last)
    · exact hcash ccy hccy
    · rw [hccys, not_or] at hccy
      rw [cashOf_of_notMem hccy.1, cashOf_of_notMem hccy.2]
      norm_num [Near, accountValueThreshold]

/-! ## When the snapshot builds -/

/-- The equity is not NaN, and the exposure has a quotient by it where it is positive. -/
def LeverageSafe (grossExposure : DecimalValue) : DecimalValue → Prop
  | .finite equity =>
      ∀ gross, grossExposure = .finite gross → 0 < equity → ¬ Overflows (gross / equity)
  | .infinity negative => negative = false → grossExposure ≠ .infinity false
  | .nan _ => False

/-- The leverage, where it has one. -/
def leverageValue (grossExposure equity : DecimalValue) : DecimalValue :=
  match equity, grossExposure with
  | .finite equity, .finite gross => if 0 < equity then .finite (gross / equity) else .finite 0
  | .finite equity, gross => if 0 < equity then gross else .finite 0
  | _, _ => .finite 0

theorem leverageOf_finite (grossExposure : DecimalValue) (equity : Decimal) :
    AccountValues.leverageOf grossExposure (.finite equity) =
      if 0 < equity then grossExposure.div (.finite equity) else .ok (.finite 0) := by
  unfold AccountValues.leverageOf
  by_cases hzero : equity = 0
  · simp [DecimalValue.truthy, hzero, andThen, bind, Except.bind]
  · by_cases hpos : 0 < equity <;>
      simp [DecimalValue.truthy, hzero, hpos, andThen, bind, Except.bind]

theorem leverageOf_infinity (grossExposure : DecimalValue) (negative : Bool) :
    AccountValues.leverageOf grossExposure (.infinity negative) =
      if negative then .ok (.finite 0) else grossExposure.div (.infinity false) := by
  have hlt : (DecimalValue.finite 0).lt (.infinity negative) = .ok !negative := by
    cases negative <;> decide +kernel
  unfold AccountValues.leverageOf
  rw [hlt]
  cases negative <;> rfl

theorem leverageOf_nan (grossExposure : DecimalValue) (signaling : Bool) :
    AccountValues.leverageOf grossExposure (.nan signaling) = .error invalidOperation := rfl

theorem leverageOf_cases {grossExposure : DecimalValue} (equity : DecimalValue)
    (hgross : NonNegative grossExposure) :
    (LeverageSafe grossExposure equity ∧ NonNegative (leverageValue grossExposure equity) ∧
        AccountValues.leverageOf grossExposure equity = .ok (leverageValue grossExposure equity)) ∨
      ¬ LeverageSafe grossExposure equity ∧
        ∃ e, AccountValues.leverageOf grossExposure equity = .error e := by
  cases equity with
  | finite equity =>
    rw [leverageOf_finite]
    by_cases hpos : 0 < equity
    · rw [if_pos hpos]
      cases grossExposure with
      | finite gross =>
        have hdiv : (DecimalValue.finite gross).div (.finite equity) = rounded (gross / equity) :=
          if_neg hpos.ne'
        rw [hdiv]
        by_cases hover : Overflows (gross / equity)
        · refine .inr ⟨fun h => h gross rfl hpos hover, _, if_pos hover⟩
        · have hvalue : leverageValue (.finite gross) (.finite equity) = .finite (gross / equity) :=
            if_pos hpos
          rw [hvalue]
          refine .inl ⟨?_, div_nonneg hgross hpos.le, if_neg hover⟩
          rintro _ ⟨⟩ -
          exact hover
      | infinity negative =>
        have hvalue : leverageValue (.infinity negative) (.finite equity) = .infinity negative :=
          if_pos hpos
        rw [hvalue]
        refine .inl ⟨by rintro _ ⟨⟩, hgross, ?_⟩
        simp [div, not_lt.mpr hpos.le]
      | nan signaling => exact hgross.elim
    · have hvalue : leverageValue grossExposure (.finite equity) = .finite 0 := by
        cases grossExposure <;> simp [leverageValue, hpos]
      rw [if_neg hpos, hvalue]
      exact .inl ⟨fun _ _ h => absurd h hpos, le_rfl, rfl⟩
  | infinity negative =>
    rw [leverageOf_infinity]
    have hvalue : leverageValue grossExposure (.infinity negative) = .finite 0 := rfl
    rw [hvalue]
    cases negative with
    | true => exact .inl ⟨by rintro ⟨⟩, le_rfl, rfl⟩
    | false =>
      cases grossExposure with
      | finite gross => exact .inl ⟨fun _ => by rintro ⟨⟩, le_rfl, rfl⟩
      | infinity negative =>
        cases hgross
        exact .inr ⟨fun h => h rfl rfl, _, rfl⟩
      | nan signaling => exact hgross.elim
  | nan signaling => exact .inr ⟨not_false, _, leverageOf_nan grossExposure signaling⟩

/-- The snapshot builds from these values, in this base currency. -/
structure SnapshotSafe (latest : Latest) (baseCurrency : String) : Prop where
  currency : Wire.IsoCurrency baseCurrency
  cash : ∀ ccy, latest.cash ccy ≠ none → Wire.IsoCurrency ccy
  buyingPower : NonNegative (latest.amount baseCurrency tagBuyingPower)
  grossExposure : NonNegative (latest.amount baseCurrency tagGrossPosition)
  marginUsed : NonNegative (latest.amount baseCurrency tagMaintMargin)
  leverage : LeverageSafe (latest.amount baseCurrency tagGrossPosition)
    (latest.amount baseCurrency tagNetLiquidation)

/-- The fields of the snapshot that builds. -/
def Latest.current (latest : Latest) (baseCurrency : String) (cash : Dict String DecimalValue)
    (takenAt : Datetime) : Wire.AccountSnapshotFields :=
  latest.snapshotFields baseCurrency
    (leverageValue (latest.amount baseCurrency tagGrossPosition)
      (latest.amount baseCurrency tagNetLiquidation)) cash takenAt

namespace AccountValues

theorem postInit_snapshotFields {latest : Latest} {cash : Dict String DecimalValue}
    (baseCurrency : String) (leverage : DecimalValue) (takenAt : Utc)
    (hcash : ∀ ccy, cash.get? ccy = latest.cash ccy) :
    postInit (latest.snapshotFields baseCurrency leverage cash takenAt.toDatetime) = .ok () ↔
      Wire.IsoCurrency baseCurrency ∧ (∀ ccy, latest.cash ccy ≠ none → Wire.IsoCurrency ccy) ∧
        NonNegative (latest.amount baseCurrency tagBuyingPower) ∧
        NonNegative (latest.amount baseCurrency tagGrossPosition) ∧
        NonNegative (latest.amount baseCurrency tagMaintMargin) ∧ NonNegative leverage := by
  have hkeys (ccy : String) : ccy ∈ cash ↔ latest.cash ccy ≠ none := by
    rw [← hcash, ← Dict.isSome_get?_iff, Option.isSome_iff_ne_none]
  rw [Wire.AccountSnapshot.valid_iff]
  simp only [Latest.snapshotFields, Wire.AccountSnapshotFields.amounts, List.forall_mem_cons,
    List.not_mem_nil, false_implies, implies_true, and_true, nonNegative_iff, hkeys]
  simp [Utc.toDatetime]

/-- The snapshot builds exactly from safe values in an inferred base currency. -/
theorem buildAccountSnapshot_cases {values : AccountValues} {cash : Dict String DecimalValue}
    (hcash : values.cashByCcy = .ok cash) (takenAt : Utc) :
    (∃ baseCurrency current, values.inferBaseCurrency = .ok baseCurrency ∧
        SnapshotSafe values.get? baseCurrency ∧
        values.buildAccountSnapshot takenAt.toDatetime = .ok current ∧
        current.val = Latest.current values.get? baseCurrency cash takenAt.toDatetime) ∨
      (∀ baseCurrency, values.inferBaseCurrency = .ok baseCurrency →
          ¬ SnapshotSafe values.get? baseCurrency) ∧
        ∃ e, values.buildAccountSnapshot takenAt.toDatetime = .error e := by
  obtain ⟨cash', hcash', hentries⟩ := cashByCcy_eq values
  cases hcash.symm.trans hcash'
  rw [buildAccountSnapshot_eq hcash]
  cases hbase : values.inferBaseCurrency with
  | error e =>
    refine .inr ⟨?_, e, rfl⟩
    intro base h
    cases h
  | ok baseCurrency =>
    simp only [bind, Except.bind]
    have hvalid (leverage : DecimalValue) :=
      postInit_snapshotFields baseCurrency leverage takenAt hentries
    -- What the constructor asks is what is asked of safe values, but for the leverage.
    have hnotSafe (h : ¬ SnapshotSafe values.get? baseCurrency) (base : String)
        (hbase : (.ok baseCurrency : Except PyError String) = .ok base) :
        ¬ SnapshotSafe values.get? base := by
      cases hbase
      exact h
    by_cases hgross : NonNegative (Latest.amount values.get? baseCurrency tagGrossPosition)
    swap
    · refine .inr ⟨hnotSafe fun h => hgross h.grossExposure, ?_⟩
      cases leverageOf (Latest.amount values.get? baseCurrency tagGrossPosition)
          (Latest.amount values.get? baseCurrency tagNetLiquidation) with
      | error e => exact ⟨e, rfl⟩
      | ok leverage =>
        exact Frozen.exists_make_error fun h => hgross ((hvalid leverage).mp h).2.2.2.1
    rcases leverageOf_cases (Latest.amount values.get? baseCurrency tagNetLiquidation) hgross with
      ⟨hleverage, hpos, heq⟩ | ⟨hleverage, e, heq⟩
    swap
    · rw [heq]
      exact .inr ⟨hnotSafe fun h => hleverage h.leverage, e, rfl⟩
    rw [heq]
    by_cases hsafe : SnapshotSafe values.get? baseCurrency
    · have hpost := (hvalid _).mpr ⟨hsafe.currency, hsafe.cash, hsafe.buyingPower, hgross,
        hsafe.marginUsed, hpos⟩
      exact .inl ⟨baseCurrency, ⟨_, hpost⟩, rfl, hsafe, Frozen.make_of_valid hpost, rfl⟩
    · refine .inr ⟨hnotSafe hsafe, Frozen.exists_make_error fun h => hsafe ?_⟩
      obtain ⟨hcurrency, hcash, hbuying, -, hmargin, -⟩ := (hvalid _).mp h
      exact ⟨hcurrency, hcash, hbuying, hgross, hmargin, hleverage⟩

theorem lt_unnamed (a b : DecimalValue) : Unnamed isIbShapeError (a.lt b) := by
  intro e he
  rcases comparison_cases (fun x y => decide (x < y)) a b with ⟨herror, -⟩ | ⟨x, y, -, -, hok⟩
  · cases herror.symm.trans he
    rfl
  · cases hok.symm.trans he

theorem propagate_unnamed (signaling : Bool) : Unnamed isIbShapeError (propagate signaling) := by
  cases signaling with
  | true => exact unnamed_error rfl
  | false => exact unnamed_ok _

theorem div_unnamed (a b : DecimalValue) : Unnamed isIbShapeError (a.div b) := by
  cases a with
  | finite p =>
    cases b with
    | finite q =>
      simp only [div, rounded]
      split_ifs <;> first | exact unnamed_error rfl | exact unnamed_ok _
    | infinity negative => exact unnamed_ok _
    | nan signaling => exact propagate_unnamed signaling
  | infinity negative =>
    cases b with
    | finite q => exact unnamed_ok _
    | infinity negative' => exact unnamed_error rfl
    | nan signaling => exact propagate_unnamed signaling
  | nan signaling =>
    cases b with
    | finite q => exact propagate_unnamed signaling
    | infinity negative => exact propagate_unnamed signaling
    | nan signaling' => exact propagate_unnamed (signaling || signaling')

theorem leverageOf_unnamed (grossExposure equity : DecimalValue) :
    Unnamed isIbShapeError (leverageOf grossExposure equity) := by
  cases equity with
  | finite equity =>
    rw [leverageOf_finite]
    split
    · exact div_unnamed _ _
    · exact unnamed_ok _
  | infinity negative =>
    rw [leverageOf_infinity]
    split
    · exact unnamed_ok _
    · exact div_unnamed _ _
  | nan signaling =>
    rw [leverageOf_nan]
    exact unnamed_error rfl

/-- No exception of the snapshot is one the tick catches. -/
theorem buildAccountSnapshot_unnamed (values : AccountValues) (takenAt : Datetime) :
    Unnamed isIbShapeError (values.buildAccountSnapshot takenAt) := by
  obtain ⟨cash, hcash, -⟩ := cashByCcy_eq values
  rw [buildAccountSnapshot_eq hcash]
  refine Unnamed.bind ?_ fun base => Unnamed.bind ?_ fun leverage => Unnamed.make ?_
  · intro e he
    have hinferred := inferBaseCurrency_inferred values
    rw [he] at hinferred
    cases hinferred
    rfl
  · exact leverageOf_unnamed _ _
  · exact (unnamed_require rfl).bind fun _ =>
      (unnamed_forEach fun ccy => unnamed_require rfl).bind fun _ =>
      (unnamed_forEach fun amount => (lt_unnamed _ _).requireNot rfl).bind fun _ =>
      unnamed_require rfl

end AccountValues

end Blive
