import Mathlib.Data.List.Induction
import Blive.Adapters.Ib.Proofs.BaseCurrency

/-!
# The account snapshot and the order of the pushes

The cache holds the last value pushed for each currency and tag; once the base currency is known
the snapshot reads it by key only. The order in which the rows first arrived decides a tie for the
base currency and nothing else.
-/

namespace Blive

open DecimalValue

/-! ## What the snapshot is made of -/

namespace Latest

variable (latest : Latest)

/-- The first of the rows that is there and a decimal, else zero. -/
def reading : List (String × String) → DecimalValue
  | [] => .finite 0
  | key :: rest =>
      match (latest key).bind fun text => (ofString text).toOption with
      | some d => d
      | none => reading rest

/-- The value of a tag: the aggregate row, else the row of the base currency. -/
def amount (baseCurrency tag : String) : DecimalValue :=
  latest.reading [("BASE", tag), (baseCurrency, tag)]

/-- The cash in a currency. -/
def cash (ccy : String) : Option DecimalValue :=
  if ccy ≠ "" ∧ ccy ≠ "BASE" then
    (latest (ccy, tagTotalCash)).bind fun text => (ofString text).toOption
  else none

/-- The fields of the snapshot, once the base currency and the leverage are known. -/
def snapshotFields (baseCurrency : String) (leverage : DecimalValue)
    (cashByCcy : Dict String DecimalValue) (takenAt : Datetime) : Wire.AccountSnapshotFields where
  equity := latest.amount baseCurrency tagNetLiquidation
  cashByCcy := cashByCcy
  buyingPower := latest.amount baseCurrency tagBuyingPower
  grossExposure := latest.amount baseCurrency tagGrossPosition
  netExposure := latest.amount baseCurrency tagGrossPosition
  leverage := leverage
  marginUsed := latest.amount baseCurrency tagMaintMargin
  baseCurrency := baseCurrency
  takenAt := takenAt

end Latest

namespace AccountValues

theorem accountValueDecimal_eq (values : AccountValues) (keys : List (String × String)) :
    values.accountValueDecimal keys = .ok (Latest.reading values.get? keys) := by
  induction keys with
  | nil => rfl
  | cons key rest ih =>
    unfold accountValueDecimal Latest.reading
    cases values.get? key with
    | none => exact ih
    | some text =>
      simp only [attempt_ofString, Option.bind_some]
      cases (ofString text).toOption with
      | none => exact ih
      | some d => rfl

/-- The cash rows, collected by currency. -/
theorem foldlM_addCash (rows : List AccountRow) (cash : Dict String DecimalValue)
    (hnodup : (rows.map Prod.fst).Nodup) :
    ∃ cash', rows.foldlM addCash cash = .ok cash' ∧ ∀ ccy, cash'.get? ccy =
      (Latest.cash (fun key => Dict.lookupItems key rows) ccy).or (cash.get? ccy) := by
  induction rows generalizing cash with
  | nil =>
    refine ⟨cash, rfl, ?_⟩
    intro ccy
    simp [Latest.cash, Dict.lookupItems]
  | cons row rest ih =>
    obtain ⟨hfresh, hrest⟩ := List.nodup_cons.mp hnodup
    rw [List.foldlM_cons]
    -- The rest has no other row of the same currency and tag.
    have hlater : Dict.lookupItems row.1 rest = none := by
      rw [Dict.lookupItems_eq_none_iff]
      exact hfresh
    have hcons (ccy : String) : Latest.cash (fun key => Dict.lookupItems key (row :: rest)) ccy =
        if row.1 = (ccy, tagTotalCash) ∧ row.isSleeve then (ofString row.value).toOption
        else Latest.cash (fun key => Dict.lookupItems key rest) ccy := by
      obtain ⟨⟨c, tag⟩, value⟩ := row
      by_cases hkey : (c, tag) = (ccy, tagTotalCash)
      · cases hkey
        by_cases hsleeve : ccy ≠ "" ∧ ccy ≠ "BASE" <;>
          simp [Latest.cash, Dict.lookupItems, AccountRow.isSleeve, hsleeve]
      · simp [Latest.cash, Dict.lookupItems, hkey]
    by_cases hcash : row.tag = tagTotalCash ∧ row.isSleeve
    · have hkey (ccy : String) : row.1 = (ccy, tagTotalCash) ↔ row.ccy = ccy := by
        simp [Prod.ext_iff, hcash.1]
      have hstep : addCash cash row = .ok (match (ofString row.value).toOption with
          | some d => cash.set row.ccy d
          | none => cash) := by
        rw [addCash, if_pos hcash, attempt_ofString]
        cases (ofString row.value).toOption <;> rfl
      have hnone : Latest.cash (fun key => Dict.lookupItems key rest) row.ccy = none := by
        have hrow : row.1 = (row.ccy, tagTotalCash) := (hkey row.ccy).mpr rfl
        rw [hrow] at hlater
        simp [Latest.cash, hlater]
      rw [hstep]
      obtain ⟨cash', hfold, hget⟩ := ih _ hrest
      refine ⟨cash', hfold, ?_⟩
      intro ccy
      rw [hget, hcons]
      by_cases hccy : row.ccy = ccy
      · subst hccy
        rw [if_pos ⟨(hkey _).mpr rfl, hcash.2⟩, hnone]
        cases (ofString row.value).toOption <;> simp
      · rw [if_neg (fun h => hccy ((hkey ccy).mp h.1))]
        cases (ofString row.value).toOption <;> simp [Ne.symm hccy]
    · have hstep : addCash cash row = .ok cash := by rw [addCash, if_neg hcash]
      rw [hstep]
      obtain ⟨cash', hfold, hget⟩ := ih _ hrest
      refine ⟨cash', hfold, ?_⟩
      intro ccy
      rw [hget, hcons, if_neg]
      rintro ⟨hkey, hsleeve⟩
      exact hcash ⟨congrArg Prod.snd hkey, hsleeve⟩

theorem cashByCcy_eq (values : AccountValues) :
    ∃ cash, values.cashByCcy = .ok cash ∧
      ∀ ccy, cash.get? ccy = Latest.cash values.get? ccy := by
  obtain ⟨cash, hcash, hget⟩ := foldlM_addCash values.items Dict.empty values.nodup
  refine ⟨cash, hcash, ?_⟩
  intro ccy
  rw [hget, Dict.get?_empty, Option.or_none]
  rfl

/-- The snapshot reads the cache by key only, once the base currency is inferred. -/
theorem buildAccountSnapshot_eq {values : AccountValues} {cash : Dict String DecimalValue}
    (hcash : values.cashByCcy = .ok cash) (takenAt : Datetime) :
    values.buildAccountSnapshot takenAt = values.inferBaseCurrency >>= fun baseCurrency =>
      leverageOf (Latest.amount values.get? baseCurrency tagGrossPosition)
        (Latest.amount values.get? baseCurrency tagNetLiquidation) >>= fun leverage =>
      Frozen.make (Latest.snapshotFields values.get? baseCurrency leverage cash takenAt) := by
  unfold buildAccountSnapshot
  simp only [accountValueDecimal_eq, hcash]
  rfl

/-! ## Pushes -/

/-- The push is kept. -/
def Subscribed (accountId : String) (accountValue : AccountValue) : Prop :=
  accountValue.tag ≠ "" ∧ (accountValue.account = "" ∨ accountValue.account = accountId)

instance (accountId : String) (accountValue : AccountValue) :
    Decidable (Subscribed accountId accountValue) := inferInstanceAs (Decidable (_ ∧ _))

/-- The cache after the pushes since `connect`. -/
def cache (accountId : String) (pushes : List AccountValue) : AccountValues :=
  pushes.foldl (onAccountValue accountId) Dict.empty

/-- The last value pushed for each currency and tag of the subscribed account. -/
def lastPushed (accountId : String) (pushes : List AccountValue) : Latest := fun key =>
  ((pushes.filter fun p => Subscribed accountId p ∧ (p.currency, p.tag) = key).getLast?).map
    (·.value)

theorem onAccountValue_get? (accountId : String) (values : AccountValues)
    (accountValue : AccountValue) (key : String × String) :
    (values.onAccountValue accountId accountValue).get? key =
      if Subscribed accountId accountValue ∧ (accountValue.currency, accountValue.tag) = key then
        some accountValue.value
      else values.get? key := by
  unfold onAccountValue Subscribed
  by_cases htag : accountValue.tag = ""
  · simp [htag]
  · by_cases haccount : accountValue.account = "" ∨ accountValue.account = accountId
    · have hkept : ¬ (accountValue.account ≠ "" ∧ accountValue.account ≠ accountId) := by
        rintro ⟨hnone, hother⟩
        exact haccount.elim hnone hother
      rw [if_neg htag, if_neg hkept, Dict.get?_set]
      simp only [ne_eq, htag, not_false_eq_true, haccount, and_self, true_and, eq_comm (a := key)]
    · have hdropped : accountValue.account ≠ "" ∧ accountValue.account ≠ accountId :=
        not_or.mp haccount
      rw [if_neg htag, if_pos hdropped]
      simp [haccount]

/-- The cache holds the last values. -/
theorem cache_get? (accountId : String) (pushes : List AccountValue) :
    (cache accountId pushes).get? = lastPushed accountId pushes := by
  funext key
  induction pushes using List.reverseRecOn with
  | nil => rfl
  | append_singleton pushes p ih =>
    rw [cache, List.foldl_append] at *
    simp only [List.foldl_cons, List.foldl_nil]
    rw [onAccountValue_get?, lastPushed, List.filter_append]
    by_cases hp : Subscribed accountId p ∧ (p.currency, p.tag) = key
    · rw [if_pos hp]
      simp [hp]
    · rw [if_neg hp, List.filter_singleton, decide_eq_false hp, cond_false, List.append_nil]
      exact ih

end AccountValues

/-! ## The snapshot is a function of the last values -/

/-- The snapshots are the same but for the time they were taken at, or the same exception was
raised. A dictionary is compared by its entries. -/
def SameSnapshot : Except PyError Wire.AccountSnapshot → Except PyError Wire.AccountSnapshot → Prop
  | .ok a, .ok b =>
      a.val.equity = b.val.equity ∧ (∀ ccy, a.val.cashByCcy.get? ccy = b.val.cashByCcy.get? ccy) ∧
        a.val.buyingPower = b.val.buyingPower ∧ a.val.grossExposure = b.val.grossExposure ∧
        a.val.netExposure = b.val.netExposure ∧ a.val.leverage = b.val.leverage ∧
        a.val.marginUsed = b.val.marginUsed ∧ a.val.baseCurrency = b.val.baseCurrency
  | .error e, .error e' => e = e'
  | _, _ => False

/-- The check of the currencies does not depend on the order of the dictionary. -/
theorem forEach_iso_congr {cash cash' : Dict String DecimalValue} (fieldName : String)
    (hcash : ∀ ccy, cash.get? ccy = cash'.get? ccy) :
    forEach cash.keys (fun ccy => requireIsoCurrency ccy fieldName) =
      forEach cash'.keys fun ccy => requireIsoCurrency ccy fieldName := by
  have hkeys (ccy : String) : ccy ∈ cash.keys ↔ ccy ∈ cash'.keys := by
    have h : ccy ∈ cash ↔ ccy ∈ cash' := by
      rw [← Dict.isSome_get?_iff, hcash, Dict.isSome_get?_iff]
    exact h
  have huniform (ccy : String) : requireIsoCurrency ccy fieldName = .ok () ∨
      requireIsoCurrency ccy fieldName =
        .error (.valueError (fieldName ++ " must be a 3-letter uppercase ISO 4217 code")) := by
    unfold requireIsoCurrency require
    split
    · exact .inl rfl
    · exact .inr rfl
  by_cases hall : ∀ ccy ∈ cash.keys, requireIsoCurrency ccy fieldName = .ok ()
  · rw [forEach_eq_ok_iff.mpr hall,
      forEach_eq_ok_iff.mpr fun ccy hccy => hall ccy ((hkeys ccy).mpr hccy)]
  · obtain ⟨ccy, hccy, hbad⟩ : ∃ ccy ∈ cash.keys, requireIsoCurrency ccy fieldName ≠ .ok () := by
      simpa using hall
    rw [forEach_of_uniform huniform ⟨ccy, hccy, hbad⟩,
      forEach_of_uniform huniform ⟨ccy, (hkeys ccy).mp hccy, hbad⟩]

/-- The same fields over dictionaries with the same entries make the same snapshot. -/
theorem make_sameSnapshot (latest : Latest) (baseCurrency : String) (leverage : DecimalValue)
    {cash cash' : Dict String DecimalValue} (hcash : ∀ ccy, cash.get? ccy = cash'.get? ccy)
    (takenAt takenAt' : Utc) :
    SameSnapshot
      (Frozen.make (latest.snapshotFields baseCurrency leverage cash takenAt.toDatetime))
      (Frozen.make (latest.snapshotFields baseCurrency leverage cash' takenAt'.toDatetime)) := by
  have hcheck : postInit (latest.snapshotFields baseCurrency leverage cash takenAt.toDatetime) =
      postInit (latest.snapshotFields baseCurrency leverage cash' takenAt'.toDatetime) := by
    simp only [postInit, Latest.snapshotFields, Wire.AccountSnapshotFields.amounts,
      forEach_iso_congr _ hcash]
    rfl
  cases hvalid : postInit (latest.snapshotFields baseCurrency leverage cash takenAt.toDatetime) with
  | ok u =>
    rw [Frozen.make_of_valid hvalid, Frozen.make_of_valid (hcheck ▸ hvalid)]
    exact ⟨rfl, hcash, rfl, rfl, rfl, rfl, rfl, rfl⟩
  | error e =>
    rw [Frozen.make_of_error hvalid, Frozen.make_of_error (hcheck ▸ hvalid)]
    rfl

open AccountValues in
/-- Two sequences of pushes that agree on the last values, where no rows tie for the base
currency, give the same snapshot. -/
theorem accountSnapshot_latest (accountId : String) (pushes pushes' : List AccountValue)
    (takenAt takenAt' : Utc) (hlatest : lastPushed accountId pushes = lastPushed accountId pushes')
    (huntied : Latest.Untied (lastPushed accountId pushes)) :
    SameSnapshot ((cache accountId pushes).buildAccountSnapshot takenAt.toDatetime)
      ((cache accountId pushes').buildAccountSnapshot takenAt'.toDatetime) := by
  have hget : (cache accountId pushes').get? = (cache accountId pushes).get? := by
    rw [cache_get?, cache_get?, hlatest]
  have hbase : (cache accountId pushes').inferBaseCurrency =
      (cache accountId pushes).inferBaseCurrency := by
    have hinferred := inferBaseCurrency_inferred (cache accountId pushes')
    rw [hget] at hinferred
    rw [← cache_get?] at huntied
    exact hinferred.unique huntied (inferBaseCurrency_inferred (cache accountId pushes))
  obtain ⟨cash, hcash, hentries⟩ := cashByCcy_eq (cache accountId pushes)
  obtain ⟨cash', hcash', hentries'⟩ := cashByCcy_eq (cache accountId pushes')
  rw [buildAccountSnapshot_eq hcash, buildAccountSnapshot_eq hcash', hbase, hget]
  have hsame (ccy : String) : cash.get? ccy = cash'.get? ccy := by
    rw [hentries, hentries', hget]
  cases (cache accountId pushes).inferBaseCurrency with
  | error e => rfl
  | ok baseCurrency =>
    simp only [bind, Except.bind]
    cases leverageOf (Latest.amount (cache accountId pushes).get? baseCurrency tagGrossPosition)
      (Latest.amount (cache accountId pushes).get? baseCurrency tagNetLiquidation) with
    | error e => rfl
    | ok leverage => exact make_sameSnapshot _ baseCurrency leverage hsame takenAt takenAt'

section Realized

open AccountValues

variable {accountId : String} {pushes : List AccountValue}

/-- The same pushes after a first one that gives a key the value it ends up with. -/
def pushFirst (accountId : String) (key : String × String) (value : String)
    (pushes : List AccountValue) : List AccountValue :=
  ⟨accountId, key.2, value, key.1⟩ :: pushes

theorem lastPushed_pushFirst {key : String × String} {value : String}
    (h : lastPushed accountId pushes key = some value) :
    lastPushed accountId (pushFirst accountId key value pushes) = lastPushed accountId pushes := by
  funext other
  unfold pushFirst lastPushed
  rw [List.filter_cons]
  split
  · rename_i hfirst
    obtain ⟨-, rfl⟩ := of_decide_eq_true hfirst
    rw [List.getLast?_cons]
    rw [lastPushed] at h
    obtain ⟨last, hlast, hvalue⟩ := Option.map_eq_some_iff.mp h
    simp only [Prod.mk.eta] at hlast ⊢
    rw [hlast]
    rfl
  · rfl

theorem cache_append (accountId : String) (values : AccountValues) (pushes : List AccountValue)
    (row : AccountRow) (h : values.items.head?.map Prod.fst = some row.1) :
    (pushes.foldl (onAccountValue accountId) values).items.head?.map Prod.fst = some row.1 := by
  induction pushes generalizing values with
  | nil => exact h
  | cons p rest ih =>
    refine ih _ ?_
    unfold onAccountValue
    split_ifs
    · exact h
    · exact h
    · cases hitems : values.items with
      | nil => simp [hitems] at h
      | cons item more =>
        rw [hitems] at h
        by_cases heq : item.1 = (p.currency, p.tag) <;>
          simpa [Dict.set, Dict.setItems, hitems, heq] using h

/-- Its row then is the first of the cache. -/
theorem cache_pushFirst {key : String × String} {value : String} (htag : key.2 ≠ "")
    (h : lastPushed accountId pushes key = some value) :
    ∃ rest, (cache accountId (pushFirst accountId key value pushes)).items =
      (key, value) :: rest := by
  have hhead : (cache accountId (pushFirst accountId key value pushes)).items.head?.map Prod.fst =
      some key := by
    refine cache_append accountId _ pushes (key, value) ?_
    simp [onAccountValue, htag, Dict.set, Dict.setItems, Dict.empty]
  have hget : (cache accountId (pushFirst accountId key value pushes)).get? key = some value := by
    rw [cache_get?, lastPushed_pushFirst h, h]
  cases hitems : (cache accountId (pushFirst accountId key value pushes)).items with
  | nil => simp [hitems] at hhead
  | cons item rest =>
    rw [hitems] at hhead
    have hkey : item.1 = key := by simpa using hhead
    refine ⟨rest, ?_⟩
    rw [Dict.get?, hitems, ← hkey] at hget
    simp only [Dict.lookupItems, if_true, Option.some.injEq] at hget
    rw [← hkey, ← hget]

theorem accountCurrency_eq_none
    (hexplicit : ∀ code, ¬ (lastPushed accountId pushes).Explicit code) :
    accountCurrency (cache accountId pushes).items = none := by
  rcases accountCurrency_cases (cache accountId pushes).items with
    ⟨hnone, -⟩ | ⟨row, hrow, -, htag, hcode⟩
  · exact hnone
  · refine absurd ?_ (hexplicit row.value)
    rw [← cache_get?]
    exact explicit_iff.mpr ⟨row, hrow, htag, hcode, rfl⟩

theorem unitRateCurrency_eq_none (hunit : ∀ ccy, ¬ (lastPushed accountId pushes).UnitRate ccy) :
    unitRateCurrency (cache accountId pushes).items = .ok none := by
  rcases unitRateCurrency_cases (cache accountId pushes).items with
    ⟨hnone, -⟩ | ⟨row, hrow, -, hrate⟩
  · exact hnone
  · refine absurd ?_ (hunit row.ccy)
    rw [← cache_get?]
    exact unitRate_iff.mpr ⟨row, hrow, hrate, rfl⟩

/-- All that the inference can come to for the last values, it comes to for some order of the
pushes: a tie is decided by the row that arrived first. -/
theorem inferBaseCurrency_realized {r : Except PyError String}
    (h : (lastPushed accountId pushes).Inferred r) :
    ∃ pushes', lastPushed accountId pushes' = lastPushed accountId pushes ∧
      (cache accountId pushes').inferBaseCurrency = r := by
  cases h with
  | explicit code hcode =>
    obtain ⟨hne, ccy, hrow⟩ := hcode
    refine ⟨_, lastPushed_pushFirst hrow, ?_⟩
    obtain ⟨rest, hitems⟩ := cache_pushFirst (show tagAccountCurrency ≠ "" by decide) hrow
    have hfirst : accountCurrency (((ccy, tagAccountCurrency), code) :: rest) = some code :=
      if_pos ⟨rfl, hne⟩
    rw [inferBaseCurrency, hitems, hfirst]
  | unitRate ccy hexplicit hccy =>
    obtain ⟨hsleeve, text, hrow, hunit⟩ := hccy
    have hsame := lastPushed_pushFirst hrow
    refine ⟨_, hsame, ?_⟩
    obtain ⟨rest, hitems⟩ := cache_pushFirst (show tagExchangeRate ≠ "" by decide) hrow
    have hnone := accountCurrency_eq_none (hsame ▸ hexplicit)
    rw [hitems] at hnone
    rw [inferBaseCurrency, hitems, hnone]
    rcases unitRateCurrency_cons ((ccy, tagExchangeRate), text) rest with ⟨-, hfirst⟩ | ⟨hnot, -⟩
    · rw [hfirst]
      rfl
    · exact absurd ⟨rfl, hsleeve, hunit⟩ hnot
  | largest ccy hexplicit hunit hlargest =>
    obtain ⟨equity, x, ⟨hsleeve, text, hrow, hequity⟩, hrank, hpos, hmax⟩ := hlargest
    have hsame := lastPushed_pushFirst hrow
    refine ⟨_, hsame, ?_⟩
    obtain ⟨rest, hitems⟩ := cache_pushFirst (show tagNetLiquidation ≠ "" by decide) hrow
    have hnone := accountCurrency_eq_none (hsame ▸ hexplicit)
    have hrates := unitRateCurrency_eq_none (hsame ▸ hunit)
    -- No later row is larger than the first one.
    have hfold : (cache accountId (pushFirst accountId (ccy, tagNetLiquidation) text
        pushes)).items.foldlM largerNetLiquidation ("", .infinity true) = .ok (ccy, equity) := by
      have hfirst : largerNetLiquidation ("", .infinity true) ((ccy, tagNetLiquidation), text) =
          .ok (ccy, equity) := by
        rcases largerNetLiquidation_cases ("", .infinity true) ((ccy, tagNetLiquidation), text) with
          ⟨hnot, -⟩ | ⟨equity', ⟨-, -, hequity'⟩, hstep⟩
        · exact absurd ⟨rfl, hsleeve, hequity⟩ (hnot equity)
        · cases hequity.symm.trans hequity'
          rw [hstep, lt_eq_ok_iff.mpr ⟨⊥, x, rfl, hrank, decide_eq_true hpos⟩]
          rfl
      have hrest (row : AccountRow) (hmem : row ∈ rest) (equity' : DecimalValue)
          (h : EquityRow row equity') : ∃ x', equity'.rank = some x' ∧ x' ≤ x := by
        refine hmax row.ccy equity' ?_
        rw [← hsame, ← cache_get?]
        exact netLiquidation_iff.mpr ⟨row, by rw [hitems]; exact .tail _ hmem, h, rfl⟩
      rw [hitems, List.foldlM_cons, hfirst]
      rcases foldlM_larger_cases rest (ccy, equity) hrank with
        ⟨-, row, hmem, equity', h, hnan⟩ | ⟨last, y, hlast, hy, -, hfrom, -⟩
      · obtain ⟨x', hx', -⟩ := hrest row hmem equity' h
        cases (rank_eq_none_iff.mpr hnan).symm.trans hx'
      · rcases hfrom with rfl | ⟨hlt, row, hmem, -, h⟩
        · exact hlast
        · obtain ⟨x', hx', hle⟩ := hrest row hmem last.2 h
          cases hy.symm.trans hx'
          exact absurd hlt hle.not_gt
    rw [inferBaseCurrency, hnone, hrates]
    simp only [bind, Except.bind, hfold]
    exact if_pos hsleeve.1
  | nan ccy equity hexplicit hunit hrow hnan =>
    have huntied : (lastPushed accountId pushes).Untied :=
      .of_no_largest hexplicit hunit fun other hlargest => by
        rw [hlargest.not_nan hrow] at hnan
        cases hnan
    exact ⟨pushes, rfl, Latest.Inferred.unique huntied
      (cache_get? accountId pushes ▸ inferBaseCurrency_inferred _)
      (.nan ccy equity hexplicit hunit hrow hnan)⟩
  | fallback hexplicit hunit hall =>
    have huntied : (lastPushed accountId pushes).Untied :=
      .of_no_largest hexplicit hunit (Latest.not_largest_of_infinity hall)
    exact ⟨pushes, rfl, Latest.Inferred.unique huntied
      (cache_get? accountId pushes ▸ inferBaseCurrency_inferred _)
      (.fallback hexplicit hunit hall)⟩

end Realized

/-- An explicit base currency and an aggregate row. -/
def accountPushes : List AccountValue :=
  [⟨"DU1", tagAccountCurrency, "GBP", ""⟩, ⟨"", tagNetLiquidation, "1000", "BASE"⟩]

/-- The same rows in the other order, an old value and a push for another account between them. -/
def accountPushes' : List AccountValue :=
  [⟨"DU1", tagNetLiquidation, "900", "BASE"⟩, ⟨"DU2", tagNetLiquidation, "7", "BASE"⟩,
    ⟨"DU1", tagNetLiquidation, "1000", "BASE"⟩, ⟨"DU1", tagAccountCurrency, "GBP", ""⟩]

open AccountValues in
theorem lastPushed_accountPushes (key : String × String) :
    lastPushed "DU1" accountPushes key =
        (if ("", tagAccountCurrency) = key then some "GBP"
          else if ("BASE", tagNetLiquidation) = key then some "1000" else none) ∧
      lastPushed "DU1" accountPushes' key =
        (if ("", tagAccountCurrency) = key then some "GBP"
          else if ("BASE", tagNetLiquidation) = key then some "1000" else none) := by
  by_cases hcurrency : ("", tagAccountCurrency) = key
  · subst hcurrency
    decide
  · by_cases hequity : ("BASE", tagNetLiquidation) = key
    · subst hequity
      decide
    · simp [lastPushed, accountPushes, accountPushes', hcurrency, hequity]

open AccountValues in
theorem accountSnapshot_latest_accountPushes :
    SameSnapshot ((cache "DU1" accountPushes).buildAccountSnapshot (Utc.toDatetime ⟨0⟩))
      ((cache "DU1" accountPushes').buildAccountSnapshot (Utc.toDatetime ⟨5⟩)) := by
  have hcode (c : String) (h : (lastPushed "DU1" accountPushes).Explicit c) : c = "GBP" := by
    obtain ⟨-, ccy, hrow⟩ := h
    rw [(lastPushed_accountPushes _).1] at hrow
    split_ifs at hrow with hcurrency hequity
    · exact (Option.some.inj hrow).symm
    · exact absurd (congrArg Prod.snd hequity) (show ¬ tagNetLiquidation = tagAccountCurrency by
        decide)
  have hexplicit : (lastPushed "DU1" accountPushes).Explicit "GBP" := by
    refine ⟨by decide, "", ?_⟩
    rw [(lastPushed_accountPushes _).1, if_pos rfl]
  refine accountSnapshot_latest "DU1" accountPushes accountPushes' ⟨0⟩ ⟨5⟩ ?_ ⟨?_, ?_, ?_⟩
  · funext key
    rw [(lastPushed_accountPushes key).1, (lastPushed_accountPushes key).2]
  · intro c c' hc hc'
    rw [hcode c hc, hcode c' hc']
  · exact fun hnone => absurd hexplicit (hnone "GBP")
  · exact fun hnone => absurd hexplicit (hnone "GBP")

/-- Two currencies report a unit exchange rate. -/
def unitRatePushes : List AccountValue :=
  [⟨"DU1", tagExchangeRate, "1.00", "GBP"⟩, ⟨"DU1", tagExchangeRate, "1.00", "USD"⟩]

open AccountValues in
theorem not_accountSnapshot_latest :
    ¬ ∀ (accountId : String) (pushes pushes' : List AccountValue) (takenAt takenAt' : Utc),
      lastPushed accountId pushes = lastPushed accountId pushes' →
        SameSnapshot ((cache accountId pushes).buildAccountSnapshot takenAt.toDatetime)
          ((cache accountId pushes').buildAccountSnapshot takenAt'.toDatetime) := by
  intro h
  have hlatest : lastPushed "DU1" unitRatePushes = lastPushed "DU1" unitRatePushes.reverse := by
    funext key
    simp only [lastPushed, unitRatePushes, Subscribed]
    by_cases hgbp : ("GBP", tagExchangeRate) = key
    · have husd : ("USD", tagExchangeRate) ≠ key := by
        rw [← hgbp]
        decide
      simp [hgbp, husd]
    · simp [hgbp]
  have hsame := h "DU1" unitRatePushes unitRatePushes.reverse ⟨0⟩ ⟨0⟩ hlatest
  have hbase : ((cache "DU1" unitRatePushes).buildAccountSnapshot (Utc.toDatetime ⟨0⟩)).map
      (fun a => a.val.baseCurrency) = .ok "GBP" := by decide +kernel
  have hbase' : ((cache "DU1" unitRatePushes.reverse).buildAccountSnapshot
      (Utc.toDatetime ⟨0⟩)).map (fun a => a.val.baseCurrency) = .ok "USD" := by decide +kernel
  cases hbuild : (cache "DU1" unitRatePushes).buildAccountSnapshot (Utc.toDatetime ⟨0⟩) with
  | error e =>
    rw [hbuild] at hbase
    cases hbase
  | ok a =>
    cases hbuild' : (cache "DU1" unitRatePushes.reverse).buildAccountSnapshot
        (Utc.toDatetime ⟨0⟩) with
    | error e =>
      rw [hbuild'] at hbase'
      cases hbase'
    | ok b =>
      rw [hbuild] at hbase hsame
      rw [hbuild'] at hbase' hsame
      obtain ⟨-, -, -, -, -, -, -, heq⟩ := hsame
      have ha : a.val.baseCurrency = "GBP" := Except.ok.inj hbase
      have hb : b.val.baseCurrency = "USD" := Except.ok.inj hbase'
      rw [ha, hb] at heq
      exact absurd heq (by decide)

end Blive
