import Mathlib.Algebra.BigOperators.Ring.List
import Blive.Domain.Proofs.PositionHistory

/-!
# Splitting and reordering fills

Two histories that are the same trading lead to the same position: a fill and the executions
it was split into, and two orders of fills that only build a position up. A history the
position refuses is refused in both forms, with the same exception.
-/

namespace Blive

open AverageCost

/-! ## Splitting -/

/-- `parts` are executions of `whole`: of its instrument, side, price and time, and together of
its quantity. -/
structure SplitOf (whole : Fill) (parts : List Fill) : Prop where
  instrument : ∀ part ∈ parts, part.val.instrument = whole.val.instrument
  side : ∀ part ∈ parts, part.val.side = whole.val.side
  price : ∀ part ∈ parts, part.val.price = whole.val.price
  time : ∀ part ∈ parts, part.val.timeUtc = whole.val.timeUtc
  quantity : (parts.map (·.val.quantity)).sum = whole.val.quantity

/-- What a position is apart from whose it is and when it was last written. -/
def economics (position : Position) : Decimal × Decimal × Option Datetime × String :=
  (position.val.quantity, position.val.avgCost, position.val.openedAt, position.val.currency)

theorem economics_eq {a b : Position} (hholding : holdingOf (some a) = holdingOf (some b))
    (hinstrument : a.val.instrument = b.val.instrument) : economics a = economics b := by
  have hcurrency : a.val.currency = b.val.currency := by
    rw [((Position.valid_iff a.val).mp a.valid).2.2.1,
      ((Position.valid_iff b.val).mp b.valid).2.2.1, hinstrument]
  simp only [holdingOf_some, Holding.mk.injEq] at hholding
  obtain ⟨hq, hc, ho⟩ := hholding
  rw [economics, economics, hq, hc, ho, hcurrency]

theorem checkFill_congr {a b : Fill} (h : a.val.instrument = b.val.instrument)
    (position : Option Position) (strategyId : String) :
    checkFill position a strategyId = checkFill position b strategyId := by
  unfold checkFill checkInstrument
  rw [h]

/-- The trades of a split add up to the trade of the whole. -/
theorem SplitOf.net_eq {whole : Fill} {parts : List Fill} (h : SplitOf whole parts) :
    net (parts.map Fill.trade) = whole.signedQty := by
  have hmap : parts.map Fill.signedQty =
      parts.map fun part => whole.val.side.sign * part.val.quantity := by
    apply List.map_congr_left
    intro part hpart
    rw [part.signedQty_eq, h.side part hpart]
  rw [net_trades, signedSum, hmap, List.sum_map_mul_left, h.quantity, whole.signedQty_eq]

/-- To a holding, a split does what the whole does. -/
theorem SplitOf.trades_eq {whole part : Fill} {now : Datetime} {rest : List (Fill × Datetime)}
    (h : SplitOf whole (((part, now) :: rest).map Prod.fst)) (position : Option Position) :
    (holdingOf position).trades (tradesOf ((part, now) :: rest)) =
      (holdingOf position).trade whole.trade := by
  have hnet := h.net_eq
  have hmap : (((part, now) :: rest).map Prod.fst).map Fill.trade =
      part.trade :: tradesOf rest := by
    simp [tradesOf]
  rw [hmap, net_cons] at hnet
  have hparts : ∀ u ∈ tradesOf rest,
      SameSide part.trade.qty u.qty ∧ u.price = part.trade.price ∧ u.time = part.trade.time := by
    intro u hu
    obtain ⟨call, hcall, rfl⟩ := List.mem_map.mp hu
    have hmem : call.1 ∈ ((part, now) :: rest).map Prod.fst :=
      List.mem_map_of_mem (List.mem_cons_of_mem _ hcall)
    have hside : part.val.side = call.1.val.side :=
      (h.side part List.mem_cons_self).trans (h.side call.1 hmem).symm
    refine ⟨part.signedQty_side.symm.trans (hside ▸ call.1.signedQty_side), ?_, ?_⟩
    · exact (h.price call.1 hmem).trans (h.price part List.mem_cons_self).symm
    · exact (h.time call.1 hmem).trans (h.time part List.mem_cons_self).symm
  have hmerged := (holdingOf position).trades_eq_trade part.trade hparts
  rw [hnet] at hmerged
  have hprice : part.trade.price = whole.val.price := h.price part List.mem_cons_self
  have htime : part.trade.time = whole.val.timeUtc := h.time part List.mem_cons_self
  rw [hprice, htime] at hmerged
  exact hmerged

theorem applyFills_split {strategyId : String} {position : Option Position} {whole : Fill}
    {now : Datetime} {parts : List (Fill × Datetime)} (hsplit : SplitOf whole (parts.map Prod.fst))
    (hnow : now.utcOffset = some 0) (hutc : ∀ call ∈ parts, call.2.utcOffset = some 0) :
    (applyFills strategyId position parts).map (·.map economics) =
      (applyFill position whole strategyId now).map (some ∘ economics) := by
  cases parts with
  | nil =>
    have hzero := hsplit.quantity
    exact absurd hzero whole.quantity_pos.ne
  | cons call rest =>
    obtain ⟨part, partNow⟩ := call
    obtain ⟨hpartNow, hrestNow⟩ := List.forall_mem_cons.mp hutc
    obtain ⟨hpart, hrest⟩ := List.forall_mem_cons.mp hsplit.instrument
    have hcongr := checkFill_congr hpart position strategyId
    cases hchecks : checkFill position part strategyId with
    | error e =>
      rw [applyFills_cons_error hchecks, applyFill_eq, ← hcongr, hchecks]
      rfl
    | ok _ =>
      have hrestInstrument : ∀ call ∈ rest, call.1.val.instrument = part.val.instrument :=
        fun call hcall => (hrest call.1 (List.mem_map_of_mem hcall)).trans hpart.symm
      obtain ⟨final, hfinal, hfinalInstrument, hfinalHolding⟩ :=
        applyFills_ok hchecks hpartNow hrestInstrument hrestNow
      obtain ⟨next, hnext, hfields⟩ := applyFill_ok (hcongr.symm.trans hchecks) hnow
      rw [hfinal, hnext]
      have hinstrument : final.val.instrument = next.val.instrument := by
        rw [hfinalInstrument, hpart, hfields]
        rfl
      have hholding : holdingOf (some final) = holdingOf (some next) := by
        rw [hfinalHolding, holdingOf_applied hfields]
        exact hsplit.trades_eq position
      exact congrArg (fun e => Except.ok (some e)) (economics_eq hholding hinstrument)

/-! ## Reordering -/

theorem checkFill_error_of_strategy {position : Option Position} {fill : Fill} {strategyId : String}
    {e : PyError} (h : checkStrategy position strategyId = .error e) :
    checkFill position fill strategyId = .error e := by
  rw [checkFill, h]
  rfl

/-- The only exception a mismatched instrument raises. -/
theorem checkInstrument_cases (position : Option Position) (fill : Fill) :
    checkInstrument position fill = .ok () ∨
      checkInstrument position fill = .error (.valueError "instrument mismatch: ") := by
  cases position with
  | none => exact .inl rfl
  | some position =>
    unfold checkInstrument require
    dsimp only
    split_ifs
    · exact .inl rfl
    · exact .inl rfl
    · exact .inr rfl

/-- A position that is not flat refuses a fill of another instrument. -/
theorem checkInstrument_mismatch {position : Position} {fill : Fill}
    (hopen : position.val.quantity ≠ 0) (hne : position.val.instrument ≠ fill.val.instrument) :
    checkInstrument (some position) fill = .error (.valueError "instrument mismatch: ") := by
  simp [checkInstrument, hopen, require, hne]

theorem checkFill_mismatch {position : Option Position} {fill : Fill} {strategyId : String}
    (hstrategy : checkStrategy position strategyId = .ok ())
    (hinstrument : checkInstrument position fill = .error (.valueError "instrument mismatch: ")) :
    checkFill position fill strategyId = .error (.valueError "instrument mismatch: ") := by
  rw [checkFill, hstrategy]
  exact hinstrument

/-- Fills on the side of the position, or of a flat one, that are not all of one instrument:
whichever comes first, a later one is refused. -/
theorem applyFills_mixed {strategyId : String} {side : OrderSide} {position : Option Position}
    {fill : Fill} {now : Datetime} {rest : List (Fill × Datetime)}
    (hstrategy : checkStrategy position strategyId = .ok ())
    (hside : quantityOf position = 0 ∨ SameSide side.sign (quantityOf position))
    (hfills : ∀ call ∈ (fill, now) :: rest, call.1.val.side = side)
    (hutc : ∀ call ∈ (fill, now) :: rest, call.2.utcOffset = some 0)
    (hmixed : ∃ other ∈ rest.map Prod.fst, other.val.instrument ≠ fill.val.instrument) :
    applyFills strategyId position ((fill, now) :: rest) =
      .error (.valueError "instrument mismatch: ") := by
  induction rest generalizing position fill now with
  | nil =>
    obtain ⟨other, hother, -⟩ := hmixed
    cases hother
  | cons call rest ih =>
    obtain ⟨later, laterNow⟩ := call
    rcases checkInstrument_cases position fill with hinstrument | hinstrument
    · obtain ⟨hfill, hlater⟩ := List.forall_mem_cons.mp hfills
      obtain ⟨hnow, hlaterNow⟩ := List.forall_mem_cons.mp hutc
      obtain ⟨next, hok, hnext⟩ :=
        applyFill_ok (checkFill_eq_ok_iff.mpr ⟨hstrategy, hinstrument⟩) hnow
      have hfillSide : SameSide side.sign fill.signedQty := by
        rw [← hfill]
        exact fill.signedQty_side
      have hnextSide : SameSide side.sign next.val.quantity := by
        rw [applyFill_quantity hok]
        rcases hside with hzero | hside
        · rwa [hzero, zero_add]
        · exact SameSide.add hside hfillSide
      rw [applyFills, hok]
      show applyFills strategyId (some next) ((later, laterNow) :: rest) = _
      by_cases hsame : later.val.instrument = fill.val.instrument
      · have hchecks : checkFill (some next) later strategyId = .ok () :=
          checkFill_next (checkStrategy_ne_empty hstrategy) hnext hsame
        apply ih (checkFill_eq_ok_iff.mp hchecks).1 (.inr hnextSide) hlater hlaterNow
        obtain ⟨other, hother, hne⟩ := hmixed
        rcases List.mem_cons.mp hother with rfl | hother
        · exact absurd hsame hne
        · exact ⟨other, hother, hsame ▸ hne⟩
      · have hself : checkFill (some next) fill strategyId = .ok () :=
          checkFill_next (checkStrategy_ne_empty hstrategy) hnext rfl
        apply applyFills_cons_error
        apply checkFill_mismatch (checkFill_eq_ok_iff.mp hself).1
        apply checkInstrument_mismatch hnextSide.right_ne_zero
        rw [hnext]
        exact Ne.symm hsame
    · exact applyFills_cons_error (checkFill_mismatch hstrategy hinstrument)

/-- Fills that are not all of the instrument of the first are not all of any other's. -/
theorem mixed_of_perm {fill other : Fill} {rest others : List Fill}
    (hperm : (fill :: rest).Perm (other :: others))
    (hmixed : ∃ a ∈ rest, a.val.instrument ≠ fill.val.instrument) :
    ∃ a ∈ others, a.val.instrument ≠ other.val.instrument := by
  by_contra hone
  push Not at hone
  have hall : ∀ a ∈ fill :: rest, a.val.instrument = other.val.instrument := by
    intro a ha
    rcases List.mem_cons.mp (hperm.mem_iff.mp ha) with rfl | ha
    · rfl
    · exact hone a ha
  obtain ⟨a, ha, hne⟩ := hmixed
  exact hne ((hall a (List.mem_cons_of_mem _ ha)).trans (hall fill List.mem_cons_self).symm)

/-- The final quantity and average cost. -/
def exposure (position : Option Position) : Decimal × Decimal :=
  (quantityOf position, (holdingOf position).avgCost)

theorem exposure_eq {a b : Option Position}
    (hquantity : (holdingOf a).quantity = (holdingOf b).quantity)
    (hcost : (holdingOf a).avgCost = (holdingOf b).avgCost) : exposure a = exposure b := by
  rw [exposure, exposure, ← holdingOf_quantity, ← holdingOf_quantity, hquantity, hcost]

/-- Two histories of one instrument, a reordering of each other, lead to one exposure. -/
theorem applyFills_perm_same {strategyId : String} {position : Option Position} {side : OrderSide}
    {fill other : Fill} {now now' : Datetime} {rest rest' : List (Fill × Datetime)}
    (hside : quantityOf position = 0 ∨ SameSide side.sign (quantityOf position))
    (hfills : ∀ call ∈ (fill, now) :: rest, call.1.val.side = side)
    (hutc : ∀ call ∈ (fill, now) :: rest, call.2.utcOffset = some 0)
    (hutc' : ∀ call ∈ (other, now') :: rest', call.2.utcOffset = some 0)
    (hperm : (((fill, now) :: rest).map Prod.fst).Perm (((other, now') :: rest').map Prod.fst))
    (hsame : ∀ call ∈ rest, call.1.val.instrument = fill.val.instrument)
    (hsame' : ∀ call ∈ rest', call.1.val.instrument = other.val.instrument)
    (hheads : fill.val.instrument = other.val.instrument) :
    (applyFills strategyId position ((fill, now) :: rest)).map exposure =
      (applyFills strategyId position ((other, now') :: rest')).map exposure := by
  have hcongr := checkFill_congr hheads position strategyId
  cases hchecks : checkFill position fill strategyId with
  | error e => rw [applyFills_cons_error hchecks, applyFills_cons_error (hcongr.symm.trans hchecks)]
  | ok _ =>
    obtain ⟨hnow, hrest⟩ := List.forall_mem_cons.mp hutc
    obtain ⟨hnow', hrest'⟩ := List.forall_mem_cons.mp hutc'
    obtain ⟨final, hfinal, -, hholding⟩ := applyFills_ok hchecks hnow hsame hrest
    obtain ⟨final', hfinal', -, hholding'⟩ :=
      applyFills_ok (hcongr.symm.trans hchecks) hnow' hsame' hrest'
    have hsides : ∀ t ∈ tradesOf ((fill, now) :: rest), SameSide side.sign t.qty := by
      intro t ht
      obtain ⟨call, hcall, rfl⟩ := List.mem_map.mp ht
      exact hfills call hcall ▸ call.1.signedQty_side
    have htrades : (tradesOf ((fill, now) :: rest)).Perm (tradesOf ((other, now') :: rest')) := by
      have hmap := hperm.map Fill.trade
      rwa [List.map_map, List.map_map] at hmap
    have hstart : (holdingOf position).quantity = 0 ∨
        SameSide side.sign (holdingOf position).quantity := by rwa [holdingOf_quantity]
    obtain ⟨hquantity, hcost⟩ := Holding.trades_perm hsides hstart htrades
    rw [← hholding, ← hholding'] at hquantity hcost
    rw [hfinal, hfinal']
    exact congrArg Except.ok (exposure_eq hquantity hcost)

theorem applyFills_perm {strategyId : String} {position : Option Position} {side : OrderSide}
    {fills reordered : List (Fill × Datetime)}
    (hside : quantityOf position = 0 ∨ SameSide side.sign (quantityOf position))
    (hfills : ∀ call ∈ fills, call.1.val.side = side)
    (hutc : ∀ call ∈ fills, call.2.utcOffset = some 0)
    (hutc' : ∀ call ∈ reordered, call.2.utcOffset = some 0)
    (hperm : (fills.map Prod.fst).Perm (reordered.map Prod.fst)) :
    (applyFills strategyId position fills).map exposure =
      (applyFills strategyId position reordered).map exposure := by
  have hreordered : ∀ call ∈ reordered, call.1.val.side = side := by
    intro call hcall
    obtain ⟨call', hcall', heq⟩ :=
      List.mem_map.mp (hperm.mem_iff.mpr (List.mem_map_of_mem hcall))
    rw [← heq]
    exact hfills call' hcall'
  cases fills with
  | nil =>
    cases reordered with
    | nil => rfl
    | cons call rest => cases hperm.nil_eq
  | cons call rest =>
    cases reordered with
    | nil => cases hperm.eq_nil
    | cons call' rest' =>
      obtain ⟨fill, now⟩ := call
      obtain ⟨other, now'⟩ := call'
      cases hstrategy : checkStrategy position strategyId with
      | error e =>
        rw [applyFills_cons_error (checkFill_error_of_strategy hstrategy),
          applyFills_cons_error (checkFill_error_of_strategy hstrategy)]
      | ok _ =>
        by_cases hmixed : ∃ a ∈ rest.map Prod.fst, a.val.instrument ≠ fill.val.instrument
        · have hmixed' := mixed_of_perm hperm hmixed
          rw [applyFills_mixed hstrategy hside hfills hutc hmixed,
            applyFills_mixed hstrategy hside hreordered hutc' hmixed']
        · have hmixed' := mt (mixed_of_perm hperm.symm) hmixed
          push Not at hmixed hmixed'
          have hmem : other ∈ fill :: rest.map Prod.fst := hperm.mem_iff.mpr List.mem_cons_self
          have hheads : fill.val.instrument = other.val.instrument := by
            rcases List.mem_cons.mp hmem with rfl | hmem
            · rfl
            · exact (hmixed other hmem).symm
          exact applyFills_perm_same hside hfills hutc hutc' hperm
            (fun call hcall => hmixed call.1 (List.mem_map_of_mem hcall))
            (fun call hcall => hmixed' call.1 (List.mem_map_of_mem hcall)) hheads

/-- Booking a fill in parts, also through flat into a flip, comes to booking it whole; and
fills that only build a position up may be booked in any order. -/
theorem applyFill_split_and_reorder (strategyId : String) (position : Option Position) :
    (∀ (whole : Fill) (now : Datetime) (parts : List (Fill × Datetime)),
      SplitOf whole (parts.map Prod.fst) → now.utcOffset = some 0 →
      (∀ call ∈ parts, call.2.utcOffset = some 0) →
        (applyFills strategyId position parts).map (·.map economics) =
          (applyFill position whole strategyId now).map (some ∘ economics)) ∧
    ∀ (side : OrderSide) (fills reordered : List (Fill × Datetime)),
      (quantityOf position = 0 ∨ SameSide side.sign (quantityOf position)) →
      (∀ call ∈ fills, call.1.val.side = side) →
      (∀ call ∈ fills, call.2.utcOffset = some 0) →
      (∀ call ∈ reordered, call.2.utcOffset = some 0) →
      (fills.map Prod.fst).Perm (reordered.map Prod.fst) →
        (applyFills strategyId position fills).map exposure =
          (applyFills strategyId position reordered).map exposure :=
  ⟨fun _ _ _ hsplit hnow hutc => applyFills_split hsplit hnow hutc,
    fun _ _ _ hside hfills hutc hutc' hperm => applyFills_perm hside hfills hutc hutc' hperm⟩

/-- A short of four shares that a buy of ten in two parts turns long, and two buys from flat in
either order. -/
theorem applyFill_split_and_reorder_flip :
    (applyFills "trend" (some sampleShort)
        [(sampleExecution 3 90, ⟨8, some 0⟩),
          (sampleExecution 7 90, ⟨9, some 0⟩)]).map (·.map economics) =
      (applyFill (some sampleShort) (sampleExecution 10 90) "trend"
        ⟨7, some 0⟩).map (some ∘ economics) ∧
    (applyFills "trend" none
        [(sampleExecution 3 90, ⟨8, some 0⟩),
          (sampleExecution 7 95, ⟨9, some 0⟩)]).map exposure =
      (applyFills "trend" none
        [(sampleExecution 7 95, ⟨8, some 0⟩),
          (sampleExecution 3 90, ⟨9, some 0⟩)]).map exposure :=
  ⟨(applyFill_split_and_reorder "trend" (some sampleShort)).1 _ _ _
      ⟨by simp [sampleExecution], by simp [sampleExecution], by simp [sampleExecution],
        by simp [sampleExecution], by decide +kernel⟩ rfl (by simp),
    (applyFill_split_and_reorder "trend" none).2 .buy _ _ (.inl rfl) (by simp [sampleExecution])
      (by simp) (by simp) (List.Perm.swap ..)⟩

end Blive
