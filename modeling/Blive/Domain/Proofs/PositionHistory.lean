import Mathlib.Data.PNat.Defs
import Blive.Misc.AverageCost
import Blive.Domain.Positions

/-!
# Positions over a history of fills

`apply_fill` is average-cost accounting: the quantity, the average cost and the opening time
of a position are a holding, a fill is a trade of its signed quantity, and every call that
returns does to the holding what the trade does. What is proved of holdings is therefore
true of the positions a history of fills builds.
-/

namespace Blive

open AverageCost

/-- What `apply_fill` reads of the fill. -/
def Fill.trade (fill : Fill) : Trade Decimal Datetime :=
  ⟨fill.signedQty, fill.val.price, fill.val.timeUtc⟩

/-- The holding of a position; no position is a flat one. -/
def holdingOf : Option Position → Holding Decimal Datetime
  | none => .flat
  | some position => ⟨position.val.quantity, position.val.avgCost, position.val.openedAt⟩

theorem holdingOf_some (position : Position) : holdingOf (some position) =
    ⟨position.val.quantity, position.val.avgCost, position.val.openedAt⟩ := rfl

@[simp] theorem holdingOf_quantity (position : Option Position) :
    (holdingOf position).quantity = quantityOf position := by
  cases position <;> rfl

theorem Fill.signedQty_ne_zero (fill : Fill) : fill.signedQty ≠ 0 := by
  have h := fill.quantity_pos
  unfold Fill.signedQty
  split
  · exact h.ne'
  · exact neg_ne_zero.mpr h.ne'

/-- The offset every time of a position has. -/
def IsUtc (t : Datetime) : Prop := t.utcOffset = some 0

theorem holdingOf_sound (position : Option Position) : (holdingOf position).Sound IsUtc := by
  cases position with
  | none => exact ⟨fun _ => rfl, fun hne => absurd rfl hne, fun hne => absurd rfl hne⟩
  | some position =>
    obtain ⟨-, -, -, hflat, hopen, -⟩ := (Position.valid_iff position.val).mp position.valid
    exact ⟨hflat, fun hne => (hopen hne).1, fun hne => (hopen hne).2⟩

/-! ## One fill -/

/-- The check of the strategy: that of the position there is, or that of the one to be built. -/
def checkStrategy (position : Option Position) (strategyId : String) : Except PyError Unit :=
  match position with
  | none => require (strategyId ≠ "") (.valueError "Position.strategy_id must be non-empty")
  | some position =>
      if position.val.quantity = 0 then
        require (strategyId ≠ "") (.valueError "Position.strategy_id must be non-empty")
      else require (position.val.strategyId = strategyId) (.valueError "strategy_id mismatch: ")

/-- The check of the instrument, made of a position that is not flat. -/
def checkInstrument (position : Option Position) (fill : Fill) : Except PyError Unit :=
  match position with
  | none => .ok ()
  | some position =>
      if position.val.quantity = 0 then .ok ()
      else require (position.val.instrument = fill.val.instrument)
        (.valueError "instrument mismatch: ")

/-- The checks `apply_fill` makes before its arithmetic, and the only one of the position it
builds that can fail when `now` is in UTC. -/
def checkFill (position : Option Position) (fill : Fill) (strategyId : String) :
    Except PyError Unit := do
  checkStrategy position strategyId
  checkInstrument position fill

/-- The position of the holding after the fill. -/
def appliedFields (position : Option Position) (fill : Fill) (strategyId : String)
    (now : Datetime) : PositionFields :=
  let holding := (holdingOf position).trade fill.trade
  { instrument := fill.val.instrument
    strategyId := strategyId
    quantity := holding.quantity
    avgCost := holding.avgCost
    currency := fill.val.instrument.val.currency
    openedAt := holding.openedAt
    updatedAt := now }

theorem openPosition_eq {position : Option Position} (hflat : quantityOf position = 0) (fill : Fill)
    (strategyId : String) (now : Datetime) :
    openPosition fill strategyId now = appliedFields position fill strategyId now := by
  unfold appliedFields
  rw [Holding.trade_open (by rw [holdingOf_quantity, hflat])]
  rfl

/-- The absolute value changes nothing: both notionals and the new quantity have one sign. -/
theorem abs_mean {a b x y : Decimal} (hside : SameSide a b) (hx : 0 < x) (hy : 0 < y) :
    |(a * x + b * y) / (a + b)| = (a * x + b * y) / (a + b) :=
  abs_of_pos ((lt_min hx hy).trans_le (min_le_mean hside))

/-- Two quantities of different sign, as the source compares them. -/
theorem pos_ne_pos_iff {a b : Decimal} (ha : a ≠ 0) (hb : b ≠ 0) :
    (a > 0) ≠ (b > 0) ↔ ¬ SameSide a b := by
  rcases lt_or_gt_of_ne ha with ha | ha <;> rcases lt_or_gt_of_ne hb with hb | hb <;>
    simp [SameSide, ha, hb, ha.not_gt, hb.not_gt]

theorem adjustPosition_eq {position : Position} (hopen : position.val.quantity ≠ 0) {fill : Fill}
    (hinstrument : position.val.instrument = fill.val.instrument) (now : Datetime) :
    adjustPosition position.val fill now =
      appliedFields (some position) fill position.val.strategyId now := by
  obtain ⟨-, -, hcurrency, -, hpositive, -⟩ := (Position.valid_iff position.val).mp position.valid
  have hcost : 0 < position.val.avgCost := (hpositive hopen).1
  have hiff : (position.val.quantity > 0 ∧ fill.signedQty > 0 ∨
      position.val.quantity < 0 ∧ fill.signedQty < 0) ↔
        SameSide position.val.quantity fill.signedQty := Iff.rfl
  unfold adjustPosition appliedFields
  simp only [hiff]
  by_cases hadd : SameSide position.val.quantity fill.signedQty
  · rw [if_pos hadd, Holding.trade_add (t := fill.trade) (h := holdingOf (some position)) hadd,
      abs_mean hadd hcost fill.price_pos, ← hinstrument, ← hcurrency]
    rfl
  rw [if_neg hadd]
  by_cases hclose : position.val.quantity + fill.signedQty = 0
  · rw [if_pos hclose,
      Holding.trade_close (t := fill.trade) (h := holdingOf (some position)) hopen hadd hclose,
      ← hinstrument, ← hcurrency]
    rfl
  rw [if_neg hclose]
  by_cases hkeep : SameSide position.val.quantity (position.val.quantity + fill.signedQty)
  · rw [if_neg ((pos_ne_pos_iff hopen hclose).not.mpr (not_not.mpr hkeep)),
      Holding.trade_reduce (t := fill.trade) (h := holdingOf (some position)) hadd hkeep,
      ← hinstrument, ← hcurrency]
    rfl
  · rw [if_pos ((pos_ne_pos_iff hopen hclose).mpr hkeep),
      Holding.trade_flip (t := fill.trade) (h := holdingOf (some position)) hopen hadd hclose hkeep,
      ← hinstrument, ← hcurrency]
    rfl

/-- Only a named strategy is accepted. -/
theorem checkStrategy_ne_empty {position : Option Position} {strategyId : String}
    (h : checkStrategy position strategyId = .ok ()) : strategyId ≠ "" := by
  cases position with
  | none => exact require_eq_ok_iff.mp h
  | some position =>
    unfold checkStrategy at h
    dsimp only at h
    split at h
    · exact require_eq_ok_iff.mp h
    · rw [← require_eq_ok_iff.mp h]
      exact ((Position.valid_iff position.val).mp position.valid).1

theorem checkFill_eq_ok_iff {position : Option Position} {fill : Fill} {strategyId : String} :
    checkFill position fill strategyId = .ok () ↔
      checkStrategy position strategyId = .ok () ∧ checkInstrument position fill = .ok () := by
  simp only [checkFill, bind_eq_ok_iff]
  exact ⟨fun ⟨(), h⟩ => h, fun h => ⟨(), h⟩⟩

/-- What is accepted is a valid position. -/
theorem appliedFields_valid {position : Option Position} {fill : Fill} {strategyId : String}
    {now : Datetime} (hchecks : checkFill position fill strategyId = .ok ())
    (hnow : now.utcOffset = some 0) :
    postInit (appliedFields position fill strategyId now) = .ok () := by
  have hsound := (holdingOf_sound position).trade (t := fill.trade) fill.signedQty_ne_zero
    fill.price_pos fill.time_utc
  have hstrategy := checkStrategy_ne_empty (checkFill_eq_ok_iff.mp hchecks).1
  exact (Position.valid_iff _).mpr ⟨hstrategy, Instrument.iso_currency _ _, rfl, hsound.flat,
    fun hne => ⟨hsound.cost_pos hne, hsound.opened hne⟩, hnow⟩

theorem make_openPosition {position : Option Position} (hflat : quantityOf position = 0)
    (fill : Fill) (strategyId : String) {now : Datetime} :
    Frozen.make (openPosition fill strategyId now) =
      require (strategyId ≠ "") (.valueError "Position.strategy_id must be non-empty") >>= fun _ =>
        Frozen.make (appliedFields position fill strategyId now) := by
  rw [openPosition_eq hflat]
  by_cases hstrategy : strategyId = ""
  · have herror : postInit (appliedFields position fill strategyId now) =
        .error (.valueError "Position.strategy_id must be non-empty") := by
      simp [postInit, appliedFields, hstrategy, require, bind, Except.bind]
    rw [Frozen.make_of_error herror]
    simp [require, hstrategy, bind, Except.bind]
  · simp [require, hstrategy, bind, Except.bind]

/-- `apply_fill` is its checks followed by the trade. -/
theorem applyFill_eq (position : Option Position) (fill : Fill) (strategyId : String)
    (now : Datetime) :
    applyFill position fill strategyId now =
      checkFill position fill strategyId >>= fun _ =>
        Frozen.make (appliedFields position fill strategyId now) := by
  cases position with
  | none =>
    have hflat : quantityOf none = 0 := rfl
    unfold checkFill
    rw [bind_assoc]
    exact make_openPosition hflat fill strategyId
  | some position =>
    unfold applyFill checkFill checkStrategy checkInstrument
    dsimp only
    by_cases hq : position.val.quantity = 0
    · have hflat : quantityOf (some position) = 0 := hq
      rw [if_pos hq, if_pos hq, if_pos hq, make_openPosition hflat, bind_assoc]
      rfl
    · rw [if_neg hq, if_neg hq, if_neg hq]
      by_cases hstrategy : position.val.strategyId = strategyId
      · by_cases hinstrument : position.val.instrument = fill.val.instrument
        · rw [adjustPosition_eq hq hinstrument]
          simp [require, hstrategy, hinstrument, bind, Except.bind]
        · simp [require, hstrategy, hinstrument, bind, Except.bind]
      · simp [require, hstrategy, bind, Except.bind]

theorem applyFill_ok {position : Option Position} {fill : Fill} {strategyId : String}
    {now : Datetime} (hchecks : checkFill position fill strategyId = .ok ())
    (hnow : now.utcOffset = some 0) :
    ∃ next, applyFill position fill strategyId now = .ok next ∧
      next.val = appliedFields position fill strategyId now := by
  refine ⟨⟨appliedFields position fill strategyId now, appliedFields_valid hchecks hnow⟩, ?_, rfl⟩
  rw [applyFill_eq, hchecks]
  exact Frozen.make_of_valid _

/-- After a fill, fills of its instrument are accepted. -/
theorem checkFill_next {position : Option Position} {fill later : Fill} {strategyId : String}
    {now : Datetime} {next : Position} (hstrategy : strategyId ≠ "")
    (hnext : next.val = appliedFields position fill strategyId now)
    (hinstrument : later.val.instrument = fill.val.instrument) :
    checkFill (some next) later strategyId = .ok () := by
  have hs : next.val.strategyId = strategyId := by rw [hnext]; rfl
  have hi : next.val.instrument = later.val.instrument := by rw [hnext, hinstrument]; rfl
  apply checkFill_eq_ok_iff.mpr
  unfold checkStrategy checkInstrument
  dsimp only
  split
  · exact ⟨require_eq_ok_iff.mpr hstrategy, rfl⟩
  · exact ⟨require_eq_ok_iff.mpr hs, require_eq_ok_iff.mpr hi⟩

/-! ## A history of fills -/

/-- The fold of `apply_fill` over fills, each with the `now` of its call. -/
def applyFills (strategyId : String) :
    Option Position → List (Fill × Datetime) → Except PyError (Option Position)
  | position, [] => .ok position
  | position, (fill, now) :: rest => do
      let next ← applyFill position fill strategyId now
      applyFills strategyId (some next) rest

/-- The trades of a history. -/
def tradesOf (fills : List (Fill × Datetime)) : List (Trade Decimal Datetime) :=
  fills.map fun call => call.1.trade

theorem holdingOf_applied {position : Option Position} {fill : Fill} {strategyId : String}
    {now : Datetime} {next : Position}
    (hnext : next.val = appliedFields position fill strategyId now) :
    holdingOf (some next) = (holdingOf position).trade fill.trade := by
  rw [holdingOf_some, hnext]
  rfl

theorem applyFills_cons_error {position : Option Position} {fill : Fill} {now : Datetime}
    {strategyId : String} {rest : List (Fill × Datetime)} {e : PyError}
    (hchecks : checkFill position fill strategyId = .error e) :
    applyFills strategyId position ((fill, now) :: rest) = .error e := by
  rw [applyFills, applyFill_eq, hchecks]
  rfl

/-- Fills of one instrument, the first of which is accepted, are all booked, and the position
is the holding the trades lead to. -/
theorem applyFills_ok {strategyId : String} {position : Option Position} {fill : Fill}
    {now : Datetime} {rest : List (Fill × Datetime)}
    (hchecks : checkFill position fill strategyId = .ok ()) (hnow : now.utcOffset = some 0)
    (hinstrument : ∀ call ∈ rest, call.1.val.instrument = fill.val.instrument)
    (hutc : ∀ call ∈ rest, call.2.utcOffset = some 0) :
    ∃ final, applyFills strategyId position ((fill, now) :: rest) = .ok (some final) ∧
      final.val.instrument = fill.val.instrument ∧
      holdingOf (some final) = (holdingOf position).trades (tradesOf ((fill, now) :: rest)) := by
  have hstrategy := checkStrategy_ne_empty (checkFill_eq_ok_iff.mp hchecks).1
  induction rest generalizing position fill now with
  | nil =>
    obtain ⟨next, hok, hnext⟩ := applyFill_ok hchecks hnow
    refine ⟨next, ?_, by rw [hnext]; rfl, holdingOf_applied hnext⟩
    rw [applyFills, hok]
    rfl
  | cons call rest ih =>
    obtain ⟨later, laterNow⟩ := call
    obtain ⟨next, hok, hnext⟩ := applyFill_ok hchecks hnow
    obtain ⟨hlater, hrest⟩ := List.forall_mem_cons.mp hinstrument
    obtain ⟨hlaterNow, hrestNow⟩ := List.forall_mem_cons.mp hutc
    obtain ⟨final, hfinal, hfinalInstrument, hholding⟩ :=
      ih (checkFill_next hstrategy hnext hlater) hlaterNow
        (fun c hc => (hrest c hc).trans hlater.symm) hrestNow
    refine ⟨final, ?_, hfinalInstrument.trans hlater, ?_⟩
    · rw [applyFills, hok]
      exact hfinal
    · rw [hholding, holdingOf_applied hnext]
      rfl

theorem Fill.signedQty_eq (fill : Fill) :
    fill.signedQty = fill.val.side.sign * fill.val.quantity := by
  unfold Fill.signedQty
  cases fill.val.side <;> simp [OrderSide.sign]

theorem Fill.signedQty_side (fill : Fill) : SameSide fill.val.side.sign fill.signedQty := by
  have h := fill.quantity_pos
  rw [fill.signedQty_eq]
  cases fill.val.side
  · exact .inl ⟨one_pos, by simpa [OrderSide.sign] using h⟩
  · exact .inr ⟨by simp [OrderSide.sign], by simpa [OrderSide.sign] using h⟩

/-- The signed sum of the fill quantities. -/
def signedSum (fills : List Fill) : Decimal := (fills.map Fill.signedQty).sum

/-- `fills` end in the run that `opening` started: before it the signed sum was zero or of the
other sign, and after every fill since then it has had the sign it has now. -/
structure SinceOpened (fills before : List Fill) (opening : Fill) (later : List Fill) : Prop where
  split : fills = before ++ opening :: later
  starts : ¬ SameSide (signedSum before) (signedSum fills)
  stays : ∀ mid, mid <+: later → SameSide (signedSum (before ++ opening :: mid)) (signedSum fills)

/-- The books are right: `position` is what the fills add up to, and its cost and opening time
are those of the run it is in. -/
structure BooksOf (fills : List Fill) (position : PositionFields) : Prop where
  quantity : position.quantity = signedSum fills
  flat_iff_avgCost : position.quantity = 0 ↔ position.avgCost = 0
  flat_iff_openedAt : position.quantity = 0 ↔ position.openedAt = none
  current : position.quantity ≠ 0 → ∃ before opening later,
    SinceOpened fills before opening later ∧ position.openedAt = some opening.val.timeUtc ∧
    (∃ low ∈ opening :: later, SameSide low.signedQty position.quantity ∧
      low.val.price ≤ position.avgCost) ∧
    ∃ high ∈ opening :: later, SameSide high.signedQty position.quantity ∧
      position.avgCost ≤ high.val.price

theorem net_trades (fills : List Fill) : net (fills.map Fill.trade) = signedSum fills := by
  unfold net signedSum
  rw [List.map_map]
  rfl

/-- The run of the trades is a run of the fills. -/
theorem SinceOpened.of_currentRun {fills : List Fill} {before later : List (Trade Decimal Datetime)}
    {opening : Trade Decimal Datetime}
    (hrun : CurrentRun (fills.map Fill.trade) before opening later) :
    ∃ before' opening' later', SinceOpened fills before' opening' later' ∧
      opening = opening'.trade ∧ later = later'.map Fill.trade := by
  obtain ⟨before', rest, rfl, rfl, hrest⟩ := List.map_eq_append_iff.mp hrun.split
  obtain ⟨opening', later', rfl, rfl, rfl⟩ := List.map_eq_cons_iff.mp hrest
  refine ⟨before', opening', later', ⟨rfl, ?_, ?_⟩, rfl, rfl⟩
  · rw [← net_trades, ← net_trades]
    exact hrun.starts
  · intro mid hmid
    have hstays := hrun.stays (mid.map Fill.trade) (hmid.map Fill.trade)
    rw [← List.map_cons, ← List.map_append, net_trades, net_trades] at hstays
    exact hstays

/-- A position whose holding tracks the fills has their books. -/
theorem BooksOf.of_tracks {fills : List Fill} {position : Position}
    (htracks : Tracks (fills.map Fill.trade) (holdingOf (some position))) :
    BooksOf fills position.val := by
  have hquantity : position.val.quantity = signedSum fills :=
    htracks.quantity.trans (net_trades fills)
  have hsound := holdingOf_sound (some position)
  have hflat : position.val.quantity = 0 → holdingOf (some position) = .flat := by
    intro hzero
    apply htracks.closed
    rw [← htracks.quantity]
    exact hzero
  refine ⟨hquantity, ⟨?_, ?_⟩, ⟨hsound.flat, ?_⟩, ?_⟩
  · intro hzero
    exact congrArg Holding.avgCost (hflat hzero)
  · intro hcost
    by_contra hne
    exact (hsound.cost_pos hne).ne' hcost
  · intro hnone
    by_contra hne
    obtain ⟨t, ht, -⟩ := hsound.opened hne
    rw [holdingOf_some, hnone] at ht
    cases ht
  · intro hne
    have hnet : net (fills.map Fill.trade) ≠ 0 := by rwa [net_trades, ← hquantity]
    obtain ⟨before, opening, later, hrun, hopened, hlow, hhigh⟩ := htracks.current hnet
    obtain ⟨before', opening', later', hsince, rfl, rfl⟩ := SinceOpened.of_currentRun hrun
    rw [net_trades, ← hquantity, ← List.map_cons] at hlow hhigh
    obtain ⟨_, hlowTrade, hlow⟩ := hlow
    obtain ⟨low, hlowMem, rfl⟩ := List.mem_map.mp hlowTrade
    obtain ⟨_, hhighTrade, hhigh⟩ := hhigh
    obtain ⟨high, hhighMem, rfl⟩ := List.mem_map.mp hhighTrade
    exact ⟨before', opening', later', hsince, hopened, ⟨low, hlowMem, hlow⟩,
      ⟨high, hhighMem, hhigh⟩⟩

/-- An execution that bought shares of `sampleInstrument`. -/
def sampleExecution (quantity price : ℕ+) : Fill :=
  ⟨⟨1, "o1", "e1", sampleInstrument, .buy, (quantity : ℕ), (price : ℕ), 0, "EUR", ⟨5, some 0⟩⟩,
    (Fill.valid_iff _).mpr ⟨by simp,
      ⟨Nat.cast_pos.mpr quantity.pos, Nat.cast_pos.mpr price.pos⟩, le_rfl,
      sampleInstrument.iso_currency _, rfl⟩⟩

/-- A position that is four shares of `sampleInstrument` short. -/
def sampleShort : Position :=
  ⟨⟨sampleInstrument, "trend", -4, 100, "EUR", some ⟨1, some 0⟩, ⟨2, some 0⟩⟩, by decide +kernel⟩

/-- From no position, under one strategy and for one instrument, no history of fills makes
`apply_fill` raise, and the books are right after every one of them. -/
theorem applyFills_booksOf {strategyId : String} {instrument : Instrument}
    {fills : List (Fill × Datetime)} (hstrategy : strategyId ≠ "")
    (hinstrument : ∀ call ∈ fills, call.1.val.instrument = instrument)
    (hutc : ∀ call ∈ fills, call.2.utcOffset = some 0) :
    ∀ booked, booked <+: fills → booked ≠ [] → ∃ position,
      applyFills strategyId none booked = .ok (some position) ∧
        BooksOf (booked.map Prod.fst) position.val := by
  intro booked hprefix hne
  cases booked with
  | nil => exact absurd rfl hne
  | cons call rest =>
    obtain ⟨fill, now⟩ := call
    have hmem : ∀ call ∈ (fill, now) :: rest, call ∈ fills := fun _ hcall => hprefix.subset hcall
    have hfirst : fill.val.instrument = instrument := hinstrument _ (hmem _ List.mem_cons_self)
    have hrest : ∀ call ∈ rest, call.1.val.instrument = fill.val.instrument := fun call hcall =>
      (hinstrument _ (hmem _ (List.mem_cons_of_mem _ hcall))).trans hfirst.symm
    have hchecks : checkFill none fill strategyId = .ok () :=
      checkFill_eq_ok_iff.mpr ⟨require_eq_ok_iff.mpr hstrategy, rfl⟩
    obtain ⟨position, hok, -, hholding⟩ :=
      applyFills_ok hchecks (hutc _ (hmem _ List.mem_cons_self)) hrest
        (fun call hcall => hutc _ (hmem _ (List.mem_cons_of_mem _ hcall)))
    have hnonzero : ∀ t ∈ tradesOf ((fill, now) :: rest), t.qty ≠ 0 := by
      intro t ht
      obtain ⟨call, -, rfl⟩ := List.mem_map.mp ht
      exact call.1.signedQty_ne_zero
    have htracks := Tracks.nil.trades hnonzero
    refine ⟨position, hok, BooksOf.of_tracks ?_⟩
    rw [hholding, List.map_map]
    exact htracks

theorem applyFills_booksOf_twoBuys : ∃ position,
    applyFills "trend" none [(sampleExecution 3 90, ⟨8, some 0⟩),
      (sampleExecution 7 95, ⟨9, some 0⟩)] = .ok (some position) ∧
      BooksOf [sampleExecution 3 90, sampleExecution 7 95] position.val :=
  applyFills_booksOf (by decide +kernel) (fun _ h => by
    simp only [List.mem_cons, List.not_mem_nil, or_false] at h
    rcases h with rfl | rfl <;> rfl) (by simp) _ List.prefix_rfl (by simp)

end Blive
