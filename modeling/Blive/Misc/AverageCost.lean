import Mathlib.Algebra.Order.Field.Basic
import Mathlib.Algebra.BigOperators.Group.List.Basic
import Mathlib.Tactic.FieldSimp
import Mathlib.Tactic.Linarith
import Mathlib.Tactic.Ring

/-!
# Average-cost accounting

A signed holding with the average cost of its units and the time it was opened. A trade adds
a signed quantity at a price: it opens a flat holding, averages into one on its own side,
and closes one on the other side, wholly, partly or through zero into a new one. The laws
below say when trades may be merged, when they may be reordered, and between which prices
the average lies.
-/

namespace Blive.AverageCost

section Side

variable {α : Type*} [Zero α] [LinearOrder α] {a b c : α}

/-- Both strictly positive or both strictly negative. -/
def SameSide (a b : α) : Prop := 0 < a ∧ 0 < b ∨ a < 0 ∧ b < 0

instance (a b : α) : Decidable (SameSide a b) := inferInstanceAs (Decidable (_ ∨ _))

namespace SameSide

theorem symm (h : SameSide a b) : SameSide b a := by
  rcases h with ⟨ha, hb⟩ | ⟨ha, hb⟩
  · exact .inl ⟨hb, ha⟩
  · exact .inr ⟨hb, ha⟩

theorem trans (hab : SameSide a b) (hbc : SameSide b c) : SameSide a c := by
  rcases hab with ⟨ha, hb⟩ | ⟨ha, hb⟩ <;> rcases hbc with ⟨hb', hc⟩ | ⟨hb', hc⟩
  · exact .inl ⟨ha, hc⟩
  · exact absurd hb hb'.not_gt
  · exact absurd hb hb'.not_gt
  · exact .inr ⟨ha, hc⟩

theorem left_ne_zero (h : SameSide a b) : a ≠ 0 := by
  rcases h with ⟨ha, -⟩ | ⟨ha, -⟩
  · exact ha.ne'
  · exact ha.ne

theorem right_ne_zero (h : SameSide a b) : b ≠ 0 := h.symm.left_ne_zero

theorem refl (h : a ≠ 0) : SameSide a a := by
  rcases lt_or_gt_of_ne h with ha | ha
  · exact .inr ⟨ha, ha⟩
  · exact .inl ⟨ha, ha⟩

/-- Of two values on opposite sides of `a`, neither is on the side of the other. -/
theorem of_not_of_not (ha : a ≠ 0) (hb : b ≠ 0) (hc : c ≠ 0) (hab : ¬ SameSide a b)
    (hac : ¬ SameSide a c) : SameSide b c := by
  simp only [SameSide, not_or, not_and, not_lt] at hab hac
  rcases lt_or_gt_of_ne ha with ha | ha
  · exact .inl ⟨(hab.2 ha).lt_of_ne' hb, (hac.2 ha).lt_of_ne' hc⟩
  · exact .inr ⟨(hab.1 ha).lt_of_ne hb, (hac.1 ha).lt_of_ne hc⟩

end SameSide

end Side

/-! ## Holdings and trades -/

structure Trade (α τ : Type*) where
  qty : α
  price : α
  time : τ

section Sums

variable {α τ : Type*} [Field α]

/-- The signed quantity of several trades together. -/
def net (ts : List (Trade α τ)) : α := (ts.map (·.qty)).sum

@[simp] theorem net_nil : net ([] : List (Trade α τ)) = 0 := rfl

@[simp] theorem net_cons (t : Trade α τ) (ts : List (Trade α τ)) :
    net (t :: ts) = t.qty + net ts := by
  simp [net]

@[simp] theorem net_append (ts us : List (Trade α τ)) : net (ts ++ us) = net ts + net us := by
  simp [net]

/-- What the trades cost, signed as their quantities are. -/
def cost (ts : List (Trade α τ)) : α := (ts.map fun t => t.qty * t.price).sum

@[simp] theorem cost_cons (t : Trade α τ) (ts : List (Trade α τ)) :
    cost (t :: ts) = t.qty * t.price + cost ts := by
  simp [cost]

theorem net_perm {ts us : List (Trade α τ)} (h : ts.Perm us) : net ts = net us :=
  (h.map _).sum_eq

theorem cost_perm {ts us : List (Trade α τ)} (h : ts.Perm us) : cost ts = cost us :=
  (h.map _).sum_eq

end Sums

variable {α τ : Type*} [Field α] [LinearOrder α]

structure Holding (α τ : Type*) where
  quantity : α
  avgCost : α
  openedAt : Option τ
  deriving DecidableEq

namespace Holding

def flat : Holding α τ := ⟨0, 0, none⟩

/-- The holding after a trade. -/
def trade (h : Holding α τ) (t : Trade α τ) : Holding α τ :=
  if h.quantity = 0 then ⟨t.qty, t.price, some t.time⟩
  else if SameSide h.quantity t.qty then
    ⟨h.quantity + t.qty, (h.quantity * h.avgCost + t.qty * t.price) / (h.quantity + t.qty),
      h.openedAt⟩
  else if h.quantity + t.qty = 0 then flat
  else if SameSide h.quantity (h.quantity + t.qty) then
    ⟨h.quantity + t.qty, h.avgCost, h.openedAt⟩
  else ⟨h.quantity + t.qty, t.price, some t.time⟩

variable {h : Holding α τ} {t : Trade α τ}

theorem trade_open (hq : h.quantity = 0) : h.trade t = ⟨t.qty, t.price, some t.time⟩ :=
  if_pos hq

theorem trade_add (hside : SameSide h.quantity t.qty) :
    h.trade t = ⟨h.quantity + t.qty,
      (h.quantity * h.avgCost + t.qty * t.price) / (h.quantity + t.qty), h.openedAt⟩ := by
  rw [trade, if_neg hside.left_ne_zero, if_pos hside]

theorem trade_close (hq : h.quantity ≠ 0) (hside : ¬ SameSide h.quantity t.qty)
    (hzero : h.quantity + t.qty = 0) : h.trade t = flat := by
  rw [trade, if_neg hq, if_neg hside, if_pos hzero]

theorem trade_reduce (hside : ¬ SameSide h.quantity t.qty)
    (hkeep : SameSide h.quantity (h.quantity + t.qty)) :
    h.trade t = ⟨h.quantity + t.qty, h.avgCost, h.openedAt⟩ := by
  rw [trade, if_neg hkeep.left_ne_zero, if_neg hside, if_neg hkeep.right_ne_zero, if_pos hkeep]

theorem trade_flip (hq : h.quantity ≠ 0) (hside : ¬ SameSide h.quantity t.qty)
    (hnew : h.quantity + t.qty ≠ 0) (hkeep : ¬ SameSide h.quantity (h.quantity + t.qty)) :
    h.trade t = ⟨h.quantity + t.qty, t.price, some t.time⟩ := by
  rw [trade, if_neg hq, if_neg hside, if_neg hnew, if_neg hkeep]

theorem trade_quantity (h : Holding α τ) (t : Trade α τ) :
    (h.trade t).quantity = h.quantity + t.qty := by
  unfold trade
  split_ifs with hq hside hnew hkeep
  · exact (hq.symm ▸ (zero_add t.qty).symm)
  · rfl
  · exact hnew.symm
  · rfl
  · rfl

end Holding

/-- The holding after trades in their order. -/
def Holding.trades (h : Holding α τ) (ts : List (Trade α τ)) : Holding α τ := ts.foldl trade h

@[simp] theorem Holding.trades_nil (h : Holding α τ) : h.trades [] = h := rfl

@[simp] theorem Holding.trades_cons (h : Holding α τ) (t : Trade α τ) (ts : List (Trade α τ)) :
    h.trades (t :: ts) = (h.trade t).trades ts := rfl

variable [IsStrictOrderedRing α]

theorem SameSide.add {a b c : α} (hab : SameSide a b) (hac : SameSide a c) :
    SameSide a (b + c) := by
  rcases hab with ⟨ha, hb⟩ | ⟨ha, hb⟩ <;> rcases hac with ⟨ha', hc⟩ | ⟨ha', hc⟩
  · exact .inl ⟨ha, add_pos hb hc⟩
  · exact absurd ha ha'.not_gt
  · exact absurd ha ha'.not_gt
  · exact .inr ⟨ha, add_neg hb hc⟩

/-- The mean of two costs weighted on one side is no lower than the lower of them. -/
theorem min_le_mean {a b x y : α} (h : SameSide a b) :
    min x y ≤ (a * x + b * y) / (a + b) := by
  have hx : min x y ≤ x := min_le_left x y
  have hy : min x y ≤ y := min_le_right x y
  rcases h with ⟨ha, hb⟩ | ⟨ha, hb⟩
  · rw [le_div_iff₀ (add_pos ha hb)]
    nlinarith
  · rw [le_div_iff_of_neg (add_neg ha hb)]
    nlinarith

/-- Nor is it higher than the higher of them. -/
theorem mean_le_max {a b x y : α} (h : SameSide a b) :
    (a * x + b * y) / (a + b) ≤ max x y := by
  have hx : x ≤ max x y := le_max_left x y
  have hy : y ≤ max x y := le_max_right x y
  rcases h with ⟨ha, hb⟩ | ⟨ha, hb⟩
  · rw [div_le_iff₀ (add_pos ha hb)]
    nlinarith
  · rw [div_le_iff_of_neg (add_neg ha hb)]
    nlinarith

/-! ## Merging and reordering -/

namespace Holding

/-- A second trade at the price of the first does not move the average. -/
theorem trade_add_same {q p : α} {openedAt : Option τ} {u : Trade α τ} (hside : SameSide q u.qty)
    (hprice : u.price = p) :
    (⟨q, p, openedAt⟩ : Holding α τ).trade u = ⟨q + u.qty, p, openedAt⟩ := by
  have hsum : q + u.qty ≠ 0 :=
    (SameSide.add (.refl hside.left_ne_zero) hside).right_ne_zero
  rw [trade_add hside]
  dsimp only
  rw [hprice, ← add_mul, mul_div_cancel_left₀ _ hsum]

omit [IsStrictOrderedRing α] in
/-- Two trades against the holding, the first of which leaves some of it. -/
theorem trade_trade_reduce {h : Holding α τ} {t u : Trade α τ}
    (ht : ¬ SameSide h.quantity t.qty) (hu : ¬ SameSide h.quantity u.qty)
    (hboth : ¬ SameSide h.quantity (t.qty + u.qty)) (hprice : u.price = t.price)
    (htime : u.time = t.time) (hkeep : SameSide h.quantity (h.quantity + t.qty)) :
    (h.trade t).trade u = h.trade ⟨t.qty + u.qty, t.price, t.time⟩ := by
  have hq : h.quantity ≠ 0 := hkeep.left_ne_zero
  have hu' : ¬ SameSide (h.quantity + t.qty) u.qty := fun hside => hu (hkeep.trans hside)
  have hiff : SameSide (h.quantity + t.qty) (h.quantity + (t.qty + u.qty)) ↔
      SameSide h.quantity (h.quantity + (t.qty + u.qty)) :=
    ⟨hkeep.trans, hkeep.symm.trans⟩
  rw [trade_reduce ht hkeep]
  simp only [trade, hq, hkeep.right_ne_zero, hu', hboth, add_assoc, if_false, hiff, hprice, htime]

/-- Two trades on one side, at one price and time, are one trade of both quantities: also
where the first closes the holding or both flip it. -/
theorem trade_trade (h : Holding α τ) {t u : Trade α τ} (hside : SameSide t.qty u.qty)
    (hprice : u.price = t.price) (htime : u.time = t.time) :
    (h.trade t).trade u = h.trade ⟨t.qty + u.qty, t.price, t.time⟩ := by
  have hboth : SameSide t.qty (t.qty + u.qty) :=
    SameSide.add (.refl hside.left_ne_zero) hside
  by_cases hq : h.quantity = 0
  · rw [trade_open hq, trade_open hq]
    exact trade_add_same hside hprice
  by_cases hadd : SameSide h.quantity t.qty
  · have hnew := SameSide.add (.refl hq) hadd
    rw [trade_add hadd, trade_add (hnew.symm.trans (hadd.trans hside)),
      trade_add (hadd.trans hboth)]
    dsimp only
    rw [mul_div_cancel₀ _ hnew.right_ne_zero, hprice, add_assoc, add_mul, add_assoc]
  -- From here both trades are against the holding.
  have hagainst : ¬ SameSide h.quantity u.qty := fun hu => hadd (hu.trans hside.symm)
  have hagainstBoth : ¬ SameSide h.quantity (t.qty + u.qty) := fun hu => hadd (hu.trans hboth.symm)
  by_cases hkeep : SameSide h.quantity (h.quantity + t.qty)
  · exact trade_trade_reduce hadd hagainst hagainstBoth hprice htime hkeep
  by_cases hclose : h.quantity + t.qty = 0
  · have hrest : h.quantity + (t.qty + u.qty) = u.qty := by rw [← add_assoc, hclose, zero_add]
    rw [trade_close hq hadd hclose, trade_open rfl,
      trade_flip hq hagainstBoth (by rw [hrest]; exact hside.right_ne_zero) (by rwa [hrest])]
    dsimp only
    rw [hrest, hprice, htime]
  · -- The first flips the holding, the second adds to the new one.
    have hu : SameSide (h.quantity + t.qty) u.qty :=
      (SameSide.of_not_of_not hq hclose hside.left_ne_zero hkeep hadd).trans hside
    have hsum : SameSide (h.quantity + t.qty) (h.quantity + (t.qty + u.qty)) := by
      rw [← add_assoc]
      exact SameSide.add (.refl hclose) hu
    have hflip : ¬ SameSide h.quantity (h.quantity + (t.qty + u.qty)) :=
      fun hback => hkeep (hback.trans hsum.symm)
    rw [trade_flip hq hadd hclose hkeep, trade_add_same hu hprice,
      trade_flip hq hagainstBoth hsum.right_ne_zero hflip, add_assoc]

/-- So are any number of them. -/
theorem trades_eq_trade (h : Holding α τ) (t : Trade α τ) {us : List (Trade α τ)}
    (hus : ∀ u ∈ us, SameSide t.qty u.qty ∧ u.price = t.price ∧ u.time = t.time) :
    h.trades (t :: us) = h.trade ⟨t.qty + net us, t.price, t.time⟩ := by
  induction us generalizing t with
  | nil => simp
  | cons u us ih =>
    obtain ⟨⟨hside, hprice, htime⟩, hrest⟩ := List.forall_mem_cons.mp hus
    have hmerged := ih ⟨t.qty + u.qty, t.price, t.time⟩ (by
      intro v hv
      obtain ⟨hv, hpv, htv⟩ := hrest v hv
      exact ⟨(SameSide.add hv.symm (hside.symm.trans hv).symm).symm, hpv, htv⟩)
    rw [trades_cons, trades_cons, trade_trade h hside hprice htime, ← trades_cons, hmerged,
      net_cons, add_assoc]

/-- A trade on the side of the holding adds its cost to the cost of the holding. -/
theorem trade_basis {h : Holding α τ} {t : Trade α τ}
    (hside : h.quantity = 0 ∨ SameSide h.quantity t.qty) :
    (h.trade t).quantity * (h.trade t).avgCost =
      h.quantity * h.avgCost + t.qty * t.price := by
  rcases hside with hq | hside
  · rw [trade_open hq, hq, zero_mul, zero_add]
  · have hsum : h.quantity + t.qty ≠ 0 :=
      (SameSide.add (.refl hside.left_ne_zero) hside).right_ne_zero
    rw [trade_add hside]
    exact mul_div_cancel₀ _ hsum

/-- Trades on one side keep the holding on that side. -/
theorem trades_side {side : α} {h : Holding α τ} {ts : List (Trade α τ)}
    (hts : ∀ t ∈ ts, SameSide side t.qty) (hq : h.quantity = 0 ∨ SameSide side h.quantity) :
    (h.trades ts).quantity = h.quantity + net ts ∧
      (h.trades ts).quantity * (h.trades ts).avgCost = h.quantity * h.avgCost + cost ts ∧
        (ts ≠ [] → SameSide side (h.trades ts).quantity) := by
  induction ts generalizing h with
  | nil => simp [cost]
  | cons t ts ih =>
    obtain ⟨ht, hrest⟩ := List.forall_mem_cons.mp hts
    have hown : h.quantity = 0 ∨ SameSide h.quantity t.qty :=
      hq.imp_right fun hq => hq.symm.trans ht
    have hnew : SameSide side (h.trade t).quantity := by
      rw [trade_quantity]
      rcases hq with hq | hq
      · rwa [hq, zero_add]
      · exact SameSide.add hq ht
    obtain ⟨hquantity, hbasis, hside⟩ := ih hrest (.inr hnew)
    rw [trades_cons]
    refine ⟨?_, ?_, ?_⟩
    · rw [hquantity, trade_quantity, net_cons, add_assoc]
    · rw [hbasis, trade_basis hown, cost_cons, add_assoc]
    · intro _
      cases ts with
      | nil => exact hnew
      | cons u us => exact hside (List.cons_ne_nil u us)

/-- The order of trades on one side does not matter to the quantity and the average. -/
theorem trades_perm {side : α} {h : Holding α τ} {ts us : List (Trade α τ)}
    (hts : ∀ t ∈ ts, SameSide side t.qty) (hq : h.quantity = 0 ∨ SameSide side h.quantity)
    (hperm : ts.Perm us) :
    (h.trades ts).quantity = (h.trades us).quantity ∧
      (h.trades ts).avgCost = (h.trades us).avgCost := by
  have hus : ∀ u ∈ us, SameSide side u.qty := fun u hu => hts u (hperm.mem_iff.mpr hu)
  obtain ⟨htq, htb, htside⟩ := trades_side hts hq
  obtain ⟨huq, hub, -⟩ := trades_side hus hq
  have hquantity : (h.trades ts).quantity = (h.trades us).quantity := by
    rw [htq, huq, net_perm hperm]
  refine ⟨hquantity, ?_⟩
  by_cases hnil : ts = []
  · subst hnil
    rw [hperm.nil_eq]
  · have hne : (h.trades ts).quantity ≠ 0 := (htside hnil).right_ne_zero
    apply mul_left_cancel₀ hne
    rw [htb, cost_perm hperm, ← hub, hquantity]

/-- A holding that is flat without an opening time, or has a positive average cost and an
opening time that meets `P`. -/
structure Sound (P : τ → Prop) (h : Holding α τ) : Prop where
  flat : h.quantity = 0 → h.openedAt = none
  cost_pos : h.quantity ≠ 0 → 0 < h.avgCost
  opened : h.quantity ≠ 0 → ∃ time, h.openedAt = some time ∧ P time

omit [IsStrictOrderedRing α] in
theorem Sound.of_opened {P : τ → Prop} {q p : α} {time : τ} (hq : q ≠ 0) (hp : 0 < p)
    (htime : P time) : (⟨q, p, some time⟩ : Holding α τ).Sound P :=
  ⟨fun hzero => absurd hzero hq, fun _ => hp, fun _ => ⟨time, rfl, htime⟩⟩

theorem Sound.trade {P : τ → Prop} {h : Holding α τ} {t : Trade α τ} (hsound : h.Sound P)
    (hqty : t.qty ≠ 0) (hprice : 0 < t.price) (htime : P t.time) : (h.trade t).Sound P := by
  by_cases hq : h.quantity = 0
  · rw [trade_open hq]
    exact .of_opened hqty hprice htime
  by_cases hadd : SameSide h.quantity t.qty
  · have hnew : h.quantity + t.qty ≠ 0 := (SameSide.add (.refl hq) hadd).right_ne_zero
    rw [trade_add hadd]
    refine ⟨fun hzero => absurd hzero hnew, fun _ => ?_, fun _ => hsound.opened hq⟩
    exact (lt_min (hsound.cost_pos hq) hprice).trans_le (min_le_mean hadd)
  by_cases hclose : h.quantity + t.qty = 0
  · rw [trade_close hq hadd hclose]
    exact ⟨fun _ => rfl, fun hne => absurd rfl hne, fun hne => absurd rfl hne⟩
  by_cases hkeep : SameSide h.quantity (h.quantity + t.qty)
  · rw [trade_reduce hadd hkeep]
    exact ⟨fun hzero => absurd hzero hclose, fun _ => hsound.cost_pos hq,
      fun _ => hsound.opened hq⟩
  · rw [trade_flip hq hadd hclose hkeep]
    exact .of_opened hclose hprice htime

end Holding

/-! ## The current run of a holding -/

/-- The trades `past` end in a run that starts with `opening`: before it the net quantity was
zero or on the other side, and since then it has stayed on the side it is on. -/
structure CurrentRun (past before : List (Trade α τ)) (opening : Trade α τ)
    (later : List (Trade α τ)) : Prop where
  split : past = before ++ opening :: later
  starts : ¬ SameSide (net before) (net past)
  stays : ∀ mid, mid <+: later → SameSide (net (before ++ opening :: mid)) (net past)

/-- What a holding built from flat by `past` records. -/
structure Tracks (past : List (Trade α τ)) (h : Holding α τ) : Prop where
  quantity : h.quantity = net past
  closed : net past = 0 → h = .flat
  current : net past ≠ 0 → ∃ before opening later, CurrentRun past before opening later ∧
    h.openedAt = some opening.time ∧
      (∃ low ∈ opening :: later, SameSide low.qty (net past) ∧ low.price ≤ h.avgCost) ∧
      ∃ high ∈ opening :: later, SameSide high.qty (net past) ∧ h.avgCost ≤ high.price

namespace CurrentRun

variable {past before later : List (Trade α τ)} {opening t : Trade α τ}

omit [IsStrictOrderedRing α] in
/-- A trade that leaves the holding on another side than before starts a run. -/
theorem single (hne : net (past ++ [t]) ≠ 0) (hstart : ¬ SameSide (net past) (net (past ++ [t]))) :
    CurrentRun (past ++ [t]) past t [] where
  split := rfl
  starts := hstart
  stays mid hmid := by
    rw [List.prefix_nil.mp hmid]
    exact .refl hne

omit [IsStrictOrderedRing α] in
/-- A trade that leaves the holding on its side continues the run. -/
theorem extend (hrun : CurrentRun past before opening later)
    (hkeep : SameSide (net past) (net (past ++ [t]))) :
    CurrentRun (past ++ [t]) before opening (later ++ [t]) where
  split := by rw [hrun.split, List.append_assoc, List.cons_append]
  starts hside := hrun.starts (hside.trans hkeep.symm)
  stays mid hmid := by
    rcases List.prefix_concat_iff.mp hmid with rfl | hmid
    · rw [← List.cons_append, ← List.append_assoc, ← hrun.split]
      exact .refl hkeep.right_ne_zero
    · exact (hrun.stays mid hmid).trans hkeep

end CurrentRun

namespace Tracks

variable {past : List (Trade α τ)} {h : Holding α τ} {t : Trade α τ}

omit [IsStrictOrderedRing α] in
theorem nil : Tracks ([] : List (Trade α τ)) .flat where
  quantity := rfl
  closed _ := rfl
  current hne := absurd rfl hne

omit [IsStrictOrderedRing α] in
/-- A trade that opens the holding, or flips it, starts a run of its own. -/
theorem starts (hne : net (past ++ [t]) ≠ 0)
    (hstart : ¬ SameSide (net past) (net (past ++ [t])))
    (hside : SameSide t.qty (net (past ++ [t]))) :
    Tracks (past ++ [t]) ⟨net (past ++ [t]), t.price, some t.time⟩ where
  quantity := rfl
  closed hzero := absurd hzero hne
  current _ := ⟨past, t, [], .single hne hstart, rfl, ⟨t, by simp, hside, le_rfl⟩,
    ⟨t, by simp, hside, le_rfl⟩⟩

/-- A trade on the side of the holding moves the average no further than to its own price. -/
theorem adds (htracks : Tracks past h) (hside : SameSide (net past) t.qty) :
    Tracks (past ++ [t]) (h.trade t) := by
  have hkeep : SameSide (net past) (net (past ++ [t])) := by
    rw [net_append, net_cons, net_nil, add_zero]
    exact SameSide.add (.refl hside.left_ne_zero) hside
  obtain ⟨before, opening, later, hrun, hopened, ⟨low, hlow, hlowSide, hlowPrice⟩,
    ⟨high, hhigh, hhighSide, hhighPrice⟩⟩ := htracks.current hside.left_ne_zero
  have hown : SameSide h.quantity t.qty := htracks.quantity ▸ hside
  have hmin := min_le_mean (x := h.avgCost) (y := t.price) hown
  have hmax := mean_le_max (x := h.avgCost) (y := t.price) hown
  have ht : SameSide t.qty (net (past ++ [t])) := hside.symm.trans hkeep
  rw [Holding.trade_add hown]
  refine ⟨?_, fun hzero => absurd hzero hkeep.right_ne_zero, fun _ => ?_⟩
  · rw [htracks.quantity, net_append, net_cons, net_nil, add_zero]
  refine ⟨before, opening, later ++ [t], hrun.extend hkeep, hopened, ?_, ?_⟩
  · rcases min_le_iff.mp hmin with hmean | hmean
    · exact ⟨low, List.mem_append_left [t] hlow, hlowSide.trans hkeep, hlowPrice.trans hmean⟩
    · exact ⟨t, by simp, ht, hmean⟩
  · rcases le_max_iff.mp hmax with hmean | hmean
    · exact ⟨high, List.mem_append_left [t] hhigh, hhighSide.trans hkeep, hmean.trans hhighPrice⟩
    · exact ⟨t, by simp, ht, hmean⟩

omit [IsStrictOrderedRing α] in
/-- A trade that takes off a part of the holding leaves average and run alone. -/
theorem reduces (htracks : Tracks past h) (hside : ¬ SameSide (net past) t.qty)
    (hkeep : SameSide (net past) (net (past ++ [t]))) :
    Tracks (past ++ [t]) (h.trade t) := by
  obtain ⟨before, opening, later, hrun, hopened, ⟨low, hlow, hlowSide, hlowPrice⟩,
    ⟨high, hhigh, hhighSide, hhighPrice⟩⟩ := htracks.current hkeep.left_ne_zero
  have hnet : net (past ++ [t]) = h.quantity + t.qty := by
    rw [htracks.quantity, net_append, net_cons, net_nil, add_zero]
  rw [Holding.trade_reduce (htracks.quantity ▸ hside)
    (by rw [← hnet, htracks.quantity]; exact hkeep)]
  exact ⟨hnet.symm, fun hzero => absurd hzero hkeep.right_ne_zero, fun _ =>
    ⟨before, opening, later ++ [t], hrun.extend hkeep, hopened,
      ⟨low, List.mem_append_left [t] hlow, hlowSide.trans hkeep, hlowPrice⟩,
      ⟨high, List.mem_append_left [t] hhigh, hhighSide.trans hkeep, hhighPrice⟩⟩⟩

/-- What a trade does to a holding, the recorded run follows. -/
theorem trade (htracks : Tracks past h) (ht : t.qty ≠ 0) : Tracks (past ++ [t]) (h.trade t) := by
  have hnet : net (past ++ [t]) = net past + t.qty := by simp
  by_cases hq : net past = 0
  · have hnew : net (past ++ [t]) = t.qty := by rw [hnet, hq, zero_add]
    have hopen : h.trade t = ⟨net (past ++ [t]), t.price, some t.time⟩ := by
      rw [Holding.trade_open (htracks.quantity.trans hq), hnew]
    rw [hopen]
    apply starts
    · rwa [hnew]
    · intro hside
      exact hside.left_ne_zero hq
    · rw [hnew]
      exact .refl ht
  by_cases hside : SameSide (net past) t.qty
  · exact htracks.adds hside
  by_cases hzero : net past + t.qty = 0
  · rw [Holding.trade_close (htracks.quantity ▸ hq) (htracks.quantity ▸ hside)
      (htracks.quantity ▸ hzero)]
    exact ⟨(hnet.trans hzero).symm, fun _ => rfl, fun hne => absurd (hnet.trans hzero) hne⟩
  by_cases hkeep : SameSide (net past) (net past + t.qty)
  · exact htracks.reduces hside (hnet ▸ hkeep)
  · have hflip : h.trade t = ⟨net (past ++ [t]), t.price, some t.time⟩ := by
      rw [Holding.trade_flip (htracks.quantity ▸ hq) (htracks.quantity ▸ hside)
        (htracks.quantity ▸ hzero) (htracks.quantity ▸ hkeep), hnet, htracks.quantity]
    rw [hflip]
    apply starts
    · rwa [hnet]
    · rwa [hnet]
    · rw [hnet]
      exact .of_not_of_not hq ht hzero hside hkeep

/-- A holding built from flat records its current run after any trades. -/
theorem trades {ts : List (Trade α τ)} (htracks : Tracks past h) (hts : ∀ t ∈ ts, t.qty ≠ 0) :
    Tracks (past ++ ts) (h.trades ts) := by
  induction ts generalizing past h with
  | nil => simpa using htracks
  | cons t ts ih =>
    obtain ⟨ht, hrest⟩ := List.forall_mem_cons.mp hts
    have hnext := ih (htracks.trade ht) hrest
    rwa [List.append_assoc] at hnext

end Tracks

end Blive.AverageCost
