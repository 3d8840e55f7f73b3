import Blive.Adapters.Ig.Broker
import Blive.Misc.Handler

/-!
# The identity of a working order

`_parse_working_order` is meant to derive the id of an order from its deal id, so that the order
is recognised after a restart. It does so where `int(deal_id, 16)` reads the deal id, and draws
an id elsewhere. When two entries get the same id, and when that is right.
-/

namespace Blive

/-! ## The ids -/

/-- Two deal ids that read as numbers with the same last 128 bits. -/
def SameNumber (dealId dealId' : String) : Prop :=
  ∃ v v', intOfHexString dealId = some v ∧ intOfHexString dealId' = some v' ∧
    BitVec.ofInt 128 v = BitVec.ofInt 128 v'

/-- The draws that stand in for two deal ids are new: they are not equal, and neither is the
number of the other deal id. -/
structure FreshIds (dealId dealId' : String) (fresh fresh' : UUID) : Prop where
  draws : fresh ≠ fresh'
  left : ∀ v, intOfHexString dealId' = some v → fresh ≠ BitVec.ofInt 128 v
  right : ∀ v, intOfHexString dealId = some v → fresh' ≠ BitVec.ofInt 128 v

/-- With new draws only numbers coincide. -/
theorem orderIdOf_eq_iff {dealId dealId' : String} {fresh fresh' : UUID}
    (hfresh : FreshIds dealId dealId' fresh fresh') :
    orderIdOf dealId fresh = orderIdOf dealId' fresh' ↔ SameNumber dealId dealId' := by
  unfold orderIdOf SameNumber
  cases hv : intOfHexString dealId with
  | none =>
    cases hv' : intOfHexString dealId' with
    | none => exact iff_of_false hfresh.draws (by simp)
    | some v' => exact iff_of_false (hfresh.left v' hv') (by simp)
  | some v =>
    cases hv' : intOfHexString dealId' with
    | none => exact iff_of_false (Ne.symm (hfresh.right v hv)) (by simp)
    | some v' => simp

/-- The deal ids that an id keeps apart, or recognises: equal ones that read as a number, and
different ones that do not read as numbers with the same last 128 bits. -/
def KeepsIdentity (dealId dealId' : String) : Prop :=
  (dealId = dealId' → (intOfHexString dealId).isSome) ∧
    (dealId ≠ dealId' → ¬ SameNumber dealId dealId')

theorem sameNumber_self {dealId : String} :
    SameNumber dealId dealId ↔ (intOfHexString dealId).isSome := by
  unfold SameNumber
  cases intOfHexString dealId <;> simp

theorem sameNumber_iff_eq_iff {dealId dealId' : String} :
    (SameNumber dealId dealId' ↔ dealId = dealId') ↔ KeepsIdentity dealId dealId' := by
  unfold KeepsIdentity
  by_cases heq : dealId = dealId'
  · subst heq
    simp [sameNumber_self]
  · simp [heq]

/-! ## The orders of a response -/

/-- The deal id of an entry. -/
def entryDealId (entry : (List (String × Json) × List (String × Json)) × Nat) : String :=
  Json.textOf entry.1.1 "dealId"

theorem parseWorkingOrder_id {parsers : DatetimeParsers}
    {orderObj marketObj : List (String × Json)} {strategyId : String} {now : Utc} {fresh : UUID}
    {o : Wire.Order}
    (h : parseWorkingOrder parsers orderObj marketObj strategyId now fresh = .ok o) :
    o.val.clientOrderId = orderIdOf (Json.textOf orderObj "dealId") fresh := by
  unfold parseWorkingOrder at h
  simp only [require_bind_eq_ok_iff] at h
  obtain ⟨_, _, h⟩ := h
  obtain ⟨_, _, h⟩ := bind_eq_ok_iff.mp h
  obtain ⟨_, _, h⟩ := bind_eq_ok_iff.mp h
  obtain ⟨_, _, h⟩ := bind_eq_ok_iff.mp h
  obtain ⟨_, _, h⟩ := bind_eq_ok_iff.mp h
  obtain ⟨_, _, h⟩ := bind_eq_ok_iff.mp h
  obtain ⟨_, _, h⟩ := bind_eq_ok_iff.mp h
  rw [Frozen.make_eq_ok_iff.mp h]

/-- The orders `open_orders` returns are those of the entries that parse. -/
theorem mem_openOrders {b : IGBroker} {parsers : DatetimeParsers} {body : Json} {now : Nat → Utc}
    {fresh : Nat → UUID} {orders : List Wire.Order}
    (h : b.openOrders parsers (.ok body) now fresh = .ok orders)
    {entry : (List (String × Json) × List (String × Json)) × Nat}
    (hentry : entry ∈ IGBroker.orderEntries body) {o : Wire.Order}
    (ho : b.orderOf parsers now fresh entry = .ok o) : o ∈ orders := by
  obtain ⟨_, _, h⟩ := bind_eq_ok_iff.mp h
  obtain ⟨body', hbody, h⟩ := bind_eq_ok_iff.mp h
  cases hbody
  exact mem_collect (mapError_eq_ok_iff.mp h) hentry ho

/-- Two orders of `open_orders`, in one response or in two, have the same id exactly when their
deal ids are equal, if and only if the deal ids are equal and read as a number, or differ and do
not read as numbers with the same last 128 bits. -/
theorem openOrders_identity_iff {parsers : DatetimeParsers} {b b' : IGBroker} {body body' : Json}
    {now now' : Nat → Utc} {fresh fresh' : Nat → UUID} {orders orders' : List Wire.Order}
    (h : b.openOrders parsers (.ok body) now fresh = .ok orders)
    (h' : b'.openOrders parsers (.ok body') now' fresh' = .ok orders')
    {entry entry' : (List (String × Json) × List (String × Json)) × Nat}
    (hentry : entry ∈ IGBroker.orderEntries body) (hentry' : entry' ∈ IGBroker.orderEntries body')
    {o o' : Wire.Order} (ho : b.orderOf parsers now fresh entry = .ok o)
    (ho' : b'.orderOf parsers now' fresh' entry' = .ok o')
    (hfresh : FreshIds (entryDealId entry) (entryDealId entry') (fresh entry.2) (fresh' entry'.2)) :
    (o ∈ orders ∧ o' ∈ orders') ∧
      ((o.val.clientOrderId = o'.val.clientOrderId ↔ entryDealId entry = entryDealId entry') ↔
        KeepsIdentity (entryDealId entry) (entryDealId entry')) := by
  refine ⟨⟨mem_openOrders h hentry ho, mem_openOrders h' hentry' ho'⟩, ?_⟩
  rw [parseWorkingOrder_id ho, parseWorkingOrder_id ho', ← sameNumber_iff_eq_iff]
  exact iff_congr (orderIdOf_eq_iff hfresh) Iff.rfl

/-! ## Runs on fixed values -/

/-- An entry with a deal id, of what is otherwise the same order. -/
def sampleWorkingOrder (dealId : String) : List (String × Json) × List (String × Json) :=
  ([("dealId", .str dealId), ("direction", .str "BUY"), ("orderSize", .str "1"),
    ("orderLevel", .str "7300"), ("orderType", .str "LIMIT")],
    [("epic", .str "IX.D.CAC40.CASH.IP")])

def sampleWorkingOrders (dealId : String) : Json :=
  .dict [("workingOrders", .list [.dict [("workingOrderData", .dict (sampleWorkingOrder dealId).1),
    ("marketData", .dict (sampleWorkingOrder dealId).2)]])]

def sampleIgBroker : IGBroker := ⟨"ACC123", 30, true, [], .empty⟩

/-- The entry as the first of a response. -/
def listedEntry (dealId : String) : (List (String × Json) × List (String × Json)) × Nat :=
  (sampleWorkingOrder dealId, 0)

def listedOrder (dealId : String) (fresh : UUID) : Except PyError Wire.Order :=
  sampleIgBroker.orderOf ⟨fun _ => none, fun _ => none⟩ (fun _ => ⟨0⟩) (fun _ => fresh)
    (listedEntry dealId)

def listedOrders (dealId : String) (fresh : UUID) : Except CallError (List Wire.Order) :=
  sampleIgBroker.openOrders ⟨fun _ => none, fun _ => none⟩ (.ok (sampleWorkingOrders dealId))
    (fun _ => ⟨0⟩) (fun _ => fresh)

/-- A deal id that reads as a number is recognised in another response. -/
theorem openOrders_identity_hex : ∃ o o', listedOrder "1F7A" 1 = .ok o ∧
    listedOrder "1F7A" 2 = .ok o' ∧
      ((o.val.clientOrderId = o'.val.clientOrderId ↔
          entryDealId (listedEntry "1F7A") = entryDealId (listedEntry "1F7A")) ↔
        KeepsIdentity "1F7A" "1F7A") := by
  have hentry : listedEntry "1F7A" ∈ IGBroker.orderEntries (sampleWorkingOrders "1F7A") :=
    List.mem_cons_self
  have hfresh : FreshIds (entryDealId (listedEntry "1F7A")) (entryDealId (listedEntry "1F7A"))
      1 2 := by
    have hvalue : intOfHexString "1F7A" = some 8058 := by decide +kernel
    refine ⟨by decide, ?_, ?_⟩ <;>
    · intro v hv
      cases hvalue.symm.trans hv
      decide
  obtain ⟨o, ho⟩ : ∃ o, listedOrder "1F7A" 1 = .ok o := exists_ok_of_isSome (by decide +kernel)
  obtain ⟨o', ho'⟩ : ∃ o, listedOrder "1F7A" 2 = .ok o := exists_ok_of_isSome (by decide +kernel)
  obtain ⟨os, hos⟩ : ∃ os, listedOrders "1F7A" 1 = .ok os := exists_ok_of_isSome (by decide +kernel)
  obtain ⟨os', hos'⟩ : ∃ os, listedOrders "1F7A" 2 = .ok os :=
    exists_ok_of_isSome (by decide +kernel)
  exact ⟨o, o', ho, ho', (openOrders_identity_iff hos hos' hentry hentry ho ho' hfresh).2⟩

/-- An order whose deal id is no number gets another id in each response. -/
theorem not_openOrders_identity : ¬ ∀ (parsers : DatetimeParsers) (b b' : IGBroker)
    (body body' : Json) (now now' : Nat → Utc) (fresh fresh' : Nat → UUID)
    (entry entry' : (List (String × Json) × List (String × Json)) × Nat) (o o' : Wire.Order),
    entry ∈ IGBroker.orderEntries body → entry' ∈ IGBroker.orderEntries body' →
    b.orderOf parsers now fresh entry = .ok o → b'.orderOf parsers now' fresh' entry' = .ok o' →
    FreshIds (entryDealId entry) (entryDealId entry') (fresh entry.2) (fresh' entry'.2) →
      (o.val.clientOrderId = o'.val.clientOrderId ↔ entryDealId entry = entryDealId entry') := by
  intro h
  have hentry : listedEntry "DIAAAANEWORDER" ∈
      IGBroker.orderEntries (sampleWorkingOrders "DIAAAANEWORDER") := List.mem_cons_self
  have hnone : intOfHexString (entryDealId (listedEntry "DIAAAANEWORDER")) = none := by
    decide +kernel
  have hfresh : FreshIds (entryDealId (listedEntry "DIAAAANEWORDER"))
      (entryDealId (listedEntry "DIAAAANEWORDER")) 1 2 :=
    ⟨by decide, by simp [hnone], by simp [hnone]⟩
  obtain ⟨o, ho⟩ : ∃ o, listedOrder "DIAAAANEWORDER" 1 = .ok o :=
    exists_ok_of_isSome (by decide +kernel)
  obtain ⟨o', ho'⟩ : ∃ o, listedOrder "DIAAAANEWORDER" 2 = .ok o :=
    exists_ok_of_isSome (by decide +kernel)
  have hsame := (h _ _ _ _ _ _ _ _ _ _ _ o o' hentry hentry ho ho' hfresh).mpr rfl
  rw [parseWorkingOrder_id ho, parseWorkingOrder_id ho'] at hsame
  obtain ⟨v, _, hv, _⟩ := (orderIdOf_eq_iff hfresh).mp hsame
  cases hnone.symm.trans hv

end Blive
