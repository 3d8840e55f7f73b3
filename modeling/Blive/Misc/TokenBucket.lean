import Mathlib.Algebra.Order.Field.Basic
import Mathlib.Algebra.BigOperators.Group.List.Basic
import Mathlib.Algebra.Order.BigOperators.Group.List
import Mathlib.Data.List.Sort
import Mathlib.Tactic.Linarith
import Mathlib.Tactic.Ring
import Blive.Misc.Transition

/-!
# Token buckets

A bucket holds at most its capacity and fills at a constant rate. Every reading of the clock
first refills the bucket, then grants some of what it holds. A reading that lies before the
last one refills nothing and does not move the clock of the bucket back. What a sequence of
readings can grant is bounded by what the bucket held and what was refilled.
-/

namespace Blive.TokenBucket

open Transition

variable {α : Type*}

structure Limit (α : Type*) where
  capacity : α
  rate : α

structure Bucket (α : Type*) where
  available : α
  last : α
  deriving DecidableEq

/-- A reading of the clock, and what was granted at it. -/
structure Reading (α : Type*) where
  time : α
  granted : α

section Total

variable [Field α]

/-- What the readings granted together. -/
def total (rs : List (Reading α)) : α := (rs.map (·.granted)).sum

@[simp] theorem total_nil : total ([] : List (Reading α)) = 0 := rfl

@[simp] theorem total_cons (r : Reading α) (rs : List (Reading α)) :
    total (r :: rs) = r.granted + total rs := by
  simp [total]

@[simp] theorem total_append (rs us : List (Reading α)) :
    total (rs ++ us) = total rs + total us := by
  simp [total]

end Total

section Refill

variable [Field α] [LinearOrder α]

/-- The bucket after its refill at a reading. -/
def Bucket.refill (limit : Limit α) (b : Bucket α) (now : α) : Bucket α :=
  if now ≤ b.last then b
  else ⟨min limit.capacity (b.available + limit.rate * (now - b.last)), now⟩

/-- A reading grants no more than the refilled bucket holds. -/
def read (limit : Limit α) (b : Bucket α) (r : Reading α) : Option (Bucket α) :=
  if 0 ≤ r.granted ∧ r.granted ≤ (b.refill limit r.time).available then
    some ⟨(b.refill limit r.time).available - r.granted, (b.refill limit r.time).last⟩
  else none

/-- A bucket between empty and full. -/
def Within (limit : Limit α) (b : Bucket α) : Prop := 0 ≤ b.available ∧ b.available ≤ limit.capacity

/-- What the readings with a time between `since` and `till` granted. -/
def grantedIn (since till : α) (rs : List (Reading α)) : α :=
  total (rs.filter fun r => since ≤ r.time ∧ r.time ≤ till)

theorem refill_last (limit : Limit α) (b : Bucket α) (now : α) :
    (b.refill limit now).last = max b.last now := by
  unfold Bucket.refill
  split
  · rename_i h
    exact (max_eq_left h).symm
  · rename_i h
    exact (max_eq_right (not_le.mp h).le).symm

theorem refill_of_le {limit : Limit α} {b : Bucket α} {now : α} (h : now ≤ b.last) :
    b.refill limit now = b := if_pos h

theorem grantedIn_cons_of_lt {since till : α} {r : Reading α} {rs : List (Reading α)}
    (h : r.time < since) : grantedIn since till (r :: rs) = grantedIn since till rs := by
  have hout : ¬ (since ≤ r.time ∧ r.time ≤ till) := fun hin => absurd hin.1 (not_le.mpr h)
  simp [grantedIn, hout]

theorem grantedIn_cons {since till : α} {r : Reading α} {rs : List (Reading α)}
    (h : since ≤ r.time ∧ r.time ≤ till) :
    grantedIn since till (r :: rs) = r.granted + grantedIn since till rs := by
  simp [grantedIn, h]

/-- A window that no reading lies outside of sees all that was granted. -/
theorem grantedIn_eq_total {since till : α} {rs : List (Reading α)}
    (h : ∀ r ∈ rs, since ≤ r.time ∧ r.time ≤ till) : grantedIn since till rs = total rs := by
  unfold grantedIn
  rw [List.filter_eq_self.mpr fun r hr => decide_eq_true (h r hr)]

/-- Nothing is granted in a window that every reading lies outside of. -/
theorem grantedIn_eq_zero {since till : α} {rs : List (Reading α)}
    (h : ∀ r ∈ rs, ¬ (since ≤ r.time ∧ r.time ≤ till)) : grantedIn since till rs = 0 := by
  have hnone : rs.filter (fun r => decide (since ≤ r.time ∧ r.time ≤ till)) = [] := by
    rw [List.filter_eq_nil_iff]
    intro r hr hin
    exact h r hr (of_decide_eq_true hin)
  unfold grantedIn
  rw [hnone, total_nil]

end Refill

section Bounds

variable [Field α] [LinearOrder α] [IsStrictOrderedRing α]
variable {limit : Limit α} {b b' : Bucket α} {r : Reading α} {rs : List (Reading α)}

omit [IsStrictOrderedRing α] in
/-- What a refill adds is paid for by the time it moves the bucket forward. -/
theorem refill_le (now : α) :
    (b.refill limit now).available ≤
      b.available + limit.rate * ((b.refill limit now).last - b.last) := by
  unfold Bucket.refill
  split
  · rw [sub_self, mul_zero, add_zero]
  · exact min_le_right _ _

theorem read_eq_some :
    read limit b r = some b' ↔
      0 ≤ r.granted ∧ b'.available = (b.refill limit r.time).available - r.granted ∧
        b'.last = (b.refill limit r.time).last ∧ 0 ≤ b'.available := by
  unfold read
  constructor
  · intro h
    split at h
    · rename_i hgrant
      cases h
      exact ⟨hgrant.1, rfl, rfl, sub_nonneg.mpr hgrant.2⟩
    · cases h
  · rintro ⟨hpos, havailable, hlast, hrest⟩
    rw [havailable] at hrest
    rw [if_pos ⟨hpos, sub_nonneg.mp hrest⟩, ← havailable, ← hlast]

/-- A refill keeps a bucket between empty and full. -/
theorem refill_within (hrate : 0 ≤ limit.rate) (hb : Within limit b) (now : α) :
    Within limit (b.refill limit now) := by
  unfold Bucket.refill
  split
  · exact hb
  · rename_i hlate
    have helapsed : 0 ≤ now - b.last := sub_nonneg.mpr (not_le.mp hlate).le
    have hadded : 0 ≤ limit.rate * (now - b.last) := mul_nonneg hrate helapsed
    exact ⟨le_min (hb.1.trans hb.2) (add_nonneg hb.1 hadded), min_le_left _ _⟩

omit [IsStrictOrderedRing α] in
/-- The refill at a time that does not lie before the last reading. -/
theorem refill_of_ge (hb : b.available ≤ limit.capacity) {now : α} (h : b.last ≤ now) :
    b.refill limit now = ⟨min limit.capacity (b.available + limit.rate * (now - b.last)), now⟩ := by
  unfold Bucket.refill
  split
  · rename_i hle
    have hnow : now = b.last := le_antisymm hle h
    rw [hnow, sub_self, mul_zero, add_zero, min_eq_right hb]
  · rfl

/-- A refill on the way to a later one changes nothing: what the capacity cuts off at the first
it cuts off at the second. -/
theorem refill_refill (hrate : 0 ≤ limit.rate) {now later : α} (h : now ≤ later) :
    (b.refill limit now).refill limit later = b.refill limit later := by
  by_cases hnow : now ≤ b.last
  · rw [refill_of_le hnow]
  · have hlast : ¬ later ≤ b.last := fun hle => hnow (h.trans hle)
    rcases h.lt_or_eq with hlt | rfl
    · have hadded : 0 ≤ limit.rate * (later - now) := mul_nonneg hrate (sub_nonneg.mpr h)
      have hsplit : limit.rate * (later - b.last) =
          limit.rate * (now - b.last) + limit.rate * (later - now) := by ring
      simp only [Bucket.refill, if_neg hnow, if_neg hlast, if_neg (not_le.mpr hlt), hsplit]
      congr 1
      rcases le_total limit.capacity (b.available + limit.rate * (now - b.last)) with hfull | hroom
      · rw [min_eq_left hfull, min_eq_left (by linarith), min_eq_left (by linarith)]
      · rw [min_eq_right hroom, add_assoc]
    · simp only [Bucket.refill, if_neg hnow, if_pos le_rfl]

omit [IsStrictOrderedRing α] in
/-- A reading depends on the bucket only through its refill. -/
theorem read_congr (h : b.refill limit r.time = b'.refill limit r.time) :
    read limit b r = read limit b' r := by
  simp only [read, h]

/-- From a time on the two buckets refill alike, and so cannot be told apart by readings. -/
def AgreeFrom (limit : Limit α) (now : α) (b b' : Bucket α) : Prop :=
  ∀ ⦃later⦄, now ≤ later → b.refill limit later = b'.refill limit later

omit [IsStrictOrderedRing α] in
theorem AgreeFrom.refl (limit : Limit α) (now : α) (b : Bucket α) : AgreeFrom limit now b b :=
  fun _ _ => rfl

omit [IsStrictOrderedRing α] in
theorem AgreeFrom.mono {now later : α} (h : AgreeFrom limit now b b') (hle : now ≤ later) :
    AgreeFrom limit later b b' := fun _ hlater => h (hle.trans hlater)

/-- Nor does it show whether a bucket was read in between. -/
theorem AgreeFrom.refill_left (hrate : 0 ≤ limit.rate) {now later : α}
    (h : AgreeFrom limit now b b') (hle : now ≤ later) :
    AgreeFrom limit later (b.refill limit later) b' := by
  intro x hx
  rw [refill_refill hrate hx]
  exact h (hle.trans hx)

theorem read_within (hrate : 0 ≤ limit.rate) (hb : Within limit b)
    (h : read limit b r = some b') : Within limit b' := by
  obtain ⟨hgranted, havailable, _, hpos⟩ := read_eq_some.mp h
  refine ⟨hpos, ?_⟩
  rw [havailable]
  exact (sub_le_self _ hgranted).trans (refill_within hrate hb r.time).2

theorem read_last (h : read limit b r = some b') : b'.last = max b.last r.time := by
  rw [(read_eq_some.mp h).2.2.1, refill_last]

/-- The potential of a bucket, what it holds less what its clock has earned, falls by what a
reading grants. -/
theorem read_potential (h : read limit b r = some b') :
    r.granted + b'.available ≤ b.available + limit.rate * (b'.last - b.last) := by
  obtain ⟨_, havailable, hlast, _⟩ := read_eq_some.mp h
  rw [havailable, hlast, add_sub_cancel]
  exact refill_le r.time

theorem run_within (hrate : 0 ≤ limit.rate) (hb : Within limit b)
    (hrun : run (read limit) b rs = some b') : Within limit b' :=
  run_invariant (fun _ _ _ hs h => read_within hrate hs h) hb hrun

/-- The potential argument, summed over a run. -/
theorem run_potential (hrun : run (read limit) b rs = some b') :
    total rs + b'.available ≤ b.available + limit.rate * (b'.last - b.last) := by
  induction rs generalizing b with
  | nil =>
    cases hrun
    rw [total_nil, sub_self, mul_zero, zero_add, add_zero]
  | cons r rs ih =>
    obtain ⟨m, hread, hrest⟩ := run_cons_eq_some.mp hrun
    have hstep := read_potential hread
    have htail := ih hrest
    have hsplit : limit.rate * (b'.last - b.last) =
        limit.rate * (b'.last - m.last) + limit.rate * (m.last - b.last) := by ring
    rw [total_cons, hsplit]
    linarith

/-- The clock of a bucket stays behind any time that bounds its readings. -/
theorem run_last_le {latest : α} (hlast : b.last ≤ latest) (hrs : ∀ r ∈ rs, r.time ≤ latest)
    (hrun : run (read limit) b rs = some b') : b'.last ≤ latest := by
  induction rs generalizing b with
  | nil => cases hrun; exact hlast
  | cons r rs ih =>
    obtain ⟨m, hread, hrest⟩ := run_cons_eq_some.mp hrun
    have hm : m.last ≤ latest := by
      rw [read_last hread]
      exact max_le hlast (hrs r List.mem_cons_self)
    exact ih hm (fun x hx => hrs x (List.mem_cons_of_mem _ hx)) hrest

/-- What a bucket that is not over its capacity can grant, up to the last time it saw. -/
theorem total_le (hrate : 0 ≤ limit.rate) (hb : Within limit b)
    (hrun : run (read limit) b rs = some b') :
    total rs ≤ limit.capacity + limit.rate * (b'.last - b.last) := by
  have hpotential := run_potential hrun
  have hpos := (run_within hrate hb hrun).1
  have hcap := hb.2
  linarith

/-- What a bucket can grant in a window that opens after its last reading: what it holds then
and what it earns in the window. -/
theorem total_le_held (hrate : 0 ≤ limit.rate) (hb : Within limit b) {since window : α}
    (hlast : b.last ≤ since) (hwindow : 0 ≤ window)
    (hrs : ∀ r ∈ rs, since ≤ r.time ∧ r.time ≤ since + window)
    (hrun : run (read limit) b rs = some b') :
    total rs ≤ (b.refill limit since).available + limit.rate * window := by
  have hheld := refill_within hrate hb since
  cases rs with
  | nil => exact add_nonneg hheld.1 (mul_nonneg hrate hwindow)
  | cons r rs =>
    -- The first reading does not show whether the bucket was refilled when the window opened.
    have hrefilled : run (read limit) (b.refill limit since) (r :: rs) = some b' := by
      obtain ⟨m, hread, hrest⟩ := run_cons_eq_some.mp hrun
      refine run_cons_eq_some.mpr ⟨m, ?_, hrest⟩
      rw [← hread]
      exact read_congr (refill_refill hrate (hrs r List.mem_cons_self).1)
    have hopened : (b.refill limit since).last = since := by
      rw [refill_last, max_eq_right hlast]
    have hpotential := run_potential hrefilled
    have hpos := (run_within hrate hheld hrefilled).1
    have hend : b'.last ≤ since + window := by
      refine run_last_le ?_ (fun r hr => (hrs r hr).2) hrefilled
      rw [hopened]
      exact le_add_of_nonneg_right hwindow
    have hearned : limit.rate * (b'.last - (b.refill limit since).last) ≤ limit.rate * window := by
      refine mul_le_mul_of_nonneg_left ?_ hrate
      rw [hopened]
      exact sub_le_iff_le_add'.mpr hend
    linarith

/-- The clock never reads back behind a time it has shown: not behind the last time the
bucket saw, nor behind an earlier reading. -/
def Forward (b : Bucket α) (rs : List (Reading α)) : Prop :=
  (b.last :: rs.map (·.time)).Pairwise (· ≤ ·)

omit [Field α] [IsStrictOrderedRing α] in
theorem Forward.le {b : Bucket α} {rs : List (Reading α)} (h : Forward b rs) {r : Reading α}
    (hr : r ∈ rs) : b.last ≤ r.time :=
  (List.pairwise_cons.mp h).1 _ (List.mem_map.mpr ⟨r, hr, rfl⟩)

/-- After a reading the rest of a forward history is one of the bucket it left. -/
theorem Forward.tail (h : Forward b (r :: rs)) (hread : read limit b r = some b') :
    b'.last = r.time ∧ Forward b' rs := by
  have hlast : b'.last = r.time := by
    rw [read_last hread]
    exact max_eq_right (h.le List.mem_cons_self)
  refine ⟨hlast, ?_⟩
  show ((b'.last :: rs.map (·.time)).Pairwise (· ≤ ·))
  rw [hlast]
  exact (List.pairwise_cons.mp h).2

omit [IsStrictOrderedRing α] in
/-- Once the clock has passed the end of a window, nothing more is granted in it. -/
theorem Forward.grantedIn_eq_zero {since till : α} (h : Forward b (r :: rs))
    (hlate : till < r.time) : grantedIn since till (r :: rs) = 0 := by
  apply TokenBucket.grantedIn_eq_zero
  intro x hx hin
  refine absurd hin.2 (not_le.mpr ?_)
  rcases List.mem_cons.mp hx with rfl | hx
  · exact hlate
  · have hsorted := (List.pairwise_cons.mp (List.pairwise_cons.mp h).2).1
    exact hlate.trans_le (hsorted _ (List.mem_map.mpr ⟨x, hx, rfl⟩))

/-- Up to a time that a bucket has not reached, it can grant what it holds and what it
earns until then. -/
theorem grantedIn_le_available {since till : α} (hrate : 0 ≤ limit.rate) (hb : Within limit b)
    (hforward : Forward b rs) (hlast : b.last ≤ till)
    (hrun : run (read limit) b rs = some b') :
    grantedIn since till rs ≤ b.available + limit.rate * (till - b.last) := by
  have hearns : ∀ c : Bucket α, Within limit c → c.last ≤ till →
      0 ≤ c.available + limit.rate * (till - c.last) := fun c hc hle =>
    add_nonneg hc.1 (mul_nonneg hrate (sub_nonneg.mpr hle))
  induction rs generalizing b with
  | nil => exact hearns b hb hlast
  | cons r rs ih =>
    obtain ⟨m, hread, hrest⟩ := run_cons_eq_some.mp hrun
    obtain ⟨hm, hafter⟩ := hforward.tail hread
    by_cases hlate : till < r.time
    · rw [hforward.grantedIn_eq_zero hlate]
      exact hearns b hb hlast
    · have htill : m.last ≤ till := hm ▸ not_lt.mp hlate
      have hrestBound := ih (read_within hrate hb hread) hafter htill hrest
      have hpotential := read_potential hread
      have hsplit : limit.rate * (till - b.last) =
          limit.rate * (till - m.last) + limit.rate * (m.last - b.last) := by ring
      by_cases hearly : r.time < since
      · have hgranted := (read_eq_some.mp hread).1
        rw [grantedIn_cons_of_lt hearly, hsplit]
        linarith
      · rw [grantedIn_cons ⟨not_lt.mp hearly, not_lt.mp hlate⟩, hsplit]
        linarith

/-- Over any window of a clock that does not step back a bucket grants at most its capacity
and what it earns in the window. -/
theorem grantedIn_le {since till : α} (hrate : 0 ≤ limit.rate) (hb : Within limit b)
    (hforward : Forward b rs) (hwindow : since ≤ till)
    (hrun : run (read limit) b rs = some b') :
    grantedIn since till rs ≤ limit.capacity + limit.rate * (till - since) := by
  have hcap : 0 ≤ limit.capacity := hb.1.trans hb.2
  have hlength : 0 ≤ limit.rate * (till - since) := mul_nonneg hrate (sub_nonneg.mpr hwindow)
  induction rs generalizing b with
  | nil => exact add_nonneg hcap hlength
  | cons r rs ih =>
    obtain ⟨m, hread, hrest⟩ := run_cons_eq_some.mp hrun
    obtain ⟨hm, hafter⟩ := hforward.tail hread
    have hwithin := read_within hrate hb hread
    by_cases hearly : r.time < since
    · rw [grantedIn_cons_of_lt hearly]
      exact ih hwithin hafter hrest
    · by_cases hlate : till < r.time
      · rw [hforward.grantedIn_eq_zero hlate]
        exact add_nonneg hcap hlength
      · -- The window opens with a bucket that is at most full.
        have htill : m.last ≤ till := hm ▸ not_lt.mp hlate
        have hrestBound : grantedIn since till rs ≤ _ :=
          grantedIn_le_available hrate hwithin hafter htill hrest
        have hfull : m.available + r.granted ≤ limit.capacity := by
          obtain ⟨_, havailable, _, _⟩ := read_eq_some.mp hread
          rw [havailable, sub_add_cancel]
          exact (refill_within hrate hb r.time).2
        have hearned : limit.rate * (till - m.last) ≤ limit.rate * (till - since) := by
          refine mul_le_mul_of_nonneg_left ?_ hrate
          rw [hm]
          exact sub_le_sub_left (not_lt.mp hearly) till
        rw [grantedIn_cons ⟨not_lt.mp hearly, not_lt.mp hlate⟩]
        linarith

end Bounds

/-! ## Readings one after another -/

section Append

variable [Field α] [LinearOrder α]

theorem grantedIn_append (since till : α) (rs us : List (Reading α)) :
    grantedIn since till (rs ++ us) = grantedIn since till rs + grantedIn since till us := by
  simp only [grantedIn, List.filter_append, total_append]

variable [IsStrictOrderedRing α] {rs : List (Reading α)}

theorem grantedIn_nonneg (hrs : ∀ r ∈ rs, 0 ≤ r.granted) (since till : α) :
    0 ≤ grantedIn since till rs := by
  apply List.sum_nonneg
  intro x hx
  obtain ⟨r, hr, rfl⟩ := List.mem_map.mp hx
  exact hrs r (List.mem_of_mem_filter hr)

theorem granted_nonneg {limit : Limit α} {b b' : Bucket α}
    (hrun : run (read limit) b rs = some b') : ∀ r ∈ rs, 0 ≤ r.granted := by
  induction rs generalizing b with
  | nil => simp
  | cons r rs ih =>
    obtain ⟨m, hread, hrest⟩ := run_cons_eq_some.mp hrun
    intro x hx
    rcases List.mem_cons.mp hx with rfl | hx
    · exact (read_eq_some.mp hread).1
    · exact ih hrest x hx

end Append

/-! ## Requests at an even pace

What an emptied bucket gives to requests of one token each, `d` apart, when it serves a
request as soon as it holds the token: every request when the rate gives a token in each
interval, else all that the rate gives up to the fraction of a token that is left. -/

section Paced

variable [Field α] [LinearOrder α]

/-- The reading a request for `wanted` becomes: all of it or nothing. -/
def offer (limit : Limit α) (b : Bucket α) (now wanted : α) : Reading α :=
  ⟨now, if wanted ≤ (b.refill limit now).available then wanted else 0⟩

/-- The bucket after a request. -/
def Bucket.serve (limit : Limit α) (b : Bucket α) (now wanted : α) : Bucket α :=
  ⟨(b.refill limit now).available - (offer limit b now wanted).granted,
    (b.refill limit now).last⟩

/-- What `n` requests of one token got, `d` apart from the last time of the bucket on. -/
def paced (limit : Limit α) (d : α) (b : Bucket α) : Nat → List (Reading α)
  | 0 => []
  | n + 1 => offer limit b (b.last + d) 1 :: paced limit d (b.serve limit (b.last + d) 1) n

variable [IsStrictOrderedRing α] {limit : Limit α} {b : Bucket α} {d : α}

/-- A request is a reading of the bucket. -/
theorem read_offer (hrate : 0 ≤ limit.rate) (hb : Within limit b) {now wanted : α}
    (hwanted : 0 ≤ wanted) :
    read limit b (offer limit b now wanted) = some (b.serve limit now wanted) := by
  rw [read_eq_some]
  refine ⟨?_, rfl, rfl, ?_⟩
  · show 0 ≤ ite _ _ _
    split
    · exact hwanted
    · exact le_rfl
  · show 0 ≤ _ - ite _ _ _
    split
    · rename_i hheld
      exact sub_nonneg.mpr hheld
    · rw [sub_zero]
      exact (refill_within hrate hb now).1

theorem serve_last (hd : 0 ≤ d) (wanted : α) :
    (b.serve limit (b.last + d) wanted).last = b.last + d := by
  show (b.refill limit (b.last + d)).last = b.last + d
  rw [refill_last]
  exact max_eq_right (le_add_of_nonneg_right hd)

theorem refill_after (hd : 0 < d) :
    (b.refill limit (b.last + d)).available =
      min limit.capacity (b.available + limit.rate * d) := by
  have hlate : ¬ b.last + d ≤ b.last := not_le.mpr (lt_add_of_pos_right _ hd)
  rw [Bucket.refill, if_neg hlate, add_sub_cancel_left]

/-- A rate that gives a token in each interval serves every request. -/
theorem paced_total_of_fast (hd : 0 < d) (hcap : 1 ≤ limit.capacity) (hfast : 1 ≤ limit.rate * d)
    (hb : 0 ≤ b.available) (n : Nat) : total (paced limit d b n) = n := by
  induction n generalizing b with
  | zero => simp [paced]
  | succ n ih =>
    have hheld : 1 ≤ (b.refill limit (b.last + d)).available := by
      rw [refill_after hd]
      exact le_min hcap (hfast.trans (le_add_of_nonneg_left hb))
    have hoffer : (offer limit b (b.last + d) 1).granted = 1 := if_pos hheld
    have hserved : 0 ≤ (b.serve limit (b.last + d) 1).available := by
      show 0 ≤ _ - (offer limit b (b.last + d) 1).granted
      rw [hoffer]
      exact sub_nonneg.mpr hheld
    rw [paced, total_cons, ih hserved, hoffer, Nat.cast_succ, add_comm]

/-- A slower rate never fills a bucket of two tokens: nothing it gives is lost. -/
theorem paced_total_of_slow (hd : 0 < d) (hcap : 2 ≤ limit.capacity)
    (hrate : 0 ≤ limit.rate) (hslow : limit.rate * d < 1) (hb : 0 ≤ b.available)
    (hb1 : b.available < 1) (n : Nat) :
    b.available + limit.rate * d * n - 1 < total (paced limit d b n) := by
  induction n generalizing b with
  | zero =>
    rw [paced, total_nil, Nat.cast_zero, mul_zero, add_zero]
    exact sub_neg.mpr hb1
  | succ n ih =>
    have hearned : 0 ≤ limit.rate * d := mul_nonneg hrate hd.le
    have hheld : (b.refill limit (b.last + d)).available = b.available + limit.rate * d := by
      rw [refill_after hd]
      apply min_eq_right
      linarith
    have hserved : (b.serve limit (b.last + d) 1).available =
        b.available + limit.rate * d - (offer limit b (b.last + d) 1).granted := by
      rw [← hheld]
      rfl
    have hbounds : 0 ≤ (b.serve limit (b.last + d) 1).available ∧
        (b.serve limit (b.last + d) 1).available < 1 := by
      rw [hserved]
      show 0 ≤ _ - ite _ _ _ ∧ _ - ite _ _ _ < 1
      rw [hheld]
      split <;> constructor <;> linarith
    have hrest := ih hbounds.1 hbounds.2
    rw [hserved] at hrest
    rw [paced, total_cons, Nat.cast_succ]
    linarith

end Paced

end Blive.TokenBucket
