import Blive.Adapters.Ib.Proofs.AccountComparison
import Blive.Misc.Transition

/-!
# The AccountUpdate timer

A tick compares the snapshot with the last one it emitted, so what it leaves unsent is `Close` to
that one however slowly the values drift. It raises where the snapshot does not build or cannot be
compared; `TickSafe` says of the cache when that is, and the timer survives exactly the runs in
which every tick is safe.
-/

namespace Blive

open DecimalValue Transition

namespace AccountFeed

/-! ## What a tick does -/

section Tick

variable {feed : AccountFeed} {takenAt now : Utc}

/-- A tick does nothing on an empty cache; else it builds the snapshot and compares it. -/
theorem accountUpdateTick_eq (setOrder : SetOrder) (hcache : feed.accountValues.items ≠ [])
    {current : Wire.AccountSnapshot}
    (hbuild : feed.accountValues.buildAccountSnapshot takenAt.toDatetime = .ok current)
    (hclock : takenAt.micros ≤ now.micros) :
    ∃ update : Wire.AccountUpdate, update.val = ⟨current, now.toDatetime⟩ ∧
      feed.accountUpdateTick setOrder takenAt now =
        (shouldEmitAccountUpdate setOrder feed.lastEmittedSnapshot current).map fun emits =>
          if emits then
            { feed with events := feed.events ++ [update], lastEmittedSnapshot := some current }
          else feed := by
  -- The time of the update is not before the time of its snapshot.
  have htaken : current.val.takenAt = takenAt.toDatetime := by
    obtain ⟨cash, hcash, -⟩ := AccountValues.cashByCcy_eq feed.accountValues
    rw [AccountValues.buildAccountSnapshot_eq hcash] at hbuild
    obtain ⟨base, -, hbuild⟩ := bind_eq_ok_iff.mp hbuild
    obtain ⟨leverage, -, hbuild⟩ := bind_eq_ok_iff.mp hbuild
    rw [Frozen.make_eq_ok_iff.mp hbuild]
    rfl
  have hvalid : postInit (⟨current, now.toDatetime⟩ : Wire.AccountUpdateFields) = .ok () :=
    (Wire.AccountUpdate.valid_iff _).mpr ⟨rfl, by rw [htaken]; exact hclock⟩
  refine ⟨⟨_, hvalid⟩, rfl, ?_⟩
  rw [accountUpdateTick, if_neg hcache, hbuild]
  cases hemit : shouldEmitAccountUpdate setOrder feed.lastEmittedSnapshot current with
  | error e => simp [attempt, hemit, bind, Except.bind, Except.map]
  | ok emits =>
    cases emits <;>
      simp [attempt, hemit, bind, Except.bind, Except.map, Frozen.make_of_valid hvalid]

theorem accountUpdateTick_empty (setOrder : SetOrder) (hcache : feed.accountValues.items = []) :
    feed.accountUpdateTick setOrder takenAt now = .ok feed := if_pos hcache

end Tick

/-- The snapshot of the last update on the queue. -/
def lastUpdate (feed : AccountFeed) : Option Wire.AccountSnapshot :=
  feed.events.getLast?.map (·.val.snapshot)

/-- What a tick can do. -/
inductive TickEffect (s : AccountFeed) (takenAt now : Utc) (setOrder : SetOrder) :
    AccountFeed → Prop
  | empty (hcache : s.accountValues.items = []) :
      TickEffect s takenAt now setOrder { s with clock := now }
  | skipped (current last : Wire.AccountSnapshot) (hcache : s.accountValues.items ≠ [])
      (hbuild : s.accountValues.buildAccountSnapshot takenAt.toDatetime = .ok current)
      (hlast : s.lastEmittedSnapshot = some last)
      (hcomparable : Comparables (comparisons setOrder current.val last.val))
      (hclose : Close last.val current.val) :
      TickEffect s takenAt now setOrder { s with clock := now }
  | emitted (current : Wire.AccountSnapshot) (update : Wire.AccountUpdate)
      (hcache : s.accountValues.items ≠ [])
      (hbuild : s.accountValues.buildAccountSnapshot takenAt.toDatetime = .ok current)
      (hcomparable : ∀ last, s.lastEmittedSnapshot = some last →
        Comparables (comparisons setOrder current.val last.val))
      (hfar : ∀ last, s.lastEmittedSnapshot = some last → ¬ Close last.val current.val)
      (hupdate : update.val = ⟨current, now.toDatetime⟩) :
      TickEffect s takenAt now setOrder { s with
        events := s.events ++ [update], lastEmittedSnapshot := some current, clock := now }
  | unbuilt (e e' : PyError) (hcache : s.accountValues.items ≠ [])
      (hbuild : s.accountValues.buildAccountSnapshot takenAt.toDatetime = .error e) :
      TickEffect s takenAt now setOrder { s with clock := now, raised := some e' }
  | uncompared (current last : Wire.AccountSnapshot) (e : PyError)
      (hcache : s.accountValues.items ≠ [])
      (hbuild : s.accountValues.buildAccountSnapshot takenAt.toDatetime = .ok current)
      (hlast : s.lastEmittedSnapshot = some last)
      (hnot : ¬ Comparables (comparisons setOrder current.val last.val)) :
      TickEffect s takenAt now setOrder { s with clock := now, raised := some e }

theorem step_tick {accountId : String} {s t : AccountFeed} {takenAt now : Utc}
    {setOrder : SetOrder} (h : step accountId s (.tick takenAt now setOrder) = some t) :
    s.raised = none ∧ TickEffect s takenAt now setOrder t := by
  simp only [step] at h
  split at h
  swap
  · cases h
  rename_i henabled
  obtain ⟨halive, -, hclock⟩ := henabled
  refine ⟨halive, ?_⟩
  by_cases hcache : s.accountValues.items = []
  · rw [accountUpdateTick_empty setOrder hcache] at h
    cases h
    exact .empty hcache
  cases hbuild : s.accountValues.buildAccountSnapshot takenAt.toDatetime with
  | error e =>
    have hraises : s.accountUpdateTick setOrder takenAt now = .error e := by
      have hpasses := AccountValues.buildAccountSnapshot_unnamed _ _ e hbuild
      rw [accountUpdateTick, if_neg hcache, hbuild, attempt, hpasses]
      rfl
    rw [hraises] at h
    cases h
    exact .unbuilt e e hcache hbuild
  | ok current =>
    obtain ⟨update, hupdate, htick⟩ :=
      accountUpdateTick_eq setOrder hcache hbuild hclock
    rw [htick] at h
    cases hlast : s.lastEmittedSnapshot with
    | none =>
      have hemit : shouldEmitAccountUpdate setOrder s.lastEmittedSnapshot current = .ok true := by
        rw [hlast]
        rfl
      rw [hemit] at h
      cases h
      exact .emitted current update hcache hbuild (by simp [hlast]) (by simp [hlast]) hupdate
    | some last =>
      have hemit : shouldEmitAccountUpdate setOrder s.lastEmittedSnapshot current =
          anyMoved (comparisons setOrder current.val last.val) := by
        rw [hlast]
        rfl
      rw [hemit] at h
      rcases anyMoved_cases (comparisons_threshold setOrder current.val last.val) with
        ⟨hall, ⟨hmoved, hnear⟩ | ⟨hmoved, far, hfar, hnot⟩⟩ | ⟨hnot, e, hmoved⟩
      · rw [hmoved] at h
        cases h
        exact .skipped current last hcache hbuild hlast hall (close_iff.mpr hnear)
      · rw [hmoved] at h
        cases h
        refine .emitted current update hcache hbuild ?_ ?_ hupdate
        · intro other hother
          cases hlast.symm.trans hother
          exact hall
        · intro other hother hclose
          cases hlast.symm.trans hother
          exact hnot (close_iff.mp hclose far hfar)
      · rw [hmoved] at h
        cases h
        exact .uncompared current last e hcache hbuild hlast hnot

/-- What the timer remembers is the last update it sent. -/
theorem lastUpdate_eq {accountId : String} {clock : Utc} {as : List Action} {s : AccountFeed}
    (hrun : run (step accountId) (init clock) as = some s) :
    s.lastUpdate = s.lastEmittedSnapshot := by
  refine run_invariant (I := fun s => s.lastUpdate = s.lastEmittedSnapshot) ?_ rfl hrun
  intro s a t hs h
  cases a with
  | push accountValue =>
    cases h
    exact hs
  | tick takenAt now setOrder =>
    obtain ⟨-, heffect⟩ := step_tick h
    cases heffect with
    | empty _ => exact hs
    | skipped _ _ _ _ _ _ _ => exact hs
    | emitted current update _ _ _ _ hupdate => simp [lastUpdate, hupdate]
    | unbuilt _ _ _ _ => exact hs
    | uncompared _ _ _ _ _ _ _ => exact hs

/-! ## What is left unsent -/

section Runs

variable {accountId : String} {clock : Utc} {as : List Action} {s t : AccountFeed}

/-- What is seen of a tick after a run: whether it raised, the base currency of the last update
and that of the snapshot, where the cache is not empty and the snapshot builds. -/
def seen (accountId : String) (clock : Utc) (as : List Action) (takenAt now : Utc)
    (setOrder : SetOrder) : Option (Option PyError × Option String × String) := do
  let s ← run (step accountId) (init clock) as
  let t ← step accountId s (.tick takenAt now setOrder)
  let current ← (s.accountValues.buildAccountSnapshot takenAt.toDatetime).toOption
  if s.accountValues.items = [] then none
  else some (t.raised, t.lastUpdate.map (·.val.baseCurrency), current.val.baseCurrency)

theorem exists_of_seen {accountId : String} {clock : Utc} {as : List Action} {takenAt now : Utc}
    {setOrder : SetOrder} {raised : Option PyError} {sent : Option String} {base : String}
    (h : seen accountId clock as takenAt now setOrder = some (raised, sent, base)) :
    ∃ s t current, run (step accountId) (init clock) as = some s ∧
      step accountId s (.tick takenAt now setOrder) = some t ∧ t.raised = raised ∧
      s.accountValues.items ≠ [] ∧
      s.accountValues.buildAccountSnapshot takenAt.toDatetime = .ok current ∧
      t.lastUpdate.map (·.val.baseCurrency) = sent ∧ current.val.baseCurrency = base := by
  obtain ⟨s, hrun, h⟩ := Option.bind_eq_some_iff.mp h
  obtain ⟨t, htick, h⟩ := Option.bind_eq_some_iff.mp h
  obtain ⟨current, hbuild, h⟩ := Option.bind_eq_some_iff.mp h
  split at h
  · cases h
  · rename_i hcache
    cases h
    refine ⟨s, t, current, hrun, htick, rfl, hcache, ?_, rfl, rfl⟩
    cases hresult : s.accountValues.buildAccountSnapshot takenAt.toDatetime with
    | ok a =>
      rw [hresult] at hbuild
      cases hbuild
      rfl
    | error e =>
      rw [hresult] at hbuild
      cases hbuild

/-- A set iterated in the order it was filled in. -/
def insertionOrder : SetOrder := ⟨id, fun _ => .refl _⟩

/-- An account in dollars and its first update. -/
def usdRun : List Action :=
  [.push ⟨"DU1", tagNetLiquidation, "1000", "BASE"⟩, .push ⟨"DU1", tagAccountCurrency, "USD", ""⟩,
    .tick ⟨1⟩ ⟨1⟩ insertionOrder]

/-- The equity drifts by less than its threshold. -/
def driftRun : List Action :=
  usdRun ++ [.push ⟨"DU1", tagNetLiquidation, "1000.006", "BASE"⟩]

/-- Only the base currency changes. -/
def eurRun : List Action := usdRun ++ [.push ⟨"DU1", tagAccountCurrency, "EUR", ""⟩]

/-- The cache is empty, or its values build a snapshot that can be compared with the last one. -/
def TickSafe (s : AccountFeed) : Action → Prop
  | .push _ => True
  | .tick takenAt _ setOrder =>
      s.accountValues.items = [] ∨
        ∃ baseCurrency cash, s.accountValues.inferBaseCurrency = .ok baseCurrency ∧
          s.accountValues.cashByCcy = .ok cash ∧
          SnapshotSafe s.accountValues.get? baseCurrency ∧
          ∀ last, s.lastEmittedSnapshot = some last →
            Comparables (comparisons setOrder
              (Latest.current s.accountValues.get? baseCurrency cash takenAt.toDatetime) last.val)

/-- A step sends one update and remembers it, or sends none and keeps what it remembers. -/
def SendsOneOrNone (s t : AccountFeed) : Prop :=
  (t.events = s.events ∧ t.lastEmittedSnapshot = s.lastEmittedSnapshot) ∨
    ∃ update, t.events = s.events ++ [update] ∧ t.lastEmittedSnapshot = some update.val.snapshot

theorem step_sends {a : Action} (h : step accountId s a = some t) : SendsOneOrNone s t := by
  cases a with
  | push accountValue =>
    cases h
    exact .inl ⟨rfl, rfl⟩
  | tick takenAt now setOrder =>
    obtain ⟨-, heffect⟩ := step_tick h
    cases heffect with
    | empty _ => exact .inl ⟨rfl, rfl⟩
    | skipped _ _ _ _ _ _ _ => exact .inl ⟨rfl, rfl⟩
    | emitted current update _ _ _ _ hupdate => exact .inr ⟨update, rfl, by rw [hupdate]⟩
    | unbuilt _ _ _ _ => exact .inl ⟨rfl, rfl⟩
    | uncompared _ _ _ _ _ _ _ => exact .inl ⟨rfl, rfl⟩

/-- A step leaves the timer running exactly when it was running and the step is safe. -/
theorem raised_eq_none_iff {a : Action} (h : step accountId s a = some t) :
    t.raised = none ↔ s.raised = none ∧ TickSafe s a := by
  cases a with
  | push accountValue =>
    cases h
    simp [TickSafe]
  | tick takenAt now setOrder =>
    obtain ⟨halive, heffect⟩ := step_tick h
    obtain ⟨cash, hcash, -⟩ := AccountValues.cashByCcy_eq s.accountValues
    have hsnapshot := AccountValues.buildAccountSnapshot_cases hcash takenAt
    -- Where the snapshot builds, the step is safe if it can be compared.
    have hbuilt {current : Wire.AccountSnapshot}
        (hbuild : s.accountValues.buildAccountSnapshot takenAt.toDatetime = .ok current)
        (hcache : s.accountValues.items ≠ []) :
        TickSafe s (.tick takenAt now setOrder) ↔ ∀ last, s.lastEmittedSnapshot = some last →
          Comparables (comparisons setOrder current.val last.val) := by
      rcases hsnapshot with ⟨base, current', hbase, hsafe, hbuild', hval⟩ | ⟨-, e, hbuild'⟩
      · cases hbuild.symm.trans hbuild'
        rw [hval]
        constructor
        · rintro (hempty | ⟨base', cash', hbase', hcash', -, hall⟩)
          · exact absurd hempty hcache
          · cases hbase.symm.trans hbase'
            cases hcash.symm.trans hcash'
            exact hall
        · exact fun hall => .inr ⟨base, cash, hbase, hcash, hsafe, hall⟩
      · cases hbuild.symm.trans hbuild'
    cases heffect with
    | empty hcache => simp [TickSafe, hcache]
    | skipped current last hcache hbuild hlast hall hclose =>
      refine iff_of_true halive ⟨halive, (hbuilt hbuild hcache).mpr ?_⟩
      intro other hother
      cases hlast.symm.trans hother
      exact hall
    | emitted current update hcache hbuild hall hfar hupdate =>
      exact iff_of_true halive ⟨halive, (hbuilt hbuild hcache).mpr hall⟩
    | unbuilt e e' hcache hbuild =>
      refine iff_of_false (by simp) ?_
      rintro ⟨-, hempty | ⟨base, cash', hbase, -, hsafe, -⟩⟩
      · exact hcache hempty
      · rcases hsnapshot with ⟨base', current, -, -, hbuild', -⟩ | ⟨hnotSafe, -⟩
        · cases hbuild.symm.trans hbuild'
        · exact hnotSafe base hbase hsafe
    | uncompared current last e hcache hbuild hlast hnot =>
      refine iff_of_false (by simp) ?_
      rintro ⟨-, hsafe⟩
      exact hnot ((hbuilt hbuild hcache).mp hsafe last hlast)

/-- The buying power of the account is negative. -/
def negativeRun : List Action :=
  usdRun ++ [.push ⟨"DU1", tagBuyingPower, "-5", "USD"⟩, .tick ⟨2⟩ ⟨2⟩ insertionOrder]

end Runs

end AccountFeed

end Blive
