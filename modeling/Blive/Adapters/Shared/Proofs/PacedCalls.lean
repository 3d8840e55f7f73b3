import Blive.Adapters.Shared.Proofs.WindowCap

/-!
# Calls that keep a bucket within a cap

A run keeps a cap on every window when its calls ask for no more within a window, or find the
bucket low when the window opens. What is asked for is granted, waited for or withdrawn, and a
bucket that is low grants little more than it earns. Where no call has to wait, what is granted
is what is asked for.
-/

namespace Blive

open Transition

namespace RateLimiterSystem

variable {config : RateLimitConfig} {start : Utc} {s t : RateLimiterSystem}
  {name : String} {cfg : RateLimitBucket}

/-- After its refill at `now` the bucket holds the tokens. -/
def Holds (s : RateLimiterSystem) (bucket : String) (tokens : Int) (now : Utc) : Prop :=
  ∃ limiter available, s.limiter.refill bucket now = .ok limiter ∧
    limiter.available.get? bucket = some available ∧ (tokens : Rat) ≤ available

/-- What the calls on the bucket that wait in `clock.sleep` ask for together. -/
def asleep (s : RateLimiterSystem) (name : String) : Int :=
  (s.sleeping.map fun call => if call.1 = name then call.2 else 0).sum

/-- What an action asks the bucket for: a call that passes its checks, for its tokens. -/
def asks (cfg : RateLimitBucket) (name : String) : RateLimiterAction → Int
  | .acquire bucket tokens _ =>
      if bucket = name ∧ 0 < tokens ∧ tokens ≤ cfg.val.capacity then tokens else 0
  | _ => 0

/-- What the calls made in a stretch of a run ask the bucket for together. -/
def asked (cfg : RateLimitBucket) (name : String) (actions : List RateLimiterAction) : Int :=
  (actions.map (asks cfg name)).sum

theorem asked_cons (cfg : RateLimitBucket) (name : String) (a : RateLimiterAction)
    (actions : List RateLimiterAction) :
    asked cfg name (a :: actions) = asks cfg name a + asked cfg name actions := rfl

theorem asked_append (cfg : RateLimitBucket) (name : String) (as bs : List RateLimiterAction) :
    asked cfg name (as ++ bs) = asked cfg name as + asked cfg name bs := by
  simp [asked]

theorem asked_nonneg (cfg : RateLimitBucket) (name : String) (actions : List RateLimiterAction) :
    0 ≤ asked cfg name actions := by
  apply List.sum_nonneg
  intro x hx
  obtain ⟨a, _, rfl⟩ := List.mem_map.mp hx
  cases a with
  | acquire bucket tokens now =>
    simp only [asks]
    split
    · rename_i hchecked
      exact hchecked.2.1.le
    · exact le_rfl
  | wake => exact le_rfl
  | cancel => exact le_rfl
  | metrics => exact le_rfl

/-- The readings of the clock since an earlier state. -/
def readingsSince (s t : RateLimiterSystem) : List ClockReading := t.readings.drop s.readings.length

/-- Whenever the clock is read, and then only within the window it opens, the calls that wait by
then and those made in the window ask for no more than `cap` tokens, unless the bucket opens the
window with fewer than `spare`. -/
def PacedCalls (config : RateLimitConfig) (name : String) (cfg : RateLimitBucket) (window : Rat)
    (cap : Nat) (spare : Int) (start : Utc) (actions : List RateLimiterAction) : Prop :=
  ∀ before stretch after m t first more, actions = before ++ (stretch ++ after) →
    run step (init config start) before = some m → run step m stretch = some t →
    m.readingsSince t = first :: more →
    (∀ r ∈ more, first.now.seconds ≤ r.now.seconds ∧
      r.now.seconds ≤ first.now.seconds + window) →
    m.asleep name + asked cfg name stretch ≤ cap ∨ ¬ m.Holds name spare first.now

/-- No call on the bucket ever has to wait. -/
def NeverWaits (config : RateLimitConfig) (name : String) (start : Utc)
    (actions : List RateLimiterAction) : Prop :=
  ∀ before after m, actions = before ++ after → run step (init config start) before = some m →
    ∀ call ∈ m.sleeping, call.1 ≠ name

theorem holds_iff (h : s.Follows config start) (hcfg : config.val.buckets.get? name = some cfg)
    {b : TokenBucket.Bucket Rat} (hb : s.limiter.bucketState name = some b) (tokens : Int)
    (now : Utc) : s.Holds name tokens now ↔
      (tokens : Rat) ≤ (b.refill cfg.limit now.seconds).available := by
  obtain ⟨limiter, hrefill, hupdates⟩ :=
    TokenBucketRateLimiter.refill_spec (h.config_eq ▸ hcfg) hb now
  obtain ⟨havailable, _⟩ :=
    TokenBucketRateLimiter.bucketState_eq_some.mp hupdates.bucketState_self
  constructor
  · rintro ⟨limiter', available, hrefill', havailable', hle⟩
    cases hrefill.symm.trans hrefill'
    cases havailable.symm.trans havailable'
    exact hle
  · intro hle
    exact ⟨limiter, _, hrefill, havailable, hle⟩

/-! ## What the bucket is asked for it grants or keeps waiting -/

theorem asleep_append (s : RateLimiterSystem) (limiter : TokenBucketRateLimiter)
    (call : String × Int) (readings : List ClockReading) (name : String) :
    asleep ⟨limiter, s.sleeping ++ [call], readings⟩ name =
      s.asleep name + if call.1 = name then call.2 else 0 := by
  simp [asleep]

/-- A call that leaves the sleepers takes what it asks for out of their sum. -/
theorem asleep_eraseIdx {i : Nat} {call : String × Int} (hcall : s.sleeping[i]? = some call)
    (name : String) :
    asleep { s with sleeping := s.sleeping.eraseIdx i } name + (if call.1 = name then call.2 else 0)
      = s.asleep name := by
  obtain ⟨hi, hget⟩ := List.getElem?_eq_some_iff.mp hcall
  have hperm := (List.getElem_cons_eraseIdx_perm hi).map
    fun call : String × Int => if call.1 = name then call.2 else 0
  rw [asleep, asleep, ← hperm.sum_eq, List.map_cons, List.sum_cons, hget, add_comm]

theorem asleep_eq_zero (h : ∀ call ∈ s.sleeping, call.1 ≠ name) : s.asleep name = 0 := by
  apply List.sum_eq_zero
  intro x hx
  obtain ⟨call, hcall, rfl⟩ := List.mem_map.mp hx
  exact if_neg (h call hcall)

theorem asleep_nonneg (h : s.Follows config start) (name : String) : 0 ≤ s.asleep name := by
  apply List.sum_nonneg
  intro x hx
  obtain ⟨call, hcall, rfl⟩ := List.mem_map.mp hx
  obtain ⟨cfg, hchecked⟩ := h.sleeping call hcall
  split
  · exact (TokenBucketRateLimiter.checkAcquire_eq_ok_iff.mp hchecked).2.1.le
  · exact le_rfl

/-- The tokens a cancelled call was waiting for. -/
def withdrawn (s : RateLimiterSystem) (name : String) : RateLimiterAction → Int
  | .cancel i => match s.sleeping[i]? with
      | some call => if call.1 = name then call.2 else 0
      | none => 0
  | _ => 0

theorem withdrawn_nonneg (h : s.Follows config start) (name : String) (a : RateLimiterAction) :
    0 ≤ s.withdrawn name a := by
  cases a with
  | cancel i =>
    simp only [withdrawn]
    split
    · rename_i call hcall
      obtain ⟨cfg, hchecked⟩ := h.sleeping call (List.mem_of_getElem? hcall)
      split
      · exact (TokenBucketRateLimiter.checkAcquire_eq_ok_iff.mp hchecked).2.1.le
      · exact le_rfl
    · exact le_rfl
  | acquire => exact le_rfl
  | wake => exact le_rfl
  | metrics => exact le_rfl

theorem withdrawn_eq_zero (h : ∀ call ∈ s.sleeping, call.1 ≠ name) (a : RateLimiterAction) :
    s.withdrawn name a = 0 := by
  cases a with
  | cancel i =>
    simp only [withdrawn]
    split
    · rename_i call hcall
      exact if_neg (h call (List.mem_of_getElem? hcall))
    · rfl
  | acquire => rfl
  | wake => rfl
  | metrics => rfl

/-- A reading adds to what was granted what it took. -/
theorem granted_append (s : RateLimiterSystem) (limiter : TokenBucketRateLimiter)
    (sleeping : List (String × Int)) (r : ClockReading) (name : String) :
    granted ⟨limiter, sleeping, s.readings ++ [r]⟩ name =
      s.granted name + TokenBucket.total (r.at? name).toList := by
  rw [granted, history_append, TokenBucket.total_append]
  rfl

/-- A turn either grants what the call asks for or puts the call to sleep. -/
theorem turn_conserves (h : s.Follows config start) {bucket : String} {tokens : Int}
    (hchecked : s.limiter.checkAcquire bucket tokens = .ok cfg) (now : Utc) (name : String) :
    (s.turn bucket tokens now).granted name + (s.turn bucket tokens now).asleep name =
      s.granted name + s.asleep name + (if bucket = name then tokens else 0 : Int) := by
  obtain ⟨hcfg, htokens, _⟩ := TokenBucketRateLimiter.checkAcquire_eq_ok_iff.mp hchecked
  obtain ⟨b, hrun, hb⟩ := h.bucket bucket cfg (h.config_eq ▸ hcfg)
  obtain ⟨limiter, b', hattempt, _, _⟩ :=
    TokenBucketRateLimiter.attempt_spec hcfg hb (within_of_run hrun) htokens now
  cases hwait : TokenBucketRateLimiter.waitFor cfg b tokens now with
  | none =>
    have hturn : s.turn bucket tokens now =
        ⟨limiter, s.sleeping, s.readings ++ [.attempt now bucket tokens]⟩ := by
      simp only [turn, hattempt, hwait]
    have hasleep : (s.turn bucket tokens now).asleep name = s.asleep name := by
      rw [hturn]
      rfl
    rw [hasleep, hturn, granted_append]
    by_cases heq : bucket = name
    · simp only [ClockReading.at?, heq, if_true, Option.toList_some, TokenBucket.total_cons,
        TokenBucket.total_nil]
      ring
    · simp [ClockReading.at?, heq]
  | some seconds =>
    have hturn : s.turn bucket tokens now = ⟨limiter, s.sleeping ++ [(bucket, tokens)],
        s.readings ++ [.attempt now bucket 0]⟩ := by
      simp only [turn, hattempt, hwait]
    have hgranted : (s.turn bucket tokens now).granted name = s.granted name := by
      rw [hturn, granted_append]
      by_cases heq : bucket = name <;> simp [ClockReading.at?, heq]
    rw [hgranted, hturn, asleep_append]
    push_cast
    ring

/-- A call that its checks refuse asks for nothing. -/
theorem asks_of_refused (h : s.Follows config start)
    (hcfg : config.val.buckets.get? name = some cfg) {bucket : String} {tokens : Int}
    {e : PyError} (hrefused : s.limiter.checkAcquire bucket tokens = .error e) (now : Utc) :
    asks cfg name (.acquire bucket tokens now) = 0 := by
  apply if_neg
  rintro ⟨rfl, hpos, hcap⟩
  have hchecked := TokenBucketRateLimiter.checkAcquire_eq_ok_iff.mpr
    ⟨h.config_eq ▸ hcfg, hpos, hcap⟩
  cases hrefused.symm.trans hchecked

/-- A call that its checks pass asks its bucket for its tokens. -/
theorem asks_of_checked (h : s.Follows config start)
    (hcfg : config.val.buckets.get? name = some cfg) {bucket : String} {tokens : Int}
    {cfg' : RateLimitBucket} (hchecked : s.limiter.checkAcquire bucket tokens = .ok cfg')
    (now : Utc) :
    asks cfg name (.acquire bucket tokens now) = if bucket = name then tokens else 0 := by
  obtain ⟨hcfg', hpos, hcap⟩ := TokenBucketRateLimiter.checkAcquire_eq_ok_iff.mp hchecked
  by_cases heq : bucket = name
  · subst heq
    cases hcfg.symm.trans (h.config_eq ▸ hcfg')
    simp [asks, hpos, hcap]
  · simp [asks, heq]

/-- What is asked for is granted, waited for or withdrawn. -/
theorem step_conserves (h : s.Follows config start)
    (hcfg : config.val.buckets.get? name = some cfg) {a : RateLimiterAction}
    (hstep : s.step a = some t) :
    t.granted name + t.asleep name + s.withdrawn name a =
      s.granted name + s.asleep name + asks cfg name a := by
  cases a with
  | acquire bucket tokens now =>
    simp only [step] at hstep
    split at hstep
    · rename_i e hrefused
      cases hstep
      rw [asks_of_refused h hcfg hrefused now]
      rfl
    · rename_i cfg' hchecked
      cases hstep
      rw [asks_of_checked h hcfg hchecked now, ← turn_conserves h hchecked now name]
      exact (congrArg _ Int.cast_zero).trans (add_zero _)
  | wake i now =>
    simp only [step] at hstep
    split at hstep
    · cases hstep
    · rename_i bucket tokens hcall
      cases hstep
      obtain ⟨cfg', hchecked⟩ := h.sleeping _ (List.mem_of_getElem? hcall)
      have hgranted : granted { s with sleeping := s.sleeping.eraseIdx i } name =
          s.granted name := rfl
      have hturn := turn_conserves (h.eraseIdx i) hchecked now name
      rw [hgranted, add_assoc, ← Int.cast_add, asleep_eraseIdx hcall] at hturn
      rw [hturn]
      rfl
  | cancel i =>
    simp only [step] at hstep
    split at hstep
    · rename_i hi
      cases hstep
      have hcall : s.sleeping[i]? = some s.sleeping[i] := List.getElem?_eq_getElem hi
      have hwithdrawn : s.withdrawn name (.cancel i) =
          if s.sleeping[i].1 = name then s.sleeping[i].2 else 0 := by
        simp only [withdrawn, hcall]
      have hgranted : granted { s with sleeping := s.sleeping.eraseIdx i } name =
          s.granted name := rfl
      rw [hwithdrawn, hgranted, add_assoc, ← Int.cast_add, asleep_eraseIdx hcall]
      exact ((congrArg _ Int.cast_zero).trans (add_zero _)).symm
    · cases hstep
  | metrics now =>
    have hzero : TokenBucket.total ((ClockReading.metrics now).at? name).toList = 0 := by
      simp [ClockReading.at?]
    simp only [step] at hstep
    split at hstep <;> cases hstep
    all_goals
      rw [granted_append, hzero, add_zero]
      rfl

theorem run_conserves (h : s.Follows config start)
    (hcfg : config.val.buckets.get? name = some cfg) {actions : List RateLimiterAction}
    (hrun : run step s actions = some t) :
    t.granted name + t.asleep name ≤
      s.granted name + ((s.asleep name + asked cfg name actions : Int) : Rat) := by
  induction actions generalizing s with
  | nil =>
    cases hrun
    simp [asked]
  | cons a actions ih =>
    obtain ⟨m, hm, hrest⟩ := run_cons_eq_some.mp hrun
    have hstep := step_conserves h hcfg hm
    have hwithdrawn : (0 : Rat) ≤ s.withdrawn name a := Int.cast_nonneg (withdrawn_nonneg h name a)
    have htail := ih (step_follows h hm) hrest
    rw [asked_cons]
    push_cast at htail ⊢
    linarith

/-- Where no call has to wait, all that is asked for is granted. -/
theorem run_conserves_of_awake (h : s.Follows config start)
    (hcfg : config.val.buckets.get? name = some cfg) {actions : List RateLimiterAction}
    (hrun : run step s actions = some t)
    (hawake : ∀ before after m, actions = before ++ after → run step s before = some m →
      ∀ call ∈ m.sleeping, call.1 ≠ name) :
    t.granted name = s.granted name + asked cfg name actions := by
  induction actions generalizing s with
  | nil =>
    cases hrun
    simp [asked]
  | cons a actions ih =>
    obtain ⟨m, hm, hrest⟩ := run_cons_eq_some.mp hrun
    have hs := hawake [] (a :: actions) s rfl rfl
    have hmawake : ∀ before after n, actions = before ++ after → run step m before = some n →
        ∀ call ∈ n.sleeping, call.1 ≠ name := fun before after n hsplit hbefore =>
      hawake (a :: before) after n (by rw [hsplit]; rfl) (run_cons_eq_some.mpr ⟨m, hm, hbefore⟩)
    have hstep := step_conserves h hcfg hm
    rw [asleep_eq_zero hs, asleep_eq_zero (hmawake [] actions m rfl rfl),
      withdrawn_eq_zero hs] at hstep
    rw [ih (step_follows h hm) hrest hmawake, asked_cons]
    push_cast at hstep ⊢
    linarith

/-! ## The stretch of a window -/

theorem run_readings {actions : List RateLimiterAction} (hrun : run step s actions = some t) :
    t.readings = s.readings ++ s.readingsSince t := by
  have hprefix : s.readings <+: t.readings := by
    refine run_invariant (I := fun t => s.readings <+: t.readings) ?_ (List.prefix_refl _) hrun
    intro m a n hm hstep
    obtain ⟨r, hr⟩ := step_readings hstep
    rw [hr]
    exact hm.trans (List.prefix_append _ _)
  exact (List.prefix_iff_eq_append.mp hprefix).symm

/-- A run under a clock that does not step back splits where its readings first leave a set of
times that is closed downwards. -/
theorem run_split (early : Rat → Prop) (hearly : ∀ x y, x ≤ y → early y → early x)
    {actions : List RateLimiterAction} (hrun : run step s actions = some t)
    (hforward : (t.times start).Pairwise (· ≤ ·)) :
    ∃ before after m, actions = before ++ after ∧ run step s before = some m ∧
      run step m after = some t ∧ (∀ r ∈ s.readingsSince m, early r.now.seconds) ∧
        ∀ r ∈ m.readingsSince t, ¬ early r.now.seconds := by
  induction actions generalizing s with
  | nil =>
    cases hrun
    refine ⟨[], [], _, rfl, rfl, rfl, ?_, ?_⟩ <;> simp [readingsSince]
  | cons a actions ih =>
    obtain ⟨n, hn, hrest⟩ := run_cons_eq_some.mp hrun
    obtain ⟨r, hr⟩ := step_readings hn
    by_cases hlate : ∃ x, r = some x ∧ ¬ early x.now.seconds
    · -- The clock only moves away from here.
      obtain ⟨x, rfl, hx⟩ := hlate
      refine ⟨[], a :: actions, s, rfl, rfl, hrun, by simp [readingsSince], ?_⟩
      have hreadings : t.readings = s.readings ++ (x :: n.readingsSince t) := by
        rw [run_readings hrest, hr, List.append_assoc]
        rfl
      have hsince : s.readingsSince t = x :: n.readingsSince t := by
        rw [readingsSince, hreadings, List.drop_left]
      have hsorted : ((x :: n.readingsSince t).map fun r => r.now.seconds).Pairwise (· ≤ ·) := by
        refine (List.pairwise_cons.mp hforward).2.sublist ?_
        rw [hreadings, List.map_append]
        exact List.sublist_append_right _ _
      rw [hsince]
      intro y hy
      rcases List.mem_cons.mp hy with rfl | hy
      · exact hx
      · have hle := (List.pairwise_cons.mp hsorted).1 _ (List.mem_map.mpr ⟨y, hy, rfl⟩)
        exact fun hyearly => hx (hearly _ _ hle hyearly)
    · obtain ⟨before, after, m, hsplit, hbefore, hafter, hfirst, hsecond⟩ := ih hrest
      refine ⟨a :: before, after, m, by rw [hsplit]; rfl,
        run_cons_eq_some.mpr ⟨n, hn, hbefore⟩, hafter, ?_, hsecond⟩
      have hsince : s.readingsSince m = r.toList ++ n.readingsSince m := by
        rw [readingsSince, run_readings hbefore, hr, List.append_assoc, List.drop_left]
      rw [hsince]
      intro y hy
      rcases List.mem_append.mp hy with hy | hy
      · by_contra hy'
        exact hlate ⟨y, Option.mem_toList.mp hy, hy'⟩
      · exact hfirst y hy

/-- What a bucket saw since an earlier state. -/
def historySince (s t : RateLimiterSystem) (name : String) : List (TokenBucket.Reading Rat) :=
  (s.readingsSince t).filterMap (ClockReading.at? name)

theorem run_history {actions : List RateLimiterAction} (hrun : run step s actions = some t)
    (name : String) : t.history name = s.history name ++ s.historySince t name := by
  rw [history, run_readings hrun, List.filterMap_append]
  rfl

theorem run_granted {actions : List RateLimiterAction} (hrun : run step s actions = some t)
    (name : String) : t.granted name = s.granted name +
      TokenBucket.total (s.historySince t name) := by
  rw [granted, run_history hrun, TokenBucket.total_append]
  rfl

/-- A bucket saw the clock at the times it was read. -/
theorem time_of_mem_historySince {p : Rat → Prop} (h : ∀ r ∈ s.readingsSince t, p r.now.seconds)
    {r : TokenBucket.Reading Rat} (hr : r ∈ s.historySince t name) : p r.time := by
  obtain ⟨reading, hreading, hat⟩ := List.mem_filterMap.mp hr
  have htime : r.time = reading.now.seconds := by
    cases reading with
    | attempt now bucket tokens =>
      simp only [ClockReading.at?] at hat
      split at hat <;> cases hat
      rfl
    | metrics now =>
      cases hat
      rfl
  rw [htime]
  exact h reading hreading

/-- A bucket that opens a window with fewer than `spare` tokens grants less than these and what
it earns in the window. -/
theorem Follows.total_lt (h : s.Follows config start) (ht : t.Follows config start)
    (hcfg : config.val.buckets.get? name = some cfg) {actions : List RateLimiterAction}
    (hrun : run step s actions = some t) {window : Rat} (hwindow : 0 ≤ window) {since : Utc}
    (hpast : ∀ x ∈ s.times start, x ≤ since.seconds)
    (hreadings : ∀ r ∈ s.readingsSince t, since.seconds ≤ r.now.seconds ∧
      r.now.seconds ≤ since.seconds + window) {spare : Int} (hspare : ¬ s.Holds name spare since) :
    TokenBucket.total (s.historySince t name) < spare + cfg.val.refillPerSecond * window := by
  obtain ⟨b, hb, hstate⟩ := h.bucket name cfg hcfg
  obtain ⟨b', hb', -⟩ := ht.bucket name cfg hcfg
  rw [run_history hrun, run_append, hb] at hb'
  have hlast : b.last ≤ since.seconds := by
    refine TokenBucket.run_last_le (hpast _ List.mem_cons_self) ?_ hb
    intro r hr
    have hseen := (history_times s name).subset (List.mem_map.mpr ⟨r, hr, rfl⟩)
    exact hpast _ (List.mem_cons_of_mem _ hseen)
  have hheld := not_le.mp (mt (holds_iff h hcfg hstate spare since).mpr hspare)
  have hbound : TokenBucket.total (s.historySince t name) ≤
      (b.refill cfg.limit since.seconds).available + cfg.limit.rate * window :=
    TokenBucket.total_le_held cfg.rate_pos.le (within_of_run hb) hlast hwindow
      (fun r hr => time_of_mem_historySince (p := fun x => since.seconds ≤ x ∧ x ≤ since.seconds +
        window) hreadings hr) hb'
  exact hbound.trans_lt (add_lt_add_of_lt_of_le hheld le_rfl)

/-- The stretch of a window: the run before it, in it and after it. -/
theorem run_window {actions : List RateLimiterAction}
    (hrun : run step (init config start) actions = some s)
    (hforward : (s.times start).Pairwise (· ≤ ·)) (since window : Rat) :
    ∃ before stretch after m t, actions = before ++ (stretch ++ after) ∧
      run step (init config start) before = some m ∧ run step m stretch = some t ∧
      run step t after = some s ∧
      (∀ r ∈ m.readingsSince t, since ≤ r.now.seconds ∧ r.now.seconds ≤ since + window) ∧
      ∀ name, s.grantedIn name since (since + window) =
        TokenBucket.total (m.historySince t name) := by
  obtain ⟨before, rest, m, hsplit, hbefore, hrest, hearly, hlater⟩ :=
    run_split (· < since) (fun x y hle hy => hle.trans_lt hy) hrun hforward
  obtain ⟨stretch, after, t, hsplit', hstretch, hafter, hin, hlate⟩ :=
    run_split (· ≤ since + window) (fun x y hle hy => hle.trans hy) hrest hforward
  subst hsplit hsplit'
  have hinside : ∀ r ∈ m.readingsSince t,
      since ≤ r.now.seconds ∧ r.now.seconds ≤ since + window := by
    intro r hr
    refine ⟨not_lt.mp (hlater r ?_), hin r hr⟩
    have hsince : m.readingsSince s = m.readingsSince t ++ t.readingsSince s := by
      rw [readingsSince, run_readings hafter, run_readings hstretch, List.append_assoc,
        List.drop_left]
    rw [hsince]
    exact List.mem_append_left _ hr
  refine ⟨before, stretch, after, m, t, rfl, hbefore, hstretch, hafter, hinside, ?_⟩
  intro name
  have hfirst : TokenBucket.grantedIn since (since + window) (m.history name) = 0 := by
    apply TokenBucket.grantedIn_eq_zero
    rw [run_history hbefore]
    intro r hr hwithin
    exact not_le.mpr (time_of_mem_historySince (p := (· < since)) hearly hr) hwithin.1
  have hlast : TokenBucket.grantedIn since (since + window) (t.historySince s name) = 0 := by
    apply TokenBucket.grantedIn_eq_zero
    intro r hr hwithin
    exact time_of_mem_historySince (p := fun x => ¬ x ≤ since + window) hlate hr hwithin.2
  have hmiddle : TokenBucket.grantedIn since (since + window) (m.historySince t name) =
      TokenBucket.total (m.historySince t name) :=
    TokenBucket.grantedIn_eq_total fun r hr =>
      time_of_mem_historySince (p := fun x => since ≤ x ∧ x ≤ since + window) hinside hr
  rw [grantedIn, run_history hafter, run_history hstretch, TokenBucket.grantedIn_append,
    TokenBucket.grantedIn_append, hfirst, hlast, hmiddle, zero_add, add_zero]

/-- The reading that opens a window is in it. -/
theorem within_of_first {window : Rat} (hwindow : 0 ≤ window) {first : ClockReading}
    {more : List ClockReading} (hmore : ∀ r ∈ more, first.now.seconds ≤ r.now.seconds ∧
      r.now.seconds ≤ first.now.seconds + window) :
    ∀ r ∈ first :: more, first.now.seconds ≤ r.now.seconds ∧
      r.now.seconds ≤ first.now.seconds + window := by
  intro r hr
  rcases List.mem_cons.mp hr with rfl | hr
  · exact ⟨le_rfl, le_add_of_nonneg_right hwindow⟩
  · exact hmore r hr

/-- Calls that keep within the cap keep the bucket within it, in every run. -/
theorem capped_of_pacedCalls (hcfg : config.val.buckets.get? name = some cfg) {window : Rat}
    (hwindow : 0 ≤ window) {cap : Nat} {spare : Int}
    (hspare : (spare : Rat) + cfg.val.refillPerSecond * window ≤ cap + 1)
    {actions : List RateLimiterAction} (hrun : run step (init config start) actions = some s)
    (hforward : (s.times start).Pairwise (· ≤ ·))
    (hpaced : PacedCalls config name cfg window cap spare start actions) :
    s.Capped name window cap := by
  intro since
  obtain ⟨before, stretch, after, m, t, hsplit, hbefore, hstretch, hafter, hinside, hgranted⟩ :=
    run_window hrun hforward since window
  rw [hgranted name]
  have hm := run_follows hbefore
  have hrunt : run step (init config start) (before ++ stretch) = some t := by
    rw [run_append, hbefore]
    exact hstretch
  cases hread : m.readingsSince t with
  | nil =>
    have hempty : m.historySince t name = [] := by rw [historySince, hread, List.filterMap_nil]
    rw [hempty, TokenBucket.total_nil]
    exact Nat.cast_nonneg cap
  | cons first more =>
    -- The window may as well open at its first reading.
    have hfirst := hinside first (hread ▸ List.mem_cons_self)
    have hall : s.readings = m.readings ++ (first :: more) ++ t.readingsSince s := by
      rw [run_readings hafter, run_readings hstretch, hread]
    have htimes : s.times start = m.times start ++
        (first.now.seconds :: (more ++ t.readingsSince s).map fun r => r.now.seconds) := by
      simp [times, hall]
    rw [htimes, List.pairwise_append] at hforward
    have hsorted := (List.pairwise_cons.mp hforward.2.1).1
    have hmore : ∀ r ∈ more, first.now.seconds ≤ r.now.seconds ∧
        r.now.seconds ≤ first.now.seconds + window := by
      intro r hr
      have hin := hinside r (hread ▸ List.mem_cons_of_mem first hr)
      exact ⟨hsorted _ (List.mem_map.mpr ⟨r, List.mem_append_left _ hr, rfl⟩),
        hin.2.trans (add_le_add hfirst.1 le_rfl)⟩
    have hreadings : ∀ r ∈ m.readingsSince t, first.now.seconds ≤ r.now.seconds ∧
        r.now.seconds ≤ first.now.seconds + window := by
      rw [hread]
      exact within_of_first hwindow hmore
    rcases hpaced before stretch after m t first more hsplit hbefore hstretch hread hmore with
      hasked | hheld
    · have hconserves := run_conserves hm hcfg hstretch
      have hwaiting : (0 : Rat) ≤ t.asleep name :=
        Int.cast_nonneg (asleep_nonneg (run_follows hrunt) name)
      have hle : ((m.asleep name + asked cfg name stretch : Int) : Rat) ≤ cap := by
        exact_mod_cast hasked
      rw [run_granted hstretch] at hconserves
      linarith
    · refine total_le_of_lt name ?_ ?_
      · intro r hr
        obtain ⟨reading, _, hat⟩ := List.mem_filterMap.mp hr
        exact ⟨reading, hat⟩
      refine (hm.total_lt (run_follows hrunt) hcfg hstretch hwindow ?_ hreadings hheld).trans_le
        hspare
      intro x hx
      exact hforward.2.2 x hx _ List.mem_cons_self

/-- Calls that never ask for more than the cap in a whole run keep within it. -/
theorem pacedCalls_of_asked (hcfg : config.val.buckets.get? name = some cfg) {window : Rat}
    {cap : Nat} {spare : Int} {actions : List RateLimiterAction}
    (hasked : asked cfg name actions ≤ cap) :
    PacedCalls config name cfg window cap spare start actions := by
  intro before stretch after m t first more hsplit hbefore _ _ _
  left
  obtain ⟨b, hb, -⟩ := (run_follows hbefore).bucket name cfg hcfg
  have hgranted : 0 ≤ m.granted name := by
    apply List.sum_nonneg
    intro x hx
    obtain ⟨r, hr, rfl⟩ := List.mem_map.mp hx
    exact TokenBucket.granted_nonneg hb r hr
  have hstart : (init config start).granted name = 0 ∧ (init config start).asleep name = 0 :=
    ⟨rfl, rfl⟩
  have hconserves := run_conserves follows_init hcfg hbefore
  rw [hstart.1, hstart.2, zero_add, zero_add] at hconserves
  have hwaiting : m.asleep name ≤ asked cfg name before := by
    have hle : (m.asleep name : Rat) ≤ asked cfg name before := by linarith
    exact_mod_cast hle
  have hlater := asked_nonneg cfg name after
  rw [hsplit, asked_append, asked_append] at hasked
  linarith

/-- Where no call has to wait, calls that keep the bucket within the cap keep within it. -/
theorem pacedCalls_of_capped (hcfg : config.val.buckets.get? name = some cfg) {window : Rat}
    (hwindow : 0 ≤ window) {cap : Nat} {spare : Int} {actions : List RateLimiterAction}
    (hrun : run step (init config start) actions = some s)
    (hawake : NeverWaits config name start actions) (hcapped : s.Capped name window cap) :
    PacedCalls config name cfg window cap spare start actions := by
  intro before stretch after m t first more hsplit hbefore hstretch hread hmore
  left
  subst hsplit
  have hreadings : ∀ r ∈ m.readingsSince t, first.now.seconds ≤ r.now.seconds ∧
      r.now.seconds ≤ first.now.seconds + window := by
    rw [hread]
    exact within_of_first hwindow hmore
  have hafter : run step t after = some s := by
    rw [run_append, hbefore, Option.bind_some, run_append, hstretch] at hrun
    exact hrun
  have hstretchAwake : ∀ pre post n, stretch = pre ++ post → run step m pre = some n →
      ∀ call ∈ n.sleeping, call.1 ≠ name := by
    intro pre post n hpre hn
    refine hawake (before ++ pre) (post ++ after) n ?_ ?_
    · rw [hpre, List.append_assoc, List.append_assoc]
    · rw [run_append, hbefore]
      exact hn
  have hgranted := run_conserves_of_awake (run_follows hbefore) hcfg hstretch hstretchAwake
  rw [run_granted hstretch] at hgranted
  have htotal : TokenBucket.total (m.historySince t name) = asked cfg name stretch :=
    add_left_cancel hgranted
  -- The window of the stretch sees all that the stretch was granted.
  obtain ⟨b, hb, -⟩ := (run_follows hrun).bucket name cfg hcfg
  have hnonneg := TokenBucket.granted_nonneg hb
  have hwindowed := hcapped first.now.seconds
  rw [run_history hafter, run_history hstretch] at hnonneg
  rw [grantedIn, run_history hafter, run_history hstretch, TokenBucket.grantedIn_append,
    TokenBucket.grantedIn_append, TokenBucket.grantedIn_eq_total fun r hr =>
      time_of_mem_historySince (p := fun x => first.now.seconds ≤ x ∧
        x ≤ first.now.seconds + window) (s := m) (t := t) hreadings hr, htotal] at hwindowed
  have hbefore' : 0 ≤ TokenBucket.grantedIn first.now.seconds (first.now.seconds + window)
      (m.history name) :=
    TokenBucket.grantedIn_nonneg (fun r hr => hnonneg r (by simp [hr])) _ _
  have hafter' : 0 ≤ TokenBucket.grantedIn first.now.seconds (first.now.seconds + window)
      (t.historySince s name) :=
    TokenBucket.grantedIn_nonneg (fun r hr => hnonneg r (by simp [hr])) _ _
  have hle : (asked cfg name stretch : Rat) ≤ cap := by linarith
  rw [asleep_eq_zero (hstretchAwake [] stretch m rfl rfl), zero_add]
  exact_mod_cast hle

end RateLimiterSystem

end Blive
