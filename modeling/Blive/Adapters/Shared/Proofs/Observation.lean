import Blive.Adapters.Shared.Proofs.RateLimiter

/-!
# Observing the rate limiter

A call of `metrics` refills every bucket and moves its clock, and so changes what the limiter
holds. It does not change what the limiter answers: refilling on the way to a later reading adds
up to the refill at that reading, also where the capacity cuts it off. Two runs of the limiter
that differ in what only observes are therefore compared by what their buckets refill to.
-/

namespace Blive

open Transition TokenBucket

/-! ## What a turn leaves alone -/

namespace TokenBucketRateLimiter

/-- The limiters differ at most in what they hold for the bucket `name`. -/
structure AgreeBut (name : String) (limiter limiter' : TokenBucketRateLimiter) : Prop where
  config_eq : limiter'.config = limiter.config
  available : ∀ other, other ≠ name → limiter'.available.get? other = limiter.available.get? other
  lastRefill : ∀ other, other ≠ name →
    limiter'.lastRefill.get? other = limiter.lastRefill.get? other

variable {name bucket : String} {limiter m limiter' : TokenBucketRateLimiter}

theorem AgreeBut.refl (name : String) (limiter : TokenBucketRateLimiter) :
    AgreeBut name limiter limiter :=
  ⟨rfl, fun _ _ => rfl, fun _ _ => rfl⟩

theorem AgreeBut.bucketState (h : AgreeBut name limiter limiter') {other : String}
    (hother : other ≠ name) : limiter'.bucketState other = limiter.bucketState other := by
  simp only [TokenBucketRateLimiter.bucketState, h.available other hother,
    h.lastRefill other hother]

/-- What a limiter is set to hold for one bucket is all that changes. -/
theorem AgreeBut.set_available (h : AgreeBut name limiter m) (a : Decimal) :
    AgreeBut name limiter { m with available := m.available.set name a } where
  config_eq := h.config_eq
  available other hother := by
    rw [Dict.get?_set, if_neg hother]
    exact h.available other hother
  lastRefill := h.lastRefill

theorem refill_agreeBut {now : Utc} (h : limiter.refill name now = .ok limiter') :
    AgreeBut name limiter limiter' := by
  unfold refill at h
  obtain ⟨cfg, _, h⟩ := bind_eq_ok_iff.mp h
  obtain ⟨last, _, h⟩ := bind_eq_ok_iff.mp h
  dsimp only at h
  split at h
  · cases h
    exact .refl name limiter
  · obtain ⟨available, _, h⟩ := bind_eq_ok_iff.mp h
    cases h
    refine ⟨rfl, ?_, ?_⟩
    · intro other hother
      rw [Dict.get?_set, if_neg hother]
    · intro other hother
      rw [Dict.get?_set, if_neg hother]

/-- A turn of `acquire` first refills its bucket and then takes tokens out of it or none. -/
theorem attempt_cases {tokens : Int} {now : Utc} {wait : Option Decimal}
    (h : limiter.attempt name tokens now = .ok (limiter', wait)) :
    ∃ m, limiter.refill name now = .ok m ∧
      ((wait = none ∧ ∃ a, limiter' = { m with available := m.available.set name a }) ∨
        (wait ≠ none ∧ limiter' = m)) := by
  unfold attempt at h
  obtain ⟨cfg, _, h⟩ := bind_eq_ok_iff.mp h
  obtain ⟨m, hm, h⟩ := bind_eq_ok_iff.mp h
  obtain ⟨available, _, h⟩ := bind_eq_ok_iff.mp h
  refine ⟨m, hm, ?_⟩
  dsimp only at h
  split at h
  · cases h
    exact .inl ⟨rfl, _, rfl⟩
  · cases h
    exact .inr ⟨by simp, rfl⟩

theorem attempt_agreeBut {tokens : Int} {now : Utc} {wait : Option Decimal}
    (h : limiter.attempt name tokens now = .ok (limiter', wait)) :
    AgreeBut name limiter limiter' := by
  obtain ⟨m, hm, ⟨_, a, rfl⟩ | ⟨_, rfl⟩⟩ := attempt_cases h
  · exact (refill_agreeBut hm).set_available a
  · exact refill_agreeBut hm

/-- The checks depend on the bucket table alone. -/
theorem checkAcquire_congr (h : limiter'.config = limiter.config) (bucket : String)
    (tokens : Int) : limiter'.checkAcquire bucket tokens = limiter.checkAcquire bucket tokens := by
  simp only [checkAcquire, h]

end TokenBucketRateLimiter

/-! ## Calls that only observe -/

/-- The reading of the clock in an action. -/
def RateLimiterAction.now? : RateLimiterAction → Option Utc
  | .acquire _ _ now | .wake _ now | .metrics now => some now
  | .cancel _ => none

/-- A call that takes no token whatever the buckets hold: `metrics`, or an `acquire` that its
checks reject. -/
def RateLimiterAction.Observes (limiter : TokenBucketRateLimiter) : RateLimiterAction → Prop
  | .acquire bucket tokens _ => ∃ e, limiter.checkAcquire bucket tokens = .error e
  | .metrics _ => True
  | .wake .. | .cancel _ => False

/-- An action of some calls, or one that was inserted between them. -/
inductive Woven where
  | call (a : RateLimiterAction)
  | inserted (a : RateLimiterAction)

namespace Woven

def action : Woven → RateLimiterAction
  | call a | inserted a => a

/-- The calls without what was inserted. -/
def calls (ws : List Woven) : List RateLimiterAction :=
  ws.filterMap fun
    | call a => some a
    | inserted _ => none

@[simp] theorem calls_call (a : RateLimiterAction) (ws : List Woven) :
    calls (call a :: ws) = a :: calls ws := rfl

@[simp] theorem calls_inserted (a : RateLimiterAction) (ws : List Woven) :
    calls (inserted a :: ws) = calls ws := rfl

end Woven

namespace RateLimiterSystem

/-- What the turn of `acquire` in an action answers: `none` in it when the call is granted its
tokens, else the seconds it sleeps, or the error it raises. -/
def answer (s : RateLimiterSystem) : RateLimiterAction → Option (Except PyError (Option Decimal))
  | .acquire bucket tokens now => some do
      let _ ← s.limiter.checkAcquire bucket tokens
      let (_, wait) ← s.limiter.attempt bucket tokens now
      return wait
  | .wake i now => s.sleeping[i]?.map fun (bucket, tokens) => do
      let (_, wait) ← s.limiter.attempt bucket tokens now
      return wait
  | .cancel _ | .metrics _ => none

/-- The answers in a run, one for each of its actions. -/
def answers (s : RateLimiterSystem) (actions : List RateLimiterAction) :
    List (Option (Except PyError (Option Decimal))) :=
  trace step (fun s a _ => [s.answer a]) s actions

/-- The same calls with actions inserted. -/
def wovenStep (s : RateLimiterSystem) (w : Woven) : Option RateLimiterSystem := s.step w.action

/-- The answers to the calls themselves. -/
def wovenAnswers (s : RateLimiterSystem) (ws : List Woven) :
    List (Option (Except PyError (Option Decimal))) :=
  trace wovenStep (fun s w _ => (Woven.calls [w]).map s.answer) s ws

variable {config : RateLimitConfig} {start : Utc} {s s' t t' : RateLimiterSystem} {clock : Rat}

/-! ## Two systems that answer alike -/

/-- From the time `clock` on the two systems answer alike: the same calls sleep, and the buckets
refill alike. -/
structure Parallel (config : RateLimitConfig) (start : Utc) (clock : Rat)
    (s s' : RateLimiterSystem) : Prop where
  left : s.Follows config start
  right : s'.Follows config start
  sleeping : s'.sleeping = s.sleeping
  bucket : ∀ name cfg b b', config.val.buckets.get? name = some cfg →
    s.limiter.bucketState name = some b → s'.limiter.bucketState name = some b' →
      AgreeFrom cfg.limit clock b b'

theorem Parallel.refl (clock : Rat) (h : s.Follows config start) :
    Parallel config start clock s s where
  left := h
  right := h
  sleeping := rfl
  bucket name cfg b b' _ hb hb' := by
    cases hb.symm.trans hb'
    exact .refl cfg.limit clock b

theorem Parallel.symm (h : Parallel config start clock s s') :
    Parallel config start clock s' s where
  left := h.right
  right := h.left
  sleeping := h.sleeping.symm
  bucket name cfg b b' hcfg hb hb' _ hle := (h.bucket name cfg b' b hcfg hb' hb hle).symm

theorem Parallel.mono (h : Parallel config start clock s s') {later : Rat} (hle : clock ≤ later) :
    Parallel config start later s s' where
  left := h.left
  right := h.right
  sleeping := h.sleeping
  bucket name cfg b b' hcfg hb hb' := (h.bucket name cfg b b' hcfg hb hb').mono hle

theorem Parallel.eraseIdx (h : Parallel config start clock s s') (i : Nat) :
    Parallel config start clock { s with sleeping := s.sleeping.eraseIdx i }
      { s' with sleeping := s'.sleeping.eraseIdx i } where
  left := h.left.eraseIdx i
  right := h.right.eraseIdx i
  sleeping := by
    show s'.sleeping.eraseIdx i = s.sleeping.eraseIdx i
    rw [h.sleeping]
  bucket := h.bucket

theorem Parallel.checkAcquire (h : Parallel config start clock s s') (bucket : String)
    (tokens : Int) : s'.limiter.checkAcquire bucket tokens = s.limiter.checkAcquire bucket tokens :=
  TokenBucketRateLimiter.checkAcquire_congr (h.right.config_eq.trans h.left.config_eq.symm) bucket
    tokens

/-- A declared bucket of a system, between empty and full. -/
theorem Follows.bucket_within (h : s.Follows config start) {name : String} {cfg : RateLimitBucket}
    (hcfg : config.val.buckets.get? name = some cfg) :
    ∃ b, s.limiter.bucketState name = some b ∧ Within cfg.limit b := by
  obtain ⟨b, hrun, hb⟩ := h.bucket name cfg hcfg
  exact ⟨b, hb, within_of_run hrun⟩

/-- A turn that raises nothing leaves the limiter of its attempt, and sleeps if it has to. -/
theorem turn_of_attempt {bucket : String} {tokens : Int} {now : Utc}
    {limiter : TokenBucketRateLimiter} {wait : Option Decimal}
    (h : s.limiter.attempt bucket tokens now = .ok (limiter, wait)) :
    (s.turn bucket tokens now).limiter = limiter ∧
      (s.turn bucket tokens now).sleeping =
        s.sleeping ++ (if wait = none then [] else [(bucket, tokens)]) := by
  cases wait with
  | none => simp [turn, h]
  | some seconds => simp [turn, h]

/-- What a turn on a checked call does in two systems that answer alike. -/
theorem Parallel.attempt (h : Parallel config start clock s s') {bucket : String} {tokens : Int}
    {cfg : RateLimitBucket} (hchecked : s.limiter.checkAcquire bucket tokens = .ok cfg) {now : Utc}
    (hclock : clock ≤ now.seconds) :
    ∃ limiter limiter' wait c, s.limiter.attempt bucket tokens now = .ok (limiter, wait) ∧
      s'.limiter.attempt bucket tokens now = .ok (limiter', wait) ∧
      s.limiter.Updates limiter bucket c ∧ s'.limiter.Updates limiter' bucket c := by
  obtain ⟨hcfg, htokens, _⟩ := TokenBucketRateLimiter.checkAcquire_eq_ok_iff.mp hchecked
  have hdeclared := hcfg
  rw [h.left.config_eq] at hdeclared
  have hcfg' : s'.limiter.config.val.buckets.get? bucket = some cfg := by
    rw [h.right.config_eq]
    exact hdeclared
  obtain ⟨b, hb, hwithin⟩ := h.left.bucket_within hdeclared
  obtain ⟨b', hb', hwithin'⟩ := h.right.bucket_within hdeclared
  have hrefill := h.bucket bucket cfg b b' hdeclared hb hb' hclock
  obtain ⟨limiter, c, hattempt, hread, hupdates⟩ :=
    TokenBucketRateLimiter.attempt_spec hcfg hb hwithin htokens now
  obtain ⟨limiter', c', hattempt', hread', hupdates'⟩ :=
    TokenBucketRateLimiter.attempt_spec hcfg' hb' hwithin' htokens now
  have hwait : TokenBucketRateLimiter.waitFor cfg b' tokens now =
      TokenBucketRateLimiter.waitFor cfg b tokens now := by
    simp only [TokenBucketRateLimiter.waitFor, hrefill]
  rw [hwait] at hattempt' hread'
  have hsame : some c' = some c := by
    rw [← hread', ← hread]
    exact (read_congr hrefill).symm
  cases hsame
  exact ⟨limiter, limiter', _, c, hattempt, hattempt', hupdates, hupdates'⟩

theorem Parallel.turn (h : Parallel config start clock s s') {bucket : String} {tokens : Int}
    {cfg : RateLimitBucket} (hchecked : s.limiter.checkAcquire bucket tokens = .ok cfg) {now : Utc}
    (hclock : clock ≤ now.seconds) :
    Parallel config start now.seconds (s.turn bucket tokens now) (s'.turn bucket tokens now) := by
  have hchecked' : s'.limiter.checkAcquire bucket tokens = .ok cfg :=
    (h.checkAcquire bucket tokens).trans hchecked
  obtain ⟨limiter, limiter', wait, c, hattempt, hattempt', hupdates, hupdates'⟩ :=
    h.attempt hchecked hclock
  obtain ⟨hlimiter, hsleeping⟩ := turn_of_attempt hattempt
  obtain ⟨hlimiter', hsleeping'⟩ := turn_of_attempt hattempt'
  refine ⟨(turn_spec h.left hchecked now).1, (turn_spec h.right hchecked' now).1, ?_, ?_⟩
  · rw [hsleeping, hsleeping', h.sleeping]
  · intro name cfg' b b' hcfg' hb hb'
    rw [hlimiter, hupdates.2 name] at hb
    rw [hlimiter', hupdates'.2 name] at hb'
    by_cases hname : name = bucket
    · rw [if_pos hname] at hb hb'
      cases hb
      cases hb'
      exact .refl cfg'.limit now.seconds c
    · rw [if_neg hname] at hb hb'
      exact (h.bucket name cfg' b b' hcfg' hb hb').mono hclock

/-- `metrics` can be called at any time. -/
theorem exists_metrics_step (s : RateLimiterSystem) (now : Utc) :
    ∃ t, s.step (.metrics now) = some t := by
  cases hmetrics : s.limiter.metrics now <;> simp [step, hmetrics]

/-- What `metrics` does to a bucket. -/
theorem metrics_step (h : s.Follows config start) {now : Utc}
    (hstep : s.step (.metrics now) = some t) :
    t.sleeping = s.sleeping ∧
      ∀ name cfg b, config.val.buckets.get? name = some cfg → s.limiter.bucketState name = some b →
        t.limiter.bucketState name = some (b.refill cfg.limit now.seconds) := by
  obtain ⟨limiter, out, hmetrics, _, hstate⟩ :=
    TokenBucketRateLimiter.metrics_spec h.complete now
  simp only [step, hmetrics] at hstep
  cases hstep
  refine ⟨rfl, ?_⟩
  intro name cfg b hcfg hb
  rw [← h.config_eq] at hcfg
  exact hstate name cfg b hcfg hb

theorem Parallel.metrics_left (h : Parallel config start clock s s') {now : Utc}
    (hclock : clock ≤ now.seconds) (hstep : s.step (.metrics now) = some t) :
    Parallel config start now.seconds t s' := by
  obtain ⟨hsleeping, hstate⟩ := metrics_step h.left hstep
  refine ⟨step_follows h.left hstep, h.right, h.sleeping.trans hsleeping.symm, ?_⟩
  intro name cfg c b' hcfg hc hb'
  obtain ⟨b, hb, _⟩ := h.left.bucket_within hcfg
  cases (hstate name cfg b hcfg hb).symm.trans hc
  exact (h.bucket name cfg b b' hcfg hb hb').refill_left cfg.rate_pos.le hclock

/-- An inserted call that only observes is enabled, and leaves two systems that answer alike. -/
theorem Parallel.observe (h : Parallel config start clock s s') {a : RateLimiterAction}
    (hobserves : a.Observes (.init config start))
    (hclock : ∀ now ∈ a.now?, clock ≤ now.seconds) :
    ∃ t, s.step a = some t ∧
      Parallel config start ((a.now?.map Utc.seconds).getD clock) t s' := by
  cases a with
  | acquire bucket tokens now =>
    obtain ⟨e, he⟩ := hobserves
    have hcheck : s.limiter.checkAcquire bucket tokens =
        (TokenBucketRateLimiter.init config start).checkAcquire bucket tokens :=
      TokenBucketRateLimiter.checkAcquire_congr h.left.config_eq bucket tokens
    refine ⟨s, ?_, h.mono (hclock now rfl)⟩
    simp only [step, hcheck, he]
  | metrics now =>
    obtain ⟨t, ht⟩ := s.exists_metrics_step now
    exact ⟨t, ht, h.metrics_left (hclock now rfl) ht⟩
  | wake i now => exact hobserves.elim
  | cancel i => exact hobserves.elim

/-- A call the two systems both take. -/
theorem Parallel.step (h : Parallel config start clock s s') {a : RateLimiterAction}
    (hclock : ∀ now ∈ a.now?, clock ≤ now.seconds) (hstep : s.step a = some t) :
    ∃ t', s'.step a = some t' ∧
      Parallel config start ((a.now?.map Utc.seconds).getD clock) t t' := by
  cases a with
  | acquire bucket tokens now =>
    have hcheck := h.checkAcquire bucket tokens
    cases hchecked : s.limiter.checkAcquire bucket tokens with
    | error e =>
      rw [hchecked] at hcheck
      simp only [RateLimiterSystem.step, hchecked] at hstep
      cases hstep
      refine ⟨s', ?_, h.mono (hclock now rfl)⟩
      simp only [RateLimiterSystem.step, hcheck]
    | ok cfg =>
      rw [hchecked] at hcheck
      simp only [RateLimiterSystem.step, hchecked] at hstep
      cases hstep
      refine ⟨s'.turn bucket tokens now, ?_, h.turn hchecked (hclock now rfl)⟩
      simp only [RateLimiterSystem.step, hcheck]
  | wake i now =>
    cases hcall : s.sleeping[i]? with
    | none => simp [RateLimiterSystem.step, hcall] at hstep
    | some call =>
      obtain ⟨bucket, tokens⟩ := call
      simp only [RateLimiterSystem.step, hcall] at hstep
      cases hstep
      obtain ⟨cfg, hchecked⟩ : ∃ cfg, s.limiter.checkAcquire bucket tokens = .ok cfg :=
        h.left.sleeping _ (List.mem_of_getElem? hcall)
      have hturn := (h.eraseIdx i).turn hchecked (hclock now rfl)
      refine ⟨_, ?_, hturn⟩
      simp only [RateLimiterSystem.step, h.sleeping, hcall]
  | cancel i =>
    by_cases hi : i < s.sleeping.length
    · simp only [RateLimiterSystem.step, if_pos hi] at hstep
      cases hstep
      refine ⟨{ s' with sleeping := s'.sleeping.eraseIdx i }, ?_, h.eraseIdx i⟩
      simp only [RateLimiterSystem.step, h.sleeping, if_pos hi]
    · simp [RateLimiterSystem.step, hi] at hstep
  | metrics now =>
    obtain ⟨t', ht'⟩ := s'.exists_metrics_step now
    have hleft : Parallel config start now.seconds t s' := h.metrics_left (hclock now rfl) hstep
    exact ⟨t', ht', (hleft.symm.metrics_left le_rfl ht').symm⟩

/-- A call that the first system cannot take, the second cannot take either. -/
theorem Parallel.step_eq_none (h : Parallel config start clock s s') {a : RateLimiterAction}
    (hclock : ∀ now ∈ a.now?, clock ≤ now.seconds) (hnone : s.step a = none) :
    s'.step a = none := by
  cases hstep : s'.step a with
  | none => rfl
  | some t' =>
    obtain ⟨t, ht, _⟩ := h.symm.step hclock hstep
    cases hnone.symm.trans ht

/-- Two systems that answer alike give a call the same answer. -/
theorem Parallel.answer (h : Parallel config start clock s s') {a : RateLimiterAction}
    (hclock : ∀ now ∈ a.now?, clock ≤ now.seconds) : s'.answer a = s.answer a := by
  cases a with
  | acquire bucket tokens now =>
    have hcheck := h.checkAcquire bucket tokens
    cases hchecked : s.limiter.checkAcquire bucket tokens with
    | error e =>
      rw [hchecked] at hcheck
      simp only [RateLimiterSystem.answer, hchecked, hcheck, bind, Except.bind]
    | ok cfg =>
      obtain ⟨limiter, limiter', wait, _, hattempt, hattempt', _⟩ :=
        h.attempt hchecked (hclock now rfl)
      rw [hchecked] at hcheck
      simp only [RateLimiterSystem.answer, hchecked, hcheck, hattempt, hattempt', bind,
        Except.bind, pure, Except.pure]
  | wake i now =>
    simp only [RateLimiterSystem.answer, h.sleeping]
    cases hcall : s.sleeping[i]? with
    | none => rfl
    | some call =>
      obtain ⟨bucket, tokens⟩ := call
      obtain ⟨cfg, hchecked⟩ := h.left.sleeping _ (List.mem_of_getElem? hcall)
      obtain ⟨limiter, limiter', wait, _, hattempt, hattempt', _⟩ :=
        h.attempt hchecked (hclock now rfl)
      simp only [Option.map_some, hattempt, hattempt', bind, Except.bind, pure, Except.pure]
  | cancel i => rfl
  | metrics now => rfl

/-- The readings of the clock in the actions, oldest first. -/
def clockTimes (ws : List Woven) : List Rat := ws.filterMap fun w => w.action.now?.map Utc.seconds

/-- The clock of the first action is not before the time it starts at, and the later ones are not
before its own. -/
theorem clockTimes_cons {w : Woven} {ws : List Woven}
    (hclock : (clock :: clockTimes (w :: ws)).Pairwise (· ≤ ·)) :
    (∀ now ∈ w.action.now?, clock ≤ now.seconds) ∧
      ((w.action.now?.map Utc.seconds).getD clock :: clockTimes ws).Pairwise (· ≤ ·) := by
  cases hw : w.action.now? with
  | none => simpa [clockTimes, hw] using hclock
  | some now =>
    have htimes : clockTimes (w :: ws) = now.seconds :: clockTimes ws := by simp [clockTimes, hw]
    rw [htimes] at hclock
    obtain ⟨hfirst, hrest⟩ := List.pairwise_cons.mp hclock
    refine ⟨?_, hrest⟩
    rintro _ ⟨⟩
    exact hfirst _ List.mem_cons_self

/-- The run lemma: two systems that answer alike do so along the calls, whatever observations
the first also takes. -/
theorem Parallel.run (h : Parallel config start clock s s') {ws : List Woven}
    (hobserve : ∀ a, Woven.inserted a ∈ ws → a.Observes (.init config start))
    (hclock : (clock :: clockTimes ws).Pairwise (· ≤ ·)) :
    (Transition.run wovenStep s ws).map (·.sleeping) =
        (Transition.run RateLimiterSystem.step s' (Woven.calls ws)).map (·.sleeping) ∧
      wovenAnswers s ws = answers s' (Woven.calls ws) := by
  induction ws generalizing clock s s' with
  | nil => exact ⟨congrArg some h.sleeping.symm, rfl⟩
  | cons w ws ih =>
    have hobserve' : ∀ a, Woven.inserted a ∈ ws → a.Observes (.init config start) :=
      fun a ha => hobserve a (List.mem_cons_of_mem _ ha)
    obtain ⟨hnow, hlater⟩ := clockTimes_cons hclock
    cases w with
    | inserted a =>
      obtain ⟨t, ht, hparallel⟩ := h.observe (hobserve a List.mem_cons_self) hnow
      have hstep : wovenStep s (.inserted a) = some t := ht
      obtain ⟨hrun, hanswers⟩ := ih hparallel hobserve' hlater
      refine ⟨?_, ?_⟩
      · rw [Transition.run, hstep]
        exact hrun
      · rw [wovenAnswers, trace_cons hstep]
        exact hanswers
    | call a =>
      have hanswer : s'.answer a = s.answer a := h.answer hnow
      rw [Woven.calls_call]
      cases ht : s.step a with
      | none =>
        have ht' : s'.step a = none := h.step_eq_none hnow ht
        have hstep : wovenStep s (.call a) = none := ht
        simp [Transition.run, wovenAnswers, answers, trace, hstep, ht']
      | some t =>
        obtain ⟨t', ht', hparallel⟩ := h.step hnow ht
        have hstep : wovenStep s (.call a) = some t := ht
        have hstep' : s'.step a = some t' := ht'
        obtain ⟨hrun, hanswers⟩ := ih hparallel hobserve' hlater
        refine ⟨?_, ?_⟩
        · rw [Transition.run, Transition.run, hstep, hstep']
          exact hrun
        · rw [wovenAnswers, answers, trace_cons hstep, trace_cons hstep', hanswer]
          exact congrArg ([s.answer a] ++ ·) hanswers

/-- A turn changes what the limiter holds for its own bucket alone. -/
theorem turn_agreeBut (s : RateLimiterSystem) (bucket : String) (tokens : Int) (now : Utc) :
    TokenBucketRateLimiter.AgreeBut bucket s.limiter (s.turn bucket tokens now).limiter := by
  cases hattempt : s.limiter.attempt bucket tokens now with
  | error e =>
    simp only [turn, hattempt]
    exact .refl bucket s.limiter
  | ok answer =>
    obtain ⟨limiter, wait⟩ := answer
    rw [(turn_of_attempt hattempt).1]
    exact TokenBucketRateLimiter.attempt_agreeBut hattempt

/-- Inserting observations, calls of `metrics` or calls of `acquire` that are rejected, between
the actions of the callers changes none of their answers, and which calls sleep. A turn on a
bucket changes nothing that is held for another one. -/
theorem observation_is_free :
    (∀ (config : RateLimitConfig) (start : Utc) (ws : List Woven),
      (∀ a, Woven.inserted a ∈ ws → a.Observes (.init config start)) →
      (clockTimes ws).Pairwise (· ≤ ·) →
        (Transition.run wovenStep (init config start) ws).map (·.sleeping) =
            (Transition.run step (init config start) (Woven.calls ws)).map (·.sleeping) ∧
          wovenAnswers (init config start) ws =
            answers (init config start) (Woven.calls ws)) ∧
      (∀ (s t : RateLimiterSystem) (bucket : String) (tokens : Int) (now : Utc),
        s.step (.acquire bucket tokens now) = some t →
          TokenBucketRateLimiter.AgreeBut bucket s.limiter t.limiter) ∧
      ∀ (s t : RateLimiterSystem) (i : Nat) (bucket : String) (tokens : Int) (now : Utc),
        s.sleeping[i]? = some (bucket, tokens) → s.step (.wake i now) = some t →
          TokenBucketRateLimiter.AgreeBut bucket s.limiter t.limiter := by
  refine ⟨?_, ?_, ?_⟩
  · intro config start ws hobserve hclock
    -- A time before all readings of the clock.
    obtain ⟨clock, hstart⟩ : ∃ clock, (clock :: clockTimes ws).Pairwise (· ≤ ·) := by
      cases htimes : clockTimes ws with
      | nil => exact ⟨0, List.pairwise_singleton _ _⟩
      | cons first later =>
        rw [htimes] at hclock
        refine ⟨first, List.pairwise_cons.mpr ⟨?_, hclock⟩⟩
        exact List.forall_mem_cons.mpr ⟨le_rfl, (List.pairwise_cons.mp hclock).1⟩
    exact (Parallel.refl clock follows_init).run hobserve hstart
  · intro s t bucket tokens now hstep
    simp only [step] at hstep
    split at hstep
    · cases hstep
      exact .refl bucket s.limiter
    · cases hstep
      exact turn_agreeBut s bucket tokens now
  · intro s t i bucket tokens now hcall hstep
    simp only [step, hcall] at hstep
    cases hstep
    exact turn_agreeBut { s with sleeping := s.sleeping.eraseIdx i } bucket tokens now

/-- A second caller waits for the refill while a snapshot is taken and a call is rejected. -/
def observedActions : List Woven :=
  [.call (.acquire "messages" 5 ⟨0⟩), .inserted (.metrics ⟨400000⟩),
    .call (.acquire "messages" 3 ⟨500000⟩), .inserted (.acquire "messages" 9 ⟨500000⟩),
    .inserted (.metrics ⟨1000000⟩), .call (.wake 0 ⟨1500001⟩)]

theorem observation_is_free_sample :
    wovenAnswers (init sampleRateLimits ⟨0⟩) observedActions =
      answers (init sampleRateLimits ⟨0⟩) [.acquire "messages" 5 ⟨0⟩,
        .acquire "messages" 3 ⟨500000⟩, .wake 0 ⟨1500001⟩] := by
  have hobserve : ∀ a, Woven.inserted a ∈ observedActions →
      a.Observes (.init sampleRateLimits ⟨0⟩) := by
    intro a ha
    simp only [observedActions, List.mem_cons, Woven.inserted.injEq, reduceCtorEq, false_or,
      List.not_mem_nil, or_false] at ha
    rcases ha with rfl | rfl | rfl
    · trivial
    · exact ⟨.valueError "acquire(bucket=", by decide +kernel⟩
    · trivial
  exact (observation_is_free.1 sampleRateLimits ⟨0⟩ observedActions hobserve
    (by decide +kernel)).2

end RateLimiterSystem

end Blive
