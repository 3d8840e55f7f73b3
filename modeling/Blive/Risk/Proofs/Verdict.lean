import Blive.Risk.Checks

/-!
# The verdict of the risk engine

The short-circuiting chain of `approve` against what each check asks on its own: an order passes
exactly when all the checks do, and a refused one is refused for the first that does not. The
oldest artefact stands for all of them, in whatever order they are listed.
-/

namespace Blive.RiskEngine

/-! ## The artefacts -/

/-- The age of an artefact in days, as `_check_artefact_freshness` takes it. -/
def ageDays (now mtime : Datetime) : Decimal := now.secondsSince mtime / 86400

/-- An artefact on disk of the given age or older. -/
def AgedAtLeast (now : Datetime) (limit : Decimal) (artefact : String × Artefact) : Prop :=
  ∃ mtime, artefact.2 = some mtime ∧ limit ≤ ageDays now mtime

/-- The oldest age reaches a positive limit when the age so far does or that of an artefact. -/
theorem le_oldestFold_iff {now : Datetime} {limit : Decimal}
    {artefacts : List (String × Artefact)} {oldest : String × Decimal} :
    limit ≤ (artefacts.foldl (fun oldest artefact =>
      match artefact.2 with
      | none => oldest
      | some mtime =>
          let ageDays := now.secondsSince mtime / 86400
          if ageDays > oldest.2 then (artefact.1, ageDays) else oldest) oldest).2 ↔
      limit ≤ oldest.2 ∨ ∃ artefact ∈ artefacts, AgedAtLeast now limit artefact := by
  induction artefacts generalizing oldest with
  | nil => simp
  | cons artefact rest ih =>
    rw [List.foldl_cons, ih, List.exists_mem_cons_iff, ← or_assoc]
    apply or_congr_left
    cases hmtime : artefact.2 with
    | none => simp [AgedAtLeast, hmtime]
    | some mtime =>
      have haged : AgedAtLeast now limit artefact ↔ limit ≤ ageDays now mtime := by
        simp [AgedAtLeast, hmtime]
      rw [haged]
      dsimp only
      split
      · rename_i holder
        constructor
        · exact .inr
        · rintro (hle | hle)
          · exact hle.trans holder.le
          · exact hle
      · rename_i holder
        constructor
        · exact .inl
        · rintro (hle | hle)
          · exact hle
          · exact hle.trans (not_lt.mp holder)

theorem le_oldestArtefact_iff {now : Datetime} {limit : Decimal} (hlimit : 0 < limit)
    {artefacts : List (String × Artefact)} : limit ≤ (oldestArtefact artefacts now).2 ↔
      ∃ artefact ∈ artefacts, AgedAtLeast now limit artefact :=
  le_oldestFold_iff.trans (or_iff_right hlimit.not_ge)

theorem missingArtefact_eq_none_iff {artefacts : List (String × Artefact)} :
    missingArtefact artefacts = none ↔ ∀ artefact ∈ artefacts, artefact.2 ≠ none := by
  simp [missingArtefact, Option.isNone_iff_eq_none]

/-- Every artefact is a file, and none is at or past the hard age limit. -/
def ArtefactsFresh (engine : RiskEngine) (artefacts : List (String × Artefact))
    (now : Datetime) : Prop :=
  ∀ artefact ∈ artefacts, ∃ mtime, artefact.2 = some mtime ∧
    ageDays now mtime < engine.config.maxModelArtefactAgeDays

theorem artefactsFresh_iff {engine : RiskEngine} {artefacts : List (String × Artefact)}
    {now : Datetime} : engine.ArtefactsFresh artefacts now ↔
      (∀ artefact ∈ artefacts, artefact.2 ≠ none) ∧
        ¬ ∃ artefact ∈ artefacts, AgedAtLeast now engine.config.maxModelArtefactAgeDays
          artefact := by
  constructor
  · intro hfresh
    refine ⟨fun artefact hmem hnone => ?_, ?_⟩
    · obtain ⟨mtime, hmtime, -⟩ := hfresh artefact hmem
      cases hnone.symm.trans hmtime
    · rintro ⟨artefact, hmem, mtime, hmtime, haged⟩
      obtain ⟨mtime', hmtime', hyoung⟩ := hfresh artefact hmem
      cases hmtime.symm.trans hmtime'
      exact haged.not_gt hyoung
  · rintro ⟨hfiles, hyoung⟩ artefact hmem
    obtain ⟨mtime, hmtime⟩ := Option.ne_none_iff_exists'.mp (hfiles artefact hmem)
    refine ⟨mtime, hmtime, not_le.mp fun haged => ?_⟩
    exact hyoung ⟨artefact, hmem, mtime, hmtime, haged⟩

/-! ## What a check answers -/

/-- A breach that stops the order. -/
structure Blocks (breach : RiskBreach) (check : RiskCheckCode) : Prop where
  check : breach.check = check
  severity : breach.severity = .block

/-- At most a warning. -/
structure Warns (breaches : List RiskBreach) : Prop where
  severity : ∀ breach ∈ breaches, breach.severity = .warn
  length : breaches.length ≤ 1

theorem Warns.nil : Warns [] := ⟨by simp, by simp⟩

/-- The check of the artefacts blocks exactly when they are not fresh; otherwise it warns when
one is past the warning age. -/
inductive Freshness (engine : RiskEngine) (artefacts : List (String × Artefact)) (now : Datetime) :
    Option RiskBreach × Option RiskBreach → Prop where
  | blocked {breach : RiskBreach} (h : ¬ engine.ArtefactsFresh artefacts now)
      (hbreach : Blocks breach .rc12) : Freshness engine artefacts now (some breach, none)
  | warned {breach : RiskBreach} (h : engine.ArtefactsFresh artefacts now)
      (haged : ∃ artefact ∈ artefacts,
        AgedAtLeast now engine.config.modelArtefactWarningAgeDays artefact)
      (hcheck : breach.check = .rc12) (hseverity : breach.severity = .warn) :
      Freshness engine artefacts now (none, some breach)
  | passed (h : engine.ArtefactsFresh artefacts now)
      (hyoung : ¬ ∃ artefact ∈ artefacts,
        AgedAtLeast now engine.config.modelArtefactWarningAgeDays artefact) :
      Freshness engine artefacts now (none, none)

/-- The age limits are positive, the one of the warning the lower. -/
structure AgeLimits (config : RiskEngineConfig) : Prop where
  positive : 0 < config.modelArtefactWarningAgeDays
  ordered : config.modelArtefactWarningAgeDays ≤ config.maxModelArtefactAgeDays

theorem checkArtefactFreshness_spec {engine : RiskEngine} (hlimits : AgeLimits engine.config)
    (artefacts : List (String × Artefact)) (now : Datetime) :
    Freshness engine artefacts now (engine.checkArtefactFreshness artefacts now) := by
  have hwarning : (0 : Decimal) < engine.config.modelArtefactWarningAgeDays := by
    exact_mod_cast hlimits.positive
  have hhard : (0 : Decimal) < engine.config.maxModelArtefactAgeDays := by
    exact_mod_cast hlimits.positive.trans_le hlimits.ordered
  unfold checkArtefactFreshness
  split
  · rename_i hempty
    subst hempty
    exact .passed (by simp [ArtefactsFresh]) (by simp)
  · split
    · rename_i name hmissing
      refine .blocked (fun hfresh => ?_) ⟨rfl, rfl⟩
      have hfiles := missingArtefact_eq_none_iff.mpr (artefactsFresh_iff.mp hfresh).1
      cases hfiles.symm.trans hmissing
    · rename_i hfiles
      have hfiles := missingArtefact_eq_none_iff.mp hfiles
      dsimp only
      split
      · rename_i hexpired
        refine .blocked (fun hfresh => ?_) ⟨rfl, rfl⟩
        exact (artefactsFresh_iff.mp hfresh).2 ((le_oldestArtefact_iff hhard).mp hexpired)
      · rename_i hexpired
        have hfresh : engine.ArtefactsFresh artefacts now :=
          artefactsFresh_iff.mpr ⟨hfiles, (le_oldestArtefact_iff hhard).not.mp hexpired⟩
        split
        · rename_i haging
          exact .warned hfresh ((le_oldestArtefact_iff hwarning).mp haging) rfl rfl
        · rename_i haging
          exact .passed hfresh ((le_oldestArtefact_iff hwarning).not.mp haging)

/-- The seconds a bar may be old. -/
def stalenessLimit (config : RiskEngineConfig) : Int :=
  if config.isIntraday then config.maxDataStalenessIntradaySec else config.maxDataStalenessDailySec

theorem checkStaleData_some (engine : RiskEngine) (bar : Bar) (instrument : Instrument)
    (now : Datetime) : engine.checkStaleData (some bar) instrument now =
      if now.micros - bar.val.closeTimeUtc.micros > stalenessLimit engine.config * 1000000 then
        some (engine.breach .rc08 .block (.staleBar instrument.val.symbol
          ((now.micros - bar.val.closeTimeUtc.micros).tdiv 1000000)
          (stalenessLimit engine.config)) now)
      else none := rfl

theorem checkStaleData_cases (engine : RiskEngine) (lastBar : Option Bar)
    (instrument : Instrument) (now : Datetime) :
    (engine.checkStaleData lastBar instrument now = none ∧ ∃ bar, lastBar = some bar ∧
        now.micros - bar.val.closeTimeUtc.micros ≤ stalenessLimit engine.config * 1000000) ∨
      ((¬ ∃ bar, lastBar = some bar ∧
          now.micros - bar.val.closeTimeUtc.micros ≤ stalenessLimit engine.config * 1000000) ∧
        ∃ breach, engine.checkStaleData lastBar instrument now = some breach ∧
          Blocks breach .rc08) := by
  cases lastBar with
  | none => exact .inr ⟨by simp, _, rfl, rfl, rfl⟩
  | some bar =>
    rw [checkStaleData_some]
    split
    · rename_i hstale
      refine .inr ⟨?_, _, rfl, rfl, rfl⟩
      rintro ⟨bar', hbar, hle⟩
      cases hbar
      exact hle.not_gt hstale
    · rename_i hstale
      exact .inl ⟨rfl, bar, rfl, not_lt.mp hstale⟩

theorem checkPriceSanity_blocks {engine : RiskEngine} {order : Order} {reference : Option Decimal}
    {now : Datetime} {breach : RiskBreach}
    (h : engine.checkPriceSanity order reference now = some breach) : Blocks breach .rc10 := by
  unfold checkPriceSanity at h
  split at h
  · cases h
  · split_ifs at h
    split at h
    · cases h
    · dsimp only at h
      split_ifs at h
      cases h
      exact ⟨rfl, rfl⟩

/-! ## The verdict -/

/-- What each check asks. -/
def Passes (engine : RiskEngine) (order : Order) (inputs : RiskInputs) (now : Datetime) :
    RiskCheckCode → Prop
  | .rc13 => engine.killSwitch.armed = false
  | .rc08 => ∃ bar, inputs.lastBar = some bar ∧
      now.micros - bar.val.closeTimeUtc.micros ≤ stalenessLimit engine.config * 1000000
  | .rc09 => inputs.isMarketOpen = true ∨ engine.config.outsideRthAllowed = true
  | .rc12 => engine.ArtefactsFresh inputs.artefactPaths now
  | .rc10 => engine.checkPriceSanity order inputs.referencePrice now = none

/-- The order in which the checks run. -/
def evaluationOrder : List RiskCheckCode := [.rc13, .rc08, .rc09, .rc12, .rc10]

/-- The first check of the order of evaluation that does not pass. -/
def FirstFailing (passes : RiskCheckCode → Prop) (check : RiskCheckCode) : Prop :=
  ¬ passes check ∧ ∃ before after, evaluationOrder = before ++ check :: after ∧
    ∀ earlier ∈ before, passes earlier

/-- What `approve` may answer. -/
inductive Verdict (passes : RiskCheckCode → Prop) (order : Order) :
    Option Order × List RiskBreach → Prop where
  | approved {warnings : List RiskBreach} (hpasses : ∀ check, passes check)
      (hwarnings : Warns warnings) : Verdict passes order (some order, warnings)
  | refused {warnings : List RiskBreach} {check : RiskCheckCode} {block : RiskBreach}
      (hfirst : FirstFailing passes check) (hwarnings : Warns warnings)
      (hblock : Blocks block check) : Verdict passes order (none, warnings ++ [block])

theorem Warns.singleton {breach : RiskBreach} (h : breach.severity = .warn) : Warns [breach] :=
  ⟨by simpa using h, by simp⟩

/-- The last part of the chain: the price, after a warning or none. -/
theorem verdict_of_price {engine : RiskEngine} {order : Order} {inputs : RiskInputs}
    {now : Datetime} {warn : Option RiskBreach} (hwarn : Warns warn.toList)
    (hswitch : engine.Passes order inputs now .rc13)
    (hstale : engine.Passes order inputs now .rc08)
    (hopen : engine.Passes order inputs now .rc09)
    (hfresh : engine.Passes order inputs now .rc12) :
    Verdict (engine.Passes order inputs now) order
      (match engine.checkPriceSanity order inputs.referencePrice now with
        | some price => (none, warn.toList ++ [price])
        | none => (some order, warn.toList)) := by
  cases hprice : engine.checkPriceSanity order inputs.referencePrice now with
  | none =>
    refine .approved (fun check => ?_) hwarn
    cases check with
    | rc13 => exact hswitch
    | rc08 => exact hstale
    | rc09 => exact hopen
    | rc12 => exact hfresh
    | rc10 => exact hprice
  | some price =>
    refine .refused ⟨?_, [.rc13, .rc08, .rc09, .rc12], [], rfl, ?_⟩ hwarn
      (checkPriceSanity_blocks hprice)
    · intro hpasses
      cases hpasses.symm.trans hprice
    · simp only [List.forall_mem_cons]
      exact ⟨hswitch, hstale, hopen, hfresh, by simp⟩

theorem approve_spec {engine : RiskEngine} (hlimits : AgeLimits engine.config) (order : Order)
    (inputs : RiskInputs) (now : Datetime) :
    Verdict (engine.Passes order inputs now) order (engine.approve order inputs now) := by
  unfold approve
  by_cases hswitch : engine.killSwitch.armed = true
  · rw [if_pos hswitch]
    refine .refused ⟨?_, [], _, rfl, by simp⟩ Warns.nil ⟨rfl, rfl⟩
    simp [Passes, hswitch]
  rw [if_neg hswitch]
  have hswitch : engine.Passes order inputs now .rc13 := by simpa [Passes] using hswitch
  rcases engine.checkStaleData_cases inputs.lastBar order.val.instrument now with
    ⟨hnone, hstale⟩ | ⟨hstale, breach, hbreach, hblocks⟩
  · rw [hnone]
    dsimp only
    by_cases hclosed : ¬ inputs.isMarketOpen = true ∧ ¬ engine.config.outsideRthAllowed = true
    · rw [if_pos hclosed]
      refine .refused ⟨?_, [.rc13, .rc08], _, rfl, ?_⟩ Warns.nil ⟨rfl, rfl⟩
      · rintro (hmarket | hallowed)
        · exact hclosed.1 hmarket
        · exact hclosed.2 hallowed
      · simp only [List.forall_mem_cons]
        exact ⟨hswitch, hstale, by simp⟩
    rw [if_neg hclosed]
    have hopen : engine.Passes order inputs now .rc09 := by
      by_contra hnot
      exact hclosed ⟨fun h => hnot (.inl h), fun h => hnot (.inr h)⟩
    have hfreshness := checkArtefactFreshness_spec hlimits inputs.artefactPaths now
    generalize engine.checkArtefactFreshness inputs.artefactPaths now = freshness at hfreshness
    cases hfreshness with
    | blocked hfresh hbreach =>
      have hfails : ¬ engine.Passes order inputs now .rc12 := hfresh
      refine .refused ⟨hfails, [.rc13, .rc08, .rc09], _, rfl, ?_⟩ Warns.nil hbreach
      simp only [List.forall_mem_cons]
      exact ⟨hswitch, hstale, hopen, by simp⟩
    | warned hfresh _ _ hseverity =>
      exact verdict_of_price (Warns.singleton hseverity) hswitch hstale hopen hfresh
    | passed hfresh _ => exact verdict_of_price Warns.nil hswitch hstale hopen hfresh
  · rw [hbreach]
    refine .refused ⟨hstale, [.rc13], _, rfl, ?_⟩ Warns.nil hblocks
    simp only [List.forall_mem_cons]
    exact ⟨hswitch, by simp⟩

/-! ## The iteration order of the artefacts -/

/-- What a breach names: the check and its severity. -/
def code (breach : RiskBreach) : RiskCheckCode × RiskBreachSeverity :=
  (breach.check, breach.severity)

theorem Blocks.code {breach : RiskBreach} {check : RiskCheckCode} (h : Blocks breach check) :
    RiskEngine.code breach = (check, .block) :=
  Prod.ext h.check h.severity

section Iteration

variable {engine : RiskEngine} {artefacts paths : List (String × Artefact)} {now : Datetime}

theorem artefactsFresh_perm (hperm : paths.Perm artefacts) :
    engine.ArtefactsFresh paths now ↔ engine.ArtefactsFresh artefacts now := by
  simp only [ArtefactsFresh, hperm.mem_iff]

theorem exists_aged_perm (now : Datetime) (hperm : paths.Perm artefacts) (limit : Decimal) :
    (∃ artefact ∈ paths, AgedAtLeast now limit artefact) ↔
      ∃ artefact ∈ artefacts, AgedAtLeast now limit artefact := by
  simp only [hperm.mem_iff]

/-- The check of the artefacts names the same breaches for every order of them. -/
theorem Freshness.codes_eq (hperm : paths.Perm artefacts)
    {answer answer' : Option RiskBreach × Option RiskBreach}
    (h : Freshness engine paths now answer) (h' : Freshness engine artefacts now answer') :
    answer.1.map code = answer'.1.map code ∧ answer.2.map code = answer'.2.map code := by
  have hfresh : engine.ArtefactsFresh paths now ↔ engine.ArtefactsFresh artefacts now :=
    artefactsFresh_perm hperm
  have haged := exists_aged_perm now hperm engine.config.modelArtefactWarningAgeDays
  cases h with
  | blocked hnot hbreach =>
    cases h' with
    | blocked _ hbreach' => exact ⟨congrArg some (hbreach.code.trans hbreach'.code.symm), rfl⟩
    | warned hall => exact absurd (hfresh.mpr hall) hnot
    | passed hall => exact absurd (hfresh.mpr hall) hnot
  | warned hall hwarned hcheck hseverity =>
    cases h' with
    | blocked hnot => exact absurd (hfresh.mp hall) hnot
    | warned _ _ hcheck' hseverity' =>
      refine ⟨rfl, congrArg some (Prod.ext ?_ ?_)⟩
      · exact hcheck.trans hcheck'.symm
      · exact hseverity.trans hseverity'.symm
    | passed _ hyoung => exact absurd (haged.mp hwarned) hyoung
  | passed hall hyoung =>
    cases h' with
    | blocked hnot => exact absurd (hfresh.mp hall) hnot
    | warned _ hwarned => exact absurd (haged.mpr hwarned) hyoung
    | passed => exact ⟨rfl, rfl⟩

/-- So does the whole chain, and its verdict is the same. -/
theorem approve_perm (hlimits : AgeLimits engine.config) (order : Order) (inputs : RiskInputs)
    (hperm : paths.Perm inputs.artefactPaths) :
    (engine.approve order { inputs with artefactPaths := paths } now).1 =
        (engine.approve order inputs now).1 ∧
      (engine.approve order { inputs with artefactPaths := paths } now).2.map code =
        (engine.approve order inputs now).2.map code := by
  have hcodes := (checkArtefactFreshness_spec hlimits paths now).codes_eq hperm
    (checkArtefactFreshness_spec hlimits inputs.artefactPaths now)
  unfold approve
  by_cases hswitch : engine.killSwitch.armed = true
  · rw [if_pos hswitch, if_pos hswitch]
    exact ⟨rfl, rfl⟩
  rw [if_neg hswitch, if_neg hswitch]
  cases engine.checkStaleData inputs.lastBar order.val.instrument now with
  | some breach => exact ⟨rfl, rfl⟩
  | none =>
    dsimp only
    by_cases hclosed : ¬ inputs.isMarketOpen = true ∧ ¬ engine.config.outsideRthAllowed = true
    · rw [if_pos hclosed, if_pos hclosed]
      exact ⟨rfl, rfl⟩
    rw [if_neg hclosed, if_neg hclosed]
    generalize engine.checkArtefactFreshness paths now = answer at hcodes
    generalize engine.checkArtefactFreshness inputs.artefactPaths now = answer' at hcodes
    obtain ⟨block, warn⟩ := answer
    obtain ⟨block', warn'⟩ := answer'
    obtain ⟨hblock, hwarn⟩ := hcodes
    have hwarns : warn.toList.map code = warn'.toList.map code := by
      rw [← Option.toList_map, ← Option.toList_map]
      exact congrArg Option.toList hwarn
    cases block with
    | some block =>
      obtain ⟨block', rfl, hcode⟩ := Option.map_eq_some_iff.mp hblock.symm
      simp [hwarns, hcode]
    | none =>
      obtain rfl := Option.map_eq_none_iff.mp hblock.symm
      dsimp only
      cases engine.checkPriceSanity order inputs.referencePrice now with
      | none => exact ⟨rfl, hwarns⟩
      | some price => simp [hwarns]

end Iteration

/-! ## What the breaches carry -/

/-- A breach the engine built at `now`. -/
def BreachOf (engine : RiskEngine) (now : Datetime) (breach : RiskBreach) : Prop :=
  breach.strategyId = engine.strategyId ∧ breach.timeUtc = now

section Breaches

variable {engine : RiskEngine} {now : Datetime} {b : RiskBreach}

theorem checkStaleData_breachOf {lastBar : Option Bar} {instrument : Instrument}
    (h : engine.checkStaleData lastBar instrument now = some b) : engine.BreachOf now b := by
  cases lastBar with
  | none =>
    cases h
    exact ⟨rfl, rfl⟩
  | some bar =>
    rw [checkStaleData_some] at h
    split_ifs at h
    cases h
    exact ⟨rfl, rfl⟩

theorem checkArtefactFreshness_breachOf {artefacts : List (String × Artefact)} :
    (∀ b ∈ (engine.checkArtefactFreshness artefacts now).1, engine.BreachOf now b) ∧
      ∀ b ∈ (engine.checkArtefactFreshness artefacts now).2, engine.BreachOf now b := by
  unfold checkArtefactFreshness
  split
  · simp
  · split
    · simp [breach, BreachOf]
    · dsimp only
      split_ifs <;> simp [breach, BreachOf]

theorem checkPriceSanity_breachOf {order : Order} {reference : Option Decimal}
    (h : engine.checkPriceSanity order reference now = some b) : engine.BreachOf now b := by
  unfold checkPriceSanity at h
  split at h
  · cases h
  · split_ifs at h
    split at h
    · cases h
    · dsimp only at h
      split_ifs at h
      cases h
      exact ⟨rfl, rfl⟩

theorem approve_breachOf (engine : RiskEngine) (order : Order) (inputs : RiskInputs)
    (now : Datetime) : ∀ b ∈ (engine.approve order inputs now).2, engine.BreachOf now b := by
  obtain ⟨hblock, hwarn⟩ := @checkArtefactFreshness_breachOf engine now inputs.artefactPaths
  intro b hb
  unfold approve at hb
  split at hb
  · exact List.mem_singleton.mp hb ▸ ⟨rfl, rfl⟩
  · split at hb
    · rename_i stale hstale
      exact List.mem_singleton.mp hb ▸ checkStaleData_breachOf hstale
    · split at hb
      · exact List.mem_singleton.mp hb ▸ ⟨rfl, rfl⟩
      · split at hb
        · rename_i block warn hfresh
          rw [hfresh] at hblock hwarn
          rcases List.mem_append.mp hb with hb | hb
          · exact hwarn b (Option.mem_toList.mp hb)
          · exact List.mem_singleton.mp hb ▸ hblock block rfl
        · rename_i warn hfresh
          rw [hfresh] at hwarn
          split at hb
          · rename_i price hprice
            rcases List.mem_append.mp hb with hb | hb
            · exact hwarn b (Option.mem_toList.mp hb)
            · exact List.mem_singleton.mp hb ▸ checkPriceSanity_breachOf hprice
          · exact hwarn b (Option.mem_toList.mp hb)

theorem BreachOf.built_iff (h : engine.BreachOf now b) :
    postInit b = .ok () ↔ engine.strategyId ≠ "" ∧ now.utcOffset = some 0 := by
  rw [← h.1, ← h.2]
  exact require_bind_eq_ok_iff.trans (and_congr_right fun _ => require_eq_ok_iff)

theorem forM_postInit_eq_ok_iff {breaches : List RiskBreach} :
    breaches.forM postInit = .ok () ↔ ∀ b ∈ breaches, postInit b = .ok () := by
  induction breaches with
  | nil => exact iff_of_true rfl (by simp)
  | cons first rest ih =>
    rw [List.forall_mem_cons, ← ih]
    show (postInit first >>= fun _ => rest.forM postInit) = .ok () ↔ _
    rw [bind_eq_ok_iff]
    exact ⟨fun ⟨_, hfirst, hrest⟩ => ⟨hfirst, hrest⟩, fun h => ⟨(), h⟩⟩

/-- The breaches of a decision are refused together: when the engine has no strategy id, or its
time is not UTC. -/
theorem approveOrRaise_eq_ok_iff {order : Order} {inputs : RiskInputs}
    {answer : Option Order × List RiskBreach} :
    engine.approveOrRaise order inputs now = .ok answer ↔
      answer = engine.approve order inputs now ∧
        (answer.2 = [] ∨ engine.strategyId ≠ "" ∧ now.utcOffset = some 0) := by
  have hbuilt : (engine.approve order inputs now).2.forM postInit = .ok () ↔
      (engine.approve order inputs now).2 = [] ∨
        engine.strategyId ≠ "" ∧ now.utcOffset = some 0 := by
    have hstamped := engine.approve_breachOf order inputs now
    rw [forM_postInit_eq_ok_iff]
    cases hbreaches : (engine.approve order inputs now).2 with
    | nil => simp
    | cons first rest =>
      rw [hbreaches] at hstamped
      rw [or_iff_right (List.cons_ne_nil first rest)]
      constructor
      · intro h
        exact (hstamped first List.mem_cons_self).built_iff.mp (h first List.mem_cons_self)
      · intro h b hb
        exact (hstamped b hb).built_iff.mpr h
  constructor
  · intro h
    obtain ⟨_, hforM, hanswer⟩ := bind_eq_ok_iff.mp h
    cases hanswer
    exact ⟨rfl, hbuilt.mp hforM⟩
  · rintro ⟨rfl, h⟩
    exact bind_eq_ok_iff.mpr ⟨(), hbuilt.mpr h, rfl⟩

theorem approveOrRaise_of_named (hid : engine.strategyId ≠ "") (hnow : now.utcOffset = some 0)
    (order : Order) (inputs : RiskInputs) :
    engine.approveOrRaise order inputs now = .ok (engine.approve order inputs now) :=
  approveOrRaise_eq_ok_iff.mpr ⟨rfl, .inr ⟨hid, hnow⟩⟩

end Breaches

/-- Everything `approve` promises of its answer. -/
structure VerdictSemantics (engine : RiskEngine) (order : Order) (inputs : RiskInputs)
    (now : Datetime) : Prop where
  approved : (∃ breaches, engine.approve order inputs now = (some order, breaches)) ↔
    ∀ check, engine.Passes order inputs now check
  verdict : Verdict (engine.Passes order inputs now) order (engine.approve order inputs now)
  stamped : ∀ breach ∈ (engine.approve order inputs now).2, engine.BreachOf now breach
  built : ∀ answer, engine.approveOrRaise order inputs now = .ok answer ↔
    answer = engine.approve order inputs now ∧
      (answer.2 = [] ∨ engine.strategyId ≠ "" ∧ now.utcOffset = some 0)
  iteration : ∀ paths, paths.Perm inputs.artefactPaths →
    (engine.approve order { inputs with artefactPaths := paths } now).1 =
        (engine.approve order inputs now).1 ∧
      (engine.approve order { inputs with artefactPaths := paths } now).2.map code =
        (engine.approve order inputs now).2.map code

/-- An order is approved when all the checks pass, and otherwise refused for the first that does
not, whatever the order of the artefacts; it raises for an engine whose breaches cannot be
built, where there are any. -/
theorem approve_verdict {engine : RiskEngine} (hlimits : AgeLimits engine.config) (order : Order)
    (inputs : RiskInputs) (now : Datetime) : VerdictSemantics engine order inputs now := by
  have hverdict := approve_spec hlimits order inputs now
  refine ⟨?_, hverdict, engine.approve_breachOf order inputs now,
    fun _ => approveOrRaise_eq_ok_iff, fun paths hperm => approve_perm hlimits order inputs hperm⟩
  constructor
  · rintro ⟨breaches, happroved⟩
    rw [happroved] at hverdict
    cases hverdict with
    | approved hpasses => exact hpasses
  · intro hpasses
    generalize engine.approve order inputs now = answer at hverdict ⊢
    cases hverdict with
    | approved _ _ => exact ⟨_, rfl⟩
    | refused hfirst => exact absurd (hpasses _) hfirst.1

/-- An engine with the default thresholds and a clear kill switch. -/
def sampleEngine : RiskEngine := ⟨{}, {}, "trend"⟩

/-- A bar of `sampleInstrument` that closes at 100, one microsecond after the epoch. -/
def sampleBar : Bar :=
  ⟨⟨sampleInstrument, ⟨0, some 0⟩, ⟨1, some 0⟩, 100, 100, 100, 100, 0, none⟩, by decide +kernel⟩

/-- An order to buy ten shares at a limit of 200. -/
def sampleLimit : Order :=
  ⟨{ (sampleOrder 1).val with orderType := .lmt, limitPrice := some 200 }, by decide +kernel⟩

/-- A model of 25 days and a scaler of one day, and the close of `sampleBar` as the reference. -/
def sampleAgingInputs : RiskInputs where
  lastBar := some sampleBar
  isMarketOpen := true
  artefactPaths := [("model", some ⟨1 - 25 * 86400000000, some 0⟩),
    ("scaler", some ⟨1 - 86400000000, some 0⟩)]
  referencePrice := some 100

/-- The aging model is warned of, and the limit at twice the reference is refused. -/
theorem approve_verdict_sample :
    VerdictSemantics sampleEngine sampleLimit sampleAgingInputs ⟨1, some 0⟩ ∧
      (sampleEngine.approve sampleLimit sampleAgingInputs ⟨1, some 0⟩).1 = none ∧
      (sampleEngine.approve sampleLimit sampleAgingInputs ⟨1, some 0⟩).2.map code =
        [(.rc12, .warn), (.rc10, .block)] :=
  ⟨approve_verdict ⟨by decide, by decide⟩ _ _ _, by decide +kernel, by decide +kernel⟩

/-! ## The prices an order carries -/

/-- A price that is set stays within the band around the reference. -/
def WithinBand (engine : RiskEngine) (reference : Decimal) (price : Option Decimal) : Prop :=
  ∀ p ∈ price, |p - reference| / reference ≤ engine.config.maxPriceDeviationPct

/-- `approve` lets the order through exactly when all the prices it carries are within the
band. -/
def ChecksEveryPrice (engine : RiskEngine) (order : Order) (inputs : RiskInputs)
    (reference : Decimal) (now : Datetime) : Prop :=
  (engine.approve order inputs now).1 = some order ↔
    engine.WithinBand reference order.val.limitPrice ∧
      engine.WithinBand reference order.val.stopPrice

/-- An order to buy ten shares at a stop of 1000. -/
def sampleStop : Order :=
  ⟨{ (sampleOrder 1).val with orderType := .stp, stopPrice := some 1000 }, by decide +kernel⟩

/-- The inputs of a decision on `sampleBar`, with its close as the reference. -/
def sampleInputs : RiskInputs := ⟨some sampleBar, true, [], some 100⟩

theorem sampleEngine_passes :
    sampleEngine.PassesOtherChecks sampleStop.val.instrument sampleInputs ⟨1, some 0⟩ :=
  ⟨rfl, rfl, .inl rfl, rfl⟩

end Blive.RiskEngine
