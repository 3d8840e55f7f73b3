import Blive.Adapters.Ig.Proofs.ResolvedEpic
import Blive.Adapters.Ig.ResolverTasks

/-!
# The IG resolver under interleaving

Calls of the resolver run in any number of tasks and in any order of steps. An epic that is
returned was found by one call for the instrument, from the answers to that call alone and since
the instrument was last cleared; metadata that are returned are those of such an epic, as IG
last described it to some call; and the lookup at the end of `market_metadata` always succeeds,
although the cache may be cleared while the call waits.
-/

namespace Blive

open Transition Tasks

namespace IGInstrumentResolver

variable {τ : Type}

abbrev Past (τ : Type) := History τ Method MarketAnswer

/-- The answers given to a call. -/
abbrev Told := List (Σ request : MarketRequest, MarketAnswer request)

/-- The instrument whose epic a method asks for. -/
def Method.instrument? : Method → Option Instrument
  | .resolve instrument => some instrument
  | .marketMetadata instrument => some instrument
  | .precisionFor instrument => some instrument
  | .clearCache _ => none

/-- The caches are cleared as a whole. -/
def ClearsAll (action : TaskAction τ Method MarketAnswer) : Prop :=
  ∃ task, action = .call task (.clearCache none)

/-- The epic of the instrument is dropped. -/
def Clears (instrument : Instrument) (action : TaskAction τ Method MarketAnswer) : Prop :=
  ClearsAll action ∨ ∃ task, action = .call task (.clearCache (some instrument))

/-- IG describes the market of the epic. -/
def Describes (epic : String) (metadata : IGMarketMetadata)
    (action : TaskAction τ Method MarketAnswer) : Prop :=
  ∃ task response, action = .answer task ⟨.market epic, response⟩ ∧
    fetchMetadata epic response = .ok metadata

/-- The answers that lead to the epic are among those given to the call: to the look-up of the
guess, and, where IG does not know that, to the search and to the look-up of what it found. -/
def LeadsTo (instrument : Instrument) (told : Told) (epic : String) : Prop :=
  ∃ answers : ResolveAnswers, Found instrument answers epic ∧
    ∀ epicGuess, guessEpic instrument = .ok epicGuess →
      (⟨.market epicGuess, answers.guess⟩ : Σ request : MarketRequest, MarketAnswer request) ∈
          told ∧
      ∀ e, fetchMetadata epicGuess answers.guess = .error e →
        ⟨.search instrument.val.symbol, answers.search⟩ ∈ told ∧
          ⟨.market epic, answers.found⟩ ∈ told

/-- With the action a call for the instrument finds the epic: IG describes its market. -/
def Finds (instrument : Instrument) (epic : String) (before : Past τ)
    (action : TaskAction τ Method MarketAnswer) : Prop :=
  (∃ metadata, Describes epic metadata action) ∧
    ∃ task method told, method.instrument? = some instrument ∧
      CallOf task method told (before ++ [action]) ∧ LeadsTo instrument told epic

/-- Both caches hold what was found or described since they were last cleared. -/
structure Current (past : Past τ) (r : IGInstrumentResolver) : Prop where
  epics : Fresh Finds Clears past r.epicCache
  metadata : Fresh (fun epic metadata _ => Describes epic metadata) (fun _ => ClearsAll) past
    r.metadataCache

theorem Current.later {past : Past τ} {r : IGInstrumentResolver}
    {action : TaskAction τ Method MarketAnswer} (h : Current past r)
    (ha : ∀ cleared task, action ≠ .call task (.clearCache cleared)) :
    Current (past ++ [action]) r := by
  have hall : ¬ ClearsAll action := fun ⟨task, heq⟩ => ha none task heq
  refine ⟨h.epics.later ?_, h.metadata.later fun _ => hall⟩
  rintro instrument (hclears | ⟨task, heq⟩)
  · exact hall hclears
  · exact ha (some instrument) task heq

/-- The exception of a look-up in a `dict`. -/
def IsKeyError (e : ResolveError) : Prop := ∃ key, e = .py (.keyError key)

/-- What is computed without a look-up in a `dict`. -/
def NoKeyError {ν : Type} (result : Except ResolveError ν) : Prop :=
  ∀ e, result = .error e → ¬ IsKeyError e

theorem noKeyError_ok {ν : Type} (v : ν) : NoKeyError (.ok v) := by
  rintro e ⟨⟩

theorem noKeyError_request {ν : Type} (e : RequestError) :
    NoKeyError (.error (.request e) : Except ResolveError ν) := by
  rintro _ ⟨⟩ ⟨key, ⟨⟩⟩

theorem noKeyError_py {ν : Type} {e : PyError} (he : ∀ key, e ≠ .keyError key) :
    NoKeyError (.error (.py e) : Except ResolveError ν) := by
  rintro _ ⟨⟩ ⟨key, h⟩
  cases h
  exact he key rfl

theorem NoKeyError.bind {μ ν : Type} {x : Except ResolveError μ} {f : μ → Except ResolveError ν}
    (hx : NoKeyError x) (hf : ∀ v, NoKeyError (f v)) : NoKeyError (x >>= f) := by
  cases x with
  | error e =>
    intro e' he'
    cases he'
    exact hx e rfl
  | ok v => exact hf v

theorem noKeyError_required {ν : Type} (x : Option ν) (message : String) :
    NoKeyError (required x (requestInvalid message)) := by
  cases x with
  | none => exact noKeyError_request _
  | some v => exact noKeyError_ok v

theorem noKeyError_wire {ν : Type} (x : Except RequestError ν) :
    NoKeyError (x.mapError .request) := by
  cases x with
  | error e => exact noKeyError_request e
  | ok v => exact noKeyError_ok v

theorem noKeyError_decimalField (value : Json) : NoKeyError (decimalField value) := by
  rintro e h ⟨key, rfl⟩
  rw [decimalField] at h
  cases hread : DecimalValue.ofString value.toStr with
  | error e =>
    rw [hread, DecimalValue.ofString_error hread] at h
    cases h
  | ok d =>
    rw [hread] at h
    cases h

theorem noKeyError_firstCurrencyCode (items : List (String × Json)) :
    NoKeyError (firstCurrencyCode items) := by
  rw [firstCurrencyCode]
  split
  · split
    · exact noKeyError_ok _
    · exact noKeyError_request _
  · exact noKeyError_request _

theorem noKeyError_fetchMetadata (epic : String) (response : Except RequestError Json) :
    NoKeyError (fetchMetadata epic response) := by
  refine (noKeyError_wire response).bind fun body => ?_
  refine (noKeyError_required _ _).bind fun items => ?_
  refine (noKeyError_required _ _).bind fun fields => ?_
  refine (noKeyError_required _ _).bind fun dealingRules => ?_
  simp only
  split
  · exact noKeyError_request _
  · refine (noKeyError_firstCurrencyCode fields).bind fun currency => ?_
    refine (noKeyError_decimalField _).bind fun lotSize => ?_
    refine (noKeyError_required _ _).bind fun minDealSizeObj => ?_
    refine (noKeyError_required _ _).bind fun value => ?_
    refine (noKeyError_decimalField _).bind fun minDealSize => ?_
    exact noKeyError_ok _

theorem noKeyError_candidatesRaw (body : Json) :
    NoKeyError ((candidatesRaw body).mapError .py) := by
  unfold candidatesRaw
  split
  · split
    · exact noKeyError_ok _
    · exact noKeyError_ok _
    · exact noKeyError_ok _
    · exact noKeyError_py (by simp)
  · exact noKeyError_ok _

theorem noKeyError_searchedEpic (instrument : Instrument) (family : String)
    (response : Except RequestError Json) :
    NoKeyError (searchedEpic instrument family response) := by
  refine (noKeyError_wire response).bind fun body => ?_
  refine (noKeyError_candidatesRaw body).bind fun raw => ?_
  split
  · exact noKeyError_py (by simp)
  · exact noKeyError_ok _
  · rintro _ ⟨⟩ ⟨key, ⟨⟩⟩

theorem noKeyError_guessEpic (instrument : Instrument) :
    NoKeyError ((guessEpic instrument).mapError .py) := by
  unfold guessEpic epicFamily
  cases instrument.val.tradability <;> cases instrument.val.assetClass <;>
    first | exact noKeyError_ok _ | exact noKeyError_py (by simp)

section Call

variable {task : τ} {method : Method} {instrument : Instrument} {told : Told} {past : Past τ}
  {r : IGInstrumentResolver}

/-- After `_fetch_and_cache_metadata` the call has just been told about the epic, and what it was
told is in the cache. -/
theorem fetchAndCacheMetadata_ensures (epic : String) (h : Current past r)
    (hcall : CallOf task method told past) :
    Ensures Current task (fun past r result => Current past r ∧ ∃ before response,
        past = before ++ [.answer task ⟨.market epic, response⟩] ∧
        CallOf task method (told ++ [⟨.market epic, response⟩]) past ∧
        match result with
        | .ok () => ∃ metadata, fetchMetadata epic response = .ok metadata ∧
            r.metadataCache.get? epic = some metadata
        | .error e => fetchMetadata epic response = .error e)
      (Async.fetchAndCacheMetadata epic) past r := by
  simp only [Async.fetchAndCacheMetadata, ensures_bind, ensures_ofExcept, ensures_await]
  refine ⟨h, ?_⟩
  intro others r₁ response hothers h₁
  have hcall₁ := hcall.answer ⟨.market epic, response⟩ hothers
  generalize past ++ others = past₁ at h₁ hcall₁ ⊢
  have hanswer : Current (past₁ ++ [.answer task ⟨.market epic, response⟩]) r₁ :=
    h₁.later (by simp)
  cases hfetched : fetchMetadata epic response with
  | error e => exact ⟨hanswer, past₁, response, rfl, hcall₁, hfetched⟩
  | ok metadata =>
    have hsince : Since (fun _ => Describes epic metadata) ClearsAll
        (past₁ ++ [.answer task ⟨.market epic, response⟩]) :=
      .now ⟨task, response, rfl, hfetched⟩
    simp only [ensures_modify]
    exact ⟨⟨hanswer.epics, hanswer.metadata.set hsince⟩, past₁, response, rfl, hcall₁, metadata,
      hfetched, by simp⟩

/-- How a call for the epic of an instrument stands when it has the epic, or fails. -/
def Resolved (instrument : Instrument) (task : τ) (method : Method) (past : Past τ)
    (result : Except ResolveError String) : Prop :=
  ∃ told, CallOf task method told past ∧
    match result with
    | .ok epic => Since (Finds instrument epic) (Clears instrument) past
    | .error e => ¬ IsKeyError e

theorem resolveViaSearch_ensures (h : Current past r) (hcall : CallOf task method told past)
    (hmethod : method.instrument? = some instrument) {epicGuess : String}
    {refusal : Except RequestError Json} {e : ResolveError}
    (hguess : guessEpic instrument = .ok epicGuess)
    (hrefusal : fetchMetadata epicGuess refusal = .error e) (he : isInvalidInstrument e)
    (htold : ⟨.market epicGuess, refusal⟩ ∈ told) :
    Ensures Current task (fun past r result =>
        Current past r ∧ Resolved instrument task method past result)
      (Async.resolveViaSearch instrument) past r := by
  obtain ⟨family, settlement, hfamily, -⟩ := guessEpic_chars hguess
  simp only [Async.resolveViaSearch, ensures_bind, ensures_ofExcept, hfamily, Except.mapError,
    ensures_await]
  refine ⟨h, ?_⟩
  intro others r₁ search hothers h₁
  have hcall₁ := hcall.answer ⟨.search instrument.val.symbol, search⟩ hothers
  generalize past ++ others = past₁ at h₁ hcall₁ ⊢
  have hanswer : Current (past₁ ++ [.answer task ⟨.search instrument.val.symbol, search⟩]) r₁ :=
    h₁.later (by simp)
  cases hsearched : searchedEpic instrument family search with
  | error e' => exact ⟨hanswer, _, hcall₁, noKeyError_searchedEpic _ _ _ _ hsearched⟩
  | ok epic =>
    refine (fetchAndCacheMetadata_ensures epic hanswer hcall₁).mono ?_
    rintro past₂ r₂ result - ⟨h₂, before, found, rfl, hcall₂, hresult⟩
    cases result with
    | error e' => exact ⟨h₂, _, hcall₂, noKeyError_fetchMetadata _ _ _ hresult⟩
    | ok _ =>
      obtain ⟨metadata, hfetched, -⟩ := hresult
      have hfound : Found instrument ⟨refusal, search, found⟩ epic :=
        .inr ⟨family, epicGuess, e, metadata, hfamily, hguess, hrefusal, he,
          searchedEpic_eq_ok_iff.mp hsearched, hfetched⟩
      refine ⟨h₂, _, hcall₂, .now ⟨⟨metadata, task, found, rfl, hfetched⟩, task, method, _, hmethod,
        hcall₂, ⟨refusal, search, found⟩, hfound, ?_⟩⟩
      intro epicGuess' hguess'
      cases hguess.symm.trans hguess'
      exact ⟨by simp [htold], fun _ _ => by simp⟩

theorem tryResolve_ensures (h : Current past r) (hcall : CallOf task method told past)
    (hmethod : method.instrument? = some instrument) {epicGuess : String}
    (hguess : guessEpic instrument = .ok epicGuess) :
    Ensures Current task (fun past r result =>
        Current past r ∧ Resolved instrument task method past result)
      (Async.tryResolveViaGuessThenSearch instrument epicGuess) past r := by
  rw [Async.tryResolveViaGuessThenSearch, ensures_attempt, ensures_bind]
  refine (fetchAndCacheMetadata_ensures epicGuess h hcall).mono ?_
  rintro past₁ r₁ result - ⟨h₁, before, response, rfl, hcall₁, hresult⟩
  cases result with
  | error e =>
    have hfetched : fetchMetadata epicGuess response = .error e := hresult
    simp only
    split
    · exact resolveViaSearch_ensures h₁ hcall₁ hmethod hguess hfetched ‹_› (by simp)
    · exact ⟨h₁, _, hcall₁, noKeyError_fetchMetadata _ _ _ hfetched⟩
  | ok _ =>
    obtain ⟨metadata, hfetched, -⟩ := hresult
    have hfound : Found instrument ⟨response, response, response⟩ epicGuess :=
      .inl ⟨hguess, metadata, hfetched⟩
    refine ⟨h₁, _, hcall₁, .now ⟨⟨metadata, task, response, rfl, hfetched⟩, task, method, _,
      hmethod, hcall₁, ⟨response, response, response⟩, hfound, ?_⟩⟩
    intro epicGuess' hguess'
    cases hguess.symm.trans hguess'
    refine ⟨by simp, ?_⟩
    intro e he
    cases hfetched.symm.trans he

theorem resolve_ensures (h : Current past r) (hcall : CallOf task method told past)
    (hmethod : method.instrument? = some instrument) :
    Ensures Current task (fun past r result =>
        Current past r ∧ Resolved instrument task method past result)
      (Async.resolve instrument) past r := by
  simp only [Async.resolve, ensures_bind, ensures_get]
  cases hcached : r.epicCache.get? instrument with
  | some epic => exact ⟨h, told, hcall, h.epics instrument epic hcached⟩
  | none =>
    simp only [ensures_bind, ensures_ofExcept]
    cases hguess : guessEpic instrument with
    | error e =>
      exact ⟨h, told, hcall, noKeyError_guessEpic instrument _ (by rw [hguess]; rfl)⟩
    | ok epicGuess =>
      refine (tryResolve_ensures h hcall hmethod hguess).mono ?_
      rintro past₁ r₁ result - ⟨h₁, told₁, hcall₁, hresult⟩
      cases result with
      | error e => exact ⟨h₁, told₁, hcall₁, hresult⟩
      | ok epic =>
        simp only [ensures_modify, ensures_pure]
        exact ⟨⟨h₁.epics.set hresult, h₁.metadata⟩, told₁, hcall₁, hresult⟩

/-- How a call for the metadata of an instrument ends: they are those of an epic found for it, as
described since the caches were last cleared. -/
def Described (instrument : Instrument) (past : Past τ)
    (result : Except ResolveError IGMarketMetadata) : Prop :=
  match result with
  | .ok metadata =>
      Since (fun _ => Describes metadata.epic metadata) ClearsAll past ∧
        ∃ earlier, earlier <+: past ∧
          Since (Finds instrument metadata.epic) (Clears instrument) earlier
  | .error e => ¬ IsKeyError e

theorem fetchMetadata_epic {epic : String} {response : Except RequestError Json}
    {metadata : IGMarketMetadata} (h : fetchMetadata epic response = .ok metadata) :
    metadata.epic = epic := by
  simp only [fetchMetadata, bind_eq_ok_iff] at h
  obtain ⟨body, -, items, -, h⟩ := h
  simp only [parseMarketMetadata, bind_eq_ok_iff] at h
  obtain ⟨fields, -, dealingRules, -, h⟩ := h
  split at h
  · cases h
  · simp only [bind_eq_ok_iff] at h
    obtain ⟨currency, -, lotSize, -, minDealSizeObj, -, value, -, minDealSize, -, h⟩ := h
    cases h
    rfl

theorem described_of_cached {epic : String} {metadata : IGMarketMetadata} {earlier : Past τ}
    (h : Current past r) (hcached : r.metadataCache.get? epic = some metadata)
    (hearlier : earlier <+: past)
    (hepic : Since (Finds instrument epic) (Clears instrument) earlier) :
    Described instrument past (.ok metadata) := by
  have hsince := h.metadata epic metadata hcached
  obtain ⟨_, _, _, -, ⟨_, response, -, hfetched⟩, -⟩ := id hsince
  obtain rfl := fetchMetadata_epic hfetched
  exact ⟨hsince, earlier, hearlier, hepic⟩

/-- `self._metadata_cache[epic]` finds what is in the cache. -/
theorem metadataOf_ensures {epic : String} {metadata : IGMarketMetadata} {earlier : Past τ}
    (h : Current past r) (hcached : r.metadataCache.get? epic = some metadata)
    (hearlier : earlier <+: past)
    (hepic : Since (Finds instrument epic) (Clears instrument) earlier) :
    Ensures Current task (fun past r result => Current past r ∧ Described instrument past result)
      (Async.metadataOf epic) past r := by
  simp only [Async.metadataOf, ensures_bind, ensures_get, hcached, ensures_pure]
  exact ⟨h, described_of_cached h hcached hearlier hepic⟩

theorem marketMetadata_ensures (h : Current past r) (hcall : CallOf task method told past)
    (hmethod : method.instrument? = some instrument) :
    Ensures Current task (fun past r result => Current past r ∧ Described instrument past result)
      (Async.marketMetadata instrument) past r := by
  rw [Async.marketMetadata, ensures_bind]
  refine (resolve_ensures h hcall hmethod).mono ?_
  rintro past₁ r₁ result - ⟨h₁, told₁, hcall₁, hresult⟩
  cases result with
  | error e => exact ⟨h₁, hresult⟩
  | ok epic =>
    simp only [ensures_bind, ensures_get]
    cases hcached : r₁.metadataCache.get? epic with
    | some metadata =>
      have hmem : ¬ epic ∉ r₁.metadataCache := fun hnot => hnot (Dict.mem_of_get? hcached)
      simp only [hmem, if_false]
      exact metadataOf_ensures h₁ hcached List.prefix_rfl hresult
    | none =>
      have hmem : epic ∉ r₁.metadataCache := Dict.get?_eq_none_iff.mp hcached
      simp only [hmem, not_false_eq_true, if_true, ensures_bind]
      refine (fetchAndCacheMetadata_ensures epic h₁ hcall₁).mono ?_
      rintro past₂ r₂ result hpast ⟨h₂, before, response, -, -, hfetched⟩
      cases result with
      | error e => exact ⟨h₂, noKeyError_fetchMetadata _ _ _ hfetched⟩
      | ok _ =>
        obtain ⟨metadata, -, hcached₂⟩ := hfetched
        exact metadataOf_ensures h₂ hcached₂ hpast hresult

/-- How a call for the precision of an instrument ends. -/
def Precise (instrument : Instrument) (past : Past τ)
    (result : Except ResolveError DecimalValue) : Prop :=
  match result with
  | .ok precision =>
      if instrument.val.tradability = .spot then precision = .finite 1
      else ∃ metadata, metadata.minDealSize = precision ∧ Described instrument past (.ok metadata)
  | .error e => ¬ IsKeyError e

theorem precisionFor_ensures (h : Current past r) (hcall : CallOf task method told past)
    (hmethod : method.instrument? = some instrument) :
    Ensures Current task (fun past r result => Current past r ∧ Precise instrument past result)
      (Async.precisionFor instrument) past r := by
  rw [Async.precisionFor]
  split
  · exact ⟨h, by simp [Precise, *]⟩
  · rw [ensures_bind]
    refine (marketMetadata_ensures h hcall hmethod).mono ?_
    rintro past₁ r₁ result - ⟨h₁, hresult⟩
    cases result with
    | error e => exact ⟨h₁, hresult⟩
    | ok metadata =>
      refine ⟨h₁, ?_⟩
      simp only [Precise, *, if_false]
      exact ⟨metadata, rfl, hresult⟩

theorem clearCache_ensures {cleared : Option Instrument} (h : Current past r) :
    Ensures Current task (fun past r _ => Current past r ∧ True) (Async.clearCache cleared)
      (past ++ [.call task (.clearCache cleared)]) r := by
  simp only [Async.clearCache, ensures_modify, and_true]
  cases cleared with
  | none => exact ⟨.empty, .empty⟩
  | some cleared =>
    have hall : ¬ ClearsAll (.call task (.clearCache (some cleared)) :
        TaskAction τ Method MarketAnswer) := by simp [ClearsAll]
    simp only [clearCache]
    cases hcached : r.epicCache.get? cleared with
    | none =>
      refine ⟨?_, h.metadata.later fun _ => hall⟩
      intro instrument epic hcached'
      refine (h.epics instrument epic hcached').later ?_
      rintro (hclears | ⟨task', heq⟩)
      · exact hall hclears
      · cases heq
        cases hcached.symm.trans hcached'
    | some epic =>
      refine ⟨h.epics.erase ?_, h.metadata.erase fun _ _ => hall⟩
      rintro instrument hne (hclears | ⟨task', heq⟩)
      · exact hall hclears
      · cases heq
        exact hne rfl

end Call

/-- What the runs of the resolver meet. -/
def Spec : (method : Method) → τ → Past τ → IGInstrumentResolver →
    Except ResolveError method.Result → Prop
  | .resolve instrument, task, past, _, result =>
      Resolved instrument task (.resolve instrument) past result
  | .marketMetadata instrument, _, past, _, result => Described instrument past result
  | .precisionFor instrument, _, past, _, result => Precise instrument past result
  | .clearCache _, _, _, _, _ => True

theorem meets : Meets (τ := τ) body Current Spec where
  call task method past r h := by
    cases method with
    | resolve instrument =>
      exact resolve_ensures (h.later (by simp)) (.call past) rfl
    | marketMetadata instrument =>
      have hcall : CallOf task (.marketMetadata instrument) ([] : Told)
          (past ++ [.call task (.marketMetadata instrument)]) := .call past
      exact marketMetadata_ensures (h.later (by simp)) hcall rfl
    | precisionFor instrument =>
      have hcall : CallOf task (.precisionFor instrument) ([] : Told)
          (past ++ [.call task (.precisionFor instrument)]) := .call past
      exact precisionFor_ensures (h.later (by simp)) hcall rfl
    | clearCache cleared => exact clearCache_ensures h
  cancel task past r h := h.later (by simp)

/-- In any run of calls in any number of tasks, an epic that `resolve` returns was found by one call
for the instrument since the instrument was last cleared; `market_metadata` and `precision_for`
return what IG said of such an epic since the caches were last cleared, and their look-up in the
cache never fails. -/
theorem resolver_ends [DecidableEq τ] {past : Past τ}
    {s : Tasks τ IGInstrumentResolver MarketAnswer ResolveError Method.Result}
    (hrun : run (Tasks.step body) ⟨empty, .empty⟩ past = some s)
    (action : TaskAction τ Method MarketAnswer) (task : τ) (instrument : Instrument) :
    (∀ epic, ⟨task, .resolve instrument, .ok epic⟩ ∈ s.endings body action →
      Since (Finds instrument epic) (Clears instrument) (past ++ [action])) ∧
    (∀ result, ⟨task, .marketMetadata instrument, result⟩ ∈ s.endings body action →
      Described instrument (past ++ [action]) result) ∧
    ∀ result, ⟨task, .precisionFor instrument, result⟩ ∈ s.endings body action →
      Precise instrument (past ++ [action]) result := by
  have hempty : Current ([] : Past τ) empty := ⟨.empty, .empty⟩
  refine ⟨?_, ?_, ?_⟩
  · intro epic hended
    obtain ⟨_, _, _, hresult⟩ := meets.ends hempty hrun hended
    exact hresult
  · intro result hended
    obtain ⟨_, hresult⟩ := meets.ends hempty hrun hended
    exact hresult
  · intro result hended
    obtain ⟨_, hresult⟩ := meets.ends hempty hrun hended
    exact hresult

/-- One task resolves the index while another asks for its metadata; the caches are cleared before
the second one is answered. -/
def sampleActions : Past Nat :=
  [.call 1 (.resolve cacIndex), .call 2 (.marketMetadata cacIndex),
    .answer 1 ⟨.market "IX.D.CAC40.CASH.IP", .ok (indexMarket "France 40")⟩,
    .call 3 (.clearCache none)]

def sampleAnswer : TaskAction Nat Method MarketAnswer :=
  .answer 2 ⟨.market "IX.D.CAC40.CASH.IP", .ok (indexMarket "France 40 Cash")⟩

/-- The call of the second task ended with metadata. -/
def isDescription (ended : Ended Nat ResolveError Method.Result) : Bool :=
  match ended with
  | ⟨2, .marketMetadata instrument, .ok _⟩ => instrument = cacIndex
  | _ => false

theorem sampleActions_enabled :
    (run (Tasks.step body) ⟨empty, .empty⟩ sampleActions).isSome := by decide +kernel

theorem resolver_ends_cleared :
    ∃ metadata, Described cacIndex (sampleActions ++ [sampleAnswer]) (.ok metadata) := by
  obtain ⟨⟨task, method, result⟩, hended, hmatch⟩ := List.any_eq_true.mp
    (by decide +kernel : (endings body (Option.get _ sampleActions_enabled) sampleAnswer).any
      isDescription)
  simp only [isDescription] at hmatch
  split at hmatch
  · rename_i instrument metadata heq
    cases heq
    obtain rfl := of_decide_eq_true hmatch
    exact ⟨metadata, (resolver_ends (Option.some_get sampleActions_enabled).symm sampleAnswer 2
      cacIndex).2.1 _ hended⟩
  · cases hmatch

/-! ## One call after the other -/

section Alone

open Coroutine (alone_bind alone_attempt alone_pure alone_ofExcept alone_get alone_modify
  alone_await)

variable (world : Nat → (request : MarketRequest) → MarketAnswer request)

/-- The answers a resolution gets that makes its first request when `n` were made. -/
def answersFrom (n : Nat) (instrument : Instrument) : ResolveAnswers where
  guess :=
    match guessEpic instrument with
    | .ok epicGuess => world n (.market epicGuess)
    | .error _ => world n (.market "")
  search := world (n + 1) (.search instrument.val.symbol)
  found :=
    match epicFamily instrument.val.assetClass instrument.val.tradability with
    | .ok family =>
        match searchedEpic instrument family (world (n + 1) (.search instrument.val.symbol)) with
        | .ok epic => world (n + 2) (.market epic)
        | .error _ => world (n + 2) (.market "")
    | .error _ => world (n + 2) (.market "")

theorem fetchAndCacheMetadata_alone (n : Nat) (r : IGInstrumentResolver) (epic : String) :
    (Async.fetchAndCacheMetadata epic).alone world n r =
      match r.fetchAndCacheMetadata epic (world n (.market epic)) with
      | .ok r' => (r', [.market epic], .ok ())
      | .error e => (r, [.market epic], .error e) := by
  simp only [Async.fetchAndCacheMetadata, alone_bind, alone_await, alone_ofExcept,
    fetchAndCacheMetadata]
  cases fetchMetadata epic (world n (.market epic)) with
  | error e => rfl
  | ok metadata => rfl

/-- The outcome of a resolution as a state, requests and a result. -/
def leaves (r : IGInstrumentResolver) :
    List MarketRequest × Except ResolveError (IGInstrumentResolver × String) →
      IGInstrumentResolver × List MarketRequest × Except ResolveError String
  | (requests, .ok (r', epic)) => (r', requests, .ok epic)
  | (requests, .error e) => (r, requests, .error e)

theorem resolveViaSearch_alone (n : Nat) (r : IGInstrumentResolver) (instrument : Instrument) :
    (Async.resolveViaSearch instrument).alone world (n + 1) r =
      leaves r (r.resolveViaSearch instrument (answersFrom world n instrument)) := by
  simp only [Async.resolveViaSearch, alone_bind, alone_ofExcept, resolveViaSearch]
  cases hfamily : epicFamily instrument.val.assetClass instrument.val.tradability with
  | error e => rfl
  | ok family =>
    simp only [Except.mapError, alone_await, answersFrom, hfamily]
    cases searchedEpic instrument family (world (n + 1) (.search instrument.val.symbol)) with
    | error e => rfl
    | ok epic =>
      simp only [fetchAndCacheMetadata_alone, List.length_nil, List.length_cons, Nat.add_zero,
        Nat.zero_add, Nat.add_assoc, Nat.reduceAdd]
      cases r.fetchAndCacheMetadata epic (world (n + 2) (.market epic)) with
      | error e => rfl
      | ok r' => rfl

theorem tryResolve_alone (n : Nat) (r : IGInstrumentResolver) {instrument : Instrument}
    {epicGuess : String} (hguess : guessEpic instrument = .ok epicGuess) :
    (Async.tryResolveViaGuessThenSearch instrument epicGuess).alone world n r =
      leaves r (r.tryResolveViaGuessThenSearch instrument epicGuess
        (answersFrom world n instrument)) := by
  have hanswer : (answersFrom world n instrument).guess = world n (.market epicGuess) := by
    simp only [answersFrom, hguess]
  simp only [Async.tryResolveViaGuessThenSearch, alone_attempt, alone_bind,
    fetchAndCacheMetadata_alone, tryResolveViaGuessThenSearch, hanswer]
  cases r.fetchAndCacheMetadata epicGuess (world n (.market epicGuess)) with
  | ok r' => rfl
  | error e =>
    simp only [List.length_cons, List.length_nil, Nat.zero_add]
    split
    · rw [resolveViaSearch_alone]
      generalize r.resolveViaSearch instrument (answersFrom world n instrument) = outcome
      rcases outcome with ⟨requests, e' | ⟨r', epic⟩⟩
      · rfl
      · rfl
    · rfl

/-- A call of `resolve` that nobody interrupts does what `resolve` is as a function of the
answers. -/
theorem resolve_alone (n : Nat) (r : IGInstrumentResolver) (instrument : Instrument) :
    (Async.resolve instrument).alone world n r =
      let outcome := r.resolve instrument (answersFrom world n instrument)
      (outcome.resolver, outcome.requests, outcome.result) := by
  simp only [Async.resolve, alone_bind, alone_get, resolve]
  cases hcached : r.epicCache.get? instrument with
  | some epic => rfl
  | none =>
    simp only [alone_bind, alone_ofExcept]
    cases hguess : guessEpic instrument with
    | error e => rfl
    | ok epicGuess =>
      simp only [Except.mapError, List.length_nil, Nat.add_zero, tryResolve_alone _ _ _ hguess]
      generalize r.tryResolveViaGuessThenSearch instrument epicGuess
        (answersFrom world n instrument) = outcome
      rcases outcome with ⟨requests, e | ⟨r', epic⟩⟩
      · rfl
      · simp [leaves]

/-- What IG answers to the request `market_metadata` makes itself. -/
def metadataFrom (n : Nat) (r : IGInstrumentResolver) (instrument : Instrument) :
    Except RequestError Json :=
  let resolved := r.resolve instrument (answersFrom world n instrument)
  match resolved.result with
  | .ok epic => world (n + resolved.requests.length) (.market epic)
  | .error _ => world n (.market "")

/-- So does a call of `market_metadata`. -/
theorem marketMetadata_alone (n : Nat) (r : IGInstrumentResolver) (instrument : Instrument) :
    (Async.marketMetadata instrument).alone world n r =
      let outcome := r.marketMetadata instrument (answersFrom world n instrument)
        (metadataFrom world n r instrument)
      (outcome.resolver, outcome.requests, outcome.result) := by
  simp only [Async.marketMetadata, alone_bind, alone_get, resolve_alone, marketMetadata,
    metadataFrom]
  generalize r.resolve instrument (answersFrom world n instrument) = resolved
  rcases resolved with ⟨r', requests, e | epic⟩
  · rfl
  · simp only [List.length_nil, Nat.add_zero]
    cases hcached : r'.metadataCache.get? epic with
    | some metadata =>
      have hmem : ¬ epic ∉ r'.metadataCache := fun hnot => hnot (Dict.mem_of_get? hcached)
      simp [hmem, Async.metadataOf, alone_bind, hcached]
    | none =>
      have hmem : epic ∉ r'.metadataCache := Dict.get?_eq_none_iff.mp hcached
      simp only [hmem, not_false_eq_true, if_true, alone_bind, fetchAndCacheMetadata_alone,
        fetchAndCacheMetadata]
      cases fetchMetadata epic (world (n + requests.length) (.market epic)) with
      | error e => simp [Except.map]
      | ok metadata => simp [Except.map, Async.metadataOf, alone_bind]

/-- In the loop, a call of `market_metadata` whose answers come before anything else happens ends
as the function of the answers does, and leaves the resolver as that does. -/
theorem marketMetadata_uninterrupted [DecidableEq τ] {task : τ}
    {s : Tasks τ IGInstrumentResolver MarketAnswer ResolveError Method.Result}
    (h : task ∉ s.waiting) (instrument : Instrument) :
    let outcome := s.shared.marketMetadata instrument (answersFrom world 0 instrument)
      (metadataFrom world 0 s.shared instrument)
    ∃ told : Told, told.map Sigma.fst = outcome.requests ∧
      run (Tasks.step body) s (.call task (.marketMetadata instrument) :: told.map (.answer task)) =
        some ⟨outcome.resolver, s.waiting.erase task⟩ ∧
      trace (Tasks.step body) (fun s a _ => s.endings body a) s
          (.call task (.marketMetadata instrument) :: told.map (.answer task)) =
        [⟨task, .marketMetadata instrument, outcome.result⟩] := by
  have halone := run_alone body world (.marketMetadata instrument) 0 h
  simp only [body, marketMetadata_alone] at halone
  exact halone

end Alone

end IGInstrumentResolver

end Blive
