import Blive.Adapters.Ig.InstrumentResolver
import Blive.Misc.Lines
import Blive.Misc.Transition

/-!
# What an instrument is resolved to

The direct look-up names the symbol in the epic it asks for. The search is for the symbol, but of
what it finds only the family is compared: a candidate for another symbol is taken when it is the
only one. When the epic that is resolved is one of the instrument, and what the cache makes of it.
-/

namespace Blive

open Transition

/-! ## Segments -/

theorem notMem_of_mem_splitOn {a : Char} {l segment : List Char} (h : segment ∈ l.splitOn a) :
    a ∉ segment := by
  intro ha
  rw [List.splitOn_eq_splitOnP] at h
  have hne : (a == a) = false := forall_mem_of_mem_splitOnP h a ha
  rw [beq_self_eq_true] at hne
  cases hne

/-- The dotted segments of an epic. -/
def epicSegments (epic : String) : List (List Char) := epic.toList.splitOn '.'

/-- The epic is one of the instrument: it starts with the segments of the family, and the segment
after them is the symbol. -/
structure EpicMatches (instrument : Instrument) (epic : String) : Prop where
  family : ∃ family, epicFamily instrument.val.assetClass instrument.val.tradability = .ok family ∧
    (epicSegments epic).take 2 = epicSegments family
  symbol : (epicSegments epic)[2]? = some instrument.val.symbol.toList

theorem epicFamily_segments {assetClass : AssetClass} {tradability : Tradability} {family : String}
    (h : epicFamily assetClass tradability = .ok family) : (epicSegments family).length = 2 := by
  unfold epicFamily at h
  split at h
  · cases h
  · split at h <;> cases h <;> decide +kernel

section Segments

variable {instrument : Instrument} {family : String}

/-- What follows the family in an epic starts with its third segment. -/
theorem epicSegments_of_family
    (hfamily : epicFamily instrument.val.assetClass instrument.val.tradability = .ok family)
    {epic : String} {rest : List Char} (hepic : epic.toList = family.toList ++ '.' :: rest) :
    (epicSegments epic).take 2 = epicSegments family ∧
      (epicSegments epic)[2]? = (rest.splitOn '.')[0]? := by
  have hlength := epicFamily_segments hfamily
  have hsplit : epicSegments epic = epicSegments family ++ rest.splitOn '.' := by
    unfold epicSegments
    rw [hepic, List.splitOn_append_cons_self]
  rw [hsplit]
  constructor
  · rw [List.take_append_of_le_length hlength.ge, ← hlength, List.take_length]
  · rw [List.getElem?_append_right hlength.le, hlength]

theorem guessEpic_chars {epic : String} (h : guessEpic instrument = .ok epic) :
    ∃ family settlement,
      epicFamily instrument.val.assetClass instrument.val.tradability = .ok family ∧
        epic.toList =
          family.toList ++ '.' :: (instrument.val.symbol.toList ++ '.' :: settlement) := by
  obtain ⟨family, hfamily, h⟩ := bind_eq_ok_iff.mp h
  obtain ⟨settlement, _, h⟩ := bind_eq_ok_iff.mp h
  cases h
  exact ⟨family, settlement.toList, hfamily, by simp⟩

/-- The epic that is guessed is one of the instrument unless the symbol has a dot in it. -/
theorem guessEpic_matches_iff {epic : String} (h : guessEpic instrument = .ok epic) :
    EpicMatches instrument epic ↔ '.' ∉ instrument.val.symbol.toList := by
  obtain ⟨family, settlement, hfamily, hepic⟩ := guessEpic_chars h
  obtain ⟨htake, hthird⟩ := epicSegments_of_family hfamily hepic
  constructor
  · intro hmatches
    exact notMem_of_mem_splitOn (List.mem_of_getElem? hmatches.symbol)
  · intro hdot
    refine ⟨⟨family, hfamily, htake⟩, ?_⟩
    rw [hthird, List.splitOn_append_cons_self, List.splitOn_eq_singleton hdot]
    rfl

/-! ## The search -/

open IGInstrumentResolver in
/-- The only candidate of a search in the family has this epic. -/
def OnlyCandidate (family : String) (response : Except RequestError Json) (epic : String) : Prop :=
  ∃ body raw candidate, response = .ok body ∧ candidatesRaw body = .ok raw ∧
    raw.filterMap (candidate? family) = [candidate] ∧ epic = Json.textOf candidate "epic"

theorem searchedEpic_eq_ok_iff {response : Except RequestError Json} {epic : String} :
    IGInstrumentResolver.searchedEpic instrument family response = .ok epic ↔
      OnlyCandidate family response epic := by
  unfold IGInstrumentResolver.searchedEpic OnlyCandidate
  simp only [bind_eq_ok_iff, mapError_eq_ok_iff]
  constructor
  · rintro ⟨body, hbody, raw, hraw, h⟩
    cases hcandidates : raw.filterMap (IGInstrumentResolver.candidate? family) with
    | nil =>
      rw [hcandidates] at h
      cases h
    | cons candidate others =>
      cases others with
      | nil =>
        rw [hcandidates] at h
        cases h
        exact ⟨body, raw, candidate, hbody, hraw, hcandidates, rfl⟩
      | cons other others =>
        rw [hcandidates] at h
        cases h
  · rintro ⟨body, raw, candidate, hbody, hraw, hcandidates, rfl⟩
    refine ⟨body, hbody, raw, hraw, ?_⟩
    rw [hcandidates]

theorem textOf_of_str {items : List (String × Json)} {key text : String}
    (h : (Json.field items key).str? = some text) : Json.textOf items key = text := by
  unfold Json.field at h
  unfold Json.textOf
  cases hfield : Json.field? items key with
  | none =>
    rw [hfield] at h
    cases h
  | some value =>
    rw [hfield, Option.getD_some] at h
    cases value with
    | str s =>
      cases h
      rfl
    | _ => cases h

/-- The epic of a candidate starts with the family. -/
theorem candidate?_epic {entry : Json} {candidate : List (String × Json)}
    (h : IGInstrumentResolver.candidate? family entry = some candidate) :
    ∃ rest, (Json.textOf candidate "epic").toList = family.toList ++ '.' :: rest := by
  unfold IGInstrumentResolver.candidate? at h
  split at h
  · cases h
  · split at h
    · rename_i items _ epic hepic
      split at h
      · rename_i hinitial
        cases h
        obtain ⟨rest, hrest⟩ := hinitial
        refine ⟨rest, ?_⟩
        rw [textOf_of_str hepic, ← hrest]
        simp
      · cases h
    · cases h

/-- A candidate of the family is one of the instrument when its third segment is the symbol. -/
theorem onlyCandidate_matches_iff {response : Except RequestError Json} {epic : String}
    (hfamily : epicFamily instrument.val.assetClass instrument.val.tradability = .ok family)
    (h : OnlyCandidate family response epic) :
    EpicMatches instrument epic ↔
      (epicSegments epic)[2]? = some instrument.val.symbol.toList := by
  obtain ⟨body, raw, candidate, _, _, hcandidates, rfl⟩ := h
  obtain ⟨entry, _, hentry⟩ :=
    List.mem_filterMap.mp (hcandidates ▸ List.mem_singleton_self candidate)
  obtain ⟨rest, hepic⟩ := candidate?_epic hentry
  exact ⟨fun hmatches => hmatches.symbol,
    fun hsymbol => ⟨⟨family, hfamily, (epicSegments_of_family hfamily hepic).1⟩, hsymbol⟩⟩

end Segments

/-! ## One resolution -/

/-- The answers by which a resolution that succeeds finds an epic of the instrument: the direct
look-up is answered and the symbol has no dot, or IG does not know the guess and the only
candidate of the search, when it is looked up in turn, has the symbol as its third segment. -/
def AnswersName (instrument : Instrument) (answers : ResolveAnswers) : Prop :=
  ∀ family epicGuess, epicFamily instrument.val.assetClass instrument.val.tradability = .ok family →
    guessEpic instrument = .ok epicGuess →
      match IGInstrumentResolver.fetchMetadata epicGuess answers.guess with
      | .ok _ => '.' ∉ instrument.val.symbol.toList
      | .error e => IGInstrumentResolver.isInvalidInstrument e →
          ∀ epic metadata, OnlyCandidate family answers.search epic →
            IGInstrumentResolver.fetchMetadata epic answers.found = .ok metadata →
              (epicSegments epic)[2]? = some instrument.val.symbol.toList

namespace IGInstrumentResolver

variable {r r' : IGInstrumentResolver} {instrument other : Instrument} {answers : ResolveAnswers}
  {epic : String}

theorem resolve_cached (h : r.epicCache.get? instrument = some epic) (answers : ResolveAnswers) :
    r.resolve instrument answers = ⟨r, [], .ok epic⟩ := by
  simp only [resolve, h]

/-- The answers lead to the epic: it is the guess, which is looked up with success, or IG does not
know the guess and the epic is that of the only candidate. -/
def Found (instrument : Instrument) (answers : ResolveAnswers) (epic : String) : Prop :=
  (guessEpic instrument = .ok epic ∧ ∃ metadata, fetchMetadata epic answers.guess = .ok metadata) ∨
    ∃ family epicGuess e metadata,
      epicFamily instrument.val.assetClass instrument.val.tradability = .ok family ∧
      guessEpic instrument = .ok epicGuess ∧ fetchMetadata epicGuess answers.guess = .error e ∧
      isInvalidInstrument e ∧ OnlyCandidate family answers.search epic ∧
      fetchMetadata epic answers.found = .ok metadata

/-- A search that succeeds found an epic and its metadata. -/
theorem resolveViaSearch_eq_ok_iff :
    (r.resolveViaSearch instrument answers).2 = .ok (r', epic) ↔ ∃ family metadata,
      epicFamily instrument.val.assetClass instrument.val.tradability = .ok family ∧
      searchedEpic instrument family answers.search = .ok epic ∧
      fetchMetadata epic answers.found = .ok metadata ∧
      r' = { r with metadataCache := r.metadataCache.set epic metadata } := by
  unfold resolveViaSearch fetchAndCacheMetadata
  cases epicFamily instrument.val.assetClass instrument.val.tradability with
  | error e => simp
  | ok family =>
    cases hsearched : searchedEpic instrument family answers.search with
    | error e => simp [hsearched]
    | ok found =>
      cases hfetch : fetchMetadata found answers.found with
      | error e =>
        simp only [hsearched, hfetch, Except.map, reduceCtorEq, false_iff]
        rintro ⟨_, metadata, hfamily, hfound, hmetadata, _⟩
        cases hfamily
        cases hsearched.symm.trans hfound
        cases hfetch.symm.trans hmetadata
      | ok metadata =>
        simp only [hsearched, hfetch, Except.map]
        constructor
        · intro h
          cases h
          exact ⟨family, metadata, rfl, hsearched, hfetch, rfl⟩
        · rintro ⟨_, metadata', hfamily, hfound, hmetadata, rfl⟩
          cases hfamily
          cases hsearched.symm.trans hfound
          cases hfetch.symm.trans hmetadata
          rfl

theorem found_of_fetch_ok {epicGuess : String} {metadata : IGMarketMetadata}
    (hguess : guessEpic instrument = .ok epicGuess)
    (hfetch : fetchMetadata epicGuess answers.guess = .ok metadata) :
    Found instrument answers epic ↔ epic = epicGuess := by
  constructor
  · rintro (⟨hepic, _⟩ | ⟨_, _, e, _, _, hepic, herror, _⟩)
    · cases hguess.symm.trans hepic
      rfl
    · cases hguess.symm.trans hepic
      cases hfetch.symm.trans herror
  · rintro rfl
    exact .inl ⟨hguess, metadata, hfetch⟩

/-- Where the look-up of the guess fails, only what the search finds is left. -/
theorem found_of_fetch_error (r : IGInstrumentResolver) {epicGuess : String} {e : ResolveError}
    (hguess : guessEpic instrument = .ok epicGuess)
    (hfetch : fetchMetadata epicGuess answers.guess = .error e) :
    Found instrument answers epic ↔ isInvalidInstrument e ∧
      ∃ r', (r.resolveViaSearch instrument answers).2 = .ok (r', epic) := by
  constructor
  · rintro (⟨hepic, metadata, hmetadata⟩ |
      ⟨family, _, _, metadata, hfamily, hepic, herror, hinvalid, honly, hmetadata⟩)
    · cases hguess.symm.trans hepic
      cases hfetch.symm.trans hmetadata
    · cases hguess.symm.trans hepic
      cases hfetch.symm.trans herror
      exact ⟨hinvalid, _, resolveViaSearch_eq_ok_iff.mpr
        ⟨family, metadata, hfamily, searchedEpic_eq_ok_iff.mpr honly, hmetadata, rfl⟩⟩
  · rintro ⟨hinvalid, r', hsearch⟩
    obtain ⟨family, metadata, hfamily, hsearched, hmetadata, _⟩ :=
      resolveViaSearch_eq_ok_iff.mp hsearch
    exact .inr ⟨family, epicGuess, e, metadata, hfamily, hguess, hfetch, hinvalid,
      searchedEpic_eq_ok_iff.mp hsearched, hmetadata⟩

/-- A resolution of an instrument that is not cached, by what its answers lead to. -/
theorem resolve_cases (r : IGInstrumentResolver) (answers : ResolveAnswers)
    (hfresh : r.epicCache.get? instrument = none) :
    (∃ e, (r.resolve instrument answers).result = .error e ∧
        (r.resolve instrument answers).resolver = r ∧ ∀ epic, ¬ Found instrument answers epic) ∨
      ∃ epic, (r.resolve instrument answers).result = .ok epic ∧
        (r.resolve instrument answers).resolver.epicCache = r.epicCache.set instrument epic ∧
        Found instrument answers epic ∧ ∀ epic', Found instrument answers epic' → epic' = epic := by
  unfold resolve
  rw [hfresh]
  cases hguess : guessEpic instrument with
  | error e =>
    refine .inl ⟨.py e, rfl, rfl, ?_⟩
    rintro epic (⟨hepic, _⟩ | ⟨_, epicGuess, _, _, _, hepic, _⟩)
    · cases hguess.symm.trans hepic
    · cases hguess.symm.trans hepic
  | ok epicGuess =>
    cases hfetch : fetchMetadata epicGuess answers.guess with
    | ok metadata =>
      refine .inr ⟨epicGuess, ?_, ?_, (found_of_fetch_ok hguess hfetch).mpr rfl,
        fun epic => (found_of_fetch_ok hguess hfetch).mp⟩
      · simp [tryResolveViaGuessThenSearch, fetchAndCacheMetadata, hfetch, Except.map]
      · simp [tryResolveViaGuessThenSearch, fetchAndCacheMetadata, hfetch, Except.map]
    | error e =>
      have htry : r.tryResolveViaGuessThenSearch instrument epicGuess answers =
          if isInvalidInstrument e then
            (.market epicGuess :: (r.resolveViaSearch instrument answers).1,
              (r.resolveViaSearch instrument answers).2)
          else ([.market epicGuess], .error e) := by
        simp [tryResolveViaGuessThenSearch, fetchAndCacheMetadata, hfetch, Except.map]
      by_cases hinvalid : isInvalidInstrument e
      · rw [if_pos hinvalid] at htry
        cases hsearch : (r.resolveViaSearch instrument answers).2 with
        | error e' =>
          refine .inl ⟨e', by simp [htry, hsearch], by simp [htry, hsearch], ?_⟩
          intro epic hfound
          obtain ⟨_, r', hok⟩ := (found_of_fetch_error r hguess hfetch).mp hfound
          cases hsearch.symm.trans hok
        | ok found =>
          obtain ⟨r', epic⟩ := found
          obtain ⟨_, _, _, _, _, rfl⟩ := resolveViaSearch_eq_ok_iff.mp hsearch
          refine .inr ⟨epic, by simp [htry, hsearch], by simp [htry, hsearch],
            (found_of_fetch_error r hguess hfetch).mpr ⟨hinvalid, _, hsearch⟩, ?_⟩
          intro epic' hfound
          obtain ⟨_, r'', hok⟩ := (found_of_fetch_error r hguess hfetch).mp hfound
          cases hsearch.symm.trans hok
          rfl
      · rw [if_neg hinvalid] at htry
        refine .inl ⟨e, by simp [htry], by simp [htry], ?_⟩
        intro epic hfound
        exact hinvalid ((found_of_fetch_error r hguess hfetch).mp hfound).1

/-- What the answers lead to is an epic of the instrument exactly when they name it. -/
theorem answersName_iff :
    AnswersName instrument answers ↔
      ∀ epic, Found instrument answers epic → EpicMatches instrument epic := by
  constructor
  · rintro h epic (⟨hguess, metadata, hfetch⟩ |
      ⟨family, epicGuess, e, metadata, hfamily, hguess, hfetch, hinvalid, honly, hmetadata⟩)
    · obtain ⟨family, _, hfamily, _⟩ := guessEpic_chars hguess
      have hnames := h family epic hfamily hguess
      rw [hfetch] at hnames
      exact (guessEpic_matches_iff hguess).mpr hnames
    · have hnames := h family epicGuess hfamily hguess
      rw [hfetch] at hnames
      exact (onlyCandidate_matches_iff hfamily honly).mpr
        (hnames hinvalid epic metadata honly hmetadata)
  · intro h family epicGuess hfamily hguess
    split
    · rename_i metadata hfetch
      exact (guessEpic_matches_iff hguess).mp (h epicGuess (.inl ⟨hguess, metadata, hfetch⟩))
    · rename_i e hfetch
      intro hinvalid epic metadata honly hmetadata
      have hfound : Found instrument answers epic := .inr
        ⟨family, epicGuess, e, metadata, hfamily, hguess, hfetch, hinvalid, honly, hmetadata⟩
      exact (onlyCandidate_matches_iff hfamily honly).mp (h epic hfound)

/-! ## The cache over calls -/

/-- The call clears the entry of the instrument. -/
def Call.Clears (instrument : Instrument) : Call → Prop
  | .clearCache none => True
  | .clearCache (some other) => other = instrument
  | .resolve .. | .marketMetadata .. | .precisionFor .. => False

theorem resolve_epicCache (r : IGInstrumentResolver) (instrument : Instrument)
    (answers : ResolveAnswers) :
    (r.resolve instrument answers).resolver.epicCache = r.epicCache ∨
      (r.epicCache.get? instrument = none ∧ ∃ epic, Found instrument answers epic ∧
        (r.resolve instrument answers).resolver.epicCache = r.epicCache.set instrument epic) := by
  cases hcached : r.epicCache.get? instrument with
  | some epic =>
    rw [resolve_cached hcached]
    exact .inl rfl
  | none =>
    rcases resolve_cases r answers hcached with ⟨_, _, hr, _⟩ | ⟨epic, _, hcache, hfound, _⟩
    · exact .inl (congrArg epicCache hr)
    · exact .inr ⟨rfl, epic, hfound, hcache⟩

theorem marketMetadata_epicCache (r : IGInstrumentResolver) (instrument : Instrument)
    (answers : ResolveAnswers) (metadata : Except RequestError Json) :
    (r.marketMetadata instrument answers metadata).resolver.epicCache =
      (r.resolve instrument answers).resolver.epicCache := by
  unfold marketMetadata
  dsimp only
  split
  · rfl
  · split
    · rfl
    · split <;> rfl

/-- The resolution in a call, if there is one. -/
def Call.resolution? : Call → Option (Instrument × ResolveAnswers)
  | .resolve instrument answers => some (instrument, answers)
  | .marketMetadata instrument answers _ => some (instrument, answers)
  | .precisionFor instrument answers _ =>
      if instrument.val.tradability = .spot then none else some (instrument, answers)
  | .clearCache _ => none

/-- What a call does to the epic cache: nothing, or it enters what its resolution finds, or it
clears. -/
theorem step_epicCache {call : Call} (h : r.step call = some r') :
    r'.epicCache = r.epicCache ∨
      (∃ instrument answers epic, call.resolution? = some (instrument, answers) ∧
        r.epicCache.get? instrument = none ∧ Found instrument answers epic ∧
        r'.epicCache = r.epicCache.set instrument epic) ∨
      (∃ instrument, call = .clearCache (some instrument) ∧
        r'.epicCache = r.epicCache.erase instrument) ∨
      (call = .clearCache none ∧ r'.epicCache = .empty) := by
  have hresolve : ∀ instrument answers, call.resolution? = some (instrument, answers) →
      r'.epicCache = (r.resolve instrument answers).resolver.epicCache →
      r'.epicCache = r.epicCache ∨ ∃ instrument answers epic,
        call.resolution? = some (instrument, answers) ∧ r.epicCache.get? instrument = none ∧
          Found instrument answers epic ∧ r'.epicCache = r.epicCache.set instrument epic := by
    intro instrument answers hcall hcache
    rcases resolve_epicCache r instrument answers with hkept | ⟨hfresh, epic, hfound, hset⟩
    · exact .inl (hcache.trans hkept)
    · exact .inr ⟨instrument, answers, epic, hcall, hfresh, hfound, hcache.trans hset⟩
  cases call with
  | resolve instrument answers =>
    cases h
    rcases hresolve instrument answers rfl rfl with hkept | hentered
    · exact .inl hkept
    · exact .inr (.inl hentered)
  | marketMetadata instrument answers metadata =>
    cases h
    rcases hresolve instrument answers rfl (marketMetadata_epicCache ..) with hkept | hentered
    · exact .inl hkept
    · exact .inr (.inl hentered)
  | precisionFor instrument answers metadata =>
    cases h
    by_cases hspot : instrument.val.tradability = .spot
    · exact .inl (by simp [precisionFor, hspot])
    · have hcache : (r.precisionFor instrument answers metadata).resolver.epicCache =
          (r.resolve instrument answers).resolver.epicCache := by
        simp only [precisionFor, if_neg hspot]
        exact marketMetadata_epicCache ..
      rcases hresolve instrument answers (by simp [Call.resolution?, hspot]) hcache with
        hkept | hentered
      · exact .inl hkept
      · exact .inr (.inl hentered)
  | clearCache instrument =>
    cases h
    cases instrument with
    | none => exact .inr (.inr (.inr ⟨rfl, rfl⟩))
    | some instrument =>
      simp only [clearCache]
      split
      · exact .inl rfl
      · exact .inr (.inr (.inl ⟨instrument, rfl, rfl⟩))

/-- A call that does not clear the entry of an instrument keeps it. -/
theorem step_keeps {call : Call} (hkeep : ¬ call.Clears instrument)
    (hcached : r.epicCache.get? instrument = some epic) (h : r.step call = some r') :
    r'.epicCache.get? instrument = some epic := by
  rcases step_epicCache h with hkept | ⟨other, _, found, _, hfresh, _, hset⟩ |
    ⟨other, rfl, herased⟩ | ⟨rfl, _⟩
  · rw [hkept, hcached]
  · have hne : instrument ≠ other := by
      rintro rfl
      cases hfresh.symm.trans hcached
    rw [hset, Dict.get?_set, if_neg hne, hcached]
  · have hne : instrument ≠ other := fun heq => hkeep heq.symm
    rw [herased, Dict.get?_erase, if_neg hne, hcached]
  · exact absurd trivial hkeep

theorem run_keeps {calls : List Call} (hkeep : ∀ call ∈ calls, ¬ call.Clears instrument)
    (hcached : r.epicCache.get? instrument = some epic) (hrun : run step r calls = some r') :
    r'.epicCache.get? instrument = some epic := by
  induction calls generalizing r with
  | nil =>
    cases hrun
    exact hcached
  | cons call calls ih =>
    obtain ⟨m, hm, hrest⟩ := run_cons_eq_some.mp hrun
    have hm' := step_keeps (hkeep call List.mem_cons_self) hcached hm
    exact ih (fun c hc => hkeep c (List.mem_cons_of_mem _ hc)) hm' hrest

/-- What is wanted of a resolution: it returns an epic of the instrument and the same one again
without a request, until the entry is cleared, or it raises and the cache does not map the
instrument. -/
def ResolvesSafely (r : IGInstrumentResolver) (instrument : Instrument)
    (answers : ResolveAnswers) : Prop :=
  match (r.resolve instrument answers).result with
  | .ok epic => EpicMatches instrument epic ∧
      ∀ calls r', (∀ call ∈ calls, ¬ call.Clears instrument) →
        run step (r.resolve instrument answers).resolver calls = some r' →
          ∀ answers', r'.resolve instrument answers' = ⟨r', [], .ok epic⟩
  | .error _ => (r.resolve instrument answers).resolver.epicCache.get? instrument = none

/-- The condition on a resolution: where the instrument is not cached its answers name it. -/
def SafeResolution (r : IGInstrumentResolver) (call : Call) : Prop :=
  ∀ instrument answers, call.resolution? = some (instrument, answers) →
    r.epicCache.get? instrument = none → AnswersName instrument answers

theorem resolvesSafely_of_cached (hcached : r.epicCache.get? instrument = some epic)
    (hmatches : EpicMatches instrument epic) (answers : ResolveAnswers) :
    r.ResolvesSafely instrument answers := by
  unfold ResolvesSafely
  rw [resolve_cached hcached]
  refine ⟨hmatches, ?_⟩
  intro calls r' hkeep hrun answers'
  exact resolve_cached (run_keeps hkeep hcached hrun) answers'

theorem resolvesSafely_iff_of_fresh (hfresh : r.epicCache.get? instrument = none) :
    r.ResolvesSafely instrument answers ↔ AnswersName instrument answers := by
  rw [answersName_iff]
  unfold ResolvesSafely
  rcases resolve_cases r answers hfresh with ⟨e, hresult, hr, hnone⟩ |
    ⟨epic, hresult, hcache, hfound, honly⟩
  · rw [hresult, hr]
    exact iff_of_true hfresh fun epic hfound => absurd hfound (hnone epic)
  · have hcached : (r.resolve instrument answers).resolver.epicCache.get? instrument =
        some epic := by
      rw [hcache, Dict.get?_set, if_pos rfl]
    rw [hresult]
    constructor
    · rintro ⟨hmatches, _⟩ epic' hfound'
      rw [honly epic' hfound']
      exact hmatches
    · intro h
      refine ⟨h epic hfound, ?_⟩
      intro calls r' hkeep hrun answers'
      exact resolve_cached (run_keeps hkeep hcached hrun) answers'

/-- Every entry of the cache is an epic of its instrument. -/
def CacheMatches (r : IGInstrumentResolver) : Prop :=
  ∀ instrument epic, r.epicCache.get? instrument = some epic → EpicMatches instrument epic

theorem step_cacheMatches {call : Call} (hr : r.CacheMatches) (hsafe : r.SafeResolution call)
    (h : r.step call = some r') : r'.CacheMatches := by
  intro instrument epic hcached
  rcases step_epicCache h with hkept | ⟨other, answers, found, hcall, hfresh, hfound, hset⟩ |
    ⟨other, rfl, herased⟩ | ⟨rfl, hempty⟩
  · rw [hkept] at hcached
    exact hr instrument epic hcached
  · rw [hset, Dict.get?_set] at hcached
    split at hcached
    · rename_i heq
      cases hcached
      rw [heq]
      exact answersName_iff.mp (hsafe other answers hcall hfresh) _ hfound
    · exact hr instrument epic hcached
  · rw [herased, Dict.get?_erase] at hcached
    split at hcached
    · cases hcached
    · exact hr instrument epic hcached
  · rw [hempty, Dict.get?_empty] at hcached
    cases hcached

theorem run_cacheMatches {calls : List Call} (hsafe : Along step SafeResolution empty calls)
    (hrun : run step empty calls = some r) : r.CacheMatches := by
  have hempty : empty.CacheMatches := by
    intro instrument epic hcached
    cases (Dict.get?_empty instrument).symm.trans hcached
  exact run_invariant_along (fun _ _ _ hs hsafe h => step_cacheMatches hs hsafe h) hempty hsafe hrun

end IGInstrumentResolver

open IGInstrumentResolver in
/-- A resolution of an instrument that is not cached is safe if and only if its answers name the
instrument. After calls whose resolutions all meet this condition the same is true of an
instrument that may be cached. -/
theorem resolve_safe (instrument : Instrument) (answers : ResolveAnswers) :
    (∀ r : IGInstrumentResolver, r.epicCache.get? instrument = none →
      (r.ResolvesSafely instrument answers ↔ AnswersName instrument answers)) ∧
    ∀ (calls : List Call) (r : IGInstrumentResolver), run step empty calls = some r →
      Along step SafeResolution empty calls →
        (r.ResolvesSafely instrument answers ↔
          r.SafeResolution (.resolve instrument answers)) := by
  refine ⟨fun r hfresh => resolvesSafely_iff_of_fresh hfresh, fun calls r hrun hsafe => ?_⟩
  cases hcached : r.epicCache.get? instrument with
  | none =>
    constructor
    · rintro hresolves _ _ ⟨⟩ _
      exact (resolvesSafely_iff_of_fresh hcached).mp hresolves
    · intro hresolution
      exact (resolvesSafely_iff_of_fresh hcached).mpr (hresolution _ _ rfl hcached)
  | some epic =>
    constructor
    · rintro _ _ _ ⟨⟩ hfresh
      cases hfresh.symm.trans hcached
    · intro _
      exact resolvesSafely_of_cached hcached (run_cacheMatches hsafe hrun instrument epic hcached)
        answers

/-! ## Runs on fixed values -/

/-- The index that the bridge trades. -/
def cacIndex : Instrument :=
  ⟨⟨"CAC40", "IG", "EUR", .index, 1, .cfd⟩, by decide +kernel⟩

def indexMarket (name : String) : Json :=
  .dict [("instrument", .dict [("name", .str name),
      ("currencies", .list [.dict [("code", .str "EUR")]]), ("lotSize", .int 1)]),
    ("dealingRules", .dict [("minDealSize", .dict [("value", .float "0.5")])])]

/-- IG does not know the guess. -/
def unknownInstrument : RequestError :=
  .ig ⟨.requestInvalid, "IG request returned HTTP ", some "error.invalid.instrument", some 404⟩

/-- The look-up of the guess succeeds. -/
def directAnswers : ResolveAnswers :=
  ⟨.ok (indexMarket "France 40"), .error unknownInstrument, .error unknownInstrument⟩

/-- The guess is unknown, and the search knows one index, which is another one. -/
def foreignAnswers : ResolveAnswers where
  guess := .error unknownInstrument
  search := .ok (.dict [("markets", .list [.dict [("epic", .str "IX.D.FTSE.CASH.IP")]])])
  found := .ok (indexMarket "FTSE 100")

theorem resolve_safe_direct :
    IGInstrumentResolver.empty.ResolvesSafely cacIndex directAnswers ↔
      AnswersName cacIndex directAnswers :=
  (resolve_safe cacIndex directAnswers).1 .empty (Dict.get?_empty cacIndex)

/-- `CAC40` is resolved to the epic of another index. -/
theorem not_resolve_safe : ¬ ∀ (instrument : Instrument) (answers : ResolveAnswers),
    (∃ epicGuess, guessEpic instrument = .ok epicGuess) →
      IGInstrumentResolver.empty.ResolvesSafely instrument answers := by
  intro h
  have hsafe := h cacIndex foreignAnswers (exists_ok_of_isSome (by decide +kernel))
  have hresult : (IGInstrumentResolver.empty.resolve cacIndex foreignAnswers).result.toOption =
      some "IX.D.FTSE.CASH.IP" := by
    decide +kernel
  unfold IGInstrumentResolver.ResolvesSafely at hsafe
  cases houtcome : (IGInstrumentResolver.empty.resolve cacIndex foreignAnswers).result with
  | error e =>
    rw [houtcome] at hresult
    cases hresult
  | ok epic =>
    rw [houtcome] at hsafe hresult
    cases hresult
    exact absurd hsafe.1.symbol (by decide +kernel)

end Blive
