import Blive.Strategy.Loader

/-!
# What a spec id identifies

Two loads get the same spec id just when the bytes of the YAML file, the strategy module, the
versions and the contents of the artefacts are the same, as long as no two of the texts they hash
have one digest. Neither the paths of the artefacts nor the order of the factors enter.
-/

namespace Blive.Loader

open JsonText

/-! ## The document -/

theorem encode_inj {text text' : List Char} (h : Printable text) (h' : Printable text')
    (heq : encode text = encode text') : text = text' := by
  induction text generalizing text' with
  | nil => exact (List.map_eq_nil_iff.mp heq.symm).symm
  | cons c text ih =>
    obtain ⟨c', rest, rfl, hc, hrest⟩ := List.map_eq_cons_iff.mp heq.symm
    obtain ⟨hrange, htext⟩ := printable_cons.mp h
    obtain ⟨hrange', hrest'⟩ := printable_cons.mp h'
    have hnat := congrArg UInt8.toNat hc
    rw [UInt8.toNat_ofNat', UInt8.toNat_ofNat'] at hnat
    have hchar : c = c' := Char.toNat_inj.mp (by omega)
    rw [hchar, ih htext hrest' hrest.symm]

section Document

variable (sha256 : Bytes → String)

theorem nodup_fields (inputs : SpecInputs) : ((inputs.fields sha256).map Prod.fst).Nodup := by
  simp only [SpecInputs.fields, List.map_cons, List.map_nil]
  decide

theorem writable_payload (inputs : SpecInputs) : Writable (inputs.payload sha256) := by
  have hartefacts : Writable (sortedDict id .str inputs.artefactSha256ByFactor) :=
    writable_sortedDict Function.injective_id fun _ _ => trivial
  refine writable_ofList (nodup_fields sha256 inputs) ?_
  simp [SpecInputs.fields, Writable, hartefacts]

/-- The parts of two documents agree, the bytes of the YAML file up to their digest. -/
structure SameDocument (inputs inputs' : SpecInputs) : Prop where
  yaml : sha256 inputs.canonicalYamlBytes = sha256 inputs'.canonicalYamlBytes
  strategyModule : inputs.strategyModule = inputs'.strategyModule
  btestVersion : inputs.btestVersion = inputs'.btestVersion
  bliveVersion : inputs.bliveVersion = inputs'.bliveVersion
  artefacts : ∀ name, inputs.artefactSha256ByFactor.get? name =
    inputs'.artefactSha256ByFactor.get? name

theorem payload_eq_iff {inputs inputs' : SpecInputs} :
    inputs.payload sha256 = inputs'.payload sha256 ↔ SameDocument sha256 inputs inputs' := by
  have hfields : inputs.payload sha256 = inputs'.payload sha256 ↔
      inputs.fields sha256 = inputs'.fields sha256 :=
    sortedDict_ofList_eq_iff rfl (nodup_fields sha256 inputs)
  rw [hfields]
  simp only [SpecInputs.fields, List.cons.injEq, Prod.mk.injEq, true_and, and_true,
    Json.str.injEq, sortedDict_str_eq_iff]
  constructor
  · rintro ⟨h1, h2, h3, h4, h5⟩
    exact ⟨h1, h2, h3, h4, h5⟩
  · rintro ⟨h1, h2, h3, h4, h5⟩
    exact ⟨h1, h2, h3, h4, h5⟩

theorem serialised_eq_iff {inputs inputs' : SpecInputs} :
    inputs.serialised sha256 = inputs'.serialised sha256 ↔ SameDocument sha256 inputs inputs' := by
  rw [← payload_eq_iff]
  constructor
  · intro h
    have hprintable (inputs : SpecInputs) :=
      printable_dumps .compact _ (writable_payload sha256 inputs)
    exact dumps_inj (writable_payload sha256 inputs) (writable_payload sha256 inputs')
      (encode_inj (hprintable inputs) (hprintable inputs') h)
  · intro h
    rw [SpecInputs.serialised, SpecInputs.serialised, h]

theorem head_serialised (inputs : SpecInputs) :
    ∃ rest, inputs.serialised sha256 = 123 :: rest := by
  have hbrace (items : List (String × Json)) : ∃ rest, dumps .compact (.dict items) =
      '\x7b' :: rest := by
    cases items <;> exact ⟨_, rfl⟩
  obtain ⟨rest, hrest⟩ := hbrace
    ((sortedItems (Dict.ofList (inputs.fields sha256))).map fun item => (item.1, item.2))
  refine ⟨encode rest, ?_⟩
  exact congrArg encode hrest

/-- No two of the texts have one digest. -/
def NoCollision (hashed : List Bytes) : Prop :=
  ∀ a ∈ hashed, ∀ b ∈ hashed, sha256 a = sha256 b → a = b

end Document

/-! ## The artefacts -/

section Artefacts

variable {φ σ : Type} {entry : String → Option Entry}

theorem require_eq_ok_iff {p : Prop} [Decidable p] {e : LoadError} {u : Unit} :
    require p e = .ok u ↔ p := by
  unfold require
  split <;> simp_all

theorem applyOverride_eq_ok {factors factors' : Dict String (Factor φ)}
    {override : String × String} (h : applyOverride entry factors override = .ok factors') :
    ∃ factor, factors.get? override.1 = some factor ∧
      factors' = factors.set override.1 { factor with path := some (some override.2) } := by
  unfold applyOverride at h
  obtain ⟨-, -, h⟩ := bind_eq_ok_iff.mp h
  cases hfactor : factors.get? override.1 with
  | none =>
    rw [hfactor] at h
    cases h
  | some factor =>
    rw [hfactor] at h
    obtain ⟨-, -, h⟩ := bind_eq_ok_iff.mp h
    exact ⟨factor, rfl, (Except.ok.inj h).symm⟩

/-- The factors after the overrides: the paths of the named ones, and nothing else, have changed. -/
theorem get?_foldlM_applyOverride {items : List (String × String)}
    (hnodup : (items.map Prod.fst).Nodup) {factors factors' : Dict String (Factor φ)}
    (h : items.foldlM (applyOverride entry) factors = .ok factors') (name : String) :
    factors'.get? name = (factors.get? name).map fun factor =>
      match Dict.lookupItems name items with
      | none => factor
      | some path => { factor with path := some (some path) } := by
  induction items generalizing factors with
  | nil =>
    cases h
    exact Option.map_id'.symm
  | cons item items ih =>
    obtain ⟨hfresh, hnodup⟩ := List.nodup_cons.mp hnodup
    obtain ⟨after, hfirst, hrest⟩ := bind_eq_ok_iff.mp (List.foldlM_cons.symm.trans h)
    obtain ⟨factor, hfactor, rfl⟩ := applyOverride_eq_ok hfirst
    rw [ih hnodup hrest, Dict.get?_set]
    by_cases hname : name = item.1
    · subst hname
      rw [if_pos rfl, hfactor, (Dict.lookupItems_eq_none_iff _ _).mpr hfresh]
      simp [Dict.lookupItems]
    · rw [if_neg hname]
      simp [Dict.lookupItems, Ne.symm hname]

theorem get?_hashExternalArtefacts (sha256 : Bytes → String) (strategy : Strategy φ σ)
    (name : String) : (hashExternalArtefacts entry sha256 strategy).get? name =
      ((strategy.factors.get? name).bind (Factor.content entry)).map sha256 := by
  have hfold (items : List (String × Factor φ)) (hnodup : (items.map Prod.fst).Nodup)
      (result : Dict String String) :
      (items.foldl (hashArtefact entry sha256) result).get? name =
      (((Dict.lookupItems name items).bind (Factor.content entry)).map sha256).or
        (result.get? name) := by
    induction items generalizing result with
    | nil => rfl
    | cons item items ih =>
      obtain ⟨hfresh, hnodup⟩ := List.nodup_cons.mp hnodup
      rw [List.foldl_cons, ih hnodup]
      by_cases hname : item.1 = name
      · subst hname
        rw [(Dict.lookupItems_eq_none_iff _ _).mpr hfresh]
        cases hcontent : item.2.content entry <;>
          simp [hashArtefact, Dict.lookupItems, hcontent]
      · cases hcontent : item.2.content entry <;>
          simp [hashArtefact, Dict.lookupItems, hcontent, hname, Ne.symm hname]
  rw [hashExternalArtefacts, hfold _ strategy.factors.nodup, Dict.get?_empty, Option.or_none]
  rfl

end Artefacts

/-! ## A load -/

variable {ν κ φ σ : Type} {sha256 : Bytes → String}

/-- The content of the artefact a factor of the strategy refers to. -/
def World.artefact (world : World ν κ φ σ) (strategy : Strategy φ σ) (name : String) :
    Option Bytes :=
  (strategy.factors.get? name).bind (Factor.content world.entry)

/-- What a load that returned went through: the bytes of the YAML file, and the strategy as its
module built it. -/
structure World.Loads (world : World ν κ φ σ) (sha256 : Bytes → String) (yamlPath : String)
    (live : LiveStrategy κ φ σ) (raw : Bytes) (built : Strategy φ σ) : Prop where
  file : world.entry (world.resolve yamlPath) = some (.file raw)
  config : ∃ parsed, world.safeLoad raw = .ok (some parsed) ∧
    world.liveStrategyConfig parsed = .ok live.liveConfig
  directory : parentName (world.resolve yamlPath) = live.liveConfig.config.val.strategyId
  builds : ∃ builder, world.importModule live.liveConfig.strategyModule = .ok (some builder) ∧
    builder live.liveConfig.buildStrategyKwargs = .ok built
  overrides : applyArtefactOverrides world.entry built
    live.liveConfig.config.val.artefactPaths = .ok live.strategy
  specId : live.specId = computeSpecId sha256
    (world.specInputs sha256 raw live.liveConfig live.strategy)
  artefacts : live.artefactSha256ByFactor =
    hashExternalArtefacts world.entry sha256 live.strategy

theorem loads_of_ok {world : World ν κ φ σ} {yamlPath : String} {live : LiveStrategy κ φ σ}
    (h : world.loadLiveStrategy sha256 yamlPath = .ok live) :
    ∃ raw built, world.Loads sha256 yamlPath live raw built := by
  unfold World.loadLiveStrategy at h
  dsimp only at h
  split at h
  · rename_i raw hfile
    unfold World.loadFrom at h
    obtain ⟨parsed, hparsed, h⟩ := bind_eq_ok_iff.mp h
    cases parsed with
    | none => cases h
    | some parsed =>
      obtain ⟨cfg, hcfg, h⟩ := bind_eq_ok_iff.mp h
      obtain ⟨u, hdirectory, h⟩ := bind_eq_ok_iff.mp h
      obtain ⟨module, hmodule, h⟩ := bind_eq_ok_iff.mp h
      cases module with
      | none => cases h
      | some builder =>
        obtain ⟨built, hbuilt, h⟩ := bind_eq_ok_iff.mp h
        obtain ⟨strategy, hstrategy, h⟩ := bind_eq_ok_iff.mp h
        cases h
        exact ⟨raw, built, hfile, ⟨parsed, mapError_eq_ok_iff.mp hparsed,
          mapError_eq_ok_iff.mp hcfg⟩, require_eq_ok_iff.mp hdirectory,
          ⟨builder, mapError_eq_ok_iff.mp hmodule, mapError_eq_ok_iff.mp hbuilt⟩, hstrategy, rfl,
          rfl⟩
  · cases h

theorem World.Loads.ok {world : World ν κ φ σ} {yamlPath : String} {live : LiveStrategy κ φ σ}
    {raw : Bytes} {built : Strategy φ σ} (h : world.Loads sha256 yamlPath live raw built) :
    world.loadLiveStrategy sha256 yamlPath = .ok live := by
  obtain ⟨parsed, hparsed, hcfg⟩ := h.config
  obtain ⟨builder, hbuilder, hbuilt⟩ := h.builds
  have hload : world.loadFrom sha256 (world.resolve yamlPath) raw = .ok live := by
    unfold World.loadFrom
    refine bind_eq_ok_iff.mpr ⟨some parsed, mapError_eq_ok_iff.mpr hparsed, ?_⟩
    refine bind_eq_ok_iff.mpr ⟨live.liveConfig, mapError_eq_ok_iff.mpr hcfg, ?_⟩
    refine bind_eq_ok_iff.mpr ⟨(), require_eq_ok_iff.mpr h.directory, ?_⟩
    refine bind_eq_ok_iff.mpr ⟨some builder, mapError_eq_ok_iff.mpr hbuilder, ?_⟩
    refine bind_eq_ok_iff.mpr ⟨built, mapError_eq_ok_iff.mpr hbuilt, ?_⟩
    refine bind_eq_ok_iff.mpr ⟨live.strategy, h.overrides, ?_⟩
    have hartefacts : (world.specInputs sha256 raw live.liveConfig
        live.strategy).artefactSha256ByFactor = live.artefactSha256ByFactor := h.artefacts.symm
    dsimp only
    rw [← h.specId, hartefacts]
    rfl
  rw [World.loadLiveStrategy]
  simp only [h.file, hload]

theorem get?_applyArtefactOverrides {entry : String → Option Entry} {built strategy : Strategy φ σ}
    {overrides : Dict String String}
    (h : applyArtefactOverrides entry built overrides = .ok strategy) (name : String) :
    strategy.factors.get? name = (built.factors.get? name).map fun factor =>
      match overrides.get? name with
      | none => factor
      | some path => { factor with path := some (some path) } := by
  unfold applyArtefactOverrides at h
  split at h
  · rename_i hempty
    cases h
    have hnone : overrides.get? name = none := by rw [Dict.get?, hempty, Dict.lookupItems]
    rw [hnone]
    exact Option.map_id'.symm
  · obtain ⟨-, -, h⟩ := bind_eq_ok_iff.mp h
    obtain ⟨factors, hfactors, h⟩ := bind_eq_ok_iff.mp h
    cases h
    exact get?_foldlM_applyOverride overrides.nodup hfactors name

theorem rest_applyArtefactOverrides {entry : String → Option Entry} {built strategy : Strategy φ σ}
    {overrides : Dict String String}
    (h : applyArtefactOverrides entry built overrides = .ok strategy) :
    strategy.rest = built.rest := by
  unfold applyArtefactOverrides at h
  split at h
  · cases h
    rfl
  · obtain ⟨-, -, h⟩ := bind_eq_ok_iff.mp h
    obtain ⟨factors, -, h⟩ := bind_eq_ok_iff.mp h
    cases h
    rfl

/-- A loaded strategy is the one its module built, with the paths of the overridden factors
replaced and nothing else changed, and each digest is the one of the file the path of the factor
leads to now. -/
theorem load_live_strategy_artefacts {world : World ν κ φ σ} {yamlPath : String}
    {live : LiveStrategy κ φ σ} (h : world.loadLiveStrategy sha256 yamlPath = .ok live) :
    ∃ builder built, world.importModule live.liveConfig.strategyModule = .ok (some builder) ∧
      builder live.liveConfig.buildStrategyKwargs = .ok built ∧
      live.strategy.rest = built.rest ∧ ∀ name,
        (live.strategy.factors.get? name = (built.factors.get? name).map fun factor =>
          match live.liveConfig.config.val.artefactPaths.get? name with
          | none => factor
          | some path => { factor with path := some (some path) }) ∧
        live.artefactSha256ByFactor.get? name =
          (world.artefact live.strategy name).map sha256 := by
  obtain ⟨raw, built, hload⟩ := loads_of_ok h
  obtain ⟨builder, hbuilder, hbuilt⟩ := hload.builds
  refine ⟨builder, built, hbuilder, hbuilt, rest_applyArtefactOverrides hload.overrides,
    fun name => ⟨?_, ?_⟩⟩
  · exact get?_applyArtefactOverrides hload.overrides name
  · rw [hload.artefacts, get?_hashExternalArtefacts]
    rfl

/-! ## Two loads -/

/-- The bytes of the YAML file. -/
def World.yamlBytes (world : World ν κ φ σ) (yamlPath : String) : Bytes :=
  match world.entry (world.resolve yamlPath) with
  | some (.file raw) => raw
  | _ => []

/-- Every text a load hashes: the YAML file, the artefacts and the document of the spec id. -/
def World.hashed (world : World ν κ φ σ) (sha256 : Bytes → String) (yamlPath : String)
    (live : LiveStrategy κ φ σ) : List Bytes :=
  world.yamlBytes yamlPath ::
    (world.specInputs sha256 (world.yamlBytes yamlPath) live.liveConfig live.strategy).serialised
      sha256 ::
    live.strategy.factors.items.filterMap fun item => item.2.content world.entry

theorem World.Loads.yamlBytes_eq {world : World ν κ φ σ} {yamlPath : String}
    {live : LiveStrategy κ φ σ} {raw : Bytes} {built : Strategy φ σ}
    (h : world.Loads sha256 yamlPath live raw built) : world.yamlBytes yamlPath = raw := by
  rw [World.yamlBytes, h.file]

theorem World.mem_hashed {world : World ν κ φ σ} {yamlPath : String} {live : LiveStrategy κ φ σ}
    {name : String} {content : Bytes} (h : world.artefact live.strategy name = some content) :
    content ∈ world.hashed sha256 yamlPath live := by
  obtain ⟨factor, hfactor, hcontent⟩ := Option.bind_eq_some_iff.mp h
  refine List.mem_cons_of_mem _ (List.mem_cons_of_mem _ (List.mem_filterMap.mpr ?_))
  exact ⟨(name, factor), Dict.get?_eq_some_iff.mp hfactor, hcontent⟩

/-- The spec id identifies the bytes of the YAML file, the module, the versions and the contents of
the artefacts. -/
theorem spec_id_eq_iff {world world' : World ν κ φ σ} {yamlPath yamlPath' : String}
    {live live' : LiveStrategy κ φ σ}
    (h : world.loadLiveStrategy sha256 yamlPath = .ok live)
    (h' : world'.loadLiveStrategy sha256 yamlPath' = .ok live')
    (hsafe : NoCollision sha256
      (world.hashed sha256 yamlPath live ++ world'.hashed sha256 yamlPath' live')) :
    live.specId = live'.specId ↔
      world.yamlBytes yamlPath = world'.yamlBytes yamlPath' ∧
      live.liveConfig.strategyModule = live'.liveConfig.strategyModule ∧
      world.btestVersion.getD "unknown" = world'.btestVersion.getD "unknown" ∧
      world.bliveVersion.getD "unknown" = world'.bliveVersion.getD "unknown" ∧
      ∀ name, world.artefact live.strategy name = world'.artefact live'.strategy name := by
  obtain ⟨raw, built, hload⟩ := loads_of_ok h
  obtain ⟨raw', built', hload'⟩ := loads_of_ok h'
  obtain rfl := hload.yamlBytes_eq
  obtain rfl := hload'.yamlBytes_eq
  -- The two ids are digests of the documents, and these have no collision.
  have hid : live.specId = live'.specId ↔ SameDocument sha256
      (world.specInputs sha256 (world.yamlBytes yamlPath) live.liveConfig live.strategy)
      (world'.specInputs sha256 (world'.yamlBytes yamlPath') live'.liveConfig live'.strategy) := by
    rw [hload.specId, hload'.specId, ← serialised_eq_iff, computeSpecId, computeSpecId]
    refine ⟨hsafe _ (List.mem_append_left _ ?_) _ (List.mem_append_right _ ?_), congrArg sha256⟩
    · exact List.mem_cons_of_mem _ List.mem_cons_self
    · exact List.mem_cons_of_mem _ List.mem_cons_self
  have hartefacts : (∀ name, (world.artefact live.strategy name).map sha256 =
      (world'.artefact live'.strategy name).map sha256) ↔
      ∀ name, world.artefact live.strategy name = world'.artefact live'.strategy name := by
    refine forall_congr' fun name => ⟨fun heq => ?_, congrArg (Option.map sha256)⟩
    cases hcontent : world.artefact live.strategy name with
    | none =>
      rw [hcontent] at heq
      exact (Option.map_eq_none_iff.mp heq.symm).symm
    | some content =>
      rw [hcontent] at heq
      obtain ⟨content', hcontent', hdigest⟩ := Option.map_eq_some_iff.mp heq.symm
      rw [hcontent', hsafe content (List.mem_append_left _ (World.mem_hashed hcontent)) content'
        (List.mem_append_right _ (World.mem_hashed hcontent')) hdigest.symm]
  rw [hid, ← hartefacts]
  constructor
  · intro hsame
    refine ⟨hsafe _ (List.mem_append_left _ List.mem_cons_self) _
      (List.mem_append_right _ List.mem_cons_self) hsame.yaml, hsame.strategyModule,
      hsame.btestVersion, hsame.bliveVersion, fun name => ?_⟩
    have hname := hsame.artefacts name
    rwa [World.specInputs, World.specInputs, get?_hashExternalArtefacts,
      get?_hashExternalArtefacts] at hname
  · rintro ⟨hyaml, hmodule, hbtest, hblive, hcontents⟩
    refine ⟨congrArg sha256 hyaml, hmodule, hbtest, hblive, fun name => ?_⟩
    rw [World.specInputs, World.specInputs, get?_hashExternalArtefacts,
      get?_hashExternalArtefacts]
    exact hcontents name

/-! ### A load of the same artefact from two places -/

/-- The text of `live.yaml`. -/
def trendYaml : Bytes :=
  encode "strategy_id: trend\nstrategy_module: btest.strategies.trend\nnav_slice: '0.05'\n".toList

/-- The text of `live.yaml` of a strategy whose model has moved. -/
def trendMovedYaml : Bytes :=
  trendYaml ++ encode "artefact_paths:\n  paths:\n    model: /data/b.bin\n".toList

/-- The bytes of the model. -/
def trendModel : Bytes := [0, 1]

def trendConfig : LoadedConfig Unit where
  config := ⟨⟨"trend", 1 / 20, Dict.empty, RiskOverrides.default⟩, by decide +kernel⟩
  strategyModule := "btest.strategies.trend"
  buildStrategyKwargs := ()

def trendMovedConfig : LoadedConfig Unit where
  config := ⟨⟨"trend", 1 / 20, Dict.ofList [("model", "/data/b.bin")], RiskOverrides.default⟩,
    by decide +kernel⟩
  strategyModule := "btest.strategies.trend"
  buildStrategyKwargs := ()

/-- A strategy with one model, at the path, and one factor without a path. -/
def trendStrategy (path : String) : Strategy Unit Unit :=
  ⟨Dict.ofList [("model", ⟨"ExternalFactor", some (some path), ()⟩), ("mean", ⟨"SMA", none, ()⟩)],
    ()⟩

/-- Every path but the one of the YAML file leads to the model. -/
def trendWorld (yaml : Bytes) (config : LoadedConfig Unit) (path : String) :
    World Unit Unit Unit Unit where
  resolve := id
  entry p := some (.file (if p = "/s/trend/live.yaml" then yaml else trendModel))
  safeLoad _ := .ok (some ())
  liveStrategyConfig _ := .ok config
  importModule _ := .ok (some fun _ => .ok (trendStrategy path))
  btestVersion := some "0.1.0"
  bliveVersion := some "0.1.0"

/-- The digests of the two YAML texts, of the model and of the document. -/
def trendDigests (ofDocument : String) (bytes : Bytes) : String :=
  if bytes = trendYaml then "3b1907c77f00a61981666a5e9ed22bd1bf673e07cbee78dd750612c90ecd0960"
  else if bytes = trendMovedYaml then
    "9f7046bf4cc37dadaa4887c9a5e5844c1ca7893707ac6db0db69fca693c71643"
  else if bytes = trendModel then
    "b413f47d13ee2fe6c845b2ee141af81de858df4ec549a58b7970bb96645bc8d2"
  else ofDocument

def trendSha256 : Bytes → String :=
  trendDigests "5ac6a6cecdee593f57897bb8a7331aeb66e4d8d4dfcba06e0ceff8bafafdc974"

def trendMovedSha256 : Bytes → String :=
  trendDigests "ae59e1bef919df4b70094253011d1804947c3298e6f685b26d38e756d4fcce66"

def trendInputs (path : String) : SpecInputs :=
  (trendWorld trendYaml trendConfig path).specInputs trendSha256 trendYaml trendConfig
    (trendStrategy path)

def trendLive (path : String) : LiveStrategy Unit Unit Unit where
  strategy := trendStrategy path
  liveConfig := trendConfig
  specId := computeSpecId trendSha256 (trendInputs path)
  artefactSha256ByFactor := (trendInputs path).artefactSha256ByFactor

theorem loads_trend (path : String) :
    (trendWorld trendYaml trendConfig path).loadLiveStrategy trendSha256 "/s/trend/live.yaml" =
      .ok (trendLive path) := by
  have hname : parentName "/s/trend/live.yaml" = "trend" := by decide +kernel
  have hload : (trendWorld trendYaml trendConfig path).Loads trendSha256 "/s/trend/live.yaml"
      (trendLive path) trendYaml (trendStrategy path) := {
    file := rfl
    config := ⟨(), rfl, rfl⟩
    directory := hname
    builds := ⟨_, rfl, rfl⟩
    overrides := rfl
    specId := by simp only [trendLive, trendInputs]
    artefacts := rfl }
  exact hload.ok

/-! The module builds the strategy on `/data/a.bin`, and the configuration moves the model. -/

def trendMovedWorld : World Unit Unit Unit Unit :=
  trendWorld trendMovedYaml trendMovedConfig "/data/a.bin"

def trendMovedInputs : SpecInputs :=
  trendMovedWorld.specInputs trendMovedSha256 trendMovedYaml trendMovedConfig
    (trendStrategy "/data/b.bin")

def trendMovedLive : LiveStrategy Unit Unit Unit where
  strategy := trendStrategy "/data/b.bin"
  liveConfig := trendMovedConfig
  specId := computeSpecId trendMovedSha256 trendMovedInputs
  artefactSha256ByFactor := trendMovedInputs.artefactSha256ByFactor

theorem loads_trend_moved :
    trendMovedWorld.loadLiveStrategy trendMovedSha256 "/s/trend/live.yaml" =
      .ok trendMovedLive := by
  have hname : parentName "/s/trend/live.yaml" = "trend" := by decide +kernel
  have hload : trendMovedWorld.Loads trendMovedSha256 "/s/trend/live.yaml" trendMovedLive
      trendMovedYaml (trendStrategy "/data/a.bin") := {
    file := rfl
    config := ⟨(), rfl, rfl⟩
    directory := hname
    builds := ⟨_, rfl, rfl⟩
    overrides := rfl
    specId := by simp only [trendMovedLive, trendMovedInputs]
    artefacts := rfl }
  exact hload.ok

theorem load_live_strategy_artefacts_moved : ∃ builder built,
    trendMovedWorld.importModule "btest.strategies.trend" = .ok (some builder) ∧
      builder () = .ok built ∧ trendMovedLive.strategy.rest = built.rest ∧ ∀ name,
        (trendMovedLive.strategy.factors.get? name = (built.factors.get? name).map fun factor =>
          match trendMovedConfig.config.val.artefactPaths.get? name with
          | none => factor
          | some path => { factor with path := some (some path) }) ∧
        trendMovedLive.artefactSha256ByFactor.get? name =
          (trendMovedWorld.artefact trendMovedLive.strategy name).map trendMovedSha256 :=
  load_live_strategy_artefacts loads_trend_moved

theorem artefact_trend (path path' name : String) (hpath : path' ≠ "/s/trend/live.yaml") :
    (trendWorld trendYaml trendConfig path).artefact (trendStrategy path') name =
      if name = "model" then some trendModel else none := by
  have hget : (trendStrategy path').factors.get? name =
      if name = "mean" then some ⟨"SMA", none, ()⟩
      else if name = "model" then some ⟨"ExternalFactor", some (some path'), ()⟩ else none := by
    refine (Dict.get?_set _ "mean" name _).trans ?_
    rw [Dict.get?_set Dict.empty "model" name]
    rfl
  rw [World.artefact, hget]
  split
  · rename_i hmean
    rw [if_neg (by rw [hmean]; decide)]
    rfl
  · split
    · simp [Factor.content, trendWorld, hpath]
    · rfl

theorem trend_document {path path' : String} (hpath : path ≠ "/s/trend/live.yaml")
    (hpath' : path' ≠ "/s/trend/live.yaml") :
    (trendInputs path).serialised trendSha256 = (trendInputs path').serialised trendSha256 := by
  have hyaml (path : String) : (trendInputs path).canonicalYamlBytes = trendYaml := rfl
  refine (serialised_eq_iff trendSha256).mpr
    ⟨by rw [hyaml, hyaml], rfl, rfl, rfl, fun name => ?_⟩
  rw [trendInputs, trendInputs, World.specInputs, World.specInputs, get?_hashExternalArtefacts,
    get?_hashExternalArtefacts]
  exact congrArg (Option.map trendSha256)
    ((artefact_trend path path name hpath).trans (artefact_trend path' path' name hpath').symm)

theorem content_trend {path : String} {factor : Factor Unit} {content : Bytes}
    (h : factor.content (trendWorld trendYaml trendConfig path).entry = some content) :
    content = trendYaml ∨ content = trendModel := by
  unfold Factor.content at h
  split at h
  · split at h
    · rename_i hfile
      cases h
      rw [← Entry.file.inj (Option.some.inj hfile)]
      exact ite_eq_or_eq _ _ _
    · cases h
  · cases h

/-- The first bytes of the YAML texts, of the model and of the document differ. -/
theorem trendSha256_of_head {bytes : Bytes} {first : UInt8} (hbytes : bytes.head? = some first)
    (hfirst : first ≠ 115) (hmodel : first ≠ 0) :
    trendSha256 bytes = "5ac6a6cecdee593f57897bb8a7331aeb66e4d8d4dfcba06e0ceff8bafafdc974" := by
  have hyaml : trendYaml.head? = some 115 := by decide +kernel
  have hmoved : trendMovedYaml.head? = some 115 := by decide +kernel
  have hne {other : Bytes} {b : UInt8} (hother : other.head? = some b) (hb : first ≠ b) :
      bytes ≠ other := by
    intro heq
    rw [heq, hother] at hbytes
    exact hb (Option.some.inj hbytes).symm
  rw [trendSha256, trendDigests, if_neg (hne hyaml hfirst), if_neg (hne hmoved hfirst),
    if_neg (hne rfl hmodel)]

theorem trend_no_collision {path path' : String} (hpath : path ≠ "/s/trend/live.yaml")
    (hpath' : path' ≠ "/s/trend/live.yaml") : NoCollision trendSha256
    ((trendWorld trendYaml trendConfig path).hashed trendSha256 "/s/trend/live.yaml"
        (trendLive path) ++
      (trendWorld trendYaml trendConfig path').hashed trendSha256 "/s/trend/live.yaml"
        (trendLive path')) := by
  have hmem (p : String) (hp : p ≠ "/s/trend/live.yaml") :
      ∀ a ∈ (trendWorld trendYaml trendConfig p).hashed trendSha256 "/s/trend/live.yaml"
        (trendLive p),
      a = trendYaml ∨ a = trendModel ∨ a = (trendInputs path).serialised trendSha256 := by
    intro a ha
    rcases List.mem_cons.mp ha with ha | ha
    · exact .inl ha
    rcases List.mem_cons.mp ha with ha | ha
    · exact .inr (.inr (ha.trans (trend_document hp hpath)))
    · obtain ⟨item, -, hcontent⟩ := List.mem_filterMap.mp ha
      rcases content_trend hcontent with ha | ha
      · exact .inl ha
      · exact .inr (.inl ha)
  have hyaml : trendSha256 trendYaml =
      "3b1907c77f00a61981666a5e9ed22bd1bf673e07cbee78dd750612c90ecd0960" := by
    rw [trendSha256, trendDigests, if_pos rfl]
  have hmodel : trendSha256 trendModel =
      "b413f47d13ee2fe6c845b2ee141af81de858df4ec549a58b7970bb96645bc8d2" := by decide +kernel
  have hdocument : trendSha256 ((trendInputs path).serialised trendSha256) =
      "5ac6a6cecdee593f57897bb8a7331aeb66e4d8d4dfcba06e0ceff8bafafdc974" := by
    obtain ⟨rest, hrest⟩ := head_serialised trendSha256 (trendInputs path)
    have hhead : ((trendInputs path).serialised trendSha256).head? = some 123 := by
      rw [hrest, List.head?_cons]
    exact trendSha256_of_head hhead (by decide) (by decide)
  intro a ha b hb heq
  rcases (List.mem_append.mp ha).elim (hmem path hpath a) (hmem path' hpath' a) with
      rfl | rfl | rfl <;>
    rcases (List.mem_append.mp hb).elim (hmem path hpath b) (hmem path' hpath' b) with
      rfl | rfl | rfl <;>
    simp only [hyaml, hmodel, hdocument] at heq ⊢ <;>
    exact absurd heq (by decide)

theorem spec_id_of_moved_artefact :
    (trendLive "/data/a.bin").specId = (trendLive "/data/b.bin").specId := by
  have hyaml (path : String) : (trendWorld trendYaml trendConfig path).yamlBytes
      "/s/trend/live.yaml" = trendYaml := rfl
  have hbtest (path : String) :
      (trendWorld trendYaml trendConfig path).btestVersion.getD "unknown" = "0.1.0" := rfl
  have hblive (path : String) :
      (trendWorld trendYaml trendConfig path).bliveVersion.getD "unknown" = "0.1.0" := rfl
  have hmodule (path : String) :
      (trendLive path).liveConfig.strategyModule = "btest.strategies.trend" := rfl
  have hid := spec_id_eq_iff (loads_trend "/data/a.bin") (loads_trend "/data/b.bin")
    (trend_no_collision (by decide) (by decide))
  refine hid.mpr ?_
  rw [hyaml, hyaml, hbtest, hbtest, hblive, hblive, hmodule, hmodule]
  exact ⟨rfl, rfl, rfl, rfl, fun name =>
    (artefact_trend _ _ name (by decide)).trans (artefact_trend _ _ name (by decide)).symm⟩

end Blive.Loader
