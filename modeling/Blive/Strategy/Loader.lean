import Blive.Misc.JsonCanonical
import Blive.Strategy.Config

/-!
# The strategy loader

`strategy/loader.py`. What lies outside is read from a `World`: the file system, the YAML reader
with the schema of the configuration, the strategy modules and the package versions. A digest is
`sha256`, which is given the bytes of a file at once: reading it in chunks feeds the same bytes to
the hash. A path is its text.
-/

namespace Blive.Loader

open JsonText

abbrev Bytes := List UInt8

/-- What is found at a path. -/
inductive Entry where
  | file (content : Bytes)
  | directory

/-- A factor of a btest strategy. A factor without a `path` field has none, and the value of the
field may be `None`. -/
structure Factor (φ : Type) where
  typeName : String
  path : Option (Option String)
  rest : φ

/-- A btest `Strategy`, of which the loader reads the factors. -/
structure Strategy (φ σ : Type) where
  factors : Dict String (Factor φ)
  rest : σ

/-- The fields of `LiveStrategyConfig` the loader reads. -/
structure LoadedConfig (κ : Type) where
  config : LiveStrategyConfig
  strategyModule : String
  buildStrategyKwargs : κ

/-- What `load_live_strategy` finds outside: `safeLoad` returns `none` for what is no mapping, and
`importModule` a module that exposes no callable `build_strategy`. -/
structure World (ν κ φ σ : Type) where
  resolve : String → String
  entry : String → Option Entry
  safeLoad : Bytes → Except PyError (Option ν)
  liveStrategyConfig : ν → Except PyError (LoadedConfig κ)
  importModule : String → Except PyError (Option (κ → Except PyError (Strategy φ σ)))
  btestVersion : Option String
  bliveVersion : Option String

inductive LoadError where
  | fileNotFoundError (text : String)
  | valueError (text : String)
  | attributeError (text : String)
  | typeError (text : String)
  /-- An exception of the YAML reader, of the schema or of the strategy module. -/
  | raised (e : PyError)
  deriving DecidableEq

/-- `LiveStrategy` -/
structure LiveStrategy (κ φ σ : Type) where
  strategy : Strategy φ σ
  liveConfig : LoadedConfig κ
  specId : String
  artefactSha256ByFactor : Dict String String

/-- `if not p: raise e` -/
def require (p : Prop) [Decidable p] (e : LoadError) : Except LoadError Unit :=
  if p then .ok () else .error e

/-- `sorted(names)!r` -/
def sortedRepr (names : List String) : String :=
  Json.repr (.list ((names.insertionSort (· ≤ ·)).map .str))

/-! ## Artefacts -/

section Artefacts

variable {φ σ : Type} (entry : String → Option Entry)

/-- The loop body of `_apply_artefact_overrides`. -/
def applyOverride (factors : Dict String (Factor φ)) (override : String × String) :
    Except LoadError (Dict String (Factor φ)) := do
  require (entry override.2 ≠ none) (.fileNotFoundError (
    "artefact_paths['" ++ override.1 ++ "'] points to a non-existent file: " ++ override.2))
  match factors.get? override.1 with
  | none => .error (.raised (.keyError override.1))
  | some factor =>
      require (factor.path ≠ none) (.typeError (
        "artefact_paths['" ++ override.1 ++ "'] only valid for factors with a 'path' field " ++
          "(e.g. ExternalFactor); factor type is " ++ factor.typeName))
      return factors.set override.1 { factor with path := some (some override.2) }

/-- `_apply_artefact_overrides` -/
def applyArtefactOverrides (strategy : Strategy φ σ) (overrides : Dict String String) :
    Except LoadError (Strategy φ σ) :=
  if overrides.items = [] then .ok strategy
  else do
    let unknown := overrides.keys.filter fun name => decide (name ∉ strategy.factors)
    require (unknown = []) (.valueError (
      "artefact_paths references unknown factor(s): " ++ sortedRepr unknown ++
        "; strategy.factors keys are " ++ sortedRepr strategy.factors.keys))
    let factors ← overrides.items.foldlM (applyOverride entry) strategy.factors
    return { strategy with factors }

/-- The content of the file a factor refers to. -/
def Factor.content (factor : Factor φ) : Option Bytes :=
  match factor.path with
  | some (some path) =>
      match entry path with
      | some (.file content) => some content
      | _ => none
  | _ => none

/-- The loop body of `_hash_external_artefacts`. -/
def hashArtefact (sha256 : Bytes → String) (result : Dict String String)
    (item : String × Factor φ) : Dict String String :=
  match item.2.content entry with
  | some content => result.set item.1 (sha256 content)
  | none => result

/-- `_hash_external_artefacts` -/
def hashExternalArtefacts (sha256 : Bytes → String) (strategy : Strategy φ σ) :
    Dict String String :=
  strategy.factors.items.foldl (hashArtefact entry sha256) Dict.empty

end Artefacts

/-! ## The spec id -/

/-- `text.encode("utf-8")`, of a text of ASCII. -/
def encode (text : List Char) : Bytes := text.map fun c => UInt8.ofNat c.toNat

/-- The arguments of `_compute_spec_id`. -/
structure SpecInputs where
  canonicalYamlBytes : Bytes
  strategyModule : String
  btestVersion : String
  bliveVersion : String
  artefactSha256ByFactor : Dict String String

/-- The fields of `payload`. -/
def SpecInputs.fields (sha256 : Bytes → String) (inputs : SpecInputs) : List (String × Json) :=
  [("yaml_sha256", .str (sha256 inputs.canonicalYamlBytes)),
    ("strategy_module", .str inputs.strategyModule),
    ("btest_version", .str inputs.btestVersion),
    ("blive_version", .str inputs.bliveVersion),
    ("artefact_sha256_by_factor", sortedDict id .str inputs.artefactSha256ByFactor)]

def SpecInputs.payload (sha256 : Bytes → String) (inputs : SpecInputs) : Json :=
  sortedDict id id (Dict.ofList (inputs.fields sha256))

/-- `serialised` -/
def SpecInputs.serialised (sha256 : Bytes → String) (inputs : SpecInputs) : Bytes :=
  encode (dumps .compact (inputs.payload sha256))

/-- `_compute_spec_id` -/
def computeSpecId (sha256 : Bytes → String) (inputs : SpecInputs) : String :=
  sha256 (inputs.serialised sha256)

/-! ## Loading -/

/-- `path.parent.name`, for a path that is resolved. -/
def parentName (path : String) : String :=
  (((path.toList.splitOn '/').dropLast.getLast?).map String.ofList).getD ""

variable {ν κ φ σ : Type}

/-- What `_compute_spec_id` is called with. -/
def World.specInputs (world : World ν κ φ σ) (sha256 : Bytes → String) (raw : Bytes)
    (cfg : LoadedConfig κ) (strategy : Strategy φ σ) : SpecInputs where
  canonicalYamlBytes := raw
  strategyModule := cfg.strategyModule
  btestVersion := world.btestVersion.getD "unknown"
  bliveVersion := world.bliveVersion.getD "unknown"
  artefactSha256ByFactor := hashExternalArtefacts world.entry sha256 strategy

/-- `load_live_strategy`, once the YAML file was read. -/
def World.loadFrom (world : World ν κ φ σ) (sha256 : Bytes → String) (path : String)
    (raw : Bytes) : Except LoadError (LiveStrategy κ φ σ) := do
  let some parsed ← (world.safeLoad raw).mapError .raised
    | .error (.valueError (
        "live strategy YAML at " ++ path ++ " must be a mapping at the top level"))
  let cfg ← (world.liveStrategyConfig parsed).mapError .raised
  require (parentName path = cfg.config.val.strategyId) (.valueError (
    "strategy_id mismatch: YAML at " ++ path ++ " has strategy_id=" ++
      PyStr.repr cfg.config.val.strategyId ++ " but parent directory is " ++
      PyStr.repr (parentName path)))
  let some builder ← (world.importModule cfg.strategyModule).mapError .raised
    | .error (.attributeError (
        "strategy module " ++ PyStr.repr cfg.strategyModule ++ " does not expose a callable " ++
          "build_strategy(); see REQUIREMENTS §5.13"))
  let built ← (builder cfg.buildStrategyKwargs).mapError .raised
  let strategy ← applyArtefactOverrides world.entry built cfg.config.val.artefactPaths
  let inputs := world.specInputs sha256 raw cfg strategy
  return ⟨strategy, cfg, computeSpecId sha256 inputs, inputs.artefactSha256ByFactor⟩

/-- `load_live_strategy` -/
def World.loadLiveStrategy (world : World ν κ φ σ) (sha256 : Bytes → String) (yamlPath : String) :
    Except LoadError (LiveStrategy κ φ σ) :=
  let path := world.resolve yamlPath
  match world.entry path with
  | some (.file raw) => world.loadFrom sha256 path raw
  | _ => .error (.fileNotFoundError ("live strategy YAML not found: " ++ path))

end Blive.Loader
