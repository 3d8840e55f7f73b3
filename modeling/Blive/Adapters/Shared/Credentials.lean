import Blive.Misc.Dict
import Blive.Misc.Lines

/-!
# The credentials loader

`adapters/shared/credentials.py`: the credentials of a broker come from the environment, and where
it does not have them from a file of the secrets directory, one assignment a line. A directory is
the texts of its files by their names.
-/

namespace Blive

/-! ## Credential schema -/

structure CredentialFieldFields where
  name : String
  required : Bool := true
  deriving DecidableEq

instance : PostInit CredentialFieldFields where
  postInit f := require (f.name ≠ "") (.valueError "CredentialField.name must be non-empty")

abbrev CredentialField := Frozen CredentialFieldFields

structure CredentialSchemaFields where
  brokerName : String
  fields : List CredentialField := []
  deriving DecidableEq

instance : PostInit CredentialSchemaFields where
  postInit schema := do
    require (schema.brokerName ≠ "")
      (.valueError "CredentialSchema.broker_name must be non-empty")
    require (schema.fields.map fun f => f.val.name).Nodup (.valueError "CredentialSchema for ")

abbrev CredentialSchema := Frozen CredentialSchemaFields

namespace CredentialSchema

variable (schema : CredentialSchema)

def fieldNames : List String := schema.val.fields.map fun f => f.val.name

def requiredFieldNames : List String :=
  (schema.val.fields.filter fun f => f.val.required).map fun f => f.val.name

end CredentialSchema

/-! ## Errors -/

structure CredentialsMissing where
  brokerName : String
  missing : List String
  envPath : String
  deriving DecidableEq

/-- What the loader raises: an exception of reading the file, or its own. -/
inductive LoadError where
  | py (error : PyError)
  | missing (error : CredentialsMissing)
  deriving DecidableEq

/-! ## The file -/

/-- `value[1:-1]`, for a value between two quotes of one kind. -/
def stripQuotes (value : List Char) : List Char :=
  if 2 ≤ value.length ∧
      ((value.head? = some '"' ∧ value.getLast? = some '"') ∨
        (value.head? = some '\'' ∧ value.getLast? = some '\'')) then
    value.tail.dropLast
  else value

/-- What `_parse_dotenv` makes of one line, `none` where it skips it. -/
def parseLine (rawLine : List Char) : Option (String × String) :=
  let line := PyStr.strip rawLine
  if line = [] ∨ line.head? = some '#' then none
  else if '=' ∉ line then none
  else
    let key := PyStr.strip (line.takeWhile (· ≠ '='))
    let value := PyStr.strip (line.dropWhile (· ≠ '=')).tail
    if key = [] then none else some (String.ofList key, String.ofList (stripQuotes value))

/-- `_parse_dotenv`, of the text of the file. -/
def parseDotenv (text : String) : Dict String String :=
  Dict.ofList ((PyStr.splitlines text.toList).filterMap parseLine)

/-! ## The loader -/

/-- One round of the loop over the fields. -/
def resolveField (envMap fileValues : Dict String String)
    (acc : Dict String String × List String) (f : CredentialField) :
    Dict String String × List String :=
  let (out, missing) := acc
  match envMap.get? f.val.name with
  | some value => (out.set f.val.name value, missing)
  | none =>
      match fileValues.get? f.val.name with
      | some value => (out.set f.val.name value, missing)
      | none => if f.val.required then (out, missing ++ [f.val.name]) else (out, missing)

def resolveFields (schema : CredentialSchema) (envMap fileValues : Dict String String)
    (envPath : String) : Except LoadError (Dict String String) :=
  let (out, missing) :=
    schema.val.fields.foldl (resolveField envMap fileValues) (Dict.empty, [])
  if missing = [] then .ok out
  else .error (.missing ⟨schema.val.brokerName, missing, envPath⟩)

/-- `load_credentials`. A file that is there may fail to be read. -/
def loadCredentials (schema : CredentialSchema)
    (secretsDir : String → Option (Except PyError String)) (envMap : Dict String String) :
    Except LoadError (Dict String String) :=
  let envPath := schema.val.brokerName ++ ".env"
  match secretsDir envPath with
  | none => resolveFields schema envMap Dict.empty envPath
  | some (.error e) => .error (.py e)
  | some (.ok text) => resolveFields schema envMap (parseDotenv text) envPath

/-- `IG_SCHEMA` of `adapters/ig/credentials.py`, where every field is required. -/
def igSchema : CredentialSchema where
  val :=
    { brokerName := "ig"
      fields := [⟨⟨"IG_API_KEY", true⟩, rfl⟩, ⟨⟨"IG_USERNAME", true⟩, rfl⟩,
        ⟨⟨"IG_PASSWORD", true⟩, rfl⟩, ⟨⟨"IG_ACCOUNT_ID", true⟩, rfl⟩,
        ⟨⟨"IG_ENVIRONMENT", true⟩, rfl⟩] }
  valid := by decide +kernel

end Blive
