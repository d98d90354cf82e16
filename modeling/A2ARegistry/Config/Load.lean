import A2ARegistry.Base.Assign
import A2ARegistry.Base.Yaml

namespace A2ARegistry
open Base

/-- The annotation of a field of a section. -/
inductive Annotation
  | bool
  | int
  | str
  | list
deriving DecidableEq, Repr

/-- A field of a section's dataclass. -/
structure ConfigField where
  name : String
  type : Annotation
  default : Yaml

/-- A value for each field, by the names of its section and of itself. -/
abbrev Config := String × String → Yaml

namespace Config

def serverConfig : List ConfigField :=
  [⟨"host", .str, .str "0.0.0.0"⟩,
    ⟨"port", .int, .int 8321⟩,
    ⟨"cors_origins", .str, .str "*"⟩]

def databaseConfig : List ConfigField :=
  [⟨"driver", .str, .str "sqlite"⟩,
    ⟨"sqlite_path", .str, .str "~/.simple-a2a-registry/registry.db"⟩,
    ⟨"mysql_dsn", .str, .str ""⟩,
    ⟨"pool_size", .int, .int 10⟩,
    ⟨"max_overflow", .int, .int 20⟩]

def authConfig : List ConfigField :=
  [⟨"enabled", .bool, .bool false⟩,
    ⟨"bootstrap_secret", .str, .str ""⟩,
    ⟨"rsa_key_size", .int, .int 2048⟩,
    ⟨"jwk_ttl", .int, .int 3600⟩]

def loggingConfig : List ConfigField :=
  [⟨"format", .str, .str "text"⟩,
    ⟨"level", .str, .str "info"⟩,
    ⟨"output", .str, .str "stdout"⟩]

def orchestrationConfig : List ConfigField :=
  [⟨"dispatcher_enabled", .bool, .bool true⟩,
    ⟨"dispatcher_interval", .int, .int 5⟩,
    ⟨"claim_ttl", .int, .int 900⟩,
    ⟨"failure_limit", .int, .int 3⟩,
    ⟨"task_timeout", .int, .int 300⟩,
    ⟨"workspaces_root", .str, .str "~/.simple-a2a-registry/workspaces"⟩,
    ⟨"board_path", .str, .str "~/.simple-a2a-registry/board.db"⟩]

def monitoringConfig : List ConfigField :=
  [⟨"metrics_enabled", .bool, .bool true⟩,
    ⟨"metrics_path", .str, .str "/metrics"⟩]

def rateLimitConfig : List ConfigField :=
  [⟨"enabled", .bool, .bool false⟩,
    ⟨"default_unauthenticated", .int, .int 60⟩,
    ⟨"default_authenticated", .int, .int 300⟩,
    ⟨"storage", .str, .str "memory"⟩,
    ⟨"whitelist", .list, .seq []⟩]

def auditConfig : List ConfigField := [⟨"retention_days", .int, .int 90⟩]

def securityHarnessConfig : List ConfigField :=
  [⟨"enabled", .bool, .bool false⟩,
    ⟨"mode", .str, .str "warn"⟩,
    ⟨"default_delegation_policy", .str, .str "open"⟩,
    ⟨"delegation_token_ttl_seconds", .int, .int 300⟩,
    ⟨"max_delegation_depth", .int, .int 10⟩]

/-- `section_map`. -/
def sectionMap : List (String × List ConfigField) :=
  [("server", serverConfig),
    ("database", databaseConfig),
    ("auth", authConfig),
    ("logging", loggingConfig),
    ("orchestration", orchestrationConfig),
    ("monitoring", monitoringConfig),
    ("rate_limit", rateLimitConfig),
    ("audit", auditConfig),
    ("security_harness", securityHarnessConfig)]

def fieldOf (key : String × String) : Option ConfigField :=
  (sectionMap.lookup key.1).bind (fun fields => fields.find? (fun field => field.name == key.2))

/-- `Config()`. -/
def default : Config := fun key => ((fieldOf key).map ConfigField.default).getD .null

/-- What the interpreter makes of values: `int()` of a text, of a float and of bytes, which can raise, `str()` of what
is no scalar, and whether `getattr` finds one attribute after the other. -/
structure Builtins where
  intOfText : String → Option Int
  intOfFloat : String → Option Int
  intOfBytes : List UInt8 → Option Int
  strOf : Yaml → String
  hasAttributes : Yaml → List String → Bool

/-- `int(value)`. -/
def Builtins.int (python : Builtins) : Yaml → Option Int
  | .bool b => some (if b then 1 else 0)
  | .int n => some n
  | .float r => python.intOfFloat r
  | .str s => python.intOfText s
  | .bytes b => python.intOfBytes b
  | _ => none

/-- `str(value)`. It raises on integers of more than 4300 digits, which are not told apart here. -/
def Builtins.str (python : Builtins) : Yaml → String
  | .null => "None"
  | .bool b => if b then "True" else "False"
  | .int n => toString n
  | .float r => r
  | .str s => s
  | value => python.strOf value

/-- A type that `_coerce` asks for. -/
inductive Target
  | bool
  | int
  | str
  | other
deriving DecidableEq, Repr

/-- `type(value)`. -/
def typeOf : Yaml → Target
  | .bool _ => .bool
  | .int _ => .int
  | .str _ => .str
  | _ => .other

/-- The type that the annotation of a field stands for; one that is not in the table stands for `str`. -/
def target : Annotation → Target
  | .bool => .bool
  | .int => .int
  | .str | .list => .str

def lower (cs : List Char) : List Char := cs.map Char.toLower

/-- `_coerce`; `none` when it raises. -/
def coerce (python : Builtins) (value : Yaml) : Target → Option Yaml
  | .bool =>
    match value with
    | .bool b => some (.bool b)
    | .str s => some (.bool (["1", "true", "yes", "on"].contains (String.ofList (lower s.toList))))
    | value => some (.bool value.truthy)
  | .int => (python.int value).map Yaml.int
  | .str => some (.str (python.str value))
  | .other => some value

section File

variable (python : Builtins)

/-- The loop over the keys of a section. When a value raises, what has been set by then stays. -/
def mergeSection (name : String) : List (Yaml × Yaml) → Config → Except Config Config
  | [], cfg => .ok cfg
  | (.str key, value) :: items, cfg =>
    match fieldOf (name, key) with
    | none => mergeSection name items cfg
    | some _ =>
      match coerce python value (typeOf (cfg (name, key))) with
      | none => .error cfg
      | some value => mergeSection name items (Function.update cfg (name, key) value)
  | _ :: items, cfg => mergeSection name items cfg

/-- `_dict_to_config`. -/
def dictToConfig : List (Yaml × Yaml) → Config → Except Config Config
  | [], cfg => .ok cfg
  | (.str name, .map data) :: items, cfg =>
    match sectionMap.lookup name with
    | none => dictToConfig items cfg
    | some _ =>
      match mergeSection python name data cfg with
      | .error cfg => .error cfg
      | .ok cfg => dictToConfig items cfg
  | _ :: items, cfg => dictToConfig items cfg

/-- The first step of `load_config`. There is no document when there is no file, or none that can be read. -/
def loadFile : Option Yaml → Config
  | none => default
  | some raw =>
    match (if raw.truthy then raw else .map []) with
    | .map items => settled (dictToConfig python items default)
    | _ => default

end File

section Environ

/-- `text.split("__")`. -/
def splitDunder : List Char → List (List Char)
  | [] => [[]]
  | '_' :: '_' :: cs => [] :: splitDunder cs
  | c :: cs =>
    match splitDunder cs with
    | [] => [[c]]
    | part :: parts => (c :: part) :: parts

def envPrefix : String := "A2A_REGISTRY_"

/-- `_env_var_to_path`. -/
def envVarToPath (key : String) : List String :=
  (splitDunder (lower (key.toList.drop envPrefix.length))).map String.ofList

variable (python : Builtins)

/-- `_set_nested`, for a path of at least two segments; `none` when it raises. The `fields` of what is no dataclass
raises. -/
def setNested (cfg : Config) (name : String) (key : String) (rest : List String) (value : String) : Option Config :=
  match fieldOf (name, key) with
  | none => some cfg
  | some field =>
    match rest with
    | [] => (coerce python (.str value) (target field.type)).map (Function.update cfg (name, key))
    | _ :: _ => if python.hasAttributes (cfg (name, key)) rest.dropLast then none else some cfg

/-- One variable of `_apply_env_overrides`. -/
def applyVariable (cfg : Config) (item : String × String) : Option Config :=
  if envPrefix.toList.isPrefixOf item.1.toList then
    match envVarToPath item.1 with
    | name :: key :: rest => setNested python cfg name key rest item.2
    | _ => some cfg
  else some cfg

/-- `_apply_env_overrides`, for the items of `os.environ`. -/
def applyEnvOverrides (environ : List (String × String)) (cfg : Config) : Option Config :=
  (environ.mergeSort (fun a b => decide (a.1 ≤ b.1))).foldlM (applyVariable python) cfg

/-- `load_config`; `none` when it raises. -/
def loadConfig (document : Option Yaml) (environ : List (String × String)) : Option Config :=
  applyEnvOverrides python environ (loadFile python document)

end Environ

end Config

end A2ARegistry
