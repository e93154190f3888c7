import PlatformSdk.Pydantic

/-!
# Entries of the service registry

What the registry answers about a service is a JSON document, and
`RegistryEntry.modelValidate` reads it: every field but `metadata` has to be
there, `null` is a value only of the fields that say so, and no other key is
allowed.

What counts as a URL or as a date is pydantic's and a parameter,
`EntryCoercions`. A URL is carried as its text and a date in ISO format;
nothing looks into either.
-/

/-- A JSON document as pydantic is given it, as a Python object. -/
def Json.toYaml : Json → Yaml :=
  DocTree.translate YamlKey.str fun
    | .null => .null
    | .bool b => .bool b
    | .int i => .int i
    | .float f => .float (String.ofList f.text)
    | .str s => .str s

namespace Check

/-- `T | None`. -/
def nullable {α : Type} (check : Check α) : Check (Option α)
  | .leaf .null => .ok none
  | v => (check v).map some

/-- `dict[str, Any]`, of a document whose keys are strings. -/
def dict : Check (Dict YamlKey Yaml)
  | .map d => .ok d
  | _ => .error ⟨"dict_type", "Input should be a valid dictionary"⟩

end Check

/-- **How the texts of an entry are read.** -/
structure EntryCoercions where
  str : Check String
  httpUrl : Check String
  datetime : Check String

/-- The conversions that take every string for what it should be. -/
def EntryCoercions.exact : EntryCoercions where
  str := Coercions.exact.str
  httpUrl := Coercions.exact.str
  datetime := Coercions.exact.str

/-- **`ServiceType`.** -/
inductive ServiceType where
  | agent
  | mcp
  | registry
  | other
  deriving DecidableEq

/-- The check of a `ServiceType` field. -/
def ServiceType.check : Check ServiceType :=
  Check.literal [("agent", .agent), ("mcp", .mcp), ("registry", .registry), ("other", .other)]
    "Input should be 'agent', 'mcp', 'registry' or 'other'"

/-- **`ServiceState`.** -/
inductive ServiceState where
  | registered
  | expectedUnregistered
  | stale
  deriving DecidableEq

/-- The check of a `ServiceState` field. -/
def ServiceState.check : Check ServiceState :=
  Check.literal
    [("registered", .registered), ("expected_unregistered", .expectedUnregistered),
      ("stale", .stale)]
    "Input should be 'registered', 'expected_unregistered' or 'stale'"

/-- **A single service entry** as the registry's `GET` endpoints return it. -/
structure RegistryEntry where
  name : String
  url : Option String
  expectedUrl : Option String
  type : ServiceType
  state : ServiceState
  version : Option String
  metadata : Dict YamlKey Yaml := []
  lastHeartbeatAt : Option String
  registeredAt : Option String
  lastChangedAt : String
  deriving DecidableEq

namespace RegistryEntry

/-- The names of the fields. -/
def fieldNames : List String :=
  ["name", "url", "expected_url", "type", "state", "version", "metadata",
    "last_heartbeat_at", "registered_at", "last_changed_at"]

/-- The fields, read in the order they are declared. -/
def readFields (c : EntryCoercions) (d : Dict YamlKey Yaml) :
    Validated ErrorDetails RegistryEntry :=
  Validated.pure mk
    |>.ap (field d "name" none c.str)
    |>.ap (field d "url" none (Check.nullable c.httpUrl))
    |>.ap (field d "expected_url" none (Check.nullable c.httpUrl))
    |>.ap (field d "type" none ServiceType.check)
    |>.ap (field d "state" none ServiceState.check)
    |>.ap (field d "version" none (Check.nullable c.str))
    |>.ap (field d "metadata" (some []) Check.dict)
    |>.ap (field d "last_heartbeat_at" none (Check.nullable c.datetime))
    |>.ap (field d "registered_at" none (Check.nullable c.datetime))
    |>.ap (field d "last_changed_at" none c.datetime)

/-- **`RegistryEntry.model_validate`.** -/
def modelValidate (c : EntryCoercions) : Yaml → Validated ErrorDetails RegistryEntry :=
  validateModel "RegistryEntry" fieldNames (readFields c)

/-- Every problem of the model carries its offending input. -/
theorem reportsOffending_modelValidate (c : EntryCoercions) :
    ReportsOffending (modelValidate c) := by
  refine reportsOffending_validateModel (fun _ => List.mem_reverse.mp) fun d₁ d₂ => ?_
  unfold readFields
  iterate 10 refine ReadAlike.ap ?_ (by decide) _ _
  exact readAlike_pure d₁ d₂ mk mk

/-- An entry of a service, in a version. -/
def sample (name version : String) : RegistryEntry where
  name := name
  url := some "http://data-mcp:8080"
  expectedUrl := none
  type := .mcp
  state := .registered
  version := some version
  lastHeartbeatAt := none
  registeredAt := none
  lastChangedAt := "2026-04-30T12:00:00Z"

/-- The document of that entry, as the registry sends it. -/
def sampleBody (name version : String) : Json :=
  Json.obj [("name", Json.str name), ("url", Json.str "http://data-mcp:8080"),
    ("expected_url", Json.null), ("type", Json.str "mcp"), ("state", Json.str "registered"),
    ("version", Json.str version), ("last_heartbeat_at", Json.null),
    ("registered_at", Json.null), ("last_changed_at", Json.str "2026-04-30T12:00:00Z")]

/-- The document is read as the entry. -/
theorem modelValidate_sampleBody (name version : String) :
    modelValidate EntryCoercions.exact (sampleBody name version).toYaml
      = .ok (sample name version) := by
  rfl

end RegistryEntry
