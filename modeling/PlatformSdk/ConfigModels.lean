import PlatformSdk.Pydantic

/-!
# The configuration models

`MCPConfig` and `AgentConfig`, field for field in the order the source
declares them, with their defaults, bounds and validators. A record of
either type is only built by `modelValidate`, which reads a document against
the model and collects every problem.

`environment` is the one field both models require. It is a literal, so
that what validates is one of three strings and stands in the document as
that very string: `MCPConfig.environment_of_modelValidate` and
`AgentConfig.environment_of_modelValidate` say so.
-/

/-- **`Environment`**: the runtime environments, which a document states by
their words. -/
inductive Environment where
  | dev
  | staging
  | prod
  deriving DecidableEq

namespace Environment

/-- The literal an environment is written as, in a file or in a variable. -/
def toString : Environment → String
  | .dev => "dev"
  | .staging => "staging"
  | .prod => "prod"

/-- The check of an `Environment` field, which is one of three literals. -/
def check : Check Environment :=
  Check.literal [("dev", .dev), ("staging", .staging), ("prod", .prod)]
    "Input should be 'dev', 'staging' or 'prod'"

/-- **What an `Environment` field accepts** is the literal of an environment. -/
theorem check_eq_ok_iff {v : Yaml} {e : Environment} :
    check v = .ok e ↔ v = .leaf (.str e.toString) := by
  constructor
  · intro h
    obtain ⟨s, rfl, hs⟩ := literal_eq_ok h
    by_cases h₁ : s = "dev"
    · subst h₁
      exact Option.some.inj hs ▸ rfl
    by_cases h₂ : s = "staging"
    · subst h₂
      exact Option.some.inj hs ▸ rfl
    by_cases h₃ : s = "prod"
    · subst h₃
      exact Option.some.inj hs ▸ rfl
    simp [List.lookup_cons, beq_false_of_ne h₁, beq_false_of_ne h₂, beq_false_of_ne h₃] at hs
  · rintro rfl
    cases e <;> rfl

/-- A required one that is read stands in the document. -/
theorem get?_of_field {d : Dict YamlKey Yaml} {name : String} {e : Environment}
    (h : field d name none check = .ok e) :
    d.get? (.str name) = some (.leaf (.str e.toString)) := by
  rcases field_eq_ok_iff.mp h with ⟨v, hv, hc⟩ | ⟨-, hc⟩
  · rw [hv, check_eq_ok_iff.mp hc]
  · cases hc

end Environment

/-- `Literal["stdio", "sse"]`, how a server is talked to. -/
inductive Transport where
  | stdio
  | sse
  deriving DecidableEq

/-! ## `MCPConfig` -/

/-- **Configuration for FastMCP servers**, with the defaults of its fields. -/
structure MCPConfig where
  opaUrl : String := "http://localhost:8181/v1/data/mcp/tools/allow"
  opaTimeoutSeconds : FloatValue := .finite 2
  maxResultBytes : ℤ := 15000
  environment : Environment
  agentRole : String := "data_analyst_agent"
  serviceName : String := "mcp-server"
  transport : Transport := .sse
  port : ℤ := 8080
  enableToolCache : Bool := true
  toolCacheTtlSeconds : ℤ := 300
  cbFailureThreshold : ℤ := 5
  cbRecoveryTimeout : FloatValue := .finite 30
  opaMaxRetries : ℤ := 2
  opaRetryBackoff : FloatValue := .finite (1 / 5)
  mcpReconnectBackoffCap : FloatValue := .finite 60
  toolCallTimeout : FloatValue := .finite 30
  dbHost : String := "pgvector"
  dbPort : ℤ := 5432
  dbUser : String := "admin"
  dbPass : String := ""
  dbName : String := "ai_memory"
  dbRequireSsl : Bool := false
  statementCacheSize : ℤ := 1024
  redisHost : String := ""
  redisPort : ℤ := 6379
  redisPassword : String := ""
  salesforceMcpUrl : String := "http://salesforce-mcp:8081/sse"
  paymentsMcpUrl : String := "http://payments-mcp:8082/sse"
  newsMcpUrl : String := "http://news-search-mcp:8083/sse"
  mcpSseUrl : String := "http://localhost:8080/sse"
  registryUrl : String := ""
  serviceUrl : String := ""
  serviceVersion : String := ""
  internalApiKey : String := ""
  deriving DecidableEq

namespace MCPConfig

/-- `_VALID_AGENT_ROLES`, the roles a server can stamp its requests with. -/
def validAgentRoles : List String :=
  ["commercial_banking_agent", "data_analyst_agent", "compliance_agent", "analytics_agent"]

/-- `_validate_opa_url`: a URL of `http` or `https`, the text being kept. -/
def validateOpaUrl (v : String) : Except String String :=
  if v = "" then .error "opa_url must not be empty"
  else if !("http://".toList.isPrefixOf v.toList || "https://".toList.isPrefixOf v.toList) then
    .error ("opa_url must be an HTTP(S) URL, got: " ++ v)
  else .ok v

/-- `_validate_agent_role`: one of the roles there are, the text being kept. -/
def validateAgentRole (v : String) : Except String String :=
  if v ∉ validAgentRoles then
    .error ("agent_role='" ++ v ++ "' not in ['analytics_agent', 'commercial_banking_agent', "
      ++ "'compliance_agent', 'data_analyst_agent']")
  else .ok v

/-- The names of the fields. -/
def fieldNames : List String :=
  ["opa_url", "opa_timeout_seconds", "max_result_bytes", "environment", "agent_role",
    "service_name", "transport", "port", "enable_tool_cache", "tool_cache_ttl_seconds",
    "cb_failure_threshold", "cb_recovery_timeout", "opa_max_retries", "opa_retry_backoff",
    "mcp_reconnect_backoff_cap", "tool_call_timeout", "db_host", "db_port", "db_user",
    "db_pass", "db_name", "db_require_ssl", "statement_cache_size", "redis_host",
    "redis_port", "redis_password", "salesforce_mcp_url", "payments_mcp_url",
    "news_mcp_url", "mcp_sse_url", "registry_url", "service_url", "service_version",
    "internal_api_key"]

/-- The fields, read in the order they are declared. -/
def readFields (c : Coercions) (d : Dict YamlKey Yaml) : Validated ErrorDetails MCPConfig :=
  let o : MCPConfig := { environment := .dev }
  Validated.pure mk
    |>.ap (field d "opa_url" o.opaUrl (Check.after c.str validateOpaUrl))
    |>.ap (field d "opa_timeout_seconds" o.opaTimeoutSeconds (Check.positive c.float))
    |>.ap (field d "max_result_bytes" o.maxResultBytes (Check.ge c.int 1000))
    |>.ap (field d "environment" none Environment.check)
    |>.ap (field d "agent_role" o.agentRole (Check.after c.str validateAgentRole))
    |>.ap (field d "service_name" o.serviceName c.str)
    |>.ap (field d "transport" o.transport
      (Check.literal [("stdio", .stdio), ("sse", .sse)] "Input should be 'stdio' or 'sse'"))
    |>.ap (field d "port" o.port (Check.le (Check.gt c.int 0) 65535))
    |>.ap (field d "enable_tool_cache" o.enableToolCache c.bool)
    |>.ap (field d "tool_cache_ttl_seconds" o.toolCacheTtlSeconds (Check.ge c.int 0))
    |>.ap (field d "cb_failure_threshold" o.cbFailureThreshold c.int)
    |>.ap (field d "cb_recovery_timeout" o.cbRecoveryTimeout c.float)
    |>.ap (field d "opa_max_retries" o.opaMaxRetries c.int)
    |>.ap (field d "opa_retry_backoff" o.opaRetryBackoff c.float)
    |>.ap (field d "mcp_reconnect_backoff_cap" o.mcpReconnectBackoffCap c.float)
    |>.ap (field d "tool_call_timeout" o.toolCallTimeout c.float)
    |>.ap (field d "db_host" o.dbHost c.str)
    |>.ap (field d "db_port" o.dbPort c.int)
    |>.ap (field d "db_user" o.dbUser c.str)
    |>.ap (field d "db_pass" o.dbPass c.str)
    |>.ap (field d "db_name" o.dbName c.str)
    |>.ap (field d "db_require_ssl" o.dbRequireSsl c.bool)
    |>.ap (field d "statement_cache_size" o.statementCacheSize c.int)
    |>.ap (field d "redis_host" o.redisHost c.str)
    |>.ap (field d "redis_port" o.redisPort c.int)
    |>.ap (field d "redis_password" o.redisPassword c.str)
    |>.ap (field d "salesforce_mcp_url" o.salesforceMcpUrl c.str)
    |>.ap (field d "payments_mcp_url" o.paymentsMcpUrl c.str)
    |>.ap (field d "news_mcp_url" o.newsMcpUrl c.str)
    |>.ap (field d "mcp_sse_url" o.mcpSseUrl c.str)
    |>.ap (field d "registry_url" o.registryUrl c.str)
    |>.ap (field d "service_url" o.serviceUrl c.str)
    |>.ap (field d "service_version" o.serviceVersion c.str)
    |>.ap (field d "internal_api_key" o.internalApiKey c.str)

/-- **`MCPConfig.model_validate`.** -/
def modelValidate (c : Coercions) : Yaml → Validated ErrorDetails MCPConfig :=
  validateModel "MCPConfig" fieldNames (readFields c)

/-- **What validates states its environment**, under that very name. -/
theorem environment_of_modelValidate {c : Coercions} {t : Yaml} {cfg : MCPConfig}
    (h : modelValidate c t = .ok cfg) :
    ∃ d : Dict YamlKey Yaml, t = .map d
      ∧ d.get? (.str "environment") = some (.leaf (.str cfg.environment.toString)) := by
  obtain ⟨d, rfl, hf⟩ := validateModel_eq_ok h
  refine ⟨d, rfl, ?_⟩
  clear h
  unfold readFields at hf
  -- the fields declared after `environment`, from the last one
  iterate 30
    obtain ⟨_, _, h, -, rfl⟩ := Validated.ap_eq_ok_iff.mp hf
    clear hf
    rename' h => hf
  obtain ⟨_, e, h, he, rfl⟩ := Validated.ap_eq_ok_iff.mp hf
  clear hf
  iterate 3
    obtain ⟨_, _, h', -, rfl⟩ := Validated.ap_eq_ok_iff.mp h
    clear h
    rename' h' => h
  obtain rfl := Except.ok.inj h
  exact Environment.get?_of_field he

/-- The fields are read alike in any two documents. -/
theorem readAlike_readFields (c : Coercions) (d₁ d₂ : Dict YamlKey Yaml) :
    ReadAlike fieldNames.reverse d₁ d₂ (readFields c d₁) (readFields c d₂) := by
  unfold readFields
  iterate 34 refine ReadAlike.ap ?_ (by decide) _ _
  exact readAlike_pure d₁ d₂ mk mk

/-- Every problem of the model carries its offending input. -/
theorem reportsOffending_modelValidate (c : Coercions) : ReportsOffending (modelValidate c) :=
  reportsOffending_validateModel (fun _ => List.mem_reverse.mp) (readAlike_readFields c)

/-- Its words come from the field and that input. -/
theorem wordsFromInput_modelValidate (c : Coercions) : WordsFromInput (modelValidate c) :=
  wordsFromInput_validateModel (fun _ => List.mem_reverse.mp) (readAlike_readFields c)

end MCPConfig

/-! ## `AgentConfig` -/

/-- **Configuration for LangGraph agents**, with the defaults of its fields. -/
structure AgentConfig where
  environment : Environment
  modelRoute : String := "complex-routing"
  summaryModelRoute : String := "fast-routing"
  routerModelRoute : String := "fast-routing"
  specialistModelRoute : String := "fast-routing"
  synthesisModelRoute : String := "complex-routing"
  litellmBaseUrl : String := "http://localhost:4000/v1"
  internalApiKey : String := ""
  checkpointerType : String := "memory"
  checkpointerDbUrl : String := ""
  databaseUrl : String := ""
  enableCompaction : Bool := true
  contextTokenLimit : ℤ := 6000
  recursionLimit : ℤ := 10
  maxMessageLength : ℤ := 32000
  enableToolCache : Bool := true
  toolCacheTtlSeconds : ℤ := 300
  mcpStartupTimeout : FloatValue := .finite 120
  chartMaxDataPoints : ℤ := 20
  registryUrl : String := ""
  serviceUrl : String := ""
  serviceVersion : String := ""
  deriving DecidableEq

namespace AgentConfig

/-- `_clamp_recursion_limit`, which refuses nothing and pulls a limit into its
range. -/
def clampRecursionLimit (v : ℤ) : Except String ℤ := .ok (max 1 (min v 50))

/-- `_validate_model_route`: a route that is not empty, the text being kept. -/
def validateModelRoute (v : String) : Except String String :=
  if v = "" then .error "model_route must not be empty" else .ok v

/-- The names of the fields. -/
def fieldNames : List String :=
  ["environment", "model_route", "summary_model_route", "router_model_route",
    "specialist_model_route", "synthesis_model_route", "litellm_base_url",
    "internal_api_key", "checkpointer_type", "checkpointer_db_url", "database_url",
    "enable_compaction", "context_token_limit", "recursion_limit", "max_message_length",
    "enable_tool_cache", "tool_cache_ttl_seconds", "mcp_startup_timeout",
    "chart_max_data_points", "registry_url", "service_url", "service_version"]

/-- The fields, read in the order they are declared. -/
def readFields (c : Coercions) (d : Dict YamlKey Yaml) : Validated ErrorDetails AgentConfig :=
  let o : AgentConfig := { environment := .dev }
  Validated.pure mk
    |>.ap (field d "environment" none Environment.check)
    |>.ap (field d "model_route" o.modelRoute (Check.after c.str validateModelRoute))
    |>.ap (field d "summary_model_route" o.summaryModelRoute c.str)
    |>.ap (field d "router_model_route" o.routerModelRoute c.str)
    |>.ap (field d "specialist_model_route" o.specialistModelRoute c.str)
    |>.ap (field d "synthesis_model_route" o.synthesisModelRoute c.str)
    |>.ap (field d "litellm_base_url" o.litellmBaseUrl c.str)
    |>.ap (field d "internal_api_key" o.internalApiKey c.str)
    |>.ap (field d "checkpointer_type" o.checkpointerType c.str)
    |>.ap (field d "checkpointer_db_url" o.checkpointerDbUrl c.str)
    |>.ap (field d "database_url" o.databaseUrl c.str)
    |>.ap (field d "enable_compaction" o.enableCompaction c.bool)
    |>.ap (field d "context_token_limit" o.contextTokenLimit (Check.ge c.int 100))
    |>.ap (field d "recursion_limit" o.recursionLimit (Check.after c.int clampRecursionLimit))
    |>.ap (field d "max_message_length" o.maxMessageLength (Check.ge c.int 100))
    |>.ap (field d "enable_tool_cache" o.enableToolCache c.bool)
    |>.ap (field d "tool_cache_ttl_seconds" o.toolCacheTtlSeconds (Check.ge c.int 0))
    |>.ap (field d "mcp_startup_timeout" o.mcpStartupTimeout c.float)
    |>.ap (field d "chart_max_data_points" o.chartMaxDataPoints c.int)
    |>.ap (field d "registry_url" o.registryUrl c.str)
    |>.ap (field d "service_url" o.serviceUrl c.str)
    |>.ap (field d "service_version" o.serviceVersion c.str)

/-- **`AgentConfig.model_validate`.** -/
def modelValidate (c : Coercions) : Yaml → Validated ErrorDetails AgentConfig :=
  validateModel "AgentConfig" fieldNames (readFields c)

/-- **What validates states its environment**, under that very name. -/
theorem environment_of_modelValidate {c : Coercions} {t : Yaml} {cfg : AgentConfig}
    (h : modelValidate c t = .ok cfg) :
    ∃ d : Dict YamlKey Yaml, t = .map d
      ∧ d.get? (.str "environment") = some (.leaf (.str cfg.environment.toString)) := by
  obtain ⟨d, rfl, hf⟩ := validateModel_eq_ok h
  refine ⟨d, rfl, ?_⟩
  clear h
  unfold readFields at hf
  -- the fields declared after `environment`, from the last one
  iterate 21
    obtain ⟨_, _, h, -, rfl⟩ := Validated.ap_eq_ok_iff.mp hf
    clear hf
    rename' h => hf
  obtain ⟨_, e, h, he, rfl⟩ := Validated.ap_eq_ok_iff.mp hf
  obtain rfl := Except.ok.inj h
  exact Environment.get?_of_field he

/-- The fields are read alike in any two documents. -/
theorem readAlike_readFields (c : Coercions) (d₁ d₂ : Dict YamlKey Yaml) :
    ReadAlike fieldNames.reverse d₁ d₂ (readFields c d₁) (readFields c d₂) := by
  unfold readFields
  iterate 22 refine ReadAlike.ap ?_ (by decide) _ _
  exact readAlike_pure d₁ d₂ mk mk

/-- Every problem of the model carries its offending input. -/
theorem reportsOffending_modelValidate (c : Coercions) : ReportsOffending (modelValidate c) :=
  reportsOffending_validateModel (fun _ => List.mem_reverse.mp) (readAlike_readFields c)

/-- Its words come from the field and that input. -/
theorem wordsFromInput_modelValidate (c : Coercions) : WordsFromInput (modelValidate c) :=
  wordsFromInput_validateModel (fun _ => List.mem_reverse.mp) (readAlike_readFields c)

end AgentConfig
