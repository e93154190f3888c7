import PlatformSdk.ConfigModels

/-!
# The configurations there are

A configuration is never built but by validation, so that what validation can
yield is what the rest of the program has to cope with. `modelValidate_spans`
says for both models what that is: the records within the bounds of the fields, no
others and all of them. Each is what its own dump validates to.

Pydantic does not validate a default. The defaults are within the bounds
themselves, or a document that leaves a field out would yield a record no
document could state.
-/

section Fields

variable {α β : Type} {d : Dict YamlKey Yaml} {name : String} {check : Check α}

/-- What a field yields is in the range of its check, if its default is. -/
theorem range_of_field (range : α → Prop) {a default : α}
    (h : field d name (some default) check = .ok a)
    (hcheck : ∀ v b, check v = .ok b → range b) (hdefault : range default) : range a := by
  rcases field_eq_ok_iff.mp h with ⟨v, -, hv⟩ | ⟨-, hnone⟩
  · exact hcheck v a hv
  · exact Option.some.inj hnone ▸ hdefault

/-- One more field that stands in the document. -/
theorem ap_field {default : Option α} {x : Validated ErrorDetails (α → β)} {f : α → β} {v : Yaml}
    {a : α} (hx : x = .ok f) (hget : d.get? (.str name) = some v) (hcheck : check v = .ok a) :
    x.ap (field d name default check) = .ok (f a) :=
  Validated.ap_eq_ok_iff.mpr ⟨f, a, hx, field_eq_ok_iff.mpr (Or.inl ⟨v, hget, hcheck⟩), rfl⟩

end Fields

/-! ## The ranges of the checks -/

section Checks

variable {α : Type}

/-- A check that goes on to test its value. -/
theorem guarded_eq_ok_iff (x : Except FieldError α) (p : α → Prop) [DecidablePred p]
    (e : FieldError) {a : α} :
    (x >>= fun b => if p b then pure b else throw e) = .ok a ↔ x = .ok a ∧ p a := by
  cases x with
  | error e' => exact iff_of_false (by simp [bind, Except.bind]) (fun h => by cases h.1)
  | ok b =>
    show (if p b then Except.ok b else Except.error e) = .ok a ↔ Except.ok b = .ok a ∧ p a
    by_cases hb : p b
    · rw [if_pos hb, Except.ok.injEq]
      exact ⟨fun h => ⟨h, h ▸ hb⟩, And.left⟩
    · rw [if_neg hb, Except.ok.injEq]
      exact iff_of_false (by simp) (fun h => hb (h.1 ▸ h.2))

variable {check : Check ℤ} {v : Yaml} {a b : ℤ}

theorem Check.ge_eq_ok_iff : check.ge b v = .ok a ↔ check v = .ok a ∧ b ≤ a :=
  guarded_eq_ok_iff (check v) (b ≤ ·) _

theorem Check.gt_eq_ok_iff : check.gt b v = .ok a ↔ check v = .ok a ∧ b < a :=
  guarded_eq_ok_iff (check v) (b < ·) _

theorem Check.le_eq_ok_iff : check.le b v = .ok a ↔ check v = .ok a ∧ a ≤ b :=
  guarded_eq_ok_iff (check v) (· ≤ b) _

theorem Check.positive_eq_ok_iff {check : Check FloatValue} {a : FloatValue} :
    check.positive v = .ok a ↔ check v = .ok a ∧ FloatValue.reachedBy 0 a = false :=
  guarded_eq_ok_iff (check v) (fun x => FloatValue.reachedBy 0 x = false) _

/-- A validator is applied to what is read. -/
theorem Check.after_eq_ok_iff {β : Type} {check : Check α} {validator : α → Except String β}
    {b : β} : check.after validator v = .ok b ↔ ∃ a, check v = .ok a ∧ validator a = .ok b := by
  unfold Check.after
  cases check v with
  | error e => exact iff_of_false (by simp [bind, Except.bind]) (fun ⟨_, h, _⟩ => by cases h)
  | ok a =>
    cases hv : validator a with
    | error msg =>
      refine iff_of_false ?_ (fun ⟨a', h, hb⟩ => ?_)
      · simp [bind, Except.bind, hv, throw, throwThe, MonadExceptOf.throw]
      · rw [← Except.ok.inj h, hv] at hb
        cases hb
    | ok b' =>
      simp only [bind, Except.bind, hv, pure, Except.pure, Except.ok.injEq]
      exact ⟨fun h => ⟨a, rfl, hv.trans (congrArg _ h)⟩,
        fun ⟨a', h, hb⟩ => Except.ok.inj ((h ▸ hv).symm.trans hb)⟩

end Checks

/-- **The conversions read back what is written**: strings, integers and
booleans, and the given floats as `ofFloat` writes them. -/
structure Coercions.ReadsBack (c : Coercions) (ofFloat : FloatValue → Yaml)
    (floats : List FloatValue) : Prop where
  str : ∀ s, c.str (.leaf (.str s)) = .ok s
  int : ∀ i, c.int (.leaf (.int i)) = .ok i
  bool : ∀ b, c.bool (.leaf (.bool b)) = .ok b
  float : ∀ x ∈ floats, c.float (ofFloat x) = .ok x

section Model

variable {α : Type}

/-- A document with the fields of a model only has no key to report. -/
theorem validateModel_of_keys {model : String} {names : List String}
    {readFields : Dict YamlKey Yaml → Validated ErrorDetails α} {d : Dict YamlKey Yaml}
    (hkeys : d.keys = names.map YamlKey.str) :
    validateModel model names readFields (.map d) = readFields d := by
  have hnone : d.keys.filterMap (extraError names d) = [] := by
    rw [List.filterMap_eq_nil_iff, hkeys]
    intro k hk
    obtain ⟨name, hname, rfl⟩ := List.mem_map.mp hk
    exact if_pos hname
  show forbidExtra (readFields d) names d = readFields d
  rw [forbidExtra, hnone]

/-- **A record is what some document validates to**, its own or any, in the
same case. -/
structure Spans (validate : Yaml → Validated ErrorDetails α) (document : Yaml) (a : α)
    (range : Prop) : Prop where
  own : validate document = .ok a ↔ range
  any : (∃ t, validate t = .ok a) ↔ range

theorem spans_of_sound {validate : Yaml → Validated ErrorDetails α} {document : Yaml} {a : α}
    {range : Prop} (hsound : ∀ t, validate t = .ok a → range)
    (hcomplete : range → validate document = .ok a) : Spans validate document a range :=
  ⟨⟨hsound document, hcomplete⟩, ⟨fun ⟨t, ht⟩ => hsound t ht, fun h => ⟨_, hcomplete h⟩⟩⟩

end Model

/-! ## `MCPConfig` -/

namespace Transport

/-- The literal a transport is written as. -/
def toString : Transport → String
  | .stdio => "stdio"
  | .sse => "sse"

/-- The word a transport is written as is read back as that transport. -/
theorem literal_toString (t : Transport) (msg : String) :
    Check.literal [("stdio", Transport.stdio), ("sse", .sse)] msg (.leaf (.str t.toString))
      = .ok t := by
  cases t <;> rfl

end Transport

namespace MCPConfig

/-- **The bounds of the fields.** A timeout is not to be zero or less, which a
`nan` is not either. -/
structure WithinBounds (cfg : MCPConfig) : Prop where
  opaUrl : "http://".toList <+: cfg.opaUrl.toList ∨ "https://".toList <+: cfg.opaUrl.toList
  opaTimeoutSeconds : FloatValue.reachedBy 0 cfg.opaTimeoutSeconds = false
  maxResultBytes : 1000 ≤ cfg.maxResultBytes
  agentRole : cfg.agentRole ∈ validAgentRoles
  port : 0 < cfg.port ∧ cfg.port ≤ 65535
  toolCacheTtlSeconds : 0 ≤ cfg.toolCacheTtlSeconds

/-- Its floats, which the conversions have to read back. -/
def floats (cfg : MCPConfig) : List FloatValue :=
  [cfg.opaTimeoutSeconds, cfg.cbRecoveryTimeout, cfg.opaRetryBackoff, cfg.mcpReconnectBackoffCap,
    cfg.toolCallTimeout]

/-- **A config as a document.** -/
def dump (ofFloat : FloatValue → Yaml) (cfg : MCPConfig) : Dict YamlKey Yaml :=
  [(.str "opa_url", .leaf (.str cfg.opaUrl)),
    (.str "opa_timeout_seconds", ofFloat cfg.opaTimeoutSeconds),
    (.str "max_result_bytes", .leaf (.int cfg.maxResultBytes)),
    (.str "environment", .leaf (.str cfg.environment.toString)),
    (.str "agent_role", .leaf (.str cfg.agentRole)),
    (.str "service_name", .leaf (.str cfg.serviceName)),
    (.str "transport", .leaf (.str cfg.transport.toString)),
    (.str "port", .leaf (.int cfg.port)),
    (.str "enable_tool_cache", .leaf (.bool cfg.enableToolCache)),
    (.str "tool_cache_ttl_seconds", .leaf (.int cfg.toolCacheTtlSeconds)),
    (.str "cb_failure_threshold", .leaf (.int cfg.cbFailureThreshold)),
    (.str "cb_recovery_timeout", ofFloat cfg.cbRecoveryTimeout),
    (.str "opa_max_retries", .leaf (.int cfg.opaMaxRetries)),
    (.str "opa_retry_backoff", ofFloat cfg.opaRetryBackoff),
    (.str "mcp_reconnect_backoff_cap", ofFloat cfg.mcpReconnectBackoffCap),
    (.str "tool_call_timeout", ofFloat cfg.toolCallTimeout),
    (.str "db_host", .leaf (.str cfg.dbHost)),
    (.str "db_port", .leaf (.int cfg.dbPort)),
    (.str "db_user", .leaf (.str cfg.dbUser)),
    (.str "db_pass", .leaf (.str cfg.dbPass)),
    (.str "db_name", .leaf (.str cfg.dbName)),
    (.str "db_require_ssl", .leaf (.bool cfg.dbRequireSsl)),
    (.str "statement_cache_size", .leaf (.int cfg.statementCacheSize)),
    (.str "redis_host", .leaf (.str cfg.redisHost)),
    (.str "redis_port", .leaf (.int cfg.redisPort)),
    (.str "redis_password", .leaf (.str cfg.redisPassword)),
    (.str "salesforce_mcp_url", .leaf (.str cfg.salesforceMcpUrl)),
    (.str "payments_mcp_url", .leaf (.str cfg.paymentsMcpUrl)),
    (.str "news_mcp_url", .leaf (.str cfg.newsMcpUrl)),
    (.str "mcp_sse_url", .leaf (.str cfg.mcpSseUrl)),
    (.str "registry_url", .leaf (.str cfg.registryUrl)),
    (.str "service_url", .leaf (.str cfg.serviceUrl)),
    (.str "service_version", .leaf (.str cfg.serviceVersion)),
    (.str "internal_api_key", .leaf (.str cfg.internalApiKey))]

/-- A role validates when it is one of the four. -/
theorem validateAgentRole_eq_ok_iff {v w : String} :
    validateAgentRole v = .ok w ↔ v ∈ validAgentRoles ∧ v = w := by
  rw [validateAgentRole]
  by_cases hv : v ∈ validAgentRoles
  · rw [if_neg (not_not.mpr hv), Except.ok.injEq]
    exact (and_iff_right hv).symm
  · rw [if_pos hv]
    exact iff_of_false (by simp) (fun h => hv h.1)

/-- A URL validates when it is one of HTTP or HTTPS. -/
theorem validateOpaUrl_eq_ok_iff {v w : String} :
    validateOpaUrl v = .ok w
      ↔ ("http://".toList <+: v.toList ∨ "https://".toList <+: v.toList) ∧ v = w := by
  rw [validateOpaUrl]
  by_cases hempty : v = ""
  · subst hempty
    exact iff_of_false (by simp) (fun h => absurd h.1 (by decide))
  rw [if_neg hempty]
  by_cases hv : "http://".toList <+: v.toList ∨ "https://".toList <+: v.toList
  · have htest : ("http://".toList.isPrefixOf v.toList
        || "https://".toList.isPrefixOf v.toList) = true := by
      rw [Bool.or_eq_true, List.isPrefixOf_iff_prefix, List.isPrefixOf_iff_prefix]
      exact hv
    rw [htest, if_neg (by decide), Except.ok.injEq]
    exact (and_iff_right hv).symm
  · have htest : ("http://".toList.isPrefixOf v.toList
        || "https://".toList.isPrefixOf v.toList) = false := by
      rw [← Bool.not_eq_true, Bool.or_eq_true, List.isPrefixOf_iff_prefix,
        List.isPrefixOf_iff_prefix]
      exact hv
    rw [htest, if_pos (by decide)]
    exact iff_of_false (by simp) (fun h => hv h.1)

/-- **What validates is within the bounds**, since each field is read by the
check that states its bound, and a value out of it is reported. -/
theorem withinBounds_of_readFields {c : Coercions} {d : Dict YamlKey Yaml} {cfg : MCPConfig}
    (h : readFields c d = .ok cfg) : cfg.WithinBounds := by
  unfold readFields at h
  -- the fields behind `tool_cache_ttl_seconds` have no bounds, from the last one
  iterate 24
    obtain ⟨_, _, h', -, rfl⟩ := Validated.ap_eq_ok_iff.mp h
    clear h
    rename' h' => h
  obtain ⟨_, ttl, h₁, httl, rfl⟩ := Validated.ap_eq_ok_iff.mp h
  obtain ⟨_, _, h₂, -, rfl⟩ := Validated.ap_eq_ok_iff.mp h₁
  obtain ⟨_, port, h₃, hport, rfl⟩ := Validated.ap_eq_ok_iff.mp h₂
  obtain ⟨_, _, h₄, -, rfl⟩ := Validated.ap_eq_ok_iff.mp h₃
  obtain ⟨_, _, h₅, -, rfl⟩ := Validated.ap_eq_ok_iff.mp h₄
  obtain ⟨_, role, h₆, hrole, rfl⟩ := Validated.ap_eq_ok_iff.mp h₅
  obtain ⟨_, _, h₇, -, rfl⟩ := Validated.ap_eq_ok_iff.mp h₆
  obtain ⟨_, bytes, h₈, hbytes, rfl⟩ := Validated.ap_eq_ok_iff.mp h₇
  obtain ⟨_, timeout, h₉, htimeout, rfl⟩ := Validated.ap_eq_ok_iff.mp h₈
  obtain ⟨_, url, h₀, hurl, rfl⟩ := Validated.ap_eq_ok_iff.mp h₉
  obtain rfl := Except.ok.inj h₀
  constructor
  · refine range_of_field (fun a => "http://".toList <+: a.toList ∨ "https://".toList <+: a.toList)
      hurl (fun v b hb => ?_) (by decide)
    obtain ⟨a, -, hok⟩ := Check.after_eq_ok_iff.mp hb
    obtain ⟨hscheme, rfl⟩ := validateOpaUrl_eq_ok_iff.mp hok
    exact hscheme
  · exact range_of_field (fun a => FloatValue.reachedBy 0 a = false) htimeout
      (fun v b hb => (Check.positive_eq_ok_iff.mp hb).2) (by decide +kernel)
  · exact range_of_field (1000 ≤ ·) hbytes (fun v b hb => (Check.ge_eq_ok_iff.mp hb).2) (by decide)
  · refine range_of_field (· ∈ validAgentRoles) hrole (fun v b hb => ?_) (by decide)
    obtain ⟨a, -, hok⟩ := Check.after_eq_ok_iff.mp hb
    obtain ⟨hmem, rfl⟩ := validateAgentRole_eq_ok_iff.mp hok
    exact hmem
  · refine range_of_field (fun a => 0 < a ∧ a ≤ 65535) hport (fun v b hb => ?_) (by decide)
    obtain ⟨hgt, hle⟩ := Check.le_eq_ok_iff.mp hb
    exact ⟨(Check.gt_eq_ok_iff.mp hgt).2, hle⟩
  · exact range_of_field (0 ≤ ·) httl (fun v b hb => (Check.ge_eq_ok_iff.mp hb).2) (by decide)

/-- **A record within the bounds is read from its own document.** -/
theorem readFields_dump {c : Coercions} {ofFloat : FloatValue → Yaml} {cfg : MCPConfig}
    (hc : c.ReadsBack ofFloat cfg.floats) (h : cfg.WithinBounds) :
    readFields c (cfg.dump ofFloat) = .ok cfg := by
  have hfloat : ∀ x ∈ cfg.floats, c.float (ofFloat x) = .ok x := hc.float
  cases cfg
  unfold readFields
  -- from the last field to the first
  iterate 9 refine ap_field ?_ rfl (hc.str _)
  refine ap_field ?_ rfl (hc.int _)
  refine ap_field ?_ rfl (hc.str _)
  refine ap_field ?_ rfl (hc.int _)
  refine ap_field ?_ rfl (hc.bool _)
  iterate 3 refine ap_field ?_ rfl (hc.str _)
  refine ap_field ?_ rfl (hc.int _)
  refine ap_field ?_ rfl (hc.str _)
  iterate 3 refine ap_field ?_ rfl (hfloat _ (by simp [floats]))
  refine ap_field ?_ rfl (hc.int _)
  refine ap_field ?_ rfl (hfloat _ (by simp [floats]))
  refine ap_field ?_ rfl (hc.int _)
  refine ap_field ?_ rfl (Check.ge_eq_ok_iff.mpr ⟨hc.int _, h.toolCacheTtlSeconds⟩)
  refine ap_field ?_ rfl (hc.bool _)
  refine ap_field ?_ rfl (Check.le_eq_ok_iff.mpr
    ⟨Check.gt_eq_ok_iff.mpr ⟨hc.int _, h.port.1⟩, h.port.2⟩)
  refine ap_field ?_ rfl (Transport.literal_toString _ _)
  refine ap_field ?_ rfl (hc.str _)
  refine ap_field ?_ rfl (Check.after_eq_ok_iff.mpr
    ⟨_, hc.str _, validateAgentRole_eq_ok_iff.mpr ⟨h.agentRole, rfl⟩⟩)
  refine ap_field ?_ rfl (Environment.check_eq_ok_iff.mpr rfl)
  refine ap_field ?_ rfl (Check.ge_eq_ok_iff.mpr ⟨hc.int _, h.maxResultBytes⟩)
  refine ap_field ?_ rfl (Check.positive_eq_ok_iff.mpr
    ⟨hfloat _ List.mem_cons_self, h.opaTimeoutSeconds⟩)
  refine ap_field ?_ rfl (Check.after_eq_ok_iff.mpr
    ⟨_, hc.str _, validateOpaUrl_eq_ok_iff.mpr ⟨h.opaUrl, rfl⟩⟩)
  rfl

end MCPConfig

/-! ## `AgentConfig` -/

namespace AgentConfig

/-- **The bounds of the fields.** The recursion limit is clamped and not
refused. -/
structure WithinBounds (cfg : AgentConfig) : Prop where
  modelRoute : cfg.modelRoute ≠ ""
  contextTokenLimit : 100 ≤ cfg.contextTokenLimit
  recursionLimit : 1 ≤ cfg.recursionLimit ∧ cfg.recursionLimit ≤ 50
  maxMessageLength : 100 ≤ cfg.maxMessageLength
  toolCacheTtlSeconds : 0 ≤ cfg.toolCacheTtlSeconds

/-- **A config as a document.** -/
def dump (ofFloat : FloatValue → Yaml) (cfg : AgentConfig) : Dict YamlKey Yaml :=
  [(.str "environment", .leaf (.str cfg.environment.toString)),
    (.str "model_route", .leaf (.str cfg.modelRoute)),
    (.str "summary_model_route", .leaf (.str cfg.summaryModelRoute)),
    (.str "router_model_route", .leaf (.str cfg.routerModelRoute)),
    (.str "specialist_model_route", .leaf (.str cfg.specialistModelRoute)),
    (.str "synthesis_model_route", .leaf (.str cfg.synthesisModelRoute)),
    (.str "litellm_base_url", .leaf (.str cfg.litellmBaseUrl)),
    (.str "internal_api_key", .leaf (.str cfg.internalApiKey)),
    (.str "checkpointer_type", .leaf (.str cfg.checkpointerType)),
    (.str "checkpointer_db_url", .leaf (.str cfg.checkpointerDbUrl)),
    (.str "database_url", .leaf (.str cfg.databaseUrl)),
    (.str "enable_compaction", .leaf (.bool cfg.enableCompaction)),
    (.str "context_token_limit", .leaf (.int cfg.contextTokenLimit)),
    (.str "recursion_limit", .leaf (.int cfg.recursionLimit)),
    (.str "max_message_length", .leaf (.int cfg.maxMessageLength)),
    (.str "enable_tool_cache", .leaf (.bool cfg.enableToolCache)),
    (.str "tool_cache_ttl_seconds", .leaf (.int cfg.toolCacheTtlSeconds)),
    (.str "mcp_startup_timeout", ofFloat cfg.mcpStartupTimeout),
    (.str "chart_max_data_points", .leaf (.int cfg.chartMaxDataPoints)),
    (.str "registry_url", .leaf (.str cfg.registryUrl)),
    (.str "service_url", .leaf (.str cfg.serviceUrl)),
    (.str "service_version", .leaf (.str cfg.serviceVersion))]

/-- A route validates to itself when it is not empty. -/
theorem validateModelRoute_eq_ok_iff {v w : String} :
    validateModelRoute v = .ok w ↔ v ≠ "" ∧ v = w := by
  rw [validateModelRoute]
  by_cases hv : v = ""
  · rw [if_pos hv]
    exact iff_of_false (by simp) (fun h => h.1 hv)
  · rw [if_neg hv, Except.ok.injEq]
    exact (and_iff_right hv).symm

/-- A recursion limit is clamped into its bounds, where it stays as it is. -/
theorem clampRecursionLimit_of_bounds {v : ℤ} (h : 1 ≤ v ∧ v ≤ 50) :
    clampRecursionLimit v = .ok v := by
  rw [clampRecursionLimit, min_eq_left h.2, max_eq_right h.1]

theorem bounds_of_clampRecursionLimit {v w : ℤ} (h : clampRecursionLimit v = .ok w) :
    1 ≤ w ∧ w ≤ 50 := by
  obtain rfl := Except.ok.inj h
  exact ⟨le_max_left _ _, max_le (by norm_num) (min_le_right _ _)⟩

/-- **What validates is within the bounds**, those of the other model being read
in the same way. -/
theorem withinBounds_of_readFields {c : Coercions} {d : Dict YamlKey Yaml} {cfg : AgentConfig}
    (h : readFields c d = .ok cfg) : cfg.WithinBounds := by
  unfold readFields at h
  -- the fields behind `tool_cache_ttl_seconds` have no bounds, from the last one
  iterate 5
    obtain ⟨_, _, h', -, rfl⟩ := Validated.ap_eq_ok_iff.mp h
    clear h
    rename' h' => h
  obtain ⟨_, ttl, h₁, httl, rfl⟩ := Validated.ap_eq_ok_iff.mp h
  obtain ⟨_, _, h₂, -, rfl⟩ := Validated.ap_eq_ok_iff.mp h₁
  obtain ⟨_, length, h₃, hlength, rfl⟩ := Validated.ap_eq_ok_iff.mp h₂
  obtain ⟨_, recursion, h₄, hrecursion, rfl⟩ := Validated.ap_eq_ok_iff.mp h₃
  obtain ⟨_, tokens, h₅, htokens, rfl⟩ := Validated.ap_eq_ok_iff.mp h₄
  clear h h₁ h₂ h₃ h₄
  -- nor have those between `model_route` and `context_token_limit`
  iterate 10
    obtain ⟨_, _, h', -, rfl⟩ := Validated.ap_eq_ok_iff.mp h₅
    clear h₅
    rename' h' => h₅
  obtain ⟨_, route, h₆, hroute, rfl⟩ := Validated.ap_eq_ok_iff.mp h₅
  obtain ⟨_, _, h₇, -, rfl⟩ := Validated.ap_eq_ok_iff.mp h₆
  obtain rfl := Except.ok.inj h₇
  constructor
  · refine range_of_field (· ≠ "") hroute (fun v b hb => ?_) (by decide)
    obtain ⟨a, -, hok⟩ := Check.after_eq_ok_iff.mp hb
    obtain ⟨hne, rfl⟩ := validateModelRoute_eq_ok_iff.mp hok
    exact hne
  · exact range_of_field (100 ≤ ·) htokens (fun v b hb => (Check.ge_eq_ok_iff.mp hb).2) (by decide)
  · refine range_of_field (fun a => 1 ≤ a ∧ a ≤ 50) hrecursion (fun v b hb => ?_) (by decide)
    obtain ⟨a, -, hok⟩ := Check.after_eq_ok_iff.mp hb
    exact bounds_of_clampRecursionLimit hok
  · exact range_of_field (100 ≤ ·) hlength (fun v b hb => (Check.ge_eq_ok_iff.mp hb).2) (by decide)
  · exact range_of_field (0 ≤ ·) httl (fun v b hb => (Check.ge_eq_ok_iff.mp hb).2) (by decide)

/-- **A record within the bounds is read from its own document.** -/
theorem readFields_dump {c : Coercions} {ofFloat : FloatValue → Yaml} {cfg : AgentConfig}
    (hc : c.ReadsBack ofFloat [cfg.mcpStartupTimeout]) (h : cfg.WithinBounds) :
    readFields c (cfg.dump ofFloat) = .ok cfg := by
  cases cfg
  unfold readFields
  -- from the last field to the first
  iterate 3 refine ap_field ?_ rfl (hc.str _)
  refine ap_field ?_ rfl (hc.int _)
  refine ap_field ?_ rfl (hc.float _ List.mem_cons_self)
  refine ap_field ?_ rfl (Check.ge_eq_ok_iff.mpr ⟨hc.int _, h.toolCacheTtlSeconds⟩)
  refine ap_field ?_ rfl (hc.bool _)
  refine ap_field ?_ rfl (Check.ge_eq_ok_iff.mpr ⟨hc.int _, h.maxMessageLength⟩)
  refine ap_field ?_ rfl (Check.after_eq_ok_iff.mpr
    ⟨_, hc.int _, clampRecursionLimit_of_bounds h.recursionLimit⟩)
  refine ap_field ?_ rfl (Check.ge_eq_ok_iff.mpr ⟨hc.int _, h.contextTokenLimit⟩)
  refine ap_field ?_ rfl (hc.bool _)
  iterate 9 refine ap_field ?_ rfl (hc.str _)
  refine ap_field ?_ rfl (Check.after_eq_ok_iff.mpr
    ⟨_, hc.str _, validateModelRoute_eq_ok_iff.mpr ⟨h.modelRoute, rfl⟩⟩)
  refine ap_field ?_ rfl (Environment.check_eq_ok_iff.mpr rfl)
  rfl

end AgentConfig

/-! ## Both models -/

/-- **The configs there are.** Where the conversions read back what is written,
a record of either model is what some document validates to if and only if it
is within the bounds of its fields, and then its own document does. -/
theorem modelValidate_spans {c : Coercions} {ofFloat : FloatValue → Yaml} (mcp : MCPConfig)
    (agent : AgentConfig) (hmcp : c.ReadsBack ofFloat mcp.floats)
    (hagent : c.ReadsBack ofFloat [agent.mcpStartupTimeout]) :
    Spans (MCPConfig.modelValidate c) (.map (mcp.dump ofFloat)) mcp mcp.WithinBounds
      ∧ Spans (AgentConfig.modelValidate c) (.map (agent.dump ofFloat)) agent
        agent.WithinBounds := by
  constructor
  · refine spans_of_sound (fun t ht => ?_) (fun h => ?_)
    · obtain ⟨d, -, hd⟩ := validateModel_eq_ok ht
      exact MCPConfig.withinBounds_of_readFields hd
    · rw [MCPConfig.modelValidate, validateModel_of_keys (by rfl)]
      exact MCPConfig.readFields_dump hmcp h
  · refine spans_of_sound (fun t ht => ?_) (fun h => ?_)
    · obtain ⟨d, -, hd⟩ := validateModel_eq_ok ht
      exact AgentConfig.withinBounds_of_readFields hd
    · rw [AgentConfig.modelValidate, validateModel_of_keys (by rfl)]
      exact AgentConfig.readFields_dump hagent h

/-- A float that is written as an integer. -/
def integralFloat : FloatValue → Yaml
  | .finite q => .leaf (.int q.num)
  | _ => Yaml.null

/-- The conversions that convert nothing read back every integral float. -/
theorem exact_readsBack {floats : List FloatValue}
    (h : ∀ x ∈ floats, ∃ i : ℤ, x = .finite i) :
    Coercions.exact.ReadsBack integralFloat floats where
  str _ := rfl
  int _ := rfl
  bool _ := rfl
  float x hx := by
    obtain ⟨i, rfl⟩ := h x hx
    rfl

/-- A config whose floats are integral. -/
def stagingConfig : MCPConfig :=
  { environment := .staging, opaRetryBackoff := .finite 1, serviceName := "crm-mcp" }

/-- **A recursion limit that no document states.** One config is read from its
own document, the other from none. -/
theorem modelValidate_spans_staging :
    (∃ t, MCPConfig.modelValidate Coercions.exact t = .ok stagingConfig)
      ∧ ¬ ∃ t, AgentConfig.modelValidate Coercions.exact t
        = .ok { environment := .staging, recursionLimit := 51 } := by
  have hfloats : ∀ x ∈ stagingConfig.floats, ∃ i : ℤ, x = .finite i := by
    intro x hx
    simp only [MCPConfig.floats, stagingConfig, List.mem_cons, List.not_mem_nil, or_false] at hx
    rcases hx with rfl | rfl | rfl | rfl | rfl
    · exact ⟨2, rfl⟩
    · exact ⟨30, rfl⟩
    · exact ⟨1, rfl⟩
    · exact ⟨60, rfl⟩
    · exact ⟨30, rfl⟩
  have hspans := modelValidate_spans stagingConfig { environment := .staging, recursionLimit := 51 }
    (exact_readsBack hfloats) (exact_readsBack fun x hx => ⟨120, List.mem_singleton.mp hx⟩)
  refine ⟨hspans.1.any.mpr ?_, fun h => ?_⟩
  · exact ⟨by decide, by decide +kernel, by decide, by decide, by decide, by decide⟩
  · exact absurd (hspans.2.any.mp h).recursionLimit.2 (by decide)
