import PlatformSdk.AgentTeardown
import PlatformSdk.McpTeardown

/-!
# Starting without the registry

Registration is meant not to block: a service that cannot reach the registry
starts anyway. `run_with_registration` catches what `_register` raises, and
goes on. The two lifespans do not, and `_register` catches nothing either: with
the registry down neither an agent nor an MCP service gets to its `yield`,
except where there is nowhere to register – the two URLs differ in nothing but
slashes at their ends, or that of the registry is made of slashes
(`starts_without_registry_iff`).
-/

open Application (registryTarget_eq_none_iff)

/-- **The registry is down while an MCP service starts**, and nothing else
raises. -/
structure McpService.OnlyRegistryDown (reply : Registry.Reply)
    (raises : McpStep → Option StepExc) : Prop where
  isDown : reply.IsDown
  registerSelf : raises (.registry .registerSelf) = Registry.raisedBy (Registry.registerSelf reply)
  others : ∀ c, place c = .startup → c ≠ .registry .registerSelf → raises c = none

/-- **The registry is down while an agent starts**, and nothing else raises but
the lookups, which are caught. -/
structure BaseAgentApp.OnlyRegistryDown (setup : AgentSetup) (world : AgentWorld)
    (reply : Registry.Reply) (raises : AgentStep → Option StepExc) : Prop where
  isDown : reply.IsDown
  registerSelf : raises (.registry .registerSelf) = Registry.raisedBy (Registry.registerSelf reply)
  others : ∀ c, place c = .startup → c ≠ .registry .registerSelf → raises c = none
  lookups : ∀ i exc, world.lookup i = .error exc → exc.isException = true
  store : setup.requiresConversationStore = true → world.store ≠ none

namespace McpService

/-- An MCP service starts when it has nowhere to register. -/
theorem body_mem_log_iff_of_down {setup : McpSetup} {s : ServiceResources} {registry : Bool}
    {reply : Registry.Reply} {raises : McpStep → Option StepExc}
    (h : OnlyRegistryDown reply raises) :
    .body ∈ (lifespan setup s registry).log raises ↔ registerTarget setup.config = .ok none := by
  rw [lifespan_eq_script]
  refine (registers_plan setup s registry).body_mem_log_iff ?_ ?_ ?_
  · rw [h.registerSelf]
    exact Registry.raisedBy_registerSelf_ne_none h.isDown
  · rw [openingActs, Script.clear_append_iff, Script.clear_actIf_iff, Script.clear_actIf_iff]
    exact ⟨fun _ => h.others _ rfl (by simp), fun _ => h.others _ rfl (by simp)⟩
  · simp only [createActs, Script.clear_append_iff, Script.clear_actIf_iff]
    exact ⟨fun _ => h.others _ rfl (by simp), fun _ => h.others _ rfl (by simp),
      fun _ => h.others _ rfl (by simp), List.forall_mem_singleton.mpr (h.others _ rfl (by simp))⟩

end McpService

namespace BaseAgentApp

/-- The lookups are caught, each by an `except Exception` of its own, so a
startup gets past them. -/
theorem clear_lookupActs {world : AgentWorld} {registry : Bool}
    {raises : AgentStep → Option StepExc}
    (h : ∀ i exc, world.lookup i = .error exc → exc.isException = true) (i : ℕ)
    (names : List String) : Clear raises (lookupActs world registry i names) := by
  induction names generalizing i with
  | nil => exact Script.clear_nil
  | cons name names ih =>
    rw [lookupActs]
    split
    · refine Script.clear_cons_iff.mpr ⟨trivial, ?_⟩
      split
      · next exc hexc =>
        rw [if_pos (h i exc hexc)]
        exact ih (i + 1)
      · exact ih (i + 1)
    · exact ih (i + 1)

/-- Nothing between `_register` and the `yield` raises. -/
theorem clear_startActs {setup : AgentSetup} {world : AgentWorld} {registry : Bool}
    {raises : AgentStep → Option StepExc}
    (hothers : ∀ c, place c = .startup → (∀ r, c ≠ .registry r) → raises c = none)
    (hlookups : ∀ i exc, world.lookup i = .error exc → exc.isException = true)
    (hstore : setup.requiresConversationStore = true → world.store ≠ none) :
    Clear raises (startActs setup world registry) := by
  have hfind : Clear raises (findActs setup world registry) := by
    rw [findActs]
    split
    · exact clear_lookupActs hlookups _ _
    · exact Script.clear_actIf_iff.mpr fun _ => hothers _ rfl (by simp)
  have hconnect : Clear raises (connectActs (bridgesOf setup world registry)) := by
    rw [connectActs]
    split
    · exact Script.clear_nil
    · rw [Script.clear_append_iff]
      exact ⟨List.forall_mem_map.mpr fun _ _ => trivial,
        List.forall_mem_singleton.mpr (hothers _ rfl (by simp))⟩
  have hmake : Clear raises (makeStoreActs setup world) := by
    rw [makeStoreActs]
    split
    · next hrequires =>
      obtain ⟨store, hfound⟩ := Option.ne_none_iff_exists'.mp (hstore hrequires)
      rw [hfound]
      exact List.forall_mem_singleton.mpr (hothers _ rfl (by simp))
    · exact Script.clear_nil
  simp only [startActs, Script.clear_cons_iff, Script.clear_append_iff, Script.clear_actIf_iff]
  exact ⟨hothers _ rfl (by simp), hfind, hconnect, fun _ => hothers _ rfl (by simp), hmake,
    fun _ => hothers _ rfl (by simp), hothers _ rfl (by simp), hothers _ rfl (by simp),
    Script.clear_nil⟩

/-- An agent starts when it has nowhere to register. -/
theorem body_mem_log_iff_of_down {setup : AgentSetup} {world : AgentWorld} {registry : Bool}
    {reply : Registry.Reply} {raises : AgentStep → Option StepExc}
    (h : OnlyRegistryDown setup world reply raises) :
    .body ∈ (lifespan setup world registry).log raises ↔ targetOf setup = .ok none := by
  have hothers : ∀ c, place c = .startup → (∀ r, c ≠ .registry r) → raises c = none :=
    fun c hc hr => h.others c hc (hr .registerSelf)
  rw [lifespan_eq_script]
  refine (registers_plan setup world registry).body_mem_log_iff ?_ ?_ ?_
  · rw [h.registerSelf]
    exact Registry.raisedBy_registerSelf_ne_none h.isDown
  · exact Script.clear_actIf_iff.mpr fun _ => hothers _ rfl (by simp)
  · exact clear_startActs hothers h.lookups h.store

end BaseAgentApp

/-- **Nowhere to register**: the two URLs differ in nothing but slashes at their
ends, or that of the registry is made of slashes. -/
def NowhereToRegister (registryUrl serviceUrl : String) : Prop :=
  rstripSlash registryUrl = "" ∨ rstripSlash registryUrl = rstripSlash serviceUrl

/-- **With the registry down a service starts exactly when it has nowhere to
register.** `register_self` turns what the client raises into an exception of
its own, and neither the registration nor the lifespans catch it. -/
theorem starts_without_registry_iff (service : McpSetup) (s : ServiceResources)
    (agent : AgentSetup) (world : AgentWorld) (registry registry' : Bool)
    {reply : Registry.Reply} {raises : McpStep → Option StepExc}
    {raises' : AgentStep → Option StepExc} (h : McpService.OnlyRegistryDown reply raises)
    (h' : BaseAgentApp.OnlyRegistryDown agent world reply raises') :
    (.body ∈ (McpService.lifespan service s registry).log raises
        ↔ NowhereToRegister service.config.registryUrl service.config.serviceUrl)
      ∧ (.body ∈ (BaseAgentApp.lifespan agent world registry').log raises'
        ↔ NowhereToRegister agent.config.registryUrl agent.config.serviceUrl) :=
  ⟨(McpService.body_mem_log_iff_of_down h).trans registryTarget_eq_none_iff,
    (BaseAgentApp.body_mem_log_iff_of_down h').trans registryTarget_eq_none_iff⟩

/-- The registry refuses the connection. -/
def refused : Registry.Reply := .requestError "All connection attempts failed"

/-- An MCP service with these URLs. -/
def serviceAt (registryUrl serviceUrl : String) : McpSetup where
  config := { environment := .dev, registryUrl := registryUrl, serviceUrl := serviceUrl }
  requiresDatabase := false
  redisInstalled := false

/-- An agent with these URLs. -/
def agentAt (registryUrl serviceUrl : String) : AgentSetup where
  className := "AnalyticsAgent"
  config := { environment := .dev, registryUrl := registryUrl, serviceUrl := serviceUrl }

/-- What an MCP service raises when the registry refuses the connection. -/
def serviceRefused : McpStep → Option StepExc
  | .registry .registerSelf => Registry.raisedBy (Registry.registerSelf refused)
  | _ => none

/-- What an agent raises then. -/
def agentRefused : AgentStep → Option StepExc
  | .registry .registerSelf => Registry.raisedBy (Registry.registerSelf refused)
  | _ => none

theorem onlyRegistryDown_serviceRefused : McpService.OnlyRegistryDown refused serviceRefused where
  isDown := trivial
  registerSelf := rfl
  others := fun c _ hc => by
    unfold serviceRefused
    split
    · exact absurd rfl hc
    · rfl

theorem onlyRegistryDown_agentRefused (registryUrl serviceUrl : String) :
    BaseAgentApp.OnlyRegistryDown (agentAt registryUrl serviceUrl) BaseAgentApp.emptyWorld refused
      agentRefused where
  isDown := trivial
  registerSelf := rfl
  others := fun c _ hc => by
    unfold agentRefused
    split
    · exact absurd rfl hc
    · rfl
  lookups := fun i exc h => by
    cases h
    rfl
  store := nofun

/-- The registry itself starts, under a URL with a slash at its end. -/
theorem starts_without_registry_itself :
    .body ∈ (McpService.lifespan (serviceAt "http://registry:8090/" "http://registry:8090")
        (McpService.init fun _ => false).resources false).log serviceRefused
      ∧ .body ∈ (BaseAgentApp.lifespan (agentAt "http://registry:8090/" "http://registry:8090")
        BaseAgentApp.emptyWorld false).log agentRefused := by
  have hsame : NowhereToRegister "http://registry:8090/" "http://registry:8090" :=
    Or.inr (by decide)
  have hstarts := starts_without_registry_iff
    (serviceAt "http://registry:8090/" "http://registry:8090")
    (McpService.init fun _ => false).resources
    (agentAt "http://registry:8090/" "http://registry:8090") BaseAgentApp.emptyWorld false false
    onlyRegistryDown_serviceRefused (onlyRegistryDown_agentRefused _ _)
  exact ⟨hstarts.1.mpr hsame, hstarts.2.mpr hsame⟩

/-- **A refused connection keeps both from starting**, a server and an agent. -/
theorem not_starts_without_registry :
    .body ∉ (McpService.lifespan (serviceAt "http://registry:8090" "http://data-mcp:8080")
        (McpService.init fun _ => false).resources false).log serviceRefused
      ∧ .body ∉ (BaseAgentApp.lifespan (agentAt "http://registry:8090" "http://analytics:8000")
        BaseAgentApp.emptyWorld false).log agentRefused := by
  decide
