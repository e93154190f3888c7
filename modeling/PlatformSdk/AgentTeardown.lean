import PlatformSdk.Application

/-!
# What the lifespan of an agent leaves behind

One run of `BaseAgentApp.lifespan` as a script: the agent registers, looks up
the services it depends on and connects a bridge to each that is healthy, sets
up its checkpointer and its conversation store, builds its dependencies and
serves; in the `finally` it calls `on_shutdown`, deregisters and disconnects
the store and the bridges, one after the other.

As in an MCP service the `try` begins behind the startup, and its `finally` is
calls in a row (`leaves_nothing_iff`).
-/

/-! ## What a run finds -/

/-- `healthy`: the state in the registry's record is the one of a service that
has registered. -/
def RegistryEntry.healthy (entry : RegistryEntry) : Bool := entry.state = .registered

/-- **A conversation store**, as far as `hasattr` tells: which of its two
methods the lifespan calls. -/
structure ConversationStore where
  hasConnect : Bool
  hasDisconnect : Bool

/-- **The calls of the lifespan**, each of which can raise. What a call reads
and returns is in what a run finds. -/
inductive AgentStep where
  | setupTelemetry
  | registry (step : RegistryStep)
  | serviceAgentContext
  /-- The `lookup` of the dependency at a position. -/
  | lookup (i : ℕ)
  | warnLegacy
  /-- The `connect` of a bridge, which runs as a task of its own. -/
  | connect (name : String)
  /-- The `await` for all of these. -/
  | gather
  | setupCheckpointer
  | buildConversationStore
  | storeConnect
  | buildDependencies
  | onStarted
  /-- What is served at the `yield`. -/
  | body
  | onShutdown
  | flushLangfuse
  | storeDisconnect
  | disconnect (name : String)
  deriving DecidableEq

/-- **What an agent is**: its configuration and its class attributes. -/
structure AgentSetup where
  className : String
  config : AgentConfig
  mcpServers : Dict String String := []
  mcpDependencies : List String := []
  enableTelemetry : Bool := true
  requiresCheckpointer : Bool := false
  requiresConversationStore : Bool := false

/-- **What a run finds**: what the lookup of each dependency comes to, the
environment, `str.upper`, and what `build_conversation_store` returns. -/
structure AgentWorld where
  lookup : ℕ → Except StepExc RegistryEntry
  environ : Environ
  upper : String → String
  store : Option ConversationStore

namespace BaseAgentApp

open Script (call callIf callIf_eq actIf tryFinally perform perform_append)
open Application (registryTarget registerActs deregisterActs acloseActs holdsClient)

/-! ## The script -/

/-- `_resolve_mcp_url`: an environment variable named after the service comes
before the default. -/
def resolveMcpUrl (world : AgentWorld) (name default : String) : String :=
  let envVar := (world.upper name).map (fun ch => if ch = '-' then '_' else ch) ++ "_URL"
  (world.environ envVar).getD default

/-- `str(entry.url).rstrip("/") + "/sse"`, where an entry without a URL spells
`None`. -/
def bridgeUrl (entry : RegistryEntry) : String := rstripSlash (entry.url.getD "None") ++ "/sse"

/-- The bridges to the dependencies from position `i` on, added to those there
are. Without a registry client each lookup is an `AttributeError`, and caught
like any other. -/
def lookupBridges (world : AgentWorld) (registry : Bool) :
    ℕ → List String → Dict String String → Script AgentStep StepExc (Dict String String)
  | _, [], bridges => pure bridges
  | i, name :: names, bridges =>
    if registry then do
      Script.start (.lookup i)
      match world.lookup i with
      | .error exc =>
        if exc.isException then lookupBridges world registry (i + 1) names bridges
        else Script.throw exc
      | .ok entry =>
        if entry.healthy then
          lookupBridges world registry (i + 1) names (bridges.set name (bridgeUrl entry))
        else lookupBridges world registry (i + 1) names bridges
    else lookupBridges world registry (i + 1) names bridges

/-- `_connect_all`: the bridges connect as tasks of their own, which are awaited
together. -/
def connectAll (bridges : Dict String String) : Script AgentStep StepExc Unit :=
  if bridges = [] then pure ()
  else do
    bridges.keys.forM (fun name => Script.start (.connect name))
    call .gather

/-- **`_connect_bridges`**: the bridges, by their URLs. The dependencies are
looked up where there are any, and else the older list of servers is used. -/
def connectBridges (setup : AgentSetup) (world : AgentWorld) (registry : Bool) :
    Script AgentStep StepExc (Dict String String) :=
  if setup.mcpDependencies ≠ [] then do
    let bridges ← lookupBridges world registry 0 setup.mcpDependencies []
    connectAll bridges
    pure bridges
  else do
    callIf (setup.mcpServers ≠ []) .warnLegacy
    let bridges := Dict.update [] (setup.mcpServers.map fun server =>
      (server.1, resolveMcpUrl world server.1 server.2))
    connectAll bridges
    pure bridges

/-- `_make_store`: a store that is required and not built is an error. -/
def makeStore (setup : AgentSetup) (world : AgentWorld) :
    Script AgentStep StepExc (Option ConversationStore) :=
  if setup.requiresConversationStore then do
    call .buildConversationStore
    match world.store with
    | none =>
      Script.throw (.notImplementedError (setup.className
        ++ " declares requires_conversation_store=True "
        ++ "but build_conversation_store() returned None"))
    | some store => pure (some store)
  else pure none

/-- **`lifespan`**, of an agent that holds a registry client or not. What
`flush_langfuse` raises it catches itself. -/
def lifespan (setup : AgentSetup) (world : AgentWorld) (registry : Bool) :
    Script AgentStep StepExc Unit := do
  callIf setup.enableTelemetry .setupTelemetry
  let registry ← Application.register .registry
    (registryTarget setup.config.registryUrl setup.config.serviceUrl) registry
  call .serviceAgentContext
  let bridges ← connectBridges setup world registry
  callIf setup.requiresCheckpointer .setupCheckpointer
  let store ← makeStore setup world
  callIf (store.any ConversationStore.hasConnect) .storeConnect
  call .buildDependencies
  call .onStarted
  tryFinally (call .body) (do
    call .onShutdown
    Application.deregister .registry registry
    (if setup.enableTelemetry then Script.start .flushLangfuse else pure ())
    callIf (store.any ConversationStore.hasDisconnect) .storeDisconnect
    bridges.keys.forM (fun name => call (.disconnect name)))

/-! ## Its plan -/

section Plan

variable (setup : AgentSetup) (world : AgentWorld) (registry : Bool)

/-- The acts of `lookupBridges`, one for each dependency and in their order. -/
def lookupActs (i : ℕ) : List String → List (Act AgentStep StepExc)
  | [] => []
  | _ :: names =>
    if registry then
      .start (.lookup i) :: (match world.lookup i with
        | .error exc => if exc.isException then lookupActs (i + 1) names else [.fail exc]
        | .ok _ => lookupActs (i + 1) names)
    else lookupActs (i + 1) names

/-- The bridges it gives, a later lookup of a name writing over an earlier one.
-/
def foundBridges (i : ℕ) : List String → Dict String String → Dict String String
  | [], bridges => bridges
  | name :: names, bridges =>
    if registry then
      match world.lookup i with
      | .error _ => foundBridges (i + 1) names bridges
      | .ok entry =>
        foundBridges (i + 1) names
          (if entry.healthy then bridges.set name (bridgeUrl entry) else bridges)
    else foundBridges (i + 1) names bridges

theorem lookupBridges_eq (i : ℕ) (names : List String) (bridges : Dict String String) :
    lookupBridges world registry i names bridges
      = (perform (lookupActs world registry i names) >>= fun _ =>
          pure (foundBridges world registry i names bridges)) := by
  induction names generalizing i bridges with
  | nil => rfl
  | cons name names ih =>
    cases registry with
    | false =>
      exact ih (i + 1) bridges
    | true =>
      rw [lookupBridges, lookupActs, foundBridges, if_pos rfl, if_pos rfl, if_pos rfl, perform,
        bind_assoc]
      cases world.lookup i with
      | error exc =>
        cases hexc : exc.isException with
        | true => simp only [hexc, if_true, Act.script, ih]
        | false =>
          simp only [hexc, Bool.false_eq_true, if_false, Script.perform_singleton, Act.script]
          rfl
      | ok entry =>
        cases hhealthy : entry.healthy <;>
          simp only [hhealthy, if_true, Bool.false_eq_true, if_false, Act.script, ih]

/-- The acts of `connectAll`, the last of which waits for the others. -/
def connectActs (bridges : Dict String String) : List (Act AgentStep StepExc) :=
  if bridges = [] then []
  else bridges.keys.map (fun name => .start (.connect name)) ++ [.call .gather]

theorem connectAll_eq (bridges : Dict String String) :
    connectAll bridges = perform (connectActs bridges) := by
  unfold connectAll connectActs
  split
  · rfl
  · rw [perform_append, Script.perform_singleton, ← Script.forM_script]
    rfl

/-- The acts of `_connect_bridges` before any bridge is connected. -/
def findActs : List (Act AgentStep StepExc) :=
  if setup.mcpDependencies ≠ [] then lookupActs world registry 0 setup.mcpDependencies
  else actIf (setup.mcpServers ≠ []) .warnLegacy

/-- **The bridges of a run**: one for each dependency that some lookup has found
healthy, to where it was found last; and for an agent without dependencies one
for each of the servers it lists itself. -/
def bridgesOf : Dict String String :=
  if setup.mcpDependencies ≠ [] then foundBridges world registry 0 setup.mcpDependencies []
  else Dict.update [] (setup.mcpServers.map fun server =>
    (server.1, resolveMcpUrl world server.1 server.2))

theorem connectBridges_eq :
    connectBridges setup world registry
      = (perform (findActs setup world registry
            ++ connectActs (bridgesOf setup world registry)) >>= fun _ =>
          pure (bridgesOf setup world registry)) := by
  unfold connectBridges findActs bridgesOf
  rw [perform_append]
  split <;> simp only [lookupBridges_eq, connectAll_eq, callIf_eq, bind_assoc, pure_bind]

/-- The acts of `_make_store`, of which there are none where no store is
required. -/
def makeStoreActs : List (Act AgentStep StepExc) :=
  if setup.requiresConversationStore then
    .call .buildConversationStore :: (match world.store with
      | none => [.fail (.notImplementedError (setup.className
          ++ " declares requires_conversation_store=True "
          ++ "but build_conversation_store() returned None"))]
      | some _ => [])
  else []

/-- The store of a run, if its setup has one. -/
def storeOf : Option ConversationStore :=
  if setup.requiresConversationStore then world.store else none

theorem makeStore_eq :
    makeStore setup world
      = (perform (makeStoreActs setup world) >>= fun _ => pure (storeOf setup world)) := by
  unfold makeStore makeStoreActs storeOf
  split
  · cases world.store with
    | none =>
      simp only [perform, Act.script, bind_assoc]
      rfl
    | some store => simp only [perform, Act.script, bind_assoc, pure_bind]
  · rfl

/-- What comes before `_register`: the telemetry, where it is wanted. -/
def openingActs : List (Act AgentStep StepExc) := actIf setup.enableTelemetry .setupTelemetry

/-- What comes between `_register` and the `yield`, outside the `try` as well.
-/
def startActs : List (Act AgentStep StepExc) :=
  .call .serviceAgentContext :: (findActs setup world registry
    ++ (connectActs (bridgesOf setup world registry)
    ++ (actIf setup.requiresCheckpointer .setupCheckpointer
    ++ (makeStoreActs setup world
    ++ (actIf ((storeOf setup world).any ConversationStore.hasConnect) .storeConnect
    ++ [.call .buildDependencies, .call .onStarted])))))

/-- The last part of the `finally`: what is flushed, and what is disconnected.
-/
def closeActs : List (Act AgentStep StepExc) :=
  (if setup.enableTelemetry then [.start .flushLangfuse] else [])
    ++ (actIf ((storeOf setup world).any ConversationStore.hasDisconnect) .storeDisconnect
    ++ (bridgesOf setup world registry).keys.map (fun name => .call (.disconnect name)))

/-- The registry of the agent, if there is one to talk to. -/
def targetOf : Except PyExc (Option String) :=
  registryTarget setup.config.registryUrl setup.config.serviceUrl

/-- **The plan of the lifespan**, by whether the agent holds a registry client
at its start. -/
def plan : Plan AgentStep StepExc where
  startup := openingActs setup ++ (registerActs .registry (targetOf setup)
    ++ startActs setup world (holdsClient (targetOf setup) registry))
  body := .body
  before := [.call .onShutdown]
  guarded := deregisterActs .registry (holdsClient (targetOf setup) registry)
  final := acloseActs .registry (holdsClient (targetOf setup) registry)
  after := closeActs setup world (holdsClient (targetOf setup) registry)

theorem plan_startup :
    (plan setup world registry).startup = openingActs setup
      ++ (registerActs .registry (targetOf setup)
        ++ startActs setup world (holdsClient (targetOf setup) registry)) := by
  rw [plan]

theorem plan_guarded :
    (plan setup world registry).guarded
      = deregisterActs .registry (holdsClient (targetOf setup) registry) := by
  rw [plan]

theorem plan_final :
    (plan setup world registry).final
      = acloseActs .registry (holdsClient (targetOf setup) registry) := by
  rw [plan]

/-- **The lifespan follows its plan.** As a script it is the startup, the body
and the ways out of the plan, so what is shown of plans holds of it. -/
theorem lifespan_eq_script :
    lifespan setup world registry = (plan setup world registry).script := by
  have hflush : (if setup.enableTelemetry then Script.start .flushLangfuse else pure ())
      = (perform (if setup.enableTelemetry then [.start .flushLangfuse] else [])
          : Script AgentStep StepExc Unit) := by
    split
    · exact (Script.perform_singleton (Act.start AgentStep.flushLangfuse)).symm
    · rfl
  have hdisconnect : ∀ names : List String,
      names.forM (fun name => (call (.disconnect name) : Script AgentStep StepExc Unit))
        = perform (names.map (fun name => .call (.disconnect name))) :=
    fun names => Script.forM_script (fun name => Act.call (AgentStep.disconnect name)) names
  simp only [lifespan, plan, Plan.script, openingActs, startActs, closeActs, targetOf, callIf_eq,
    Application.register_eq, Application.deregister_eq, connectBridges_eq, makeStore_eq, hflush,
    hdisconnect, perform_append, perform, Act.script, bind_assoc, pure_bind]

end Plan

/-! ## Where the calls stand -/

/-- The part of the plan a call stands in. -/
def place : AgentStep → Plan.Place
  | .registry r => r.place
  | .body => .body
  | .onShutdown => .before
  | .flushLangfuse | .storeDisconnect | .disconnect _ => .after
  | _ => .startup

section Placed

variable {setup : AgentSetup} {world : AgentWorld} {registry : Bool} {c : AgentStep}

theorem mem_calls_lookupActs {i : ℕ} {names : List String}
    (h : c ∈ (lookupActs world registry i names).flatMap Act.calls) : ∃ j, c = .lookup j := by
  induction names generalizing i with
  | nil => exact absurd h List.not_mem_nil
  | cons name names ih =>
    rw [lookupActs] at h
    split at h
    · rw [List.flatMap_cons, List.mem_append] at h
      rcases h with h | h
      · exact ⟨i, List.mem_singleton.mp h⟩
      · split at h
        · split at h
          · exact ih h
          · exact absurd h List.not_mem_nil
        · exact ih h
    · exact ih h

theorem mem_calls_findActs (h : c ∈ (findActs setup world registry).flatMap Act.calls) :
    (∃ j, c = .lookup j) ∨ c = .warnLegacy := by
  rw [findActs] at h
  split at h
  · exact Or.inl (mem_calls_lookupActs h)
  · exact Or.inr (Script.mem_calls_actIf.mp h).2

theorem mem_calls_connectActs {bridges : Dict String String} :
    c ∈ (connectActs bridges).flatMap Act.calls
      ↔ (∃ name ∈ bridges.keys, c = .connect name) ∨ bridges ≠ [] ∧ c = .gather := by
  rw [connectActs]
  split
  · next h => simp [h]
  · next h => simp [h, Act.calls, List.mem_flatMap, eq_comm]

theorem mem_calls_makeStoreActs (h : c ∈ (makeStoreActs setup world).flatMap Act.calls) :
    c = .buildConversationStore := by
  rw [makeStoreActs] at h
  split at h
  · rw [List.flatMap_cons, List.mem_append] at h
    rcases h with h | h
    · exact List.mem_singleton.mp h
    · split at h <;> exact absurd h List.not_mem_nil
  · exact absurd h List.not_mem_nil

/-- The calls between `_register` and the `yield`, so that a condition on all of
them is one on each kind. -/
theorem mem_calls_startActs :
    c ∈ (startActs setup world registry).flatMap Act.calls
      ↔ c = .serviceAgentContext ∨ c ∈ (findActs setup world registry).flatMap Act.calls
        ∨ ((∃ name ∈ (bridgesOf setup world registry).keys, c = .connect name)
          ∨ bridgesOf setup world registry ≠ [] ∧ c = .gather)
        ∨ (setup.requiresCheckpointer = true ∧ c = .setupCheckpointer)
        ∨ c ∈ (makeStoreActs setup world).flatMap Act.calls
        ∨ ((storeOf setup world).any ConversationStore.hasConnect = true ∧ c = .storeConnect)
        ∨ c = .buildDependencies ∨ c = .onStarted := by
  simp only [startActs, List.flatMap_cons, List.flatMap_append, List.mem_append, List.flatMap_nil,
    mem_calls_connectActs, Script.mem_calls_actIf, Act.calls, List.mem_singleton, List.append_nil]

/-- The calls of the last part of the `finally`. -/
theorem mem_calls_closeActs :
    c ∈ (closeActs setup world registry).flatMap Act.calls
      ↔ (setup.enableTelemetry = true ∧ c = .flushLangfuse)
        ∨ ((storeOf setup world).any ConversationStore.hasDisconnect = true
          ∧ c = .storeDisconnect)
        ∨ ∃ name ∈ (bridgesOf setup world registry).keys, c = .disconnect name := by
  rw [closeActs, List.flatMap_append, List.flatMap_append, List.mem_append, List.mem_append,
    Script.mem_calls_actIf]
  refine or_congr ?_ (or_congr_right ?_)
  · cases setup.enableTelemetry <;> simp [Act.calls]
  · simp [Act.calls, List.mem_flatMap, eq_comm]

/-- None of the calls after `_register` is one of the registry client, and all
of them belong to the startup. -/
theorem place_of_mem_startActs (h : c ∈ (startActs setup world registry).flatMap Act.calls) :
    place c = .startup ∧ ∀ r, c ≠ .registry r := by
  rcases mem_calls_startActs.mp h with
    rfl | h | (⟨name, -, rfl⟩ | ⟨-, rfl⟩) | ⟨-, rfl⟩ | h | ⟨-, rfl⟩ | rfl | rfl
  case inr.inl =>
    obtain ⟨j, rfl⟩ | rfl := mem_calls_findActs h
    all_goals exact ⟨rfl, fun r => nofun⟩
  case inr.inr.inr.inr.inl =>
    rw [mem_calls_makeStoreActs h]
    exact ⟨rfl, fun r => nofun⟩
  all_goals exact ⟨rfl, fun r => nofun⟩

end Placed

section Registers

variable (setup : AgentSetup) (world : AgentWorld) (registry : Bool)

/-- The lifespan registers in its startup, behind the acts that open what it
needs and in front of the acts that start what it serves with. -/
theorem registers_plan :
    Application.Registers (plan setup world registry) place .registry (targetOf setup) registry
      (openingActs setup) (startActs setup world (holdsClient (targetOf setup) registry)) where
  place_step := fun _ => rfl
  injective := fun _ _ h => AgentStep.registry.inj h
  startup := plan_startup setup world registry
  guarded := plan_guarded setup world registry
  final := plan_final setup world registry
  place_pre := fun c hc => by
    rw [(Script.mem_calls_actIf.mp hc).2]
    exact ⟨rfl, nofun⟩
  place_post := fun c hc => place_of_mem_startActs hc
  place_body := rfl
  place_before := fun c hc => by
    rw [List.mem_singleton.mp hc]
    rfl
  place_after := fun c hc => by
    obtain ⟨-, rfl⟩ | ⟨-, rfl⟩ | ⟨name, -, rfl⟩ := mem_calls_closeActs.mp hc <;> rfl

end Registers

/-! ## What is released -/

section Released

variable (setup : AgentSetup) (world : AgentWorld) (registry : Bool)
  (raises : AgentStep → Option StepExc)

/-- The bridges of the run, with the registry client it has behind
`_register`. -/
def bridges : Dict String String :=
  bridgesOf setup world (holdsClient (targetOf setup) registry)

/-- **The lifespan leaves nothing behind.** A bridge whose `connect` was started
is disconnected, and so is a store that is connected; a service that is
registered sends its `DELETE`, and the loops that were started are stopped. -/
structure Released : Prop where
  bridge : ∀ name, .connect name ∈ (lifespan setup world registry).log raises →
    .disconnect name ∈ (lifespan setup world registry).log raises
  store : .storeConnect ∈ (lifespan setup world registry).log raises →
    raises .storeConnect = none →
      .storeDisconnect ∈ (lifespan setup world registry).log raises
  service : .registry .registerSelf ∈ (lifespan setup world registry).log raises →
    raises (.registry .registerSelf) = none →
      .registry .deregister ∈ (lifespan setup world registry).log raises
  heartbeat : .registry .startHeartbeat ∈ (lifespan setup world registry).log raises →
    raises (.registry .startHeartbeat) = none →
      .registry .stopHeartbeat ∈ (lifespan setup world registry).log raises
  refresh : .registry .startRefresh ∈ (lifespan setup world registry).log raises →
    raises (.registry .startRefresh) = none →
      .registry .stopRefresh ∈ (lifespan setup world registry).log raises

/-- **Nothing raises once something is there to be released.** Behind a
registration, the rest of the startup, `on_shutdown` and the two calls that
stop the loops succeed. Behind a store that is connected, the rest of the
startup, `on_shutdown` and all of `_deregister`, and the store can be
disconnected. Behind a bridge whose `connect` was started, all that too, and
what is disconnected before it. -/
structure Unbroken : Prop where
  service : (∃ url, targetOf setup = .ok (some url)) → Clear raises (openingActs setup) →
    raises (.registry .newClient) = none → raises (.registry .registerSelf) = none →
      (plan setup world registry).StartsAndStops raises
        ∧ raises (.registry .stopHeartbeat) = none ∧ raises (.registry .stopRefresh) = none
  store : (storeOf setup world).any ConversationStore.hasConnect = true →
    Clear raises (Plan.upTo .storeConnect (plan setup world registry).startup) →
    raises .storeConnect = none →
      (storeOf setup world).any ConversationStore.hasDisconnect = true
        ∧ (plan setup world registry).StartsAndStops raises
        ∧ Clear raises ((plan setup world registry).guarded ++ (plan setup world registry).final)
  bridge : ∀ name ∈ (bridges setup world registry).keys,
    Clear raises (Plan.upTo (.connect name) (plan setup world registry).startup) →
      (plan setup world registry).StartsAndStops raises
        ∧ Clear raises ((plan setup world registry).guarded ++ (plan setup world registry).final)
        ∧ Clear raises (Plan.upTo (.disconnect name) (plan setup world registry).after)

variable {setup world registry raises}

/-- A call of the startup that is none of the registry client. -/
theorem mem_part_startup_iff {c : AgentStep} (hc : c ≠ .setupTelemetry)
    (hr : ∀ r, c ≠ .registry r) :
    c ∈ (plan setup world registry).part .startup
      ↔ c ∈ (startActs setup world (holdsClient (targetOf setup) registry)).flatMap Act.calls := by
  rw [Plan.part, Plan.acts, plan_startup, List.flatMap_append, List.flatMap_append,
    List.mem_append, List.mem_append]
  constructor
  · rintro (h | h | h)
    · exact absurd (Script.mem_calls_actIf.mp h).2 hc
    · obtain ⟨r, hreg, -⟩ := Application.place_of_mem_registerActs h
      exact absurd hreg (hr r)
    · exact h
  · exact fun h => Or.inr (Or.inr h)

theorem connect_mem_part_iff {name : String} :
    .connect name ∈ (plan setup world registry).part .startup
      ↔ name ∈ (bridges setup world registry).keys := by
  refine ((mem_part_startup_iff (by simp) (by simp)).trans mem_calls_startActs).trans ?_
  constructor
  · rintro (h | h | (⟨name', hmem, heq⟩ | ⟨-, h⟩) | ⟨-, h⟩ | h | ⟨-, h⟩ | h | h)
    case inr.inl =>
      obtain ⟨j, h⟩ | h := mem_calls_findActs h <;> cases h
    case inr.inr.inl.inl =>
      cases heq
      exact hmem
    case inr.inr.inr.inr.inl => cases mem_calls_makeStoreActs h
    all_goals cases h
  · exact fun h => Or.inr (Or.inr (Or.inl (Or.inl ⟨name, h, rfl⟩)))

theorem storeConnect_mem_part_iff :
    .storeConnect ∈ (plan setup world registry).part .startup
      ↔ (storeOf setup world).any ConversationStore.hasConnect = true := by
  refine ((mem_part_startup_iff (by simp) (by simp)).trans mem_calls_startActs).trans ?_
  constructor
  · rintro (h | h | (⟨name', -, h⟩ | ⟨-, h⟩) | ⟨-, h⟩ | h | ⟨hstore, -⟩ | h | h)
    case inr.inl =>
      obtain ⟨j, h⟩ | h := mem_calls_findActs h <;> cases h
    case inr.inr.inr.inr.inl => cases mem_calls_makeStoreActs h
    case inr.inr.inr.inr.inr.inl => exact hstore
    all_goals cases h
  · exact fun h => Or.inr (Or.inr (Or.inr (Or.inr (Or.inr (Or.inl ⟨h, rfl⟩)))))

theorem disconnect_mem_part_iff {name : String} :
    .disconnect name ∈ (plan setup world registry).part .after
      ↔ name ∈ (bridges setup world registry).keys := by
  refine mem_calls_closeActs.trans ⟨?_, fun h => Or.inr (Or.inr ⟨name, h, rfl⟩)⟩
  rintro (⟨-, h⟩ | ⟨-, h⟩ | ⟨name', hmem, heq⟩)
  · cases h
  · cases h
  · cases heq
    exact hmem

theorem storeDisconnect_mem_part_iff :
    .storeDisconnect ∈ (plan setup world registry).part .after
      ↔ (storeOf setup world).any ConversationStore.hasDisconnect = true := by
  refine mem_calls_closeActs.trans ⟨?_, fun h => Or.inr (Or.inl ⟨h, rfl⟩)⟩
  rintro (⟨-, h⟩ | ⟨hstore, -⟩ | ⟨name', -, h⟩)
  · cases h
  · exact hstore
  · cases h

/-- Nothing before `store.disconnect` in its part raises, as there only the
flush is started. -/
theorem clear_upTo_storeDisconnect
    (hstore : (storeOf setup world).any ConversationStore.hasDisconnect = true) :
    Clear raises (Plan.upTo .storeDisconnect (plan setup world registry).after) := by
  show Clear raises (Plan.upTo .storeDisconnect (closeActs setup world _))
  rw [closeActs, hstore]
  cases setup.enableTelemetry
  · exact Script.clear_nil
  · exact List.forall_mem_singleton.mpr trivial

/-- What is released stands behind all that may raise in between. -/
theorem unbroken_of_released (h : Released setup world registry raises) :
    Unbroken setup world registry raises := by
  obtain ⟨hbridge, hstore, hservice, -, hrefresh⟩ := h
  have hregisters := registers_plan setup world registry
  have hplaced := hregisters.placed
  simp only [lifespan_eq_script] at hbridge hstore hservice hrefresh
  refine ⟨?_, ?_, ?_⟩
  · rintro ⟨url, hurl⟩ hopen hnew hself
    have hmem : .registry .registerSelf ∈ (plan setup world registry).script.log raises :=
      (hregisters.mem_log_start_iff rfl).mpr
        ⟨⟨url, hurl⟩, hopen, List.forall_mem_singleton.mpr hnew⟩
    obtain ⟨-, hends, hstop⟩ :=
      (hregisters.mem_log_stop_iff (by decide)).mp (hservice hmem hself)
    exact ⟨hends, hstop _ (by decide), hstop _ (by decide)⟩
  · intro hconnect hway hok
    have hmem : .storeConnect ∈ (plan setup world registry).script.log raises :=
      (hplaced.mem_log_startup_iff rfl).mpr ⟨storeConnect_mem_part_iff.mpr hconnect, hway⟩
    obtain ⟨hpart, hends, htry, -⟩ := (hplaced.mem_log_after_iff rfl).mp (hstore hmem hok)
    exact ⟨storeDisconnect_mem_part_iff.mp hpart, hends, htry⟩
  · intro name hname hway
    have hmem : .connect name ∈ (plan setup world registry).script.log raises :=
      (hplaced.mem_log_startup_iff rfl).mpr ⟨connect_mem_part_iff.mpr hname, hway⟩
    exact ((hplaced.mem_log_after_iff rfl).mp (hbridge name hmem)).2

/-- Whichever call shows that something is there, what releases it is
reached. -/
theorem released_of_unbroken (h : Unbroken setup world registry raises) :
    Released setup world registry raises := by
  have hregisters := registers_plan setup world registry
  have hplaced := hregisters.placed
  refine ⟨?_, ?_, ?_, ?_, ?_⟩
  all_goals simp only [lifespan_eq_script]
  · intro name hmem
    obtain ⟨hpart, hway⟩ := (hplaced.mem_log_startup_iff rfl).mp hmem
    have hname := connect_mem_part_iff.mp hpart
    exact (hplaced.mem_log_after_iff rfl).mpr
      ⟨disconnect_mem_part_iff.mpr hname, h.bridge name hname hway⟩
  · intro hmem hok
    obtain ⟨hpart, hway⟩ := (hplaced.mem_log_startup_iff rfl).mp hmem
    obtain ⟨hdisconnect, hends, htry⟩ := h.store (storeConnect_mem_part_iff.mp hpart) hway hok
    exact (hplaced.mem_log_after_iff rfl).mpr ⟨storeDisconnect_mem_part_iff.mpr hdisconnect, hends,
      htry, clear_upTo_storeDisconnect hdisconnect⟩
  · intro hmem hself
    obtain ⟨⟨url, hurl⟩, hopen, hbefore⟩ := (hregisters.mem_log_start_iff rfl).mp hmem
    obtain ⟨hends, hheartbeat, hrefresh⟩ :=
      h.service ⟨url, hurl⟩ hopen (hbefore .newClient (by decide)) hself
    refine hregisters.stop_mem_log hurl hends (by decide) ?_
    exact List.forall_mem_cons.mpr ⟨hheartbeat, List.forall_mem_singleton.mpr hrefresh⟩
  · intro hmem _
    obtain ⟨⟨url, hurl⟩, hopen, hbefore⟩ := (hregisters.mem_log_start_iff rfl).mp hmem
    obtain ⟨hends, -⟩ := h.service ⟨url, hurl⟩ hopen (hbefore .newClient (by decide))
      (hbefore .registerSelf (by decide))
    exact hregisters.stop_mem_log hurl hends (by decide) (List.forall_mem_nil _)
  · intro hmem _
    obtain ⟨⟨url, hurl⟩, hopen, hbefore⟩ := (hregisters.mem_log_start_iff rfl).mp hmem
    obtain ⟨hends, hheartbeat, -⟩ := h.service ⟨url, hurl⟩ hopen
      (hbefore .newClient (by decide)) (hbefore .registerSelf (by decide))
    exact hregisters.stop_mem_log hurl hends (by decide)
      (List.forall_mem_singleton.mpr hheartbeat)

/-- **The agent leaves nothing behind exactly when nothing raises once something
is there to be released.** The `try` begins behind the startup, so a step there
that raises leaves the registration, the store and the bridges of the steps
before it; and the calls of the `finally` stand in a row, so one that raises
skips those behind it. -/
theorem leaves_nothing_iff :
    Released setup world registry raises ↔ Unbroken setup world registry raises :=
  ⟨unbroken_of_released, released_of_unbroken⟩

end Released

/-- A development agent with one bridge and no registry. -/
def oneBridge : AgentSetup where
  className := "AnalyticsAgent"
  config := { environment := .dev }
  mcpServers := [("data-mcp", "http://data-mcp:8080/sse")]

/-- What it finds: no service under any name, no variable and no store. -/
def emptyWorld : AgentWorld where
  lookup := fun _ => .error (.registry (.serviceNotFound ""))
  environ := fun _ => none
  upper := String.toUpper
  store := none

/-- Its `on_shutdown` fails, and everything else goes well. -/
def shutdownFails : AgentStep → Option StepExc
  | .onShutdown => some (.py (.runtimeError "cannot flush"))
  | _ => none

/-- **What a failing `on_shutdown` leaves running**: the bridge, whose loop goes
on reconnecting. -/
theorem not_leaves_nothing : ¬ Released oneBridge emptyWorld false shutdownFails := by
  intro h
  have hconnected : .connect "data-mcp"
      ∈ (lifespan oneBridge emptyWorld false).log shutdownFails := by decide
  have hleft : .disconnect "data-mcp"
      ∉ (lifespan oneBridge emptyWorld false).log shutdownFails := by decide
  exact hleft (h.bridge _ hconnected)

end BaseAgentApp
