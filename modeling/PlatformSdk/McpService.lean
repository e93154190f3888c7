import Mathlib.Data.List.DropRight
import Mathlib.Logic.Function.Basic
import PlatformSdk.ConfigModels
import PlatformSdk.Run

/-!
# The lifespan of an MCP service

`McpService.lifespan` is written as if it ran once. It registers the service,
creates whatever resource was not injected, serves, and on the way out
deregisters and closes what it had created. In SSE mode FastMCP enters it once
for each connection, on one instance: the registry client, the resources and
the flags that say who owns them are fields of that instance, which all
connections read and write.

So the service is a machine whose events are the moments a lifespan is entered
or left and the moments one of its `await`s comes back – with a value or with
the exception it raised. Between two `await`s a lifespan runs undisturbed,
which is why a step is often several lines of the source; across an `await`
every field has to be read again, and the model reads it again where the
source does. `Moves` says what a step can be; `McpRegistration` and
`McpLifespan` say what the runs keep.
-/

/-! ## What the service is set up with -/

/-- The resources of a service, in the order the lifespan creates them. -/
inductive Slot where
  | authorizer
  | cache
  | dbPool
  deriving DecidableEq

/-- **What a lifespan reads and does not change**: the configuration, the class
attribute `requires_database`, and whether `redis.asyncio` can be imported. -/
structure ServiceSetup where
  config : MCPConfig
  requiresDatabase : Bool
  redisInstalled : Bool

namespace ServiceSetup

/-- Whether a lifespan creates the resource where none was injected. -/
def wants (setup : ServiceSetup) : Slot → Bool
  | .authorizer => true
  | .cache => setup.config.enableToolCache
  | .dbPool => setup.requiresDatabase

/-- What creating the resource gives: `ToolResultCache.from_config` returns
`None` without a Redis host, and without the library. -/
def creates (setup : ServiceSetup) : Slot → ℕ → Option ℕ
  | .cache, r => if setup.config.redisHost = "" || !setup.redisInstalled then none else some r
  | _, r => some r

end ServiceSetup

/-- `s.rstrip("/")`, which takes every slash at the end. -/
def rstripSlash (s : String) : String := String.ofList (s.toList.rdropWhile (fun c => c = '/'))

/-- The registry `_register` talks to, if there is one to talk to. -/
def registerTarget (config : MCPConfig) : Except PyExc (Option String) :=
  let registryUrl := rstripSlash config.registryUrl
  if registryUrl = "" then .ok none
  else
    let selfUrl := rstripSlash config.serviceUrl
    if selfUrl = "" then
      .error (.runtimeError ("SERVICE_URL must be set when REGISTRY_URL is set. "
        ++ "This service cannot register without knowing its own reachable URL — "
        ++ "set service_url in the service's config (or via the SERVICE_URL env "
        ++ "var that config/dev.yaml resolves)."))
    else if registryUrl = selfUrl then .ok none
    else .ok (some registryUrl)

/-! ## The registry client -/

/-- A background task, as the attribute that holds it: absent, running, or
cancelled and not yet forgotten. -/
inductive TaskState where
  | absent
  | running
  | cancelled
  deriving DecidableEq

/-- **A `RegistryClient`**: its two background tasks, and whether it has been
closed. -/
structure RegistryClient where
  heartbeat : TaskState := .absent
  refresh : TaskState := .absent
  closed : Bool := false
  deriving DecidableEq

namespace RegistryClient

/-- `start_heartbeat`: the client has a loop that posts from now on. -/
def startHeartbeat (client : RegistryClient) : RegistryClient :=
  if client.heartbeat = .absent then { client with heartbeat := .running } else client

/-- `start_refresh`: the client has a loop that fetches its cache again. -/
def startRefresh (client : RegistryClient) : RegistryClient :=
  if client.refresh = .absent then { client with refresh := .running } else client

end RegistryClient

/-- A write to the registry, under the name of the service. -/
inductive RegistryWrite where
  /-- `POST /api/services`. -/
  | post
  /-- `DELETE /api/services/<name>`. -/
  | delete
  deriving DecidableEq

/-! ## The service -/

/-- **Where a lifespan stands**: at one of its `await`s, or at its `yield`. -/
inductive LifespanPhase where
  | notEntered
  /-- In `register_self`, with the client whose request it is. -/
  | registering (client : ℕ)
  /-- In `asyncpg.create_pool`. -/
  | creatingPool
  /-- In `on_startup`. -/
  | startingUp
  /-- At the `yield`. -/
  | serving
  /-- In `on_shutdown`. -/
  | shuttingDown
  /-- In `stop_heartbeat`. -/
  | stoppingHeartbeat (client : ℕ)
  /-- In `stop_refresh`. -/
  | stoppingRefresh (client : ℕ)
  /-- In `deregister`. -/
  | deregistering
  /-- In the `finally` of `_deregister`, with the exception that led there. -/
  | closingRegistry (pending : Option PyExc)
  /-- In the `aclose` of a resource, with those still to come. -/
  | closing (slot : Slot) (rest : List Slot)
  | ended (exc : Option PyExc)
  deriving DecidableEq

namespace LifespanPhase

/-- Between the start of the exit and its end. -/
def isExiting : LifespanPhase → Bool
  | .shuttingDown | .stoppingHeartbeat _ | .stoppingRefresh _ | .deregistering
  | .closingRegistry _ | .closing _ _ => true
  | _ => false

/-- Entered and not ended: a lifespan that has begun, wherever it is. -/
def inProgress : LifespanPhase → Bool
  | .notEntered | .ended _ => false
  | _ => true

end LifespanPhase

/-- **The resources of a service.** They go by numbers. -/
structure ServiceResources where
  /-- `_authorizer`, `_cache` and `_db_pool`. -/
  field : Slot → Option ℕ
  /-- The `_owns_…` flags. -/
  owns : Slot → Bool := fun _ => false
  /-- The resources whose `aclose` has been called. -/
  closed : List (Slot × ℕ) := []
  /-- The number of the next resource. -/
  next : ℕ

/-- **The registration of a service.** Clients go by numbers. -/
structure ServiceRegistration where
  /-- `self.registry`. -/
  registry : Option ℕ := none
  clients : ℕ → RegistryClient := fun _ => {}
  /-- The number of the next client. -/
  next : ℕ := 0
  /-- The writes issued to the registry, in order. -/
  writes : List RegistryWrite := []

/-- **An `McpService` in the middle of its lifespans**, one for each
connection. -/
structure McpService where
  resources : ServiceResources
  registration : ServiceRegistration := {}
  /-- Where the lifespan of each connection stands. -/
  phase : ℕ → LifespanPhase := fun _ => .notEntered

/-! ### Resources -/

namespace ServiceResources

/-- What a property of the service raises while its field is `None`. -/
def notAvailable (what : String) : PyExc :=
  .runtimeError (what ++ " not available. Ensure it was injected or created during startup.")

/-- `authorizer`, a property that raises where the field is `None`. -/
def authorizer (s : ServiceResources) : Except PyExc ℕ :=
  (s.field .authorizer).elim (.error (notAvailable "Authorizer")) .ok

/-- `cache`, which raises as well where the service has none. -/
def cache (s : ServiceResources) : Except PyExc ℕ :=
  (s.field .cache).elim (.error (notAvailable "Cache")) .ok

/-- `db_pool`, which raises as well where the service has none. -/
def dbPool (s : ServiceResources) : Except PyExc ℕ :=
  (s.field .dbPool).elim (.error (notAvailable "Database pool")) .ok

/-- The property of a resource, by the slot it reads. -/
def get (s : ServiceResources) : Slot → Except PyExc ℕ
  | .authorizer => s.authorizer
  | .cache => s.cache
  | .dbPool => s.dbPool

/-- A resource is created and owned, so that the lifespan that ends closes it.
-/
def create (setup : ServiceSetup) (s : ServiceResources) (slot : Slot) : ServiceResources :=
  { s with
    field := Function.update s.field slot (setup.creates slot s.next)
    owns := Function.update s.owns slot true
    next := s.next + 1 }

/-- Whether the lifespan has to create the resource: it is wanted and not there
yet. -/
def needs (setup : ServiceSetup) (s : ServiceResources) (slot : Slot) : Bool :=
  (s.field slot).isNone && setup.wants slot

/-- From the end of `_register` to the next `await`: the resources whose
constructors do not wait, then the pool or `on_startup`. -/
def prepare (setup : ServiceSetup) (fails : Slot → Option PyExc) :
    List Slot → ServiceResources → ServiceResources × LifespanPhase
  | [], s => (s, if s.needs setup .dbPool then .creatingPool else .startingUp)
  | slot :: slots, s =>
    if s.needs setup slot then
      match fails slot with
      -- what was created before stays in its field, and owned
      | some exc => (s, .ended (some exc))
      | none => prepare setup fails slots (s.create setup slot)
    else prepare setup fails slots s

/-- The resources that are created without waiting, in order. -/
def constructed : List Slot := [.authorizer, .cache]

/-- The next owned resource to close, and where the lifespan waits for it. -/
def teardown : List Slot → ServiceResources → ServiceResources × LifespanPhase
  | [], s => (s, .ended none)
  | slot :: slots, s =>
    match s.owns slot, s.field slot with
    | true, some r => ({ s with closed := (slot, r) :: s.closed }, .closing slot slots)
    -- injected, or taken away by another lifespan
    | _, _ => teardown slots s

/-- The resources in the order they are closed, each in a call that can raise.
-/
def closingOrder : List Slot := [.authorizer, .cache, .dbPool]

/-- A field is set to `None`, whoever else reads it. -/
def clear (s : ServiceResources) (slot : Slot) : ServiceResources :=
  { s with field := Function.update s.field slot none }

end ServiceResources

/-! ### Registration -/

namespace ServiceRegistration

/-- What reading an attribute of `None` raises, as the code does without
looking. -/
def noneHasNo (name : String) : PyExc :=
  .attributeError ("'NoneType' object has no attribute '" ++ name ++ "'")

/-- A client changes, and the others stay what they are. -/
def updateClient (s : ServiceRegistration) (k : ℕ) (client : RegistryClient) :
    ServiceRegistration :=
  { s with clients := Function.update s.clients k client }

/-- `_register`, up to its `await`: the new client is stored and its `POST`
sent. -/
def sendRegister (s : ServiceRegistration) : ServiceRegistration × LifespanPhase :=
  ({ s with
      registry := some s.next
      next := s.next + 1
      writes := s.writes ++ [.post] },
    .registering s.next)

/-- `_register`, after its `await`: the background tasks of whatever client is
stored now. -/
def startTasks (s : ServiceRegistration) : Except PyExc ServiceRegistration :=
  match s.registry with
  | none => .error (noneHasNo "start_heartbeat")
  | some k => .ok (s.updateClient k (s.clients k).startHeartbeat.startRefresh)

/-- The `finally` of `_deregister`, which closes the client and lets through
what was raised before. -/
def closeRegistry (pending : Option PyExc) (s : ServiceRegistration) :
    ServiceRegistration × LifespanPhase :=
  match s.registry with
  | none => (s, .ended (some (noneHasNo "aclose")))
  | some k => (s.updateClient k { s.clients k with closed := true }, .closingRegistry pending)

/-- `self.registry.deregister`: a closed client sends nothing and raises. -/
def deregisterSelf (s : ServiceRegistration) : ServiceRegistration × LifespanPhase :=
  match s.registry with
  | none => s.closeRegistry (some (noneHasNo "deregister"))
  | some k =>
    if (s.clients k).closed then
      s.closeRegistry
        (some (.runtimeError "Cannot send a request, as the client has been closed."))
    else ({ s with writes := s.writes ++ [.delete] }, .deregistering)

/-- `self.registry.stop_refresh`, of whichever client the field refers to by
then. -/
def stopRefresh (s : ServiceRegistration) : ServiceRegistration × LifespanPhase :=
  match s.registry with
  | none => s.closeRegistry (some (noneHasNo "stop_refresh"))
  | some k =>
    if (s.clients k).refresh = .absent then s.deregisterSelf
    else (s.updateClient k { s.clients k with refresh := .cancelled }, .stoppingRefresh k)

/-- `self.registry.stop_heartbeat`, with which `_deregister` starts. -/
def stopHeartbeat (k : ℕ) (s : ServiceRegistration) : ServiceRegistration × LifespanPhase :=
  if (s.clients k).heartbeat = .absent then s.stopRefresh
  else (s.updateClient k { s.clients k with heartbeat := .cancelled }, .stoppingHeartbeat k)

end ServiceRegistration

/-! ### The steps -/

/-- **What can happen.** A lifespan that resumes does so normally, `none`, or
with an exception; a segment that creates resources without waiting comes with
the exceptions their constructors raise. -/
inductive ServiceEvent where
  | enter (c : ℕ) (raised : Option PyExc) (fails : Slot → Option PyExc)
  | resumeRegister (c : ℕ) (raised : Option PyExc) (fails : Slot → Option PyExc)
  | resumePool (c : ℕ) (raised : Option PyExc)
  | resumeStartup (c : ℕ) (raised : Option PyExc)
  | exit (c : ℕ)
  | resumeShutdown (c : ℕ) (raised : Option PyExc)
  | taskEnded (c : ℕ)
  | resumeDelete (c : ℕ) (raised : Option PyExc)
  | resumeRegistryClose (c : ℕ) (raised : Option PyExc)
  | resumeClose (c : ℕ) (raised : Option PyExc)

namespace McpService

open ServiceResources (prepare constructed teardown closingOrder)

/-- `__init__`, with some resources injected: these the service does not own. -/
def init (injected : Slot → Bool) : McpService where
  resources :=
    { field := fun slot => if injected slot then some 0 else none
      next := 1 }

/-- A lifespan moves on, and what is shared stays as it is. -/
def goto (s : McpService) (c : ℕ) (p : LifespanPhase) : McpService :=
  { s with phase := Function.update s.phase c p }

/-- A lifespan has worked on the resources, and stands where that has left it.
-/
def withResources (s : McpService) (c : ℕ) (x : ServiceResources × LifespanPhase) :
    McpService :=
  { s with resources := x.1, phase := Function.update s.phase c x.2 }

/-- A lifespan has worked on the registration, and stands where that has left
it. -/
def withRegistration (s : McpService) (c : ℕ) (x : ServiceRegistration × LifespanPhase) :
    McpService :=
  { s with registration := x.1, phase := Function.update s.phase c x.2 }

/-- The lifespan is entered: `_register`, and what follows where there is
nothing to register. -/
def enter (setup : ServiceSetup) (fails : Slot → Option PyExc) (s : McpService) (c : ℕ) :
    McpService :=
  match registerTarget setup.config with
  | .error exc => s.goto c (.ended (some exc))
  | .ok none => s.withResources c (prepare setup fails constructed s.resources)
  | .ok (some _) => s.withRegistration c s.registration.sendRegister

/-- `_register` comes back: the background tasks, and what follows. -/
def registered (setup : ServiceSetup) (fails : Slot → Option PyExc) (s : McpService) (c : ℕ) :
    McpService :=
  match s.registration.startTasks with
  | .error exc => s.goto c (.ended (some exc))
  | .ok registration =>
    { s with registration := registration }.withResources c
      (prepare setup fails constructed s.resources)

/-- `_deregister`, and what follows where nothing is registered. -/
def deregister (s : McpService) (c : ℕ) : McpService :=
  match s.registration.registry with
  | none => s.withResources c (teardown closingOrder s.resources)
  | some k => s.withRegistration c (s.registration.stopHeartbeat k)

/-- A background task has ended, and the lifespan that cancelled it goes on. -/
def taskEnded (s : McpService) (c k : ℕ) (client : RegistryClient)
    (next : ServiceRegistration → ServiceRegistration × LifespanPhase) : McpService :=
  s.withRegistration c (next (s.registration.updateClient k client))

/-- `_deregister` comes back: `self.registry = None`, and what follows. -/
def deregistered (s : McpService) (c : ℕ) : Option PyExc → McpService
  | some exc =>
    { s with registration := { s.registration with registry := none } }.goto c
      (.ended (some exc))
  | none =>
    { s with registration := { s.registration with registry := none } }.withResources c
      (teardown closingOrder s.resources)

/-- **One step of a service**, from one `await` of a lifespan to the next, where
the event can happen. -/
def step (setup : ServiceSetup) (s : McpService) : ServiceEvent → Option McpService
  | .enter c raised fails =>
    match s.phase c, raised with
    | .notEntered, none => some (s.enter setup fails c)
    -- the telemetry or the check of the secrets has raised
    | .notEntered, some exc => some (s.goto c (.ended (some exc)))
    | _, _ => none
  | .resumeRegister c raised fails =>
    match s.phase c, raised with
    | .registering _, none => some (s.registered setup fails c)
    | .registering _, some exc => some (s.goto c (.ended (some exc)))
    | _, _ => none
  | .resumePool c raised =>
    match s.phase c, raised with
    | .creatingPool, none =>
      some (s.withResources c (s.resources.create setup .dbPool, .startingUp))
    | .creatingPool, some exc => some (s.goto c (.ended (some exc)))
    | _, _ => none
  | .resumeStartup c raised =>
    match s.phase c, raised with
    | .startingUp, none => some (s.goto c .serving)
    | .startingUp, some exc => some (s.goto c (.ended (some exc)))
    | _, _ => none
  | .exit c =>
    match s.phase c with
    | .serving => some (s.goto c .shuttingDown)
    | _ => none
  | .resumeShutdown c raised =>
    match s.phase c, raised with
    | .shuttingDown, none => some (s.deregister c)
    | .shuttingDown, some exc => some (s.goto c (.ended (some exc)))
    | _, _ => none
  | .taskEnded c =>
    match s.phase c with
    | .stoppingHeartbeat k =>
      some (s.taskEnded c k { s.registration.clients k with heartbeat := .absent }
        ServiceRegistration.stopRefresh)
    | .stoppingRefresh k =>
      some (s.taskEnded c k { s.registration.clients k with refresh := .absent }
        ServiceRegistration.deregisterSelf)
    | _ => none
  | .resumeDelete c raised =>
    match s.phase c with
    -- whatever came back, the `finally` runs
    | .deregistering => some (s.withRegistration c (s.registration.closeRegistry raised))
    | _ => none
  | .resumeRegistryClose c raised =>
    match s.phase c, raised with
    | .closingRegistry pending, none => some (s.deregistered c pending)
    | .closingRegistry _, some exc => some (s.goto c (.ended (some exc)))
    | _, _ => none
  | .resumeClose c raised =>
    match s.phase c, raised with
    | .closing slot rest, none => some (s.withResources c (teardown rest (s.resources.clear slot)))
    | .closing _ _, some exc => some (s.goto c (.ended (some exc)))
    | _, _ => none

/-- **The machine of a service**, whose lifespans share its fields. -/
def machine (setup : ServiceSetup) : Machine McpService ServiceEvent := ⟨step setup⟩

/-- Nothing fails to be created, in the lifespans of the runs shown. -/
def noFailures : Slot → Option PyExc := fun _ => none

/-- **What a step can be**, with what the event finds. A lifespan that fails
where it stands is one case: it ends, and leaves everything else as it is. -/
inductive Moves (setup : ServiceSetup) (s : McpService) : ServiceEvent → McpService → Prop
  | enter {c : ℕ} {fails : Slot → Option PyExc} (hp : s.phase c = .notEntered) :
    Moves setup s (.enter c none fails) (s.enter setup fails c)
  | registered {c k : ℕ} {fails : Slot → Option PyExc} (hp : s.phase c = .registering k) :
    Moves setup s (.resumeRegister c none fails) (s.registered setup fails c)
  | poolCreated {c : ℕ} (hp : s.phase c = .creatingPool) :
    Moves setup s (.resumePool c none)
      (s.withResources c (s.resources.create setup .dbPool, .startingUp))
  | started {c : ℕ} (hp : s.phase c = .startingUp) :
    Moves setup s (.resumeStartup c none) (s.goto c .serving)
  | exit {c : ℕ} (hp : s.phase c = .serving) :
    Moves setup s (.exit c) (s.goto c .shuttingDown)
  | deregister {c : ℕ} (hp : s.phase c = .shuttingDown) :
    Moves setup s (.resumeShutdown c none) (s.deregister c)
  | heartbeatEnded {c k : ℕ} (hp : s.phase c = .stoppingHeartbeat k) :
    Moves setup s (.taskEnded c)
      (s.taskEnded c k { s.registration.clients k with heartbeat := .absent }
        ServiceRegistration.stopRefresh)
  | refreshEnded {c k : ℕ} (hp : s.phase c = .stoppingRefresh k) :
    Moves setup s (.taskEnded c)
      (s.taskEnded c k { s.registration.clients k with refresh := .absent }
        ServiceRegistration.deregisterSelf)
  | deleted {c : ℕ} {raised : Option PyExc} (hp : s.phase c = .deregistering) :
    Moves setup s (.resumeDelete c raised)
      (s.withRegistration c (s.registration.closeRegistry raised))
  | deregistered {c : ℕ} {pending : Option PyExc} (hp : s.phase c = .closingRegistry pending) :
    Moves setup s (.resumeRegistryClose c none) (s.deregistered c pending)
  | closed {c : ℕ} {slot : Slot} {rest : List Slot} (hp : s.phase c = .closing slot rest) :
    Moves setup s (.resumeClose c none)
      (s.withResources c (teardown rest (s.resources.clear slot)))
  | failed {a : ServiceEvent} {c : ℕ} {exc : PyExc}
    (hregister : ∀ k, s.phase c = .registering k →
      ∃ fails, a = .resumeRegister c (some exc) fails)
    (hclose : ∀ slot rest, s.phase c = .closing slot rest → a = .resumeClose c (some exc)) :
    Moves setup s a (s.goto c (.ended (some exc)))

/-- Every step is of one of these kinds, so that what they all keep is shown
once for each kind and not for each branch of the step. -/
theorem moves_of_step {setup : ServiceSetup} {s s' : McpService} {a : ServiceEvent}
    (h : step setup s a = some s') : Moves setup s a s' := by
  cases a with
  | enter c raised fails =>
    simp only [step] at h
    split at h
    · next hp => exact Option.some.inj h ▸ .enter hp
    · next hp => exact Option.some.inj h ▸ .failed (by simp [hp]) (by simp [hp])
    · cases h
  | resumeRegister c raised fails =>
    simp only [step] at h
    split at h
    · next hp => exact Option.some.inj h ▸ .registered hp
    · next hp => exact Option.some.inj h ▸ .failed (fun _ _ => ⟨fails, rfl⟩) (by simp [hp])
    · cases h
  | resumePool c raised =>
    simp only [step] at h
    split at h
    · next hp => exact Option.some.inj h ▸ .poolCreated hp
    · next hp => exact Option.some.inj h ▸ .failed (by simp [hp]) (by simp [hp])
    · cases h
  | resumeStartup c raised =>
    simp only [step] at h
    split at h
    · next hp => exact Option.some.inj h ▸ .started hp
    · next hp => exact Option.some.inj h ▸ .failed (by simp [hp]) (by simp [hp])
    · cases h
  | exit c =>
    simp only [step] at h
    split at h
    · next hp => exact Option.some.inj h ▸ .exit hp
    · cases h
  | resumeShutdown c raised =>
    simp only [step] at h
    split at h
    · next hp => exact Option.some.inj h ▸ .deregister hp
    · next hp => exact Option.some.inj h ▸ .failed (by simp [hp]) (by simp [hp])
    · cases h
  | taskEnded c =>
    simp only [step] at h
    split at h
    · next hp => exact Option.some.inj h ▸ .heartbeatEnded hp
    · next hp => exact Option.some.inj h ▸ .refreshEnded hp
    · cases h
  | resumeDelete c raised =>
    simp only [step] at h
    split at h
    · next hp => exact Option.some.inj h ▸ .deleted hp
    · cases h
  | resumeRegistryClose c raised =>
    simp only [step] at h
    split at h
    · next hp => exact Option.some.inj h ▸ .deregistered hp
    · next hp => exact Option.some.inj h ▸ .failed (by simp [hp]) (by simp [hp])
    · cases h
  | resumeClose c raised =>
    simp only [step] at h
    split at h
    · next hp => exact Option.some.inj h ▸ .closed hp
    · next hp => exact Option.some.inj h ▸ .failed (by simp [hp]) (fun _ _ _ => rfl)
    · cases h

/-! ### Small lemmas -/

section Fields

variable (s : McpService) (c : ℕ)

@[simp] theorem goto_phase_self (p : LifespanPhase) : (s.goto c p).phase c = p :=
  Function.update_self ..

theorem goto_phase_of_ne {d : ℕ} (p : LifespanPhase) (h : d ≠ c) :
    (s.goto c p).phase d = s.phase d := Function.update_of_ne h ..

@[simp] theorem withResources_phase_self (x : ServiceResources × LifespanPhase) :
    (s.withResources c x).phase c = x.2 := Function.update_self ..

theorem withResources_phase_of_ne {d : ℕ} (x : ServiceResources × LifespanPhase) (h : d ≠ c) :
    (s.withResources c x).phase d = s.phase d := Function.update_of_ne h ..

@[simp] theorem withRegistration_phase_self (x : ServiceRegistration × LifespanPhase) :
    (s.withRegistration c x).phase c = x.2 := Function.update_self ..

theorem withRegistration_phase_of_ne {d : ℕ} (x : ServiceRegistration × LifespanPhase)
    (h : d ≠ c) : (s.withRegistration c x).phase d = s.phase d := Function.update_of_ne h ..

end Fields

/-- **What holds of every lifespan holds of every lifespan after one of them has
moved**, if it holds of that one. -/
theorem forall_phase {s s' : McpService} {c : ℕ} {P : LifespanPhase → Prop}
    (h : ∀ d, P (s.phase d)) (hother : ∀ d ≠ c, s'.phase d = s.phase d) (hc : P (s'.phase c))
    (d : ℕ) : P (s'.phase d) := by
  by_cases hd : d = c
  · rw [hd]
    exact hc
  · rw [hother d hd]
    exact h d

end McpService
