import PlatformSdk.Application
import PlatformSdk.McpLifespan

/-!
# What the lifespan of an MCP service leaves behind

One run of `McpService.lifespan` as a script: it registers, creates what was
not injected, calls `on_startup`, serves, and in its `finally` calls
`on_shutdown`, deregisters and closes what it owns. Any of these calls may
raise.

The `try` begins behind the startup, so an exception there leaves what has been
created open; and in the `finally` the calls stand in a row, so that one that
raises skips those behind it. Everything is released exactly when nothing
raises once something is acquired (`released_iff`).
-/

/-- **The calls of the lifespan**, each of which can raise. -/
inductive McpStep where
  | setupTelemetry
  | assertSecrets
  | registry (step : RegistryStep)
  /-- The constructor of a resource, `from_config` or `create_pool`. -/
  | create (slot : Slot)
  | onStartup
  /-- What is served at the `yield`. -/
  | body
  | onShutdown
  /-- The `aclose` or `close` of a resource. -/
  | close (slot : Slot)
  deriving DecidableEq

/-- **What one run of a lifespan reads**: the setup of the service and two more
of its class attributes. -/
structure McpSetup extends ServiceSetup where
  enableTelemetry : Bool := false
  assertSecrets : Bool := false

/-! ## The resources of one run -/

namespace ServiceResources

/-- A resource is created where it is missing. -/
def fill (setup : ServiceSetup) (slot : Slot) (s : ServiceResources) : ServiceResources :=
  if s.needs setup slot then s.create setup slot else s

/-- Whether a resource is owned and there. -/
def holdsOwn (s : ServiceResources) (slot : Slot) : Bool := s.owns slot && (s.field slot).isSome

/-- A resource is forgotten where it has been closed. -/
def release (slot : Slot) (s : ServiceResources) : ServiceResources :=
  if s.holdsOwn slot then s.clear slot else s

/-- Whether a run closes the resource: one it creates, unless that gives
nothing, or one that an earlier run has created and left. -/
def closes (setup : ServiceSetup) (s : ServiceResources) (slot : Slot) : Bool :=
  if s.needs setup slot then setup.provides slot else s.holdsOwn slot

variable {setup : ServiceSetup} {s : ServiceResources} {slot slot' : Slot}

/-- The machine of `McpService` fills in the same way. -/
theorem prepare_noFailures :
    (prepare setup McpService.noFailures constructed s).1
      = (s.fill setup .authorizer).fill setup .cache := by
  simp only [constructed, prepare, McpService.noFailures, fill]
  split <;> split <;> rfl

/-- The machine of `McpService` closes the same resources. -/
theorem teardown_cons (slots : List Slot) :
    (teardown (slot :: slots) s).2
      = if s.holdsOwn slot then .closing slot slots else (teardown slots s).2 := by
  rw [teardown, holdsOwn]
  cases s.owns slot <;> cases s.field slot <;> rfl

@[simp] theorem needs_fill_of_ne (h : slot' ≠ slot) :
    (s.fill setup slot).needs setup slot' = s.needs setup slot' := by
  unfold fill
  split
  · show ((Function.update s.field slot _ slot').isNone && _) = _
    rw [Function.update_of_ne h, needs]
  · rfl

@[simp] theorem holdsOwn_fill_of_ne (h : slot' ≠ slot) :
    (s.fill setup slot).holdsOwn slot' = s.holdsOwn slot' := by
  unfold fill
  split
  · show (Function.update s.owns slot _ slot' && (Function.update s.field slot _ slot').isSome) = _
    rw [Function.update_of_ne h, Function.update_of_ne h, holdsOwn]
  · rfl

@[simp] theorem holdsOwn_fill_self : (s.fill setup slot).holdsOwn slot = s.closes setup slot := by
  unfold fill closes
  split
  · next hneeds =>
    have hwants : setup.wants slot = true := (Bool.and_eq_true_iff.mp hneeds).2
    show (Function.update s.owns slot _ slot && (Function.update s.field slot _ slot).isSome) = _
    rw [Function.update_self, Function.update_self, Bool.true_and, ServiceSetup.provides, hwants,
      Bool.true_and, setup.isSome_creates slot s.next 0]
  · rfl

@[simp] theorem closes_fill_of_ne (h : slot' ≠ slot) :
    (s.fill setup slot).closes setup slot' = s.closes setup slot' := by
  rw [closes, closes, needs_fill_of_ne h, holdsOwn_fill_of_ne h]

@[simp] theorem holdsOwn_release_of_ne (h : slot' ≠ slot) :
    (s.release slot).holdsOwn slot' = s.holdsOwn slot' := by
  unfold release
  split
  · show (s.owns slot' && (Function.update s.field slot _ slot').isSome) = _
    rw [Function.update_of_ne h, holdsOwn]
  · rfl

end ServiceResources

namespace McpService

open Script (call callIf callIf_eq actIf tryFinally perform perform_append)
open Application (registerActs deregisterActs acloseActs holdsClient)

/-! ## The script -/

/-- `if self._… is None` and the constructor. -/
def createMissing (setup : ServiceSetup) (slot : Slot) (s : ServiceResources) :
    Script McpStep StepExc ServiceResources := do
  callIf (s.needs setup slot) (.create slot)
  pure (s.fill setup slot)

/-- `if self._owns_…` and the `aclose`. -/
def closeOwned (slot : Slot) (s : ServiceResources) : Script McpStep StepExc ServiceResources := do
  callIf (s.holdsOwn slot) (.close slot)
  pure (s.release slot)

/-- **`lifespan`**, of a service that holds these resources and a registry client
or not. -/
def lifespan (setup : McpSetup) (s : ServiceResources) (registry : Bool) :
    Script McpStep StepExc Unit := do
  callIf setup.enableTelemetry .setupTelemetry
  callIf setup.assertSecrets .assertSecrets
  let registry ← Application.register .registry (registerTarget setup.config) registry
  let s ← createMissing setup.toServiceSetup .authorizer s
  let s ← createMissing setup.toServiceSetup .cache s
  let s ← createMissing setup.toServiceSetup .dbPool s
  call .onStartup
  tryFinally (call .body) (do
    call .onShutdown
    Application.deregister .registry registry
    let s ← closeOwned .authorizer s
    let s ← closeOwned .cache s
    let _ ← closeOwned .dbPool s)

section Plan

variable (setup : McpSetup) (s : ServiceResources) (registry : Bool)

/-- What comes before `_register`: telemetry and the check of the secrets, where
the service asks for them. -/
def openingActs : List (Act McpStep StepExc) :=
  actIf setup.enableTelemetry .setupTelemetry ++ actIf setup.assertSecrets .assertSecrets

/-- What comes between `_register` and the `yield`. -/
def createActs : List (Act McpStep StepExc) :=
  actIf (s.needs setup.toServiceSetup .authorizer) (.create .authorizer)
    ++ (actIf (s.needs setup.toServiceSetup .cache) (.create .cache)
    ++ (actIf (s.needs setup.toServiceSetup .dbPool) (.create .dbPool)
    ++ [.call .onStartup]))

/-- The last part of the `finally`. -/
def closeActs : List (Act McpStep StepExc) :=
  actIf (s.closes setup.toServiceSetup .authorizer) (.close .authorizer)
    ++ (actIf (s.closes setup.toServiceSetup .cache) (.close .cache)
    ++ actIf (s.closes setup.toServiceSetup .dbPool) (.close .dbPool))

/-- **The plan of the lifespan**: its startup, what is served, and the calls of
its `finally` in their order. -/
def plan : Plan McpStep StepExc where
  startup := openingActs setup
    ++ (registerActs .registry (registerTarget setup.config) ++ createActs setup s)
  body := .body
  before := [.call .onShutdown]
  guarded := deregisterActs .registry (holdsClient (registerTarget setup.config) registry)
  final := acloseActs .registry (holdsClient (registerTarget setup.config) registry)
  after := closeActs setup s

theorem plan_startup :
    (plan setup s registry).startup = openingActs setup
      ++ (registerActs .registry (registerTarget setup.config) ++ createActs setup s) := by
  rw [plan]

theorem plan_guarded :
    (plan setup s registry).guarded
      = deregisterActs .registry (holdsClient (registerTarget setup.config) registry) := by
  rw [plan]

theorem plan_final :
    (plan setup s registry).final
      = acloseActs .registry (holdsClient (registerTarget setup.config) registry) := by
  rw [plan]

/-- **The lifespan follows its plan.** As a script it is the startup, the body
and the ways out of the plan, so what is shown of plans holds of it. -/
theorem lifespan_eq_script : lifespan setup s registry = (plan setup s registry).script := by
  simp [lifespan, createMissing, closeOwned, plan, Plan.script, openingActs, createActs, closeActs,
    callIf_eq, Application.register_eq, Application.deregister_eq, perform_append, Act.script]

end Plan

/-! ## Where the calls stand -/

/-- The part of the plan a call stands in. -/
def place : McpStep → Plan.Place
  | .setupTelemetry | .assertSecrets | .create _ | .onStartup => .startup
  | .registry r => r.place
  | .body => .body
  | .onShutdown => .before
  | .close _ => .after

section Placed

variable (setup : McpSetup) (s : ServiceResources) (registry : Bool)

theorem mem_calls_openingActs {c : McpStep}
    (h : c ∈ (openingActs setup).flatMap Act.calls) : c = .setupTelemetry ∨ c = .assertSecrets := by
  rw [openingActs, List.flatMap_append, List.mem_append, Script.mem_calls_actIf,
    Script.mem_calls_actIf] at h
  exact h.imp And.right And.right

theorem mem_calls_createActs {c : McpStep} :
    c ∈ (createActs setup s).flatMap Act.calls
      ↔ (∃ slot, s.needs setup.toServiceSetup slot = true ∧ c = .create slot)
        ∨ c = .onStartup := by
  simp only [createActs, List.flatMap_append, List.mem_append, Script.mem_calls_actIf,
    List.flatMap_cons, List.flatMap_nil, Act.calls, List.mem_singleton, List.append_nil]
  constructor
  · rintro (h | h | h | h)
    exacts [Or.inl ⟨_, h⟩, Or.inl ⟨_, h⟩, Or.inl ⟨_, h⟩, Or.inr h]
  · rintro (⟨slot, h⟩ | h)
    · cases slot <;> simp [h]
    · simp [h]

theorem mem_calls_closeActs {c : McpStep} :
    c ∈ (closeActs setup s).flatMap Act.calls
      ↔ ∃ slot, s.closes setup.toServiceSetup slot = true ∧ c = .close slot := by
  simp only [closeActs, List.flatMap_append, List.mem_append, Script.mem_calls_actIf]
  constructor
  · rintro (h | h | h) <;> exact ⟨_, h⟩
  · rintro ⟨slot, h⟩
    cases slot <;> simp [h]

/-- The lifespan registers in its startup, behind the set-up of the telemetry
and the check of the secrets and in front of the resources. -/
theorem registers_plan :
    Application.Registers (plan setup s registry) place .registry (registerTarget setup.config)
      registry (openingActs setup) (createActs setup s) where
  place_step := fun _ => rfl
  injective := fun _ _ h => McpStep.registry.inj h
  startup := plan_startup setup s registry
  guarded := plan_guarded setup s registry
  final := plan_final setup s registry
  place_pre := fun c hc => by
    obtain rfl | rfl := mem_calls_openingActs setup hc <;> exact ⟨rfl, nofun⟩
  place_post := fun c hc => by
    obtain ⟨slot, -, rfl⟩ | rfl := (mem_calls_createActs setup s).mp hc <;> exact ⟨rfl, nofun⟩
  place_body := rfl
  place_before := fun c hc => by
    rw [List.mem_singleton.mp hc]
    rfl
  place_after := fun c hc => by
    obtain ⟨slot, -, rfl⟩ := (mem_calls_closeActs setup s).mp hc
    rfl

end Placed

/-! ## What is released -/

section Released

variable (setup : McpSetup) (s : ServiceResources) (registry : Bool)
  (raises : McpStep → Option StepExc)

/-- **The lifespan leaves nothing behind.** What it has created it closes, once;
the registry client it has created it closes, with the loops stopped that it
has started; and what was injected it does not close. -/
structure Released : Prop where
  resource : ∀ slot, .create slot ∈ (lifespan setup s registry).log raises →
    raises (.create slot) = none → setup.provides slot = true →
      ((lifespan setup s registry).log raises).count (.close slot) = 1
  client : .registry .newClient ∈ (lifespan setup s registry).log raises →
    raises (.registry .newClient) = none →
      ((lifespan setup s registry).log raises).count (.registry .aclose) = 1
  heartbeat : .registry .startHeartbeat ∈ (lifespan setup s registry).log raises →
    raises (.registry .startHeartbeat) = none →
      .registry .stopHeartbeat ∈ (lifespan setup s registry).log raises
  refresh : .registry .startRefresh ∈ (lifespan setup s registry).log raises →
    raises (.registry .startRefresh) = none →
      .registry .stopRefresh ∈ (lifespan setup s registry).log raises
  injected : ∀ slot, (s.field slot).isSome = true → s.owns slot = false →
    .close slot ∉ (lifespan setup s registry).log raises

/-- **Nothing raises once something is acquired.** Behind a registry client that
has been created, the rest of the startup, `on_shutdown` and `stop_heartbeat`
succeed. Behind a resource that has been created, the rest of the startup,
`on_shutdown`, all of `_deregister`, and what is closed before it. -/
structure Unbroken : Prop where
  client : (∃ url, registerTarget setup.config = .ok (some url)) →
    Clear raises (openingActs setup) → raises (.registry .newClient) = none →
      (plan setup s registry).StartsAndStops raises ∧ raises (.registry .stopHeartbeat) = none
  resource : ∀ slot, s.needs setup.toServiceSetup slot = true → setup.provides slot = true →
    Clear raises (Plan.upTo (.create slot) (plan setup s registry).startup) →
    raises (.create slot) = none →
      (plan setup s registry).StartsAndStops raises
        ∧ Clear raises ((plan setup s registry).guarded ++ (plan setup s registry).final)
        ∧ Clear raises (Plan.upTo (.close slot) (plan setup s registry).after)

variable {setup s registry raises}

theorem create_mem_part_iff {slot : Slot} :
    .create slot ∈ (plan setup s registry).part .startup
      ↔ s.needs setup.toServiceSetup slot = true := by
  rw [Plan.part, Plan.acts, plan_startup, List.flatMap_append, List.flatMap_append,
    List.mem_append, List.mem_append, mem_calls_createActs]
  constructor
  · rintro (h | h | ⟨slot', hneeds, heq⟩ | h)
    · exact absurd (mem_calls_openingActs setup h) (by simp)
    · obtain ⟨r, hr, -⟩ := Application.place_of_mem_registerActs h
      cases hr
    · cases heq
      exact hneeds
    · cases h
  · exact fun hneeds => Or.inr (Or.inr (Or.inl ⟨slot, hneeds, rfl⟩))

theorem close_mem_part_iff {slot : Slot} :
    .close slot ∈ (plan setup s registry).part .after
      ↔ s.closes setup.toServiceSetup slot = true := by
  refine (mem_calls_closeActs setup s).trans ⟨?_, fun h => ⟨slot, h, rfl⟩⟩
  rintro ⟨slot', h, heq⟩
  cases heq
  exact h

/-- A resource is closed once at most on the way out, since its slot stands
there once. -/
theorem count_close_le (slot : Slot) :
    ((plan setup s registry).part .after).count (.close slot) ≤ 1 := by
  show ((closeActs setup s).flatMap Act.calls).count _ ≤ 1
  rw [closeActs, List.flatMap_append, List.flatMap_append, List.count_append, List.count_append]
  refine Nat.le_trans (Nat.add_le_add (Script.count_calls_actIf_le _ _ _)
    (Nat.add_le_add (Script.count_calls_actIf_le _ _ _) (Script.count_calls_actIf_le _ _ _))) ?_
  cases slot <;> decide

theorem count_aclose_le :
    ((plan setup s registry).part .final).count (.registry .aclose) ≤ 1 := by
  rw [Plan.part, Plan.acts, plan_final, acloseActs]
  split <;> decide

/-- What is released stands behind all that may raise in between. -/
theorem unbroken_of_released (h : Released setup s registry raises) :
    Unbroken setup s registry raises := by
  obtain ⟨hresource, hclient, -, hrefresh, -⟩ := h
  have hregisters := registers_plan setup s registry
  have hplaced := hregisters.placed
  simp only [lifespan_eq_script] at hresource hclient hrefresh
  refine ⟨?_, ?_⟩
  · rintro ⟨url, hurl⟩ hopen hnew
    have hmem : .registry .newClient ∈ (plan setup s registry).script.log raises :=
      (hregisters.mem_log_start_iff rfl).mpr ⟨⟨url, hurl⟩, hopen, List.forall_mem_nil _⟩
    have hclosed : .registry .aclose ∈ (plan setup s registry).script.log raises :=
      List.count_pos_iff.mp (by rw [hclient hmem hnew]; exact Nat.one_pos)
    obtain ⟨-, hends, -⟩ := (hregisters.mem_log_stop_iff (by decide)).mp hclosed
    -- with the startup behind it the refresh loop runs, and has to be stopped
    obtain ⟨hstarted, hrefreshes⟩ :=
      hregisters.start_mem_log hurl hends.1 (r := .startRefresh) rfl
    obtain ⟨-, -, hstop⟩ :=
      (hregisters.mem_log_stop_iff (by decide)).mp (hrefresh hstarted hrefreshes)
    exact ⟨hends, hstop _ (List.mem_singleton_self _)⟩
  · intro slot hneeds hprovides hway hcreate
    have hmem : .create slot ∈ (plan setup s registry).script.log raises :=
      (hplaced.mem_log_startup_iff rfl).mpr ⟨create_mem_part_iff.mpr hneeds, hway⟩
    have hclosed : .close slot ∈ (plan setup s registry).script.log raises :=
      List.count_pos_iff.mp (by rw [hresource slot hmem hcreate hprovides]; exact Nat.one_pos)
    exact ((hplaced.mem_log_after_iff rfl).mp hclosed).2

/-- Whichever call shows that something was acquired, what releases it is
reached. -/
theorem released_of_unbroken (h : Unbroken setup s registry raises) :
    Released setup s registry raises := by
  have hregisters := registers_plan setup s registry
  have hplaced := hregisters.placed
  refine ⟨?_, ?_, ?_, ?_, ?_⟩
  all_goals simp only [lifespan_eq_script]
  · intro slot hmem hcreate hprovides
    obtain ⟨hpart, hway⟩ := (hplaced.mem_log_startup_iff rfl).mp hmem
    have hneeds := create_mem_part_iff.mp hpart
    have hcloses : s.closes setup.toServiceSetup slot = true := by
      rw [ServiceResources.closes, if_pos hneeds, hprovides]
    exact hplaced.count_log_eq_one (count_close_le slot) ((hplaced.mem_log_after_iff rfl).mpr
      ⟨close_mem_part_iff.mpr hcloses, h.resource slot hneeds hprovides hway hcreate⟩)
  · intro hmem hnew
    obtain ⟨⟨url, hurl⟩, hopen, -⟩ := (hregisters.mem_log_start_iff rfl).mp hmem
    obtain ⟨hends, -⟩ := h.client ⟨url, hurl⟩ hopen hnew
    exact hplaced.count_log_eq_one count_aclose_le
      (hregisters.stop_mem_log hurl hends (by decide) (List.forall_mem_nil _))
  · intro hmem _
    obtain ⟨⟨url, hurl⟩, hopen, hbefore⟩ := (hregisters.mem_log_start_iff rfl).mp hmem
    obtain ⟨hends, -⟩ := h.client ⟨url, hurl⟩ hopen (hbefore .newClient (by decide))
    exact hregisters.stop_mem_log hurl hends (by decide) (List.forall_mem_nil _)
  · intro hmem _
    obtain ⟨⟨url, hurl⟩, hopen, hbefore⟩ := (hregisters.mem_log_start_iff rfl).mp hmem
    obtain ⟨hends, hstop⟩ := h.client ⟨url, hurl⟩ hopen (hbefore .newClient (by decide))
    exact hregisters.stop_mem_log hurl hends (by decide) (List.forall_mem_singleton.mpr hstop)
  · intro slot hfield howns hmem
    have hcloses := close_mem_part_iff.mp ((hplaced.mem_log_after_iff rfl).mp hmem).1
    have hneeds : s.needs setup.toServiceSetup slot = false := by
      rw [ServiceResources.needs, Option.isNone_eq_false_iff.mpr hfield, Bool.false_and]
    rw [ServiceResources.closes, if_neg (by rw [hneeds]; decide), ServiceResources.holdsOwn,
      howns] at hcloses
    exact Bool.false_ne_true hcloses

/-- **The lifespan leaves nothing behind exactly when nothing raises once
something is acquired.** The `try` begins behind `on_startup`, so what raises
before it leaves the client and the resources that have been created; and in the
`finally` each call is reached only if the ones before it return. -/
theorem released_iff : Released setup s registry raises ↔ Unbroken setup s registry raises :=
  ⟨unbroken_of_released, released_of_unbroken⟩

end Released

/-- A development service with a backend of its own. -/
def backendSetup : McpSetup :=
  { config := { environment := .dev }, requiresDatabase := false, redisInstalled := false }

/-- The backend refuses the connection that `on_startup` opens. -/
def backendDown : McpStep → Option StepExc
  | .onStartup => some (.py (.osError "Connection refused"))
  | _ => none

/-- **What a failing `on_startup` leaves open**: the client of the policy engine,
which the lifespan has created and nobody else knows. -/
theorem not_released :
    ¬ Released backendSetup (init fun _ => false).resources false backendDown := by
  intro h
  have hcreated : .create .authorizer
      ∈ (lifespan backendSetup (init fun _ => false).resources false).log backendDown := by decide
  have hopen : ((lifespan backendSetup (init fun _ => false).resources false).log
      backendDown).count (.close .authorizer) = 0 := by decide
  have hclosed := h.resource .authorizer hcreated rfl rfl
  rw [hopen] at hclosed
  exact absurd hclosed (by decide)

end McpService
