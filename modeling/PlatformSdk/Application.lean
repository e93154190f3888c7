import PlatformSdk.McpService
import PlatformSdk.Registry
import PlatformSdk.Script

/-!
# The registration of an application

`_register` and `_deregister` as scripts: which calls a lifespan makes of the
registry, where any of them may raise. `_register` returns early without a
registry, or where the service is the registry itself, raises where it does
not know its own address, and otherwise makes four calls in a row, none of
which is in a `try`. `_deregister` has a `try` of its own, whose `finally`
closes the client.

Both come to lists of acts (`register_eq`, `deregister_eq`), from which the
lifespans of the applications are put together.
-/

/-- **What a step of a lifespan raises.** -/
inductive StepExc where
  | py (exc : PyExc)
  | registry (exc : Registry.RegistryExc)
  | notImplementedError (msg : String)
  /-- `asyncio.CancelledError`. -/
  | cancelledError

/-- What `except Exception` catches. A cancellation is a `BaseException`, and
goes through. -/
def StepExc.isException : StepExc → Bool
  | .cancelledError => false
  | _ => true

/-- **The calls an application makes of its registry client.** -/
inductive RegistryStep where
  /-- `RegistryClient.from_config`. -/
  | newClient
  | registerSelf
  | startHeartbeat
  | startRefresh
  | stopHeartbeat
  | stopRefresh
  | deregister
  | aclose
  deriving DecidableEq

namespace RegistryStep

/-- **The part of a plan a call of the client stands in.** -/
def place : RegistryStep → Plan.Place
  | .newClient | .registerSelf | .startHeartbeat | .startRefresh => .startup
  | .stopHeartbeat | .stopRefresh | .deregister => .guarded
  | .aclose => .final

/-- The calls that stand before one, in `_register` or in `_deregister`. -/
def before : RegistryStep → List RegistryStep
  | .newClient | .stopHeartbeat | .aclose => []
  | .registerSelf => [.newClient]
  | .startHeartbeat => [.newClient, .registerSelf]
  | .startRefresh => [.newClient, .registerSelf, .startHeartbeat]
  | .stopRefresh => [.stopHeartbeat]
  | .deregister => [.stopHeartbeat, .stopRefresh]

end RegistryStep

namespace Registry

/-- **`register_self`**, past its `await`: a service that is registered already
is registered. -/
def registerSelf : Reply → Except RegistryExc Unit
  | .requestError msg => .error (.registryUnreachable msg)
  | .response status _ =>
    if status = 409 then .ok ()
    else if PostOutcome.isSuccess status then .ok ()
    else .error (.httpStatusError status)

/-- **The registry is down**: it cannot be reached in time, or its answer is a
5xx. -/
def Reply.IsDown : Reply → Prop
  | .requestError _ => True
  | .response status _ => 500 ≤ status ∧ status ≤ 599

/-- What the step raises, by what it comes to. -/
def raisedBy : Except RegistryExc Unit → Option StepExc
  | .ok () => none
  | .error exc => some (.registry exc)

/-- `register_self` raises where the registry is down. -/
theorem raisedBy_registerSelf_ne_none {reply : Reply} (h : reply.IsDown) :
    raisedBy (registerSelf reply) ≠ none := by
  cases reply with
  | requestError msg => exact Option.some_ne_none _
  | response status body =>
    have h409 : status ≠ 409 := fun he => absurd h.1 (by omega)
    have hsuccess : PostOutcome.isSuccess status = false := by
      have hlarge : ¬ status ≤ 299 := fun hle => absurd h.1 (by omega)
      simp [PostOutcome.isSuccess, hlarge]
    have hraised : registerSelf (.response status body) = .error (.httpStatusError status) := by
      simp [registerSelf, h409, hsuccess]
    rw [hraised]
    exact Option.some_ne_none _

end Registry

namespace Application

open Script (call tryFinally perform)

/-! ## Where to register -/

/-- **The registry `_register` talks to**, by the two URLs it reads, if there
is one to talk to. -/
def registryTarget (registryUrl serviceUrl : String) : Except PyExc (Option String) :=
  let registryUrl := rstripSlash registryUrl
  if registryUrl = "" then .ok none
  else
    let selfUrl := rstripSlash serviceUrl
    if selfUrl = "" then
      .error (.runtimeError ("SERVICE_URL must be set when REGISTRY_URL is set. "
        ++ "This service cannot register without knowing its own reachable URL — "
        ++ "set service_url in the service's config (or via the SERVICE_URL env "
        ++ "var that config/dev.yaml resolves)."))
    else if registryUrl = selfUrl then .ok none
    else .ok (some registryUrl)

/-- For an MCP service it is the registry its configuration names. -/
theorem registryTarget_mcpConfig (config : MCPConfig) :
    registryTarget config.registryUrl config.serviceUrl = registerTarget config := rfl

/-- Nothing is registered without a registry, and by the registry itself. -/
theorem registryTarget_eq_none_iff {registryUrl serviceUrl : String} :
    registryTarget registryUrl serviceUrl = .ok none
      ↔ rstripSlash registryUrl = "" ∨ rstripSlash registryUrl = rstripSlash serviceUrl := by
  show (if rstripSlash registryUrl = "" then _ else if rstripSlash serviceUrl = "" then _
    else if rstripSlash registryUrl = rstripSlash serviceUrl then _ else _) = _ ↔ _
  by_cases hempty : rstripSlash registryUrl = ""
  · rw [if_pos hempty]
    exact iff_of_true rfl (Or.inl hempty)
  rw [if_neg hempty]
  by_cases hsame : rstripSlash registryUrl = rstripSlash serviceUrl
  · have hself : rstripSlash serviceUrl ≠ "" := hsame ▸ hempty
    rw [if_neg hself, if_pos hsame]
    exact iff_of_true rfl (Or.inr hsame)
  · have hnone : ¬ (rstripSlash registryUrl = "" ∨ rstripSlash registryUrl
        = rstripSlash serviceUrl) := not_or.mpr ⟨hempty, hsame⟩
    by_cases hself : rstripSlash serviceUrl = ""
    · rw [if_pos hself]
      exact iff_of_false nofun hnone
    · rw [if_neg hself, if_neg hsame]
      exact iff_of_false nofun hnone

/-! ## The two halves -/

section Scripts

variable {γ : Type} (step : RegistryStep → γ) (target : Except PyExc (Option String))
  (registry : Bool)

/-- **`_register`**, for an application that holds a client already or not:
whether it holds one afterwards. -/
def register : Script γ StepExc Bool :=
  match target with
  | .error exc => Script.throw (.py exc)
  | .ok none => pure registry
  | .ok (some _) => do
    call (step .newClient)
    call (step .registerSelf)
    call (step .startHeartbeat)
    call (step .startRefresh)
    pure true

/-- **`_deregister`**, likewise. -/
def deregister : Script γ StepExc Unit :=
  if registry then
    tryFinally
      (do
        call (step .stopHeartbeat)
        call (step .stopRefresh)
        call (step .deregister))
      (call (step .aclose))
  else pure ()

/-- The acts of `_register`. -/
def registerActs : List (Act γ StepExc) :=
  match target with
  | .error exc => [.fail (.py exc)]
  | .ok none => []
  | .ok (some _) =>
    [.call (step .newClient), .call (step .registerSelf), .call (step .startHeartbeat),
      .call (step .startRefresh)]

/-- Whether the application holds a client behind `_register`. -/
def holdsClient : Bool :=
  match target with
  | .ok (some _) => true
  | _ => registry

/-- The acts of `_deregister`. -/
def deregisterActs : List (Act γ StepExc) :=
  if registry then
    [.call (step .stopHeartbeat), .call (step .stopRefresh), .call (step .deregister)]
  else []

/-- The acts of its `finally`. -/
def acloseActs : List (Act γ StepExc) := if registry then [.call (step .aclose)] else []

theorem register_eq :
    register step target registry
      = (perform (registerActs step target) >>= fun _ => pure (holdsClient target registry)) := by
  obtain exc | _ | url := target
  · rfl
  · rfl
  · simp [register, registerActs, holdsClient, perform, Act.script]

theorem deregister_eq :
    deregister step registry
      = tryFinally (perform (deregisterActs step registry))
          (perform (acloseActs step registry)) := by
  cases registry with
  | false => rfl
  | true => simp [deregister, deregisterActs, acloseActs, perform, Act.script]

/-- The acts of `_register` succeed when its four calls do. -/
theorem clear_registerActs_iff {raises : γ → Option StepExc} {url : String} :
    Clear raises (registerActs step (.ok (some url)))
      ↔ ∀ r : RegistryStep, r.place = .startup → raises (step r) = none := by
  constructor
  · intro h r hr
    have hmem : Act.call (step r) ∈ registerActs step (.ok (some url)) := by
      cases r <;> first | exact absurd hr (by decide) | simp [registerActs]
    exact h _ hmem
  · intro h a ha
    simp only [registerActs, List.mem_cons, List.not_mem_nil, or_false] at ha
    obtain rfl | rfl | rfl | rfl := ha
    all_goals exact h _ rfl

end Scripts

/-! ## Where the calls stand in a plan -/

section Placed

variable {γ : Type} {step : RegistryStep → γ} {target : Except PyExc (Option String)}
  {registry : Bool} {c : γ}

theorem place_of_mem_registerActs (h : c ∈ (registerActs step target).flatMap Act.calls) :
    ∃ r, c = step r ∧ r.place = .startup := by
  obtain exc | _ | url := target
  · exact absurd h List.not_mem_nil
  · exact absurd h List.not_mem_nil
  · simp only [registerActs, List.flatMap_cons, List.flatMap_nil, Act.calls, List.mem_append,
      List.mem_singleton, List.not_mem_nil, or_false] at h
    obtain rfl | rfl | rfl | rfl := h
    all_goals exact ⟨_, rfl, rfl⟩

theorem place_of_mem_deregisterActs (h : c ∈ (deregisterActs step registry).flatMap Act.calls) :
    ∃ r, c = step r ∧ r.place = .guarded := by
  cases registry with
  | false => exact absurd h List.not_mem_nil
  | true =>
    simp only [deregisterActs, if_true, List.flatMap_cons, List.flatMap_nil, Act.calls,
      List.mem_append, List.mem_singleton, List.not_mem_nil, or_false] at h
    obtain rfl | rfl | rfl := h
    all_goals exact ⟨_, rfl, rfl⟩

theorem place_of_mem_acloseActs (h : c ∈ (acloseActs step registry).flatMap Act.calls) :
    ∃ r, c = step r ∧ r.place = .final := by
  cases registry with
  | false => exact absurd h List.not_mem_nil
  | true => exact ⟨.aclose, List.mem_singleton.mp h, rfl⟩

end Placed

/-- The calls of the client that stand before one, as acts. -/
def actsBefore {γ : Type} (step : RegistryStep → γ) (r : RegistryStep) : List (Act γ StepExc) :=
  r.before.map (fun q => Act.call (step q))

section Before

variable {γ : Type} {step : RegistryStep → γ}

theorem step_notMem_actsBefore (hinj : Function.Injective step) (r : RegistryStep) :
    step r ∉ (actsBefore step r).flatMap Act.calls := by
  rw [actsBefore, List.flatMap_map]
  show step r ∉ r.before.flatMap (fun q => [step q])
  rw [List.mem_flatMap]
  rintro ⟨q, hq, hmem⟩
  have hqr : r = q := hinj (List.mem_singleton.mp hmem)
  rw [← hqr] at hq
  cases r <;> exact absurd hq (by decide)

theorem clear_actsBefore_iff {raises : γ → Option StepExc} {r : RegistryStep} :
    Clear raises (actsBefore step r) ↔ ∀ q ∈ r.before, raises (step q) = none :=
  List.forall_mem_map

end Before

/-- **A plan that registers in its startup and deregisters in its `finally`**,
and makes the calls of its registry client nowhere else. -/
structure Registers {γ : Type} (p : Plan γ StepExc) (place' : γ → Plan.Place)
    (step : RegistryStep → γ) (target : Except PyExc (Option String)) (registry : Bool)
    (pre post : List (Act γ StepExc)) : Prop where
  place_step : ∀ r, place' (step r) = r.place
  injective : Function.Injective step
  startup : p.startup = pre ++ (registerActs step target ++ post)
  guarded : p.guarded = deregisterActs step (holdsClient target registry)
  final : p.final = acloseActs step (holdsClient target registry)
  place_pre : ∀ c ∈ pre.flatMap Act.calls, place' c = .startup ∧ ∀ r, c ≠ step r
  place_post : ∀ c ∈ post.flatMap Act.calls, place' c = .startup ∧ ∀ r, c ≠ step r
  place_body : place' p.body = .body
  place_before : ∀ c ∈ p.part .before, place' c = .before
  place_after : ∀ c ∈ p.part .after, place' c = .after

namespace Registers

variable {γ : Type} {p : Plan γ StepExc} {place' : γ → Plan.Place} {step : RegistryStep → γ}
  {target : Except PyExc (Option String)} {registry : Bool} {pre post : List (Act γ StepExc)}
  (h : Registers p place' step target registry pre post) {raises : γ → Option StepExc}
  {r : RegistryStep}

include h

/-- Every call of the plan has its place, so that whether it is made is decided
by the parts before it. -/
theorem placed : p.PlacedBy place' := by
  have hstep : ∀ {x : Plan.Place} {c : γ}, (∃ r, c = step r ∧ r.place = x) → place' c = x := by
    rintro x _ ⟨r, rfl, hr⟩
    exact (h.place_step r).trans hr
  intro x c hc
  cases x with
  | startup =>
    rw [Plan.part, Plan.acts, h.startup, List.flatMap_append, List.flatMap_append,
      List.mem_append, List.mem_append] at hc
    rcases hc with hc | hc | hc
    · exact (h.place_pre c hc).1
    · exact hstep (place_of_mem_registerActs hc)
    · exact (h.place_post c hc).1
  | body => exact List.mem_singleton.mp hc ▸ h.place_body
  | before => exact h.place_before c hc
  | guarded =>
    rw [Plan.part, Plan.acts, h.guarded] at hc
    exact hstep (place_of_mem_deregisterActs hc)
  | final =>
    rw [Plan.part, Plan.acts, h.final] at hc
    exact hstep (place_of_mem_acloseActs hc)
  | after => exact h.place_after c hc

/-- **The calls of `_register` are made** where there is a registry, behind what
stands before them. -/
theorem mem_log_start_iff (hr : r.place = .startup) :
    step r ∈ p.script.log raises
      ↔ (∃ url, target = .ok (some url)) ∧ Clear raises pre
        ∧ ∀ q ∈ r.before, raises (step q) = none := by
  have hplace : place' (step r) = .startup := (h.place_step r).trans hr
  by_cases htarget : ∃ url, target = .ok (some url)
  · obtain ⟨url, htarget'⟩ := htarget
    have hacts : ∃ rest, registerActs step target
        = actsBefore step r ++ .call (step r) :: rest := by
      rw [htarget']
      cases r <;> first | exact ⟨_, rfl⟩ | exact absurd hr (by decide)
    obtain ⟨rest, hacts⟩ := hacts
    have hpre : step r ∉ (pre ++ actsBefore step r).flatMap Act.calls := by
      rw [List.flatMap_append, List.mem_append, not_or]
      exact ⟨fun hmem => (h.place_pre _ hmem).2 r rfl, step_notMem_actsBefore h.injective r⟩
    have hstartup : p.acts (place' (step r))
        = (pre ++ actsBefore step r) ++ .call (step r) :: (rest ++ post) := by
      rw [hplace, Plan.acts, h.startup, hacts, List.append_assoc, List.append_assoc,
        List.cons_append]
    rw [h.placed.behind hstartup (List.mem_singleton_self _) hpre raises, hplace, Plan.entry,
      List.nil_append, Script.clear_append_iff, clear_actsBefore_iff]
    exact (and_iff_right ⟨url, htarget'⟩).symm
  · refine iff_of_false (fun hmem => ?_) (fun hall => htarget hall.1)
    -- without a registry the call stands nowhere in the plan
    have hpart : step r ∈ (p.acts (place' (step r))).flatMap Act.calls :=
      Script.mem_of_mem_log_perform (h.placed.mem_log_iff.mp hmem).2
    have hcalls : (registerActs step target).flatMap Act.calls = [] := by
      obtain exc | _ | url := target
      · rfl
      · rfl
      · exact absurd ⟨url, rfl⟩ htarget
    rw [hplace, Plan.acts, h.startup, List.flatMap_append, List.flatMap_append, hcalls,
      List.nil_append, List.mem_append] at hpart
    exact hpart.elim (fun hmem => (h.place_pre _ hmem).2 r rfl)
      (fun hmem => (h.place_post _ hmem).2 r rfl)

/-- **The calls of `_deregister` are made** where the application holds a client,
behind the startup and what stands first in the `finally`. -/
theorem mem_log_stop_iff (hr : r.place ≠ .startup) :
    step r ∈ p.script.log raises
      ↔ holdsClient target registry = true ∧ p.StartsAndStops raises
        ∧ ∀ q ∈ r.before, raises (step q) = none := by
  have hentry : p.entry (place' (step r)) = p.startup ++ p.before := by
    rw [h.place_step]
    cases r <;> first | rfl | exact absurd rfl hr
  have hacts : ∃ rest, p.acts (place' (step r))
      = if holdsClient target registry then actsBefore step r ++ .call (step r) :: rest
        else [] := by
    rw [h.place_step]
    cases hholds : holdsClient target registry
    · cases r <;> first
        | exact ⟨[], h.guarded.trans (by rw [hholds]; rfl)⟩
        | exact ⟨[], h.final.trans (by rw [hholds]; rfl)⟩
        | exact absurd rfl hr
    · cases r <;> first
        | exact ⟨_, h.guarded.trans (by rw [hholds]; rfl)⟩
        | exact ⟨_, h.final.trans (by rw [hholds]; rfl)⟩
        | exact absurd rfl hr
  obtain ⟨rest, hacts⟩ := hacts
  cases hholds : holdsClient target registry with
  | false =>
    rw [hholds, if_neg Bool.false_ne_true] at hacts
    refine iff_of_false (fun hmem => ?_) (fun hall => absurd hall.1 Bool.false_ne_true)
    have hmem' := (h.placed.mem_log_iff.mp hmem).2
    rw [hacts] at hmem'
    exact absurd hmem' List.not_mem_nil
  | true =>
    rw [hholds, if_pos rfl] at hacts
    rw [h.placed.behind hacts (List.mem_singleton_self _)
        (step_notMem_actsBefore h.injective r) raises, hentry,
      Script.clear_append_iff, Script.clear_append_iff, clear_actsBefore_iff]
    exact (and_iff_right rfl).symm

/-- Where `register_self` raises, and nothing else does, the application is up
when it has nowhere to register. -/
theorem body_mem_log_iff (hself : raises (step .registerSelf) ≠ none) (hpre : Clear raises pre)
    (hpost : Clear raises post) : p.body ∈ p.script.log raises ↔ target = .ok none := by
  rw [h.placed.body_mem_log_iff, h.startup, Script.clear_append_iff, Script.clear_append_iff]
  obtain exc | _ | url := target
  · refine iff_of_false (fun hclear => ?_) nofun
    exact hclear.2.1 _ (List.mem_singleton_self _)
  · exact iff_of_true ⟨hpre, Script.clear_nil, hpost⟩ rfl
  · refine iff_of_false (fun hclear => hself ?_) nofun
    exact (clear_registerActs_iff step).mp hclear.2.1 .registerSelf rfl

variable {url : String} (hurl : target = .ok (some url))

include hurl

/-- Behind the startup the service is registered and its loops run. -/
theorem start_mem_log (hstartup : Clear raises p.startup) (hr : r.place = .startup) :
    step r ∈ p.script.log raises ∧ raises (step r) = none := by
  rw [h.startup, Script.clear_append_iff, Script.clear_append_iff, hurl,
    clear_registerActs_iff] at hstartup
  obtain ⟨hpre, hacts, -⟩ := hstartup
  refine ⟨(h.mem_log_start_iff hr).mpr ⟨⟨url, hurl⟩, hpre, fun q hq => hacts q ?_⟩, hacts r hr⟩
  revert q hq hr
  cases r <;> decide

/-- What releases the client of a registered service stands behind the startup,
`on_shutdown` and the calls before it. -/
theorem stop_mem_log (hends : p.StartsAndStops raises) (hr : r.place ≠ .startup)
    (hbefore : ∀ q ∈ r.before, raises (step q) = none) : step r ∈ p.script.log raises := by
  refine (h.mem_log_stop_iff hr).mpr ⟨?_, hends, hbefore⟩
  rw [hurl]
  rfl

end Registers

end Application
