import PlatformSdk.Journal
import PlatformSdk.RegistryDown

/-!
# The peers an agent starts with

An agent names the services it depends on, looks each up in turn and connects a
bridge to those that are healthy. A lookup that fails is logged and passed
over, and so is a service that is not healthy; a name that stands in the list
twice has one bridge, to where it was found last.

`serves_with_peers` says both halves of what an operator relies on. What the
lookups come to decides on whether the agent serves in one way only: the hooks
of the agent are handed the bridges, and may raise without one. And an agent
that serves has started one bridge to each service that was found healthy, and
none to any other.
-/

namespace BaseAgentApp

open Application (holdsClient registerActs)

section Finds

variable {lookup : ℕ → Except StepExc RegistryEntry} {name name' url : String}
  {names : List String} {k : ℕ}

/-- **The lookup at a position finds the service healthy**, at a URL. -/
def FindsAt (lookup : ℕ → Except StepExc RegistryEntry) (names : List String) (k : ℕ)
    (name url : String) : Prop :=
  names[k]? = some name
    ∧ ∃ entry, lookup k = .ok entry ∧ entry.healthy = true ∧ url = bridgeUrl entry

/-- **Where a service is found last.** -/
def FindsLast (lookup : ℕ → Except StepExc RegistryEntry) (names : List String)
    (name url : String) : Prop :=
  ∃ k, FindsAt lookup names k name url ∧ ∀ l url', FindsAt lookup names l name url' → l ≤ k

/-- What a lookup finds: one bridge where the service is healthy, and none where
it is not or the lookup fails. -/
def found (name : String) : Except StepExc RegistryEntry → List (String × String)
  | .ok entry => if entry.healthy then [(name, bridgeUrl entry)] else []
  | .error _ => []

/-- What the lookups find, in their order. -/
def finds (lookup : ℕ → Except StepExc RegistryEntry) : List String → List (String × String)
  | [] => []
  | name :: names => found name (lookup 0) ++ finds (fun k => lookup (k + 1)) names

/-- **The bridges are what the lookups find, one after the other.** -/
theorem foundBridges_eq_update (world : AgentWorld) (i : ℕ) (names : List String)
    (bridges : Dict String String) :
    foundBridges world true i names bridges
      = bridges.update (finds (fun k => world.lookup (i + k)) names) := by
  induction names generalizing i bridges with
  | nil => rfl
  | cons name names ih =>
    have hshift : (fun k => world.lookup (i + (k + 1))) = fun k => world.lookup (i + 1 + k) :=
      funext fun k => congrArg world.lookup (by omega)
    rw [foundBridges, if_pos rfl, finds, Dict.update_append, hshift, Nat.add_zero]
    cases world.lookup i with
    | error exc => exact ih (i + 1) bridges
    | ok entry =>
      show foundBridges world true (i + 1) names _ = _
      rw [ih, found]
      cases entry.healthy <;> rfl

theorem findsAt_zero_iff :
    FindsAt lookup (name :: names) 0 name' url ↔ (name', url) ∈ found name (lookup 0) := by
  rw [FindsAt, List.getElem?_cons_zero, Option.some.injEq]
  cases lookup 0 with
  | error exc => exact iff_of_false (fun ⟨_, _, h, _⟩ => by cases h) List.not_mem_nil
  | ok entry =>
    rw [found]
    split
    · next hhealthy =>
      rw [List.mem_singleton, Prod.mk.injEq]
      refine and_congr eq_comm ⟨fun ⟨_, h, _, hurl⟩ => ?_, fun hurl => ⟨entry, rfl, hhealthy, hurl⟩⟩
      rw [hurl, Except.ok.inj h]
    · next hhealthy =>
      refine iff_of_false (fun ⟨_, _, h, h', _⟩ => hhealthy ?_) List.not_mem_nil
      rw [Except.ok.inj h, h']

theorem findsAt_succ_iff :
    FindsAt lookup (name :: names) (k + 1) name' url
      ↔ FindsAt (fun k => lookup (k + 1)) names k name' url := by
  rw [FindsAt, List.getElem?_cons_succ, FindsAt]

/-- A service is found last behind the first name, or it is found there and not
behind it. -/
theorem findsLast_cons_iff :
    FindsLast lookup (name :: names) name' url
      ↔ FindsLast (fun k => lookup (k + 1)) names name' url
        ∨ (∀ k url', ¬ FindsAt (fun k => lookup (k + 1)) names k name' url')
          ∧ FindsAt lookup (name :: names) 0 name' url := by
  constructor
  · rintro ⟨k, hk, hlast⟩
    cases k with
    | zero =>
      refine Or.inr ⟨fun l url' hl => ?_, hk⟩
      exact absurd (hlast (l + 1) url' (findsAt_succ_iff.mpr hl)) (by omega)
    | succ k =>
      refine Or.inl ⟨k, findsAt_succ_iff.mp hk, fun l url' hl => ?_⟩
      exact Nat.le_of_succ_le_succ (hlast (l + 1) url' (findsAt_succ_iff.mpr hl))
  · rintro (⟨k, hk, hlast⟩ | ⟨hnone, h⟩)
    · refine ⟨k + 1, findsAt_succ_iff.mpr hk, fun l url' hl => ?_⟩
      cases l with
      | zero => exact Nat.zero_le _
      | succ l => exact Nat.succ_le_succ (hlast l url' (findsAt_succ_iff.mp hl))
    · refine ⟨0, h, fun l url' hl => ?_⟩
      cases l with
      | zero => exact Nat.le_refl 0
      | succ l => exact absurd (findsAt_succ_iff.mp hl) (hnone l url')

/-- One lookup finds one service at most. -/
theorem lastWrite_found_eq_some_iff {result : Except StepExc RegistryEntry} :
    Dict.lastWrite (found name result) name' = some url ↔ (name', url) ∈ found name result := by
  have hone (ws : List (String × String)) (h : ws.length ≤ 1) :
      Dict.lastWrite ws name' = some url ↔ (name', url) ∈ ws := by
    match ws, h with
    | [], _ => exact iff_of_false nofun List.not_mem_nil
    | [(k, v)], _ =>
      show (if k = name' then some v else none) = some url ↔ _
      rw [List.mem_singleton, Prod.mk.injEq]
      by_cases hk : k = name'
      · rw [if_pos hk, Option.some.injEq, eq_comm, and_iff_right hk.symm]
      · rw [if_neg hk]
        exact iff_of_false nofun fun h => hk h.1.symm
  refine hone _ ?_
  unfold found
  split
  · split
    · exact Nat.le_refl 1
    · exact Nat.zero_le 1
  · exact Nat.zero_le 1

/-- Where nothing is written nothing is found. -/
theorem lastWrite_finds_eq_none_iff :
    Dict.lastWrite (finds lookup names) name' = none
      ↔ ∀ k url, ¬ FindsAt lookup names k name' url := by
  induction names generalizing lookup with
  | nil => exact iff_of_true rfl fun k url h => absurd h.1 (by simp)
  | cons name names ih =>
    have hhere : Dict.lastWrite (found name (lookup 0)) name' = none
        ↔ ∀ url, ¬ FindsAt lookup (name :: names) 0 name' url := by
      rw [Option.eq_none_iff_forall_ne_some]
      exact forall_congr' fun url =>
        not_congr (lastWrite_found_eq_some_iff.trans findsAt_zero_iff.symm)
    rw [finds, Dict.lastWrite_append, Option.orElse_eq_or, Option.or_eq_none_iff, ih, hhere]
    constructor
    · rintro ⟨htail, hzero⟩ k url h
      cases k with
      | zero => exact hzero url h
      | succ k => exact htail k url (findsAt_succ_iff.mp h)
    · exact fun h => ⟨fun k url hk => h (k + 1) url (findsAt_succ_iff.mpr hk), h 0⟩

/-- **The last write of a name is where the service is found last.** -/
theorem lastWrite_finds_eq_some_iff :
    Dict.lastWrite (finds lookup names) name' = some url
      ↔ FindsLast lookup names name' url := by
  induction names generalizing lookup with
  | nil => exact iff_of_false nofun fun ⟨k, h, _⟩ => absurd h.1 (by simp)
  | cons name names ih =>
    rw [finds, Dict.lastWrite_append, Option.orElse_eq_or, Option.or_eq_some_iff, ih,
      findsLast_cons_iff, lastWrite_finds_eq_none_iff, lastWrite_found_eq_some_iff,
      findsAt_zero_iff]

end Finds

/-! ## Serving -/

section Serving

variable {setup : AgentSetup} {world : AgentWorld} {registry : Bool}
  {raises : AgentStep → Option StepExc}

/-- **No lookup is cancelled**, which is what an `except Exception` would not
catch. -/
def Uncancelled (lookup : ℕ → Except StepExc RegistryEntry) : Prop :=
  ∀ i exc, lookup i = .error exc → exc.isException = true

/-- **Of the steps of the startup only the two hooks are handed the bridges**: no
other one raises for what they are. -/
def OnlyHooksSee (raises : Dict String String → AgentStep → Option StepExc) : Prop :=
  ∀ d d' c, place c = .startup → c ≠ .buildDependencies → c ≠ .onStarted →
    raises d c = raises d' c

/-- **The hooks do as well with one set of bridges as with another.** -/
def HooksAgree (raises : Dict String String → AgentStep → Option StepExc)
    (d d' : Dict String String) : Prop :=
  ∀ c ∈ [AgentStep.buildDependencies, .onStarted], raises d c = none ↔ raises d' c = none

/-- Where they do, the startup of a run does. -/
theorem clear_startup_congr {raises : Dict String String → AgentStep → Option StepExc}
    (hhooks : OnlyHooksSee raises) {d d' : Dict String String} (hagree : HooksAgree raises d d') :
    Clear (raises d) (plan setup world registry).startup
      ↔ Clear (raises d') (plan setup world registry).startup := by
  refine Script.clear_congr fun c hc => ?_
  by_cases hhook : c ∈ [AgentStep.buildDependencies, .onStarted]
  · exact hagree c hhook
  · obtain ⟨hbuild, hstarted⟩ := not_or.mp (List.mem_pair.not.mp hhook)
    rw [hhooks d d' c ((registers_plan setup world registry).placed .startup c hc) hbuild hstarted]

/-- Where the `await` for the bridges is not cancelled, connecting them raises
nothing. -/
theorem clear_connectActs (h : raises .gather = none) (bridges : Dict String String) :
    Clear raises (connectActs bridges) := by
  rw [connectActs]
  split
  · exact Script.clear_nil
  · rw [Script.clear_append_iff]
    exact ⟨List.forall_mem_map.mpr fun _ _ => trivial, List.forall_mem_singleton.mpr h⟩

/-- **Whether the startup succeeds is not up to the lookups.** -/
theorem clear_startActs_congr {lookup' : ℕ → Except StepExc RegistryEntry}
    (hlookup : Uncancelled world.lookup) (hlookup' : Uncancelled lookup')
    (hgather : raises .gather = none) :
    Clear raises (startActs setup world registry)
      ↔ Clear raises (startActs setup { world with lookup := lookup' } registry) := by
  have hfind : Clear raises (findActs setup world registry)
      ↔ Clear raises (findActs setup { world with lookup := lookup' } registry) := by
    rw [findActs, findActs]
    split
    · refine iff_of_true (clear_lookupActs hlookup _ _) (clear_lookupActs ?_ _ _)
      exact hlookup'
    · exact Iff.rfl
  have hconnect : Clear raises (connectActs (bridgesOf setup world registry))
      ↔ Clear raises (connectActs (bridgesOf setup { world with lookup := lookup' } registry)) :=
    iff_of_true (clear_connectActs hgather _) (clear_connectActs hgather _)
  have hmake : makeStoreActs setup { world with lookup := lookup' } = makeStoreActs setup world :=
    rfl
  have hstore : storeOf setup { world with lookup := lookup' } = storeOf setup world := rfl
  simp only [startActs, Script.clear_cons_iff, Script.clear_append_iff, hfind, hconnect, hmake,
    hstore]

/-- The bridges of a run to the dependencies are what its lookups find. -/
theorem bridges_eq_update (hdeps : setup.mcpDependencies ≠ []) :
    bridges setup world registry
      = if holdsClient (targetOf setup) registry = true then
          Dict.update [] (finds world.lookup setup.mcpDependencies)
        else [] := by
  have hnone (i : ℕ) (names : List String) : foundBridges world false i names [] = [] := by
    induction names generalizing i with
    | nil => rfl
    | cons name names ih => exact ih (i + 1)
  rw [bridges, bridgesOf, if_pos hdeps]
  cases holdsClient (targetOf setup) registry with
  | false => exact hnone 0 _
  | true =>
    have hzero : (fun k => world.lookup (0 + k)) = world.lookup :=
      funext fun k => congrArg world.lookup (Nat.zero_add k)
    rw [foundBridges_eq_update, hzero, if_pos rfl]

/-- **A bridge leads to where its service was found last.** -/
theorem get?_bridges_iff (hdeps : setup.mcpDependencies ≠ []) (name url : String) :
    (bridges setup world registry).get? name = some url
      ↔ holdsClient (targetOf setup) registry = true
        ∧ FindsLast world.lookup setup.mcpDependencies name url := by
  rw [bridges_eq_update hdeps]
  split
  · next hheld =>
    rw [Dict.get?_update, Dict.get?_nil, Option.orElse_eq_or, Option.or_none,
      lastWrite_finds_eq_some_iff, and_iff_right hheld]
  · next hheld => exact iff_of_false (fun h => by cases h) fun h => hheld h.1

/-- No name has two bridges, as they are kept in a `dict` by their names. -/
theorem nodup_keys_bridges (hdeps : setup.mcpDependencies ≠ []) :
    (bridges setup world registry).keys.Nodup := by
  rw [bridges_eq_update hdeps]
  split
  · have hnil : (Dict.keys ([] : Dict String String)).Nodup := List.nodup_nil
    exact Dict.nodup_keys_update hnil _
  · exact List.nodup_nil

/-- A bridge to a name is connected once at most. -/
theorem count_connect_le (hdeps : setup.mcpDependencies ≠ []) (name : String) :
    ((plan setup world registry).part .startup).count (.connect name) ≤ 1 := by
  have hother {acts : List (Act AgentStep StepExc)}
      (h : .connect name ∉ acts.flatMap Act.calls) :
      (acts.flatMap Act.calls).count (.connect name) = 0 := List.count_eq_zero.mpr h
  have hif (b : Bool) (c : AgentStep) (hc : .connect name ≠ c) :
      ((Script.actIf b c : List (Act AgentStep StepExc)).flatMap Act.calls).count (.connect name)
        = 0 :=
    hother fun h => hc (Script.mem_calls_actIf.mp h).2
  have hconnect (d : Dict String String) (hd : d.keys.Nodup) :
      ((connectActs d).flatMap Act.calls).count (.connect name) ≤ 1 := by
    rw [connectActs]
    split
    · exact Nat.zero_le 1
    · have hcalls : (d.keys.map fun n => Act.start (AgentStep.connect n)).flatMap
            (Act.calls (ε := StepExc)) = d.keys.map AgentStep.connect := by
        rw [List.flatMap_map]
        exact List.flatMap_pure_eq_map _ _
      have hinjective : Function.Injective AgentStep.connect := fun _ _ h => AgentStep.connect.inj h
      rw [List.flatMap_append, hcalls, List.count_append,
        List.count_map_of_injective _ _ hinjective]
      exact List.nodup_iff_count_le_one.mp hd name
  have hregister : .connect name
      ∉ (registerActs AgentStep.registry (targetOf setup)).flatMap Act.calls := by
    intro h
    obtain ⟨r, hr, -⟩ := Application.place_of_mem_registerActs h
    cases hr
  have hfind (held : Bool) : .connect name ∉ (findActs setup world held).flatMap Act.calls := by
    intro h
    obtain ⟨j, hj⟩ | hwarn := mem_calls_findActs h
    · cases hj
    · cases hwarn
  have hmake : .connect name ∉ (makeStoreActs setup world).flatMap Act.calls := by
    intro h
    cases mem_calls_makeStoreActs h
  rw [Plan.part, Plan.acts, plan_startup, openingActs, startActs]
  have hcall (c : AgentStep) (hc : c ≠ .connect name) :
      (Act.call c : Act AgentStep StepExc).calls.count (.connect name) = 0 :=
    List.count_eq_zero.mpr fun h => hc (List.mem_singleton.mp h).symm
  simp only [List.flatMap_append, List.flatMap_cons, List.flatMap_nil, List.count_append,
    List.count_nil, hother hregister, hother (hfind _), hother hmake,
    hif _ .setupTelemetry (by simp), hif _ .setupCheckpointer (by simp),
    hif _ .storeConnect (by simp), hcall .serviceAgentContext (by simp),
    hcall .buildDependencies (by simp), hcall .onStarted (by simp), Nat.zero_add, Nat.add_zero]
  exact hconnect _ (nodup_keys_bridges hdeps)

/-- **The peers of a run**: which there are, which of them a bridge is connected
to, and how often. -/
structure Peers (setup : AgentSetup) (world : AgentWorld) (registry : Bool)
    (raises : AgentStep → Option StepExc) : Prop where
  url : ∀ name url, (bridges setup world registry).get? name = some url
    ↔ holdsClient (targetOf setup) registry = true
      ∧ FindsLast world.lookup setup.mcpDependencies name url
  connect : ∀ name, .connect name ∈ (lifespan setup world registry).log raises
    ↔ ∃ url, (bridges setup world registry).get? name = some url
  once : ∀ name, ((lifespan setup world registry).log raises).count (.connect name) ≤ 1

/-- The agent serves behind a startup that succeeds. -/
theorem body_mem_log_iff_clear : .body ∈ (lifespan setup world registry).log raises
    ↔ Clear raises (plan setup world registry).startup := by
  rw [lifespan_eq_script]
  exact (registers_plan setup world registry).placed.body_mem_log_iff

variable (setup world registry) in
/-- **An agent serves whatever its lookups come to, with the peers they find.**
Where no lookup is cancelled, nor the `await` for the bridges, the agent serves
whenever it does with any other such lookups, as long as its hooks do as well
with the bridges of the ones as with those of the others; and where it serves
it has started one bridge to each dependency that some lookup found healthy, to
where the last of these found it, and none to any other. -/
theorem serves_with_peers {lookup' : ℕ → Except StepExc RegistryEntry}
    (raises : Dict String String → AgentStep → Option StepExc) (hhooks : OnlyHooksSee raises)
    (hdeps : setup.mcpDependencies ≠ []) (hlookup : Uncancelled world.lookup)
    (hlookup' : Uncancelled lookup') (hgather : ∀ d, raises d .gather = none) :
    (HooksAgree raises (bridges setup world registry)
          (bridges setup { world with lookup := lookup' } registry) →
        (.body ∈ (lifespan setup world registry).log (raises (bridges setup world registry))
          ↔ .body ∈ (lifespan setup { world with lookup := lookup' } registry).log
            (raises (bridges setup { world with lookup := lookup' } registry))))
      ∧ (.body ∈ (lifespan setup world registry).log (raises (bridges setup world registry)) →
        Peers setup world registry (raises (bridges setup world registry))) := by
  refine ⟨fun hagree => ?_, fun hbody => ?_⟩
  · rw [body_mem_log_iff_clear, body_mem_log_iff_clear, clear_startup_congr hhooks hagree,
      plan_startup, plan_startup]
    simp only [Script.clear_append_iff, clear_startActs_congr hlookup hlookup' (hgather _)]
  · have hplaced := (registers_plan setup world registry).placed
    have hclear (c : AgentStep) : Clear (raises (bridges setup world registry))
        (Plan.upTo c (plan setup world registry).startup) :=
      fun a ha => body_mem_log_iff_clear.mp hbody a ((List.takeWhile_prefix _).subset ha)
    refine ⟨get?_bridges_iff hdeps, fun name => ?_, fun name => ?_⟩
    · rw [lifespan_eq_script, hplaced.mem_log_startup_iff rfl, connect_mem_part_iff,
        Dict.mem_keys_iff, and_iff_left (hclear _)]
    · rw [lifespan_eq_script]
      exact Nat.le_trans (hplaced.count_log_le _) (count_connect_le hdeps name)

end Serving

/-- An agent that names one of its two services twice. -/
def twicePeered : AgentSetup where
  className := "AnalyticsAgent"
  config := (agentAt "http://registry:8090" "http://analytics:8000").config
  mcpDependencies := ["data-mcp", "news-mcp", "data-mcp"]

/-- A healthy service at a URL. -/
def healthyAt (url : String) : RegistryEntry where
  name := "data-mcp"
  url := some url
  expectedUrl := none
  type := .mcp
  state := .registered
  version := none
  lastHeartbeatAt := none
  registeredAt := none
  lastChangedAt := "2026-05-01T00:00:00Z"

/-- Between its two lookups the service moves; the other is not found. -/
def movingLookup : ℕ → Except StepExc RegistryEntry
  | 0 => .ok (healthyAt "http://data-mcp:8080/")
  | 2 => .ok (healthyAt "http://data-mcp:9090")
  | _ => .error (.registry (.serviceNotFound "news-mcp"))

/-- The other service is found, and this one only where it was first. -/
def stayingLookup : ℕ → Except StepExc RegistryEntry
  | 0 => .ok (healthyAt "http://data-mcp:8080/")
  | 1 => .ok (healthyAt "http://news-mcp:8080")
  | _ => .error (.registry (.serviceNotFound "data-mcp"))

/-- A hook that fetches the schema of a database from its bridge, `bridges["data-mcp"]`. -/
def fetchesSchema (d : Dict String String) (c : AgentStep) : Option StepExc :=
  if c = .onStarted ∧ d.get? "data-mcp" = none then some (.py (.runtimeError "data-mcp")) else none

/-- **A service that moves between two lookups.** It has one bridge, to where it
went, and the agent would have served just as well had it stayed. -/
theorem serves_with_peers_moving :
    (bridges twicePeered { emptyWorld with lookup := movingLookup } false).get? "data-mcp"
        = some "http://data-mcp:9090/sse"
      ∧ ((lifespan twicePeered { emptyWorld with lookup := movingLookup } false).log
        (fetchesSchema
          (bridges twicePeered { emptyWorld with lookup := movingLookup } false))).count
          (.connect "data-mcp") ≤ 1
      ∧ .body ∈ (lifespan twicePeered { emptyWorld with lookup := stayingLookup } false).log
        (fetchesSchema
          (bridges twicePeered { emptyWorld with lookup := stayingLookup } false)) := by
  have hmoving : Uncancelled movingLookup := by
    intro i exc h
    unfold movingLookup at h
    split at h
    · cases h
    · cases h
    · cases h
      rfl
  have hstaying : Uncancelled stayingLookup := by
    intro i exc h
    unfold stayingLookup at h
    split at h
    · cases h
    · cases h
    · cases h
      rfl
  have hhooks : OnlyHooksSee fetchesSchema := by
    intro d d' c _ _ hc
    rw [fetchesSchema, fetchesSchema, if_neg fun h => hc h.1, if_neg fun h => hc h.1]
  have hagree : HooksAgree fetchesSchema
      (bridges twicePeered { emptyWorld with lookup := movingLookup } false)
      (bridges twicePeered { emptyWorld with lookup := stayingLookup } false) :=
    fun c _ => iff_of_true (if_neg fun h => absurd h.2 (by decide))
      (if_neg fun h => absurd h.2 (by decide))
  have hpeers := serves_with_peers twicePeered { emptyWorld with lookup := movingLookup } false
    fetchesSchema hhooks (by decide) hmoving hstaying
    fun _ => if_neg fun h => absurd h.1 (by decide)
  have hbody : .body ∈ (lifespan twicePeered { emptyWorld with lookup := movingLookup } false).log
      (fetchesSchema
        (bridges twicePeered { emptyWorld with lookup := movingLookup } false)) := by
    decide
  refine ⟨((hpeers.2 hbody).url _ _).mpr ⟨rfl, 2, ⟨rfl, _, rfl, rfl, by decide⟩, ?_⟩,
    (hpeers.2 hbody).once _, (hpeers.1 hagree).mp hbody⟩
  intro l url' hl
  have hl3 : l < 3 := (List.getElem?_eq_some_iff.mp hl.1).1
  omega

end BaseAgentApp
