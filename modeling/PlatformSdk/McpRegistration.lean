import PlatformSdk.McpService

/-!
# Staying registered

`run_with_registration` registers the service once for the process and
deregisters it when `mcp.run` returns, because the lifespans of single
connections come and go. In between the service should stay registered. But
each of those lifespans still calls `_register` and `_deregister` on the same
`self.registry`: the first connection that closes cleanly deletes the service
from the registry and leaves no client behind (`not_staysRegistered`).

`run_staysRegistered` is what is left of it. The service is registered in every
state of a run exactly when no lifespan gets as far as `_register`: already the
first step of one that does puts a client without a heartbeat in the place of
the one that has it. That moment aside, openings do no harm. As long as no
lifespan comes back from `on_shutdown` – which is where `_deregister` begins –
and no `POST` fails whose client `self.registry` still holds without a
heartbeat, the last write stays a `POST`, nothing is deleted, and
`self.registry` holds an open client whose heartbeat runs, or is about to, its
own `POST` being on its way (`kept_of_run`).
-/

/-- In `_deregister`, or behind it. -/
def LifespanPhase.isLeaving : LifespanPhase → Bool
  | .stoppingHeartbeat _ | .stoppingRefresh _ | .deregistering | .closingRegistry _
  | .closing _ _ => true
  | _ => false

namespace McpService

/-! ## The process registers -/

/-- **`_register`, undisturbed**, as `run_with_registration` runs it in its own
thread before `mcp.run`: the registration afterwards, and what was raised. -/
def registerProcess (setup : ServiceSetup) (s : ServiceRegistration) (raised : Option PyExc) :
    ServiceRegistration × Option PyExc :=
  match registerTarget setup.config with
  | .error exc => (s, some exc)
  | .ok none => (s, none)
  | .ok (some _) =>
    match raised, s.sendRegister.1.startTasks with
    | some exc, _ => (s.sendRegister.1, some exc)
    | none, .ok s' => (s', none)
    | none, .error exc => (s.sendRegister.1, some exc)

/-- The service when `mcp.run` is called: what `registerProcess` has made of
the new one. -/
def served (setup : ServiceSetup) (injected : Slot → Bool) : McpService :=
  { init injected with registration := (registerProcess setup {} none).1 }

/-- **The service is registered**: its last write is a `POST`, it has issued no
`DELETE`, and it holds an open client whose heartbeat runs. -/
def Registered (s : McpService) : Prop :=
  s.registration.writes.getLast? = some .post ∧ .delete ∉ s.registration.writes
    ∧ ∃ k, s.registration.registry = some k ∧ (s.registration.clients k).closed = false
      ∧ (s.registration.clients k).heartbeat = .running

/-! ## What the openings keep -/

/-- **A registration that is kept**: the last write is a `POST`, there is no
`DELETE`, no client has been closed and no heartbeat cancelled, and the client
stored now has its heartbeat or is `awaited` by a lifespan that will start
it. -/
structure Kept (s : ServiceRegistration) (awaited : ℕ → Prop) : Prop where
  lastWrite : s.writes.getLast? = some .post
  noDelete : .delete ∉ s.writes
  clients : ∀ k, (s.clients k).closed = false ∧ (s.clients k).heartbeat ≠ .cancelled
  current : ∃ k, s.registry = some k ∧ ((s.clients k).heartbeat = .running ∨ awaited k)

/-- Starting the tasks of an open client whose heartbeat is not cancelled. -/
theorem startTasks_client {client : RegistryClient} (h : client.closed = false)
    (hcancel : client.heartbeat ≠ .cancelled) :
    client.startHeartbeat.startRefresh.closed = false
      ∧ client.startHeartbeat.startRefresh.heartbeat = .running := by
  obtain ⟨heartbeat, refresh, closed⟩ := client
  have hclosed : closed = false := h
  cases heartbeat with
  | absent => cases refresh <;> exact ⟨hclosed, rfl⟩
  | running => cases refresh <;> exact ⟨hclosed, rfl⟩
  | cancelled => exact absurd rfl hcancel

/-- A new `POST` keeps the registration, awaited by its sender. -/
theorem Kept.sendRegister {s : ServiceRegistration} {awaited awaited' : ℕ → Prop}
    (h : Kept s awaited) (hnext : awaited' s.next) : Kept s.sendRegister.1 awaited' where
  lastWrite := List.getLast?_concat
  noDelete := fun hmem => (List.mem_append.mp hmem).elim h.noDelete (by simp)
  clients := h.clients
  current := ⟨s.next, rfl, .inr hnext⟩

/-- **The tasks are started**: there is a client to start them on, and it then
has its heartbeat. -/
theorem Kept.startTasks {s : ServiceRegistration} {awaited : ℕ → Prop} (h : Kept s awaited)
    (awaited' : ℕ → Prop) : ∃ s', s.startTasks = .ok s' ∧ Kept s' awaited' := by
  obtain ⟨k, hk, -⟩ := h.current
  obtain ⟨hclosed, hcancel⟩ := h.clients k
  obtain ⟨hclosed', hrunning⟩ := startTasks_client hclosed hcancel
  refine ⟨s.updateClient k (s.clients k).startHeartbeat.startRefresh, ?_, ?_⟩
  · unfold ServiceRegistration.startTasks
    rw [hk]
  · refine ⟨h.lastWrite, h.noDelete, fun j => ?_, k, hk, .inl ?_⟩
    · by_cases hj : j = k
      · subst hj
        rw [show (s.updateClient j _).clients j = _ from Function.update_self ..]
        exact ⟨hclosed', by rw [hrunning]; decide⟩
      · rw [show (s.updateClient k _).clients j = s.clients j from Function.update_of_ne hj ..]
        exact h.clients j
    · rw [show (s.updateClient k _).clients k = _ from Function.update_self ..]
      exact hrunning

/-- **The invariant**: the registration is kept, awaited by the lifespans that
register, and no lifespan is in `_deregister`. -/
structure Serving (s : McpService) : Prop where
  kept : Kept s.registration (fun k => ∃ c, s.phase c = .registering k)
  staying : ∀ c, (s.phase c).isLeaving = false

/-- **Nobody misses the lifespan's request**: if the client it registers is the
one stored, that has its heartbeat already. -/
def Dispensable (s : McpService) (c : ℕ) : Prop :=
  ∀ k, s.phase c = .registering k → s.registration.registry = some k →
    (s.registration.clients k).heartbeat = .running

/-- A lifespan whose request nobody misses may move on to any phase outside
`_deregister`. -/
theorem Serving.move {s s' : McpService} (h : Serving s) {c : ℕ}
    (hreg : s'.registration = s.registration) (hold : Dispensable s c)
    (hnew : (s'.phase c).isLeaving = false) (hother : ∀ d ≠ c, s'.phase d = s.phase d) :
    Serving s' := by
  refine ⟨?_, forall_phase (P := fun p => p.isLeaving = false) h.staying hother hnew⟩
  obtain ⟨k, hk, hcurrent⟩ := h.kept.current
  rw [hreg]
  refine ⟨h.kept.lastWrite, h.kept.noDelete, h.kept.clients, k, hk, ?_⟩
  rcases hcurrent with hrunning | ⟨d, hd⟩
  · exact .inl hrunning
  · by_cases hdc : d = c
    · exact .inl (hold k (hdc ▸ hd) hk)
    · exact .inr ⟨d, by rw [hother d hdc]; exact hd⟩

/-- A lifespan that is not registering has no request to miss. -/
theorem dispensable_of_phase {s : McpService} {c : ℕ} {p : LifespanPhase} (hp : s.phase c = p)
    (hregister : ∀ k, p ≠ .registering k) : Dispensable s c :=
  fun k hk => absurd (hp.symm.trans hk) (hregister k)

/-- What comes after `_register` is outside `_deregister`. -/
theorem isLeaving_prepare (setup : ServiceSetup) (fails : Slot → Option PyExc)
    (slots : List Slot) (s : ServiceResources) :
    (s.prepare setup fails slots).2.isLeaving = false := by
  induction slots generalizing s with
  | nil =>
    rw [ServiceResources.prepare]
    show (if _ then _ else _ : LifespanPhase).isLeaving = false
    split <;> rfl
  | cons slot slots ih =>
    rw [ServiceResources.prepare]
    split
    · split
      · rfl
      · exact ih _
    · exact ih _

/-- A step that neither lets a lifespan into `_deregister` nor refuses the
`POST` of the client stored, before that has its heartbeat. -/
def Undisturbing (s : McpService) : ServiceEvent → Prop
  | .resumeShutdown _ none => False
  | .resumeRegister c (some _) _ => Dispensable s c
  | _ => True

/-- **Every such step keeps the registration.** A lifespan that opens puts a
client of its own in the place of the last and awaits the `POST` of that one;
and nothing is deleted, as none comes back from `on_shutdown`. -/
theorem serving_step {setup : ServiceSetup} {url : String}
    (htarget : registerTarget setup.config = .ok (some url)) {s s' : McpService}
    {a : ServiceEvent} (h : Serving s) (ha : Undisturbing s a)
    (hstep : step setup s a = some s') : Serving s' := by
  have hstay : ∀ {c p}, s.phase c = p → p.isLeaving = true → False := by
    intro c p hp hleaving
    have hc := h.staying c
    rw [hp, hleaving] at hc
    cases hc
  cases moves_of_step hstep with
  | @enter c fails hp =>
    -- the client stored is replaced by one that this lifespan waits for
    unfold McpService.enter
    rw [htarget]
    refine ⟨h.kept.sendRegister ⟨c, withRegistration_phase_self ..⟩,
      forall_phase (c := c) (P := fun p => p.isLeaving = false) h.staying
        (fun d hd => withRegistration_phase_of_ne _ _ _ hd) ?_⟩
    rw [withRegistration_phase_self]
    rfl
  | @registered c k fails hp =>
    -- the tasks are started on the client stored now, which need not be `k`
    obtain ⟨r, hr, hkept⟩ := h.kept.startTasks
      (fun k => ∃ d, (s.registered setup fails c).phase d = .registering k)
    have hs' : s.registered setup fails c
        = { s with registration := r }.withResources c
          (s.resources.prepare setup fails ServiceResources.constructed) := by
      unfold McpService.registered
      rw [hr]
    rw [hs'] at hkept ⊢
    refine ⟨hkept, forall_phase (c := c) (P := fun p => p.isLeaving = false) h.staying
      (fun d hd => withResources_phase_of_ne _ _ _ hd) ?_⟩
    rw [withResources_phase_self]
    exact isLeaving_prepare ..
  | poolCreated hp =>
    exact h.move rfl (dispensable_of_phase hp (by simp)) (by rw [withResources_phase_self]; rfl)
      fun d hd => withResources_phase_of_ne _ _ _ hd
  | started hp =>
    exact h.move rfl (dispensable_of_phase hp (by simp)) (by rw [goto_phase_self]; rfl)
      fun d hd => goto_phase_of_ne _ _ _ hd
  | exit hp =>
    exact h.move rfl (dispensable_of_phase hp (by simp)) (by rw [goto_phase_self]; rfl)
      fun d hd => goto_phase_of_ne _ _ _ hd
  | deregister hp => exact absurd ha id
  | heartbeatEnded hp => exact (hstay hp rfl).elim
  | refreshEnded hp => exact (hstay hp rfl).elim
  | deleted hp => exact (hstay hp rfl).elim
  | deregistered hp => exact (hstay hp rfl).elim
  | closed hp => exact (hstay hp rfl).elim
  | failed hregister hclose =>
    -- only the failure of a `POST` can leave the client stored without its heartbeat
    refine h.move rfl (fun k hk => ?_) (by rw [goto_phase_self]; rfl)
      fun d hd => goto_phase_of_ne _ _ _ hd
    obtain ⟨fails, rfl⟩ := hregister k hk
    exact ha k hk

/-- The service is registered when `mcp.run` is called. -/
theorem serving_served {setup : ServiceSetup} {url : String}
    (htarget : registerTarget setup.config = .ok (some url)) (injected : Slot → Bool) :
    Serving (served setup injected) := by
  have hsent : Kept ({} : ServiceRegistration).sendRegister.1 fun _ => True :=
    ⟨rfl, by decide, fun _ => ⟨rfl, fun h => by cases h⟩, 0, rfl, .inr trivial⟩
  obtain ⟨r, hr, hkept⟩ :=
    hsent.startTasks fun k => ∃ c, (served setup injected).phase c = .registering k
  have hserved : (served setup injected).registration = r := by
    show (registerProcess setup {} none).1 = r
    simp only [registerProcess, htarget, hr]
  exact ⟨hserved ▸ hkept, fun _ => rfl⟩

/-- With no answer to a `POST` outstanding, a registration that is kept is what
it should be. -/
theorem Serving.registered {s : McpService} (h : Serving s)
    (hsettled : ∀ c k, s.phase c ≠ .registering k) : Registered s := by
  obtain ⟨k, hk, hcurrent⟩ := h.kept.current
  refine ⟨h.kept.lastWrite, h.kept.noDelete, k, hk, (h.kept.clients k).1, ?_⟩
  exact hcurrent.resolve_right fun ⟨c, hc⟩ => hsettled c k hc

/-- **What the openings leave of the registration**, in every sequence of
openings and closings in which no lifespan comes back from `on_shutdown` and no
`POST` of the client stored fails before that has its heartbeat. At every moment
the last write is a `POST`, nothing is deleted, and the client stored is open and
has its heartbeat, unless a lifespan still waits for the answer to that client's
`POST`; and with no such answer outstanding the service is registered. -/
theorem kept_of_run {setup : ServiceSetup} {injected : Slot → Bool} {url : String}
    (htarget : registerTarget setup.config = .ok (some url)) {as : List ServiceEvent}
    {t : McpService} (has : (machine setup).Along Undisturbing (served setup injected) as)
    (hrun : (machine setup).run (served setup injected) as = some t) :
    Kept t.registration (fun k => ∃ c, t.phase c = .registering k)
      ∧ ((∀ c k, t.phase c ≠ .registering k) → Registered t) := by
  have hserving : Serving t := (machine setup).run_invariant_along
    (fun _ _ _ h ha hstep => serving_step htarget h ha hstep) (serving_served htarget injected)
    has hrun
  exact ⟨hserving.kept, hserving.registered⟩

/-! ## The moment in between -/

/-- **A step that leaves the client where it is**: no lifespan is entered that
gets past the telemetry and the check of the secrets, to `_register`. -/
def KeepsClient (_ : McpService) : ServiceEvent → Prop
  | .enter _ none _ => False
  | _ => True

/-- **Nobody is inside**, and the registration is the one that `mcp.run` was
called with: every lifespan that was entered raised before `_register`. -/
structure Untouched (setup : ServiceSetup) (s : McpService) : Prop where
  registration : s.registration = (registerProcess setup {} none).1
  outside : ∀ c, (s.phase c).inProgress = false

/-- Where nobody is inside, all that can happen is that a lifespan is entered, or
fails to be. -/
theorem step_of_outside {setup : ServiceSetup} {s s' : McpService} {a : ServiceEvent}
    (h : ∀ c, (s.phase c).inProgress = false) (hstep : step setup s a = some s') :
    (∃ c fails, a = .enter c none fails ∧ s' = s.enter setup fails c)
      ∨ ∃ c exc fails, a = .enter c (some exc) fails ∧ s' = s.goto c (.ended (some exc)) := by
  have hout : ∀ {c p}, s.phase c = p → p.inProgress = true → False := by
    intro c p hp hin
    have hc := h c
    rw [hp, hin] at hc
    cases hc
  cases a with
  | enter c raised fails =>
    simp only [step] at hstep
    split at hstep
    · exact .inl ⟨c, fails, rfl, (Option.some.inj hstep).symm⟩
    · exact .inr ⟨c, _, fails, rfl, (Option.some.inj hstep).symm⟩
    · cases hstep
  | resumeRegister | resumePool | resumeStartup | resumeShutdown | resumeRegistryClose
  | resumeClose =>
    simp only [step] at hstep
    split at hstep
    · next hp => exact (hout hp rfl).elim
    · next hp => exact (hout hp rfl).elim
    · cases hstep
  | exit | resumeDelete =>
    simp only [step] at hstep
    split at hstep
    · next hp => exact (hout hp rfl).elim
    · cases hstep
  | taskEnded =>
    simp only [step] at hstep
    split at hstep
    · next hp => exact (hout hp rfl).elim
    · next hp => exact (hout hp rfl).elim
    · cases hstep

section Untouched

variable {setup : ServiceSetup} {url : String} {s s' : McpService} {a : ServiceEvent}

/-- **The client that replaces the first one has no heartbeat yet**, so that with
the first opening the service is not registered as it should be. -/
theorem not_registered_enter (htarget : registerTarget setup.config = .ok (some url))
    (hs : Untouched setup s) (fails : Slot → Option PyExc) (c : ℕ) :
    ¬ Registered (s.enter setup fails c) := by
  have henter : (s.enter setup fails c).registration = s.registration.sendRegister.1 := by
    unfold McpService.enter
    rw [htarget]
    rfl
  rintro ⟨-, -, k, hk, -, hrunning⟩
  rw [henter, hs.registration] at hk hrunning
  simp only [registerProcess, htarget] at hk hrunning
  obtain rfl : 1 = k := Option.some.inj hk
  cases hrunning

/-- **One step**: the service stays registered if and only if no lifespan gets to
`_register` in it. -/
theorem registered_step_iff (htarget : registerTarget setup.config = .ok (some url))
    (hs : Untouched setup s) (hregistered : Registered s) (hstep : step setup s a = some s') :
    Registered s' ↔ KeepsClient s a := by
  rcases step_of_outside hs.outside hstep with ⟨c, fails, rfl, rfl⟩ | ⟨c, exc, fails, rfl, rfl⟩
  · exact iff_of_false (not_registered_enter htarget hs fails c) id
  · exact iff_of_true hregistered trivial

/-- A lifespan that fails to be entered leaves everything as it is. -/
theorem untouched_step (hs : Untouched setup s) (ha : KeepsClient s a)
    (hstep : step setup s a = some s') : Untouched setup s' := by
  rcases step_of_outside hs.outside hstep with ⟨c, fails, rfl, rfl⟩ | ⟨c, exc, fails, rfl, rfl⟩
  · exact absurd ha id
  · refine ⟨hs.registration, forall_phase (c := c) (P := fun p => p.inProgress = false) hs.outside
      (fun d hd => goto_phase_of_ne _ _ _ hd) ?_⟩
    rw [goto_phase_self]
    rfl

end Untouched

/-- **When the service stays registered.** In every state of a run the last write
is a `POST`, nothing is deleted and the client stored has its heartbeat, if and
only if no lifespan of the run gets as far as `_register`, which begins by
storing a client that has none. And where lifespans do, but none of them comes
back from `on_shutdown` and no `POST` of the client stored fails, the
registration is kept at every moment, and the service registered whenever no
answer to a `POST` is outstanding. -/
theorem run_staysRegistered (setup : ServiceSetup) (injected : Slot → Bool) (url : String)
    (htarget : registerTarget setup.config = .ok (some url)) (as : List ServiceEvent)
    (t : McpService) (hrun : (machine setup).run (served setup injected) as = some t) :
    ((∀ bs u, bs <+: as → (machine setup).run (served setup injected) bs = some u → Registered u)
        ↔ (machine setup).Along KeepsClient (served setup injected) as)
      ∧ ((machine setup).Along Undisturbing (served setup injected) as →
        Kept t.registration (fun k => ∃ c, t.phase c = .registering k)
          ∧ ((∀ c k, t.phase c ≠ .registering k) → Registered t)) := by
  have huntouched : Untouched setup (served setup injected) := ⟨rfl, fun _ => rfl⟩
  have hregistered : Registered (served setup injected) :=
    (serving_served htarget injected).registered (fun _ _ h => by cases h)
  refine ⟨?_, fun has => kept_of_run htarget has hrun⟩
  exact (machine setup).forall_prefix_iff_along_of (J := Untouched setup)
    (fun _ _ _ hs hr hstep => registered_step_iff htarget hs hr hstep)
    (fun _ _ _ hs ha hstep => untouched_step hs ha hstep) huntouched hregistered hrun

/-! ## One connection that comes and goes -/

/-- A service with a registry, without cache and database. -/
def registeringSetup : ServiceSetup where
  config :=
    { environment := .dev, registryUrl := "http://registry:8090", serviceUrl := "http://me:8080"
      enableToolCache := false }
  requiresDatabase := false
  redisInstalled := false

/-- A connection opens: its `POST` is answered, and its startup ends. -/
def opening (c : ℕ) : List ServiceEvent :=
  [.enter c none noFailures, .resumeRegister c none noFailures, .resumeStartup c none]

/-- A connection closes, on a service that has no more than its own
authorizer to close. -/
def closing (c : ℕ) : List ServiceEvent :=
  [.exit c, .resumeShutdown c none, .taskEnded c, .taskEnded c, .resumeDelete c none,
    .resumeRegistryClose c none, .resumeClose c none]

/-- **A connection that is refused, and two that open**: the service is
registered throughout while the lifespan of the one fails to be entered, and
again when those of the others have their heartbeats. -/
theorem run_staysRegistered_opening :
    (∀ bs u, bs <+: [.enter 0 (some (.runtimeError "JWT_SECRET")) noFailures] →
        (machine registeringSetup).run (served registeringSetup fun _ => false) bs = some u →
        Registered u)
      ∧ ∃ t, (machine registeringSetup).run (served registeringSetup fun _ => false)
        (opening 0 ++ opening 1) = some t ∧ Registered t := by
  have htarget : registerTarget registeringSetup.config = .ok (some "http://registry:8090") := by
    decide +kernel
  constructor
  · refine (run_staysRegistered registeringSetup (fun _ => false) _ htarget
      [.enter 0 (some (.runtimeError "JWT_SECRET")) noFailures] _ rfl).1.mpr ?_
    exact (machine registeringSetup).along_of_forall (by simp [KeepsClient]) _
  · refine ⟨_, rfl, ((run_staysRegistered registeringSetup (fun _ => false) _ htarget
      (opening 0 ++ opening 1) _ rfl).2 ?_).2 ?_⟩
    · exact (machine registeringSetup).along_of_forall (by simp [opening, Undisturbing]) _
    · intro c k h
      rcases c with _ | _ | c <;> cases h

/-- **The first connection that closes deregisters the service**: the last
write is its `DELETE`, and no client is left. -/
theorem not_staysRegistered :
    ∃ t, (machine registeringSetup).run (served registeringSetup fun _ => false)
        (opening 0 ++ closing 0) = some t
      ∧ t.registration.writes = [.post, .post, .delete] ∧ t.registration.registry = none
      ∧ ¬ Registered t := by
  refine ⟨_, rfl, rfl, rfl, fun h => ?_⟩
  exact absurd h.2.1 (by decide)

end McpService
