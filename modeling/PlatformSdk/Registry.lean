import PlatformSdk.RegistryEntry
import PlatformSdk.Run
import PlatformSdk.Security

/-!
# The client of the service registry

`RegistryClient.lookup` answers from a cell of its cache that is fresh. Where
there is none it asks the registry, unless the circuit breaker is open, and
when the registry cannot be asked or cannot be reached it makes do with the
cell it had read before, as long as that is not too old. A task in the
background asks for the whole list every `refresh_seconds` and stores what it
gets.

Both wait for the network, and while one waits the others move. So the client
is a machine: a lookup is one segment up to its `await` and one from there,
and each event carries what the registry replied. The clock stands still
within a segment.

`moves_of_step` says once what each step does. The modules on the registry
derive everything from it.
-/

namespace Registry

/-! ## Replies -/

/-- **What a lookup raises.** `httpStatusError` is `raise_for_status`'s,
`jsonDecodeError` whatever `response.json()` raises on a body that does not
decode. -/
inductive RegistryExc where
  | serviceNotFound (name : String)
  | registryUnreachable (msg : String)
  | httpStatusError (status : ℕ)
  | jsonDecodeError
  | validationError (errors : List ErrorDetails)

/-- What `except (RegistryUnreachable, httpx.HTTPError)` catches; the rest
reaches the caller of `lookup`. -/
def RegistryExc.isCaught : RegistryExc → Bool
  | .registryUnreachable _ => true
  | .httpStatusError _ => true
  | _ => false

/-- **What a `GET` comes to**: an `httpx.RequestError`, or a response with its
body, if that decodes as JSON. -/
inductive Reply where
  | requestError (msg : String)
  | response (status : ℕ) (body : Option Json)

/-- Whether the registry answered a `GET`: with an entry or without one, but
not with an error. -/
def Reply.isAnswered : Reply → Bool
  | .requestError _ => false
  | .response status _ => status == 404 || PostOutcome.isSuccess status

variable (c : EntryCoercions)

/-- **`_fetch`**, past its `await`: an entry, or what it raises. -/
def fetch (name : String) : Reply → Except RegistryExc RegistryEntry
  | .requestError msg => .error (.registryUnreachable msg)
  | .response status body =>
    if status = 404 then .error (.serviceNotFound name)
    else if status ≥ 500 then .error (.registryUnreachable ("registry " ++ status.repr))
    else if PostOutcome.isSuccess status then
      match body with
      | none => .error .jsonDecodeError
      | some v => (RegistryEntry.modelValidate c v.toYaml).mapError .validationError
    else .error (.httpStatusError status)

/-- What `for raw in services` goes over, for a body of a list reply. A number,
a boolean and `null` are not iterable; a mapping is gone over by its keys and
a string by its characters. -/
def servicesOf (body : Json) : List Json :=
  let services := match body with
    | .map d => (Dict.get? d "services").getD body
    | _ => body
  match services with
  | .list xs => xs
  | .map d => (Dict.keys d).map Json.str
  | .leaf (.str s) => s.toList.map (fun ch => Json.str (String.singleton ch))
  | .leaf _ => []

/-- The entries up to the first that does not validate, which ends the loop. -/
def validPrefix : List Json → List RegistryEntry
  | [] => []
  | raw :: raws =>
    match RegistryEntry.modelValidate c raw.toYaml with
    | .ok entry => entry :: validPrefix raws
    | .error _ => []

/-- The entries the refresh loop stores of a reply. -/
def listed : Reply → List RegistryEntry
  | .response 200 (some body) => validPrefix c (servicesOf body)
  | _ => []

/-! ## The client -/

/-- **`_CacheEntry`**: an entry, and the time it was stored at. -/
structure CacheEntry where
  entry : RegistryEntry
  fetchedAt : ℚ
  deriving DecidableEq

/-- `age`: the time since the entry was received. -/
def CacheEntry.age (cell : CacheEntry) (now : ℚ) : ℚ := now - cell.fetchedAt

/-- `fresh`: younger than the interval in which entries are fetched again. -/
def CacheEntry.fresh (cell : CacheEntry) (now : ℚ) (refreshSeconds : FloatValue) : Bool :=
  refreshSeconds.isAbove (cell.age now)

/-- **The settings of a client**: how long a cell is fresh, and how long it will
do in an outage. -/
structure Settings where
  refreshSeconds : FloatValue := .finite 30
  staleCacheMaxSeconds : FloatValue := .finite 300

/-- **The breaker and the cache of a client**, which all its calls share. -/
structure Client where
  cb : CircuitBreaker :=
    { name := "registry", failureThreshold := 5, recoveryTimeout := .finite 30 }
  cache : Dict String CacheEntry := []

/-- **Where a call of `lookup` stands**: not made, waiting for the reply with
the cell it had read before, or ended. -/
inductive CallPhase where
  | idle
  | fetching (name : String) (cached : Option CacheEntry)
  | ended (name : String) (result : Except RegistryExc RegistryEntry)

variable (cfg : Settings)

/-- Whether a cell may still stand in for the registry. -/
def CacheEntry.young (cell : CacheEntry) (now : ℚ) : Bool :=
  cfg.staleCacheMaxSeconds.isAbove (cell.age now)

/-- **`_stale_or_raise`**: the cell read before, if it is young enough, and
`ServiceNotFound` if not. -/
def staleOrRaise (now : ℚ) (name : String) :
    Option CacheEntry → Except RegistryExc RegistryEntry
  | some cell =>
    if cell.young cfg now then .ok cell.entry
    else .error (.serviceNotFound name)
  | none => .error (.serviceNotFound name)

namespace Client

/-- **`lookup`** up to its `await`: what it comes to, or the cell it has
read. -/
def lookup (client : Client) (now : ℚ) (name : String) :
    Except RegistryExc RegistryEntry ⊕ Option CacheEntry :=
  let cached := client.cache.get? name
  match cached.filter (fun cell => cell.fresh now cfg.refreshSeconds) with
  | some cell => .inl (.ok cell.entry)
  | none =>
    if client.cb.isOpen now then .inl (staleOrRaise cfg now name cached)
    else .inr cached

/-- An entry received is stored with the time, over whatever was there. -/
def store (client : Client) (now : ℚ) (name : String) (entry : RegistryEntry) : Client :=
  { client with cache := client.cache.set name { entry := entry, fetchedAt := now } }

/-- **`lookup`** from its `await` on, with the cell it had read before. -/
def resume (client : Client) (now : ℚ) (name : String) (cached : Option CacheEntry)
    (reply : Reply) : Except RegistryExc RegistryEntry × Client :=
  match fetch c name reply with
  | .ok entry => (.ok entry, { client with cb := client.cb.recordSuccess }.store now name entry)
  | .error exc =>
    if exc.isCaught then
      (staleOrRaise cfg now name cached, { client with cb := client.cb.recordFailure now })
    else (.error exc, client)

/-- The refresh loop stores the entries of a list, one after the other. -/
def storeAll (client : Client) (now : ℚ) (entries : List RegistryEntry) : Client :=
  entries.foldl (fun client entry => client.store now entry.name entry) client

end Client

section Resume

variable {c cfg} {client : Client} {now : ℚ} {name : String} {cached : Option CacheEntry}
  {reply : Reply}

/-- The registry replied with an entry: it is stored with the time and returned,
and the breaker starts over. -/
theorem Client.resume_of_ok {entry : RegistryEntry} (hf : fetch c name reply = .ok entry) :
    client.resume c cfg now name cached reply
      = (.ok entry, { client with cb := client.cb.recordSuccess }.store now name entry) := by
  rw [Client.resume, hf]

/-- The registry could not be reached: the breaker counts it, and the cell read
before decides. -/
theorem Client.resume_of_caught {exc : RegistryExc} (hf : fetch c name reply = .error exc)
    (hc : exc.isCaught = true) :
    client.resume c cfg now name cached reply
      = (staleOrRaise cfg now name cached, { client with cb := client.cb.recordFailure now }) := by
  rw [Client.resume, hf]
  exact if_pos hc

/-- The registry replied with something else, which leaves the client as it was
and reaches the caller. -/
theorem Client.resume_of_not_caught {exc : RegistryExc} (hf : fetch c name reply = .error exc)
    (hc : exc.isCaught = false) :
    client.resume c cfg now name cached reply = (.error exc, client) := by
  rw [Client.resume, hf]
  exact if_neg (by simp [hc])

end Resume

/-! ## The machine -/

/-- **Where the refresh loop stands**: not started, asleep since an instant, or
waiting for the reply. -/
inductive RefreshPhase where
  | stopped
  | sleeping (since : ℚ)
  | fetching

/-- **The state of a client and of the calls on it.** -/
structure State where
  /-- What `time.monotonic` says. -/
  now : ℚ := 0
  client : Client := {}
  /-- Where each call of `lookup` stands. -/
  calls : ℕ → CallPhase := fun _ => .idle
  refresh : RefreshPhase := .stopped

/-- **What can happen.** A call or a task that resumes does so with the reply
to its `GET`. -/
inductive Event where
  | tick (d : ℚ)
  | lookup (i : ℕ) (name : String)
  | reply (i : ℕ) (reply : Reply)
  | startRefresh
  /-- The refresh loop has slept for long enough and sends its `GET`. -/
  | wake
  | refreshReply (reply : Reply)
  | stopRefresh

namespace State

/-- A call moves on, and the client stays as it is. -/
def goto (s : State) (i : ℕ) (p : CallPhase) : State :=
  { s with calls := Function.update s.calls i p }

end State

/-- **One step of a client**, where the event can happen in the state. -/
def step (s : State) : Event → Option State
  | .tick d => if 0 ≤ d then some { s with now := s.now + d } else none
  | .lookup i name =>
    match s.calls i with
    | .idle =>
      some (s.goto i (Sum.elim (.ended name) (.fetching name) (s.client.lookup cfg s.now name)))
    | _ => none
  | .reply i reply =>
    match s.calls i with
    | .fetching name cached =>
      let x := s.client.resume c cfg s.now name cached reply
      some ({ s with client := x.2 }.goto i (.ended name x.1))
    | _ => none
  | .startRefresh =>
    match s.refresh with
    | .stopped => some { s with refresh := .sleeping s.now }
    | _ => some s
  | .wake =>
    match s.refresh with
    | .sleeping since =>
      if cfg.refreshSeconds.isAbove (s.now - since) then none
      else some { s with refresh := .fetching }
    | _ => none
  | .refreshReply reply =>
    match s.refresh with
    | .fetching =>
      some { s with client := s.client.storeAll s.now (listed c reply), refresh := .sleeping s.now }
    | _ => none
  | .stopRefresh => some { s with refresh := .stopped }

/-- **The machine of a registry client**, with the order of its replies left
open. -/
abbrev machine : Machine State Event := ⟨step c cfg⟩

/-- **What a step can do**: one constructor for each branch of the code, with
what has led there. -/
inductive Moves (s : State) : Event → State → Prop
  | tick {d : ℚ} (hd : 0 ≤ d) : Moves s (.tick d) { s with now := s.now + d }
  /-- A call that does not have to wait. -/
  | answered {i : ℕ} {name : String} {result : Except RegistryExc RegistryEntry}
      (h : s.calls i = .idle) (hl : s.client.lookup cfg s.now name = .inl result) :
      Moves s (.lookup i name) (s.goto i (.ended name result))
  /-- A call that sends its `GET`. -/
  | asked {i : ℕ} {name : String} {cached : Option CacheEntry} (h : s.calls i = .idle)
      (hl : s.client.lookup cfg s.now name = .inr cached) :
      Moves s (.lookup i name) (s.goto i (.fetching name cached))
  /-- The registry replied with an entry. -/
  | received {i : ℕ} {name : String} {cached : Option CacheEntry} {reply : Reply}
      {entry : RegistryEntry} (h : s.calls i = .fetching name cached)
      (hf : fetch c name reply = .ok entry) :
      Moves s (.reply i reply)
        ({ s with
            client :=
              { s.client with cb := s.client.cb.recordSuccess }.store s.now name entry }.goto
          i (.ended name (.ok entry)))
  /-- The registry could not be reached. -/
  | failed {i : ℕ} {name : String} {cached : Option CacheEntry} {reply : Reply}
      {exc : RegistryExc} (h : s.calls i = .fetching name cached)
      (hf : fetch c name reply = .error exc) (hc : exc.isCaught = true) :
      Moves s (.reply i reply)
        ({ s with client := { s.client with cb := s.client.cb.recordFailure s.now } }.goto i
          (.ended name (staleOrRaise cfg s.now name cached)))
  /-- The registry replied with something else. -/
  | raised {i : ℕ} {name : String} {cached : Option CacheEntry} {reply : Reply}
      {exc : RegistryExc} (h : s.calls i = .fetching name cached)
      (hf : fetch c name reply = .error exc) (hc : exc.isCaught = false) :
      Moves s (.reply i reply) (s.goto i (.ended name (.error exc)))
  | startRefresh (h : s.refresh = .stopped) :
      Moves s .startRefresh { s with refresh := .sleeping s.now }
  | alreadyStarted (h : s.refresh ≠ .stopped) : Moves s .startRefresh s
  | wake {since : ℚ} (h : s.refresh = .sleeping since)
      (ht : cfg.refreshSeconds.isAbove (s.now - since) = false) :
      Moves s .wake { s with refresh := .fetching }
  | refreshed {reply : Reply} (h : s.refresh = .fetching) :
      Moves s (.refreshReply reply)
        { s with
          client := s.client.storeAll s.now (listed c reply)
          refresh := .sleeping s.now }
  | stopRefresh : Moves s .stopRefresh { s with refresh := .stopped }

variable {c cfg}

theorem step_lookup {s : State} {i : ℕ} {name : String} (h : s.calls i = .idle) :
    step c cfg s (.lookup i name)
      = some (s.goto i
          (Sum.elim (.ended name) (.fetching name) (s.client.lookup cfg s.now name))) := by
  simp only [step, h]

theorem step_reply {s : State} {i : ℕ} {name : String} {cached : Option CacheEntry}
    (h : s.calls i = .fetching name cached) (reply : Reply) :
    step c cfg s (.reply i reply)
      = some ({ s with client := (s.client.resume c cfg s.now name cached reply).2 }.goto i
          (.ended name (s.client.resume c cfg s.now name cached reply).1)) := by
  simp only [step, h]

/-- **A step is one of the moves**, which is what every invariant below goes by.
-/
theorem moves_of_step {s s' : State} {a : Event} (h : step c cfg s a = some s') :
    Moves c cfg s a s' := by
  cases a with
  | tick d =>
    simp only [step] at h
    split at h
    · next hd => exact Option.some.inj h ▸ .tick hd
    · cases h
  | lookup i name =>
    simp only [step] at h
    split at h
    · next hi =>
      obtain rfl := Option.some.inj h
      cases hl : s.client.lookup cfg s.now name with
      | inl result => exact .answered hi hl
      | inr cached => exact .asked hi hl
    · cases h
  | reply i reply =>
    simp only [step] at h
    split at h
    · next name cached hi =>
      obtain rfl := Option.some.inj h
      cases hf : fetch c name reply with
      | ok entry =>
        rw [Client.resume_of_ok hf]
        exact .received hi hf
      | error exc =>
        cases hc : exc.isCaught with
        | true =>
          rw [Client.resume_of_caught hf hc]
          exact .failed hi hf hc
        | false =>
          rw [Client.resume_of_not_caught hf hc]
          exact .raised hi hf hc
    · cases h
  | startRefresh =>
    simp only [step] at h
    split at h
    · next hr => exact Option.some.inj h ▸ .startRefresh hr
    · next hr => exact Option.some.inj h ▸ .alreadyStarted hr
  | wake =>
    simp only [step] at h
    split at h
    · next since hr =>
      split at h
      · cases h
      · next ht => exact Option.some.inj h ▸ .wake hr (by simpa using ht)
    · cases h
  | refreshReply reply =>
    simp only [step] at h
    split at h
    · next hr => exact Option.some.inj h ▸ .refreshed hr
    · cases h
  | stopRefresh => exact Option.some.inj h ▸ .stopRefresh

/-! ## Parts of a call -/

/-- **What `_fetch` makes of a reply**, one case for each kind of reply. -/
inductive Fetched (c : EntryCoercions) (name : String) :
    Reply → Except RegistryExc RegistryEntry → Prop
  | entry {status : ℕ} {v : Json} {entry : RegistryEntry}
      (hs : PostOutcome.isSuccess status = true)
      (hv : RegistryEntry.modelValidate c v.toYaml = .ok entry) :
      Fetched c name (.response status (some v)) (.ok entry)
  | notFound {body : Option Json} :
      Fetched c name (.response 404 body) (.error (.serviceNotFound name))
  | unreadable {status : ℕ} {body : Option Json} {exc : RegistryExc}
      (hs : PostOutcome.isSuccess status = true)
      (hv : ∀ v, body = some v → ∀ entry, RegistryEntry.modelValidate c v.toYaml ≠ .ok entry)
      (hexc : exc = .jsonDecodeError ∨ ∃ errors, exc = .validationError errors) :
      Fetched c name (.response status body) (.error exc)
  | unreachable {reply : Reply} {exc : RegistryExc} (hr : reply.isAnswered = false)
      (hexc : exc.isCaught = true) : Fetched c name reply (.error exc)

theorem fetched_fetch (c : EntryCoercions) (name : String) (reply : Reply) :
    Fetched c name reply (fetch c name reply) := by
  cases reply with
  | requestError msg => exact .unreachable rfl rfl
  | response status body =>
    unfold fetch
    dsimp only
    by_cases h404 : status = 404
    · subst h404
      exact .notFound
    rw [if_neg h404]
    by_cases h500 : status ≥ 500
    · rw [if_pos h500]
      refine .unreachable ?_ rfl
      simp [Reply.isAnswered, PostOutcome.isSuccess]
      omega
    rw [if_neg h500]
    by_cases hs : PostOutcome.isSuccess status = true
    · rw [if_pos hs]
      cases body with
      | none => exact .unreadable hs (by simp) (.inl rfl)
      | some v =>
        show Fetched c name _
          ((RegistryEntry.modelValidate c v.toYaml).mapError .validationError)
        cases hv : RegistryEntry.modelValidate c v.toYaml with
        | ok entry => exact .entry hs hv
        | error errors =>
          refine .unreadable hs (fun w hw entry he => ?_) (.inr ⟨errors, rfl⟩)
          rw [← Option.some.inj hw, hv] at he
          cases he
    · rw [if_neg hs]
      exact .unreachable (by simp [Reply.isAnswered, h404, hs]) rfl

/-- **A failure that is caught** is one the registry did not answer. -/
theorem isCaught_iff {c : EntryCoercions} {name : String} {reply : Reply} {exc : RegistryExc}
    (hf : fetch c name reply = .error exc) : exc.isCaught = true ↔ reply.isAnswered = false := by
  cases hf ▸ fetched_fetch c name reply with
  | notFound => simp [RegistryExc.isCaught, Reply.isAnswered]
  | unreadable hs hv hexc =>
    rcases hexc with rfl | ⟨errors, rfl⟩ <;> simp [RegistryExc.isCaught, Reply.isAnswered, hs]
  | unreachable hr hexc => exact iff_of_true hexc hr

/-- The stale cell is returned exactly if it is young. -/
theorem staleOrRaise_eq_ok_iff {now : ℚ} {name : String} {cached : Option CacheEntry}
    {entry : RegistryEntry} :
    staleOrRaise cfg now name cached = .ok entry
      ↔ ∃ cell, cached = some cell ∧ cell.young cfg now = true ∧ cell.entry = entry := by
  cases cached with
  | none => simp [staleOrRaise]
  | some cell => cases hy : cell.young cfg now <;> simp [staleOrRaise, hy]

/-- **The service is not found** exactly where no entry young enough is there to
fall back on. -/
theorem staleOrRaise_eq_error_iff {now : ℚ} {name : String} {cached : Option CacheEntry}
    {exc : RegistryExc} :
    staleOrRaise cfg now name cached = .error exc
      ↔ .serviceNotFound name = exc
        ∧ ∀ cell, cached = some cell → cell.young cfg now = false := by
  cases cached with
  | none => simp [staleOrRaise]
  | some cell => cases hy : cell.young cfg now <;> simp [staleOrRaise, hy]

/-- **How a lookup starts**: with a cell that is fresh; with none, and the
circuit open; or with none, and a `GET`. -/
theorem lookup_cases (cfg : Settings) (client : Client) (now : ℚ) (name : String) :
    (∃ cell, client.cache.get? name = some cell ∧ cell.fresh now cfg.refreshSeconds = true
        ∧ client.lookup cfg now name = .inl (.ok cell.entry))
      ∨ (∀ cell, client.cache.get? name = some cell →
          cell.fresh now cfg.refreshSeconds = false)
        ∧ (client.cb.isOpen now = true
            ∧ client.lookup cfg now name
              = .inl (staleOrRaise cfg now name (client.cache.get? name))
          ∨ client.cb.isOpen now = false
            ∧ client.lookup cfg now name = .inr (client.cache.get? name)) := by
  unfold Client.lookup
  cases hf : (client.cache.get? name).filter (fun cell => cell.fresh now cfg.refreshSeconds) with
  | some cell =>
    obtain ⟨hcell, hfresh⟩ := Option.filter_eq_some_iff.mp hf
    exact .inl ⟨cell, hcell, hfresh, by simp only [hf]⟩
  | none =>
    refine .inr ⟨fun cell hcell => ?_, ?_⟩
    · rw [hcell] at hf
      simpa using hf
    · simp only [hf]
      cases client.cb.isOpen now <;> simp

/-- A lookup that does not wait returns a cell that is fresh or, the circuit
being open, what stands in for the registry. -/
theorem cases_of_lookup_inl {client : Client} {now : ℚ} {name : String}
    {result : Except RegistryExc RegistryEntry} (h : client.lookup cfg now name = .inl result) :
    (∃ cell, client.cache.get? name = some cell ∧ cell.fresh now cfg.refreshSeconds = true
        ∧ result = .ok cell.entry)
      ∨ client.cb.isOpen now = true
        ∧ result = staleOrRaise cfg now name (client.cache.get? name) := by
  rcases lookup_cases cfg client now name with
    ⟨cell, hcell, hfresh, hl⟩ | ⟨-, ⟨hopen, hl⟩ | ⟨-, hl⟩⟩
  · exact .inl ⟨cell, hcell, hfresh, Sum.inl.inj (h.symm.trans hl)⟩
  · exact .inr ⟨hopen, Sum.inl.inj (h.symm.trans hl)⟩
  · cases h.symm.trans hl

/-- A lookup that waits has found the circuit not open, and takes along the
cell of the name. -/
theorem of_lookup_inr {client : Client} {now : ℚ} {name : String} {cached : Option CacheEntry}
    (h : client.lookup cfg now name = .inr cached) :
    client.cb.isOpen now = false ∧ cached = client.cache.get? name := by
  rcases lookup_cases cfg client now name with ⟨_, -, -, hl⟩ | ⟨-, ⟨-, hl⟩ | ⟨hopen, hl⟩⟩
  · cases h.symm.trans hl
  · cases h.symm.trans hl
  · exact ⟨hopen, Sum.inr.inj (h.symm.trans hl)⟩

/-! ## The cache after a step -/

theorem get?_store_self (client : Client) (now : ℚ) (name : String) (entry : RegistryEntry) :
    (client.store now name entry).cache.get? name = some { entry := entry, fetchedAt := now } :=
  Dict.get?_set_self _ _ _

theorem get?_store_of_ne (client : Client) (now : ℚ) {name name' : String}
    (entry : RegistryEntry) (h : name ≠ name') :
    (client.store now name' entry).cache.get? name = client.cache.get? name :=
  Dict.get?_set_of_ne _ _ h

/-- A list of entries leaves the cell of a name it does not have, and puts
there one of its entries under a name it has. -/
theorem get?_storeAll {client : Client} {now : ℚ} {entries : List RegistryEntry} {name : String}
    {cell : CacheEntry} (h : (client.storeAll now entries).cache.get? name = some cell) :
    ((∀ entry ∈ entries, entry.name ≠ name) ∧ client.cache.get? name = some cell)
      ∨ ∃ entry ∈ entries, entry.name = name
        ∧ cell = { entry := entry, fetchedAt := now } := by
  induction entries generalizing client with
  | nil => exact .inl ⟨fun _ hmem => absurd hmem List.not_mem_nil, h⟩
  | cons e entries ih =>
    rcases ih h with ⟨hnot, hold⟩ | ⟨entry, hmem, hname, hcell⟩
    · by_cases hn : name = e.name
      · subst hn
        rw [get?_store_self] at hold
        exact .inr ⟨e, List.mem_cons_self, rfl, (Option.some.inj hold).symm⟩
      · rw [get?_store_of_ne _ _ _ hn] at hold
        refine .inl ⟨fun entry hmem => ?_, hold⟩
        rcases List.mem_cons.mp hmem with rfl | hmem
        · exact fun h => hn h.symm
        · exact hnot entry hmem
    · exact .inr ⟨entry, List.mem_cons_of_mem _ hmem, hname, hcell⟩

/-- A list of entries does not touch the breaker. -/
@[simp] theorem cb_storeAll (client : Client) (now : ℚ) (entries : List RegistryEntry) :
    (client.storeAll now entries).cb = client.cb := by
  induction entries generalizing client with
  | nil => rfl
  | cons e entries ih => exact ih _

/-- **An entry is received under a name**: in the reply to a lookup of that
name, or in a list under its own. -/
def Received (c : EntryCoercions) (name : String) (entry : RegistryEntry) (s : State) :
    Event → Prop
  | .reply i reply =>
    (∃ cached, s.calls i = .fetching name cached) ∧ fetch c name reply = .ok entry
  | .refreshReply reply => s.refresh = .fetching ∧ entry ∈ listed c reply ∧ entry.name = name
  | _ => False

/-- **Every cell of the cache was there before, or has just been received.** -/
theorem cell_of_step {s s' : State} {a : Event} (h : step c cfg s a = some s') {name : String}
    {cell : CacheEntry} (hcell : s'.client.cache.get? name = some cell) :
    ((∀ entry, ¬ Received c name entry s a) ∧ s.client.cache.get? name = some cell)
      ∨ Received c name cell.entry s a ∧ cell.fetchedAt = s.now := by
  cases moves_of_step h with
  | received hi hf =>
    next i name' cached reply entry =>
    by_cases hn : name = name'
    · subst hn
      obtain rfl := Option.some.inj ((get?_store_self _ _ _ _).symm.trans hcell)
      exact .inr ⟨⟨⟨cached, hi⟩, hf⟩, rfl⟩
    · refine .inl ⟨fun entry' hrec => ?_, (get?_store_of_ne _ _ _ hn).symm.trans hcell⟩
      obtain ⟨cached', hi'⟩ := hrec.1
      exact hn (CallPhase.fetching.inj (hi'.symm.trans hi)).1
  | refreshed hr =>
    rcases get?_storeAll hcell with ⟨hnot, hold⟩ | ⟨entry, hmem, hname, rfl⟩
    · exact .inl ⟨fun entry hrec => hnot entry hrec.2.1 hrec.2.2, hold⟩
    · exact .inr ⟨⟨hr, hmem, hname⟩, rfl⟩
  | failed hi hf | raised hi hf =>
    refine .inl ⟨fun entry hrec => ?_, hcell⟩
    obtain ⟨⟨_, hi'⟩, hf'⟩ := hrec
    obtain ⟨rfl, -⟩ := CallPhase.fetching.inj (hi'.symm.trans hi)
    rw [hf] at hf'
    cases hf'
  | tick | answered | asked | startRefresh | alreadyStarted | wake | stopRefresh =>
    exact .inl ⟨fun _ hrec => hrec, hcell⟩

/-- A list of entries removes no cell, as each of them writes one. -/
theorem isSome_get?_storeAll {client : Client} {now : ℚ} {name : String}
    (entries : List RegistryEntry) (h : (client.cache.get? name).isSome = true) :
    ((client.storeAll now entries).cache.get? name).isSome = true := by
  induction entries generalizing client with
  | nil => exact h
  | cons e entries ih =>
    refine ih ?_
    by_cases hn : name = e.name
    · rw [hn, get?_store_self]
      rfl
    · rw [get?_store_of_ne _ _ _ hn]
      exact h

/-- **No step removes a cell**: a reply replaces one or adds one, and nothing is
evicted. -/
theorem isSome_of_step {s s' : State} {a : Event} (h : step c cfg s a = some s') {name : String}
    (hcell : (s.client.cache.get? name).isSome = true) :
    (s'.client.cache.get? name).isSome = true := by
  cases moves_of_step h with
  | received hi hf =>
    next i name' cached reply entry =>
    show ((Client.store _ _ _ _).cache.get? name).isSome = true
    by_cases hn : name = name'
    · rw [hn, get?_store_self]
      rfl
    · rw [get?_store_of_ne _ _ _ hn]
      exact hcell
  | refreshed hr => exact isSome_get?_storeAll _ hcell
  | tick | answered | asked | failed | raised | startRefresh | alreadyStarted | wake
  | stopRefresh => exact hcell

/-! ## Calls after a step -/

theorem goto_calls_self (s : State) (i : ℕ) (p : CallPhase) : (s.goto i p).calls i = p :=
  Function.update_self ..

/-- Where a call stands after one has moved: there, or where it stood. -/
theorem calls_goto_cases {s : State} {i j : ℕ} {p q : CallPhase} (h : (s.goto j p).calls i = q) :
    i = j ∧ p = q ∨ s.calls i = q := by
  unfold State.goto at h
  by_cases hij : i = j
  · subst hij
    exact .inl ⟨rfl, (Function.update_self i p s.calls).symm.trans h⟩
  · exact .inr ((Function.update_of_ne hij p s.calls).symm.trans h)

/-- **A call ends** in a step, with this result. -/
def Returns (s s' : State) (i : ℕ) (name : String)
    (result : Except RegistryExc RegistryEntry) : Prop :=
  (∀ n r, s.calls i ≠ .ended n r) ∧ s'.calls i = .ended name result

/-- A step that moves no call ends none, so that it returns nothing to anyone.
-/
theorem not_returns {s s' : State} (h : s'.calls = s.calls) {i : ℕ} {name : String}
    {result : Except RegistryExc RegistryEntry} : ¬ Returns s s' i name result := by
  rintro ⟨hnot, hend⟩
  rw [h] at hend
  exact hnot name result hend

/-- A step that moves one call ends no other. -/
theorem returns_goto {s t : State} (h : t.calls = s.calls) {i j : ℕ} {p : CallPhase}
    {name : String} {result : Except RegistryExc RegistryEntry}
    (hr : Returns s (t.goto j p) i name result) : i = j ∧ p = .ended name result := by
  rcases calls_goto_cases hr.2 with hij | hend
  · exact hij
  · rw [h] at hend
    exact absurd hend (hr.1 name result)

/-- **How a call ends**: where it starts, without waiting; or with the reply to
its `GET`, which is an entry, or an error that is caught or is not. -/
theorem returns_of_step {s s' : State} {a : Event} (h : step c cfg s a = some s') {i : ℕ}
    {name : String} {result : Except RegistryExc RegistryEntry} (hr : Returns s s' i name result) :
    (a = .lookup i name ∧ s.client.lookup cfg s.now name = .inl result
        ∧ s' = s.goto i (.ended name result))
      ∨ ∃ cached reply, a = .reply i reply ∧ s.calls i = .fetching name cached
        ∧ s'.now = s.now
        ∧ ((∃ entry, fetch c name reply = .ok entry ∧ result = .ok entry)
          ∨ (∃ exc, fetch c name reply = .error exc ∧ exc.isCaught = true
              ∧ result = staleOrRaise cfg s.now name cached
              ∧ s'.client.cache = s.client.cache)
          ∨ ∃ exc, fetch c name reply = .error exc ∧ exc.isCaught = false
              ∧ result = .error exc) := by
  cases moves_of_step h with
  | answered hi hl =>
    obtain ⟨rfl, hp⟩ := returns_goto rfl hr
    obtain ⟨rfl, rfl⟩ := CallPhase.ended.inj hp
    exact .inl ⟨rfl, hl, rfl⟩
  | asked hi hl =>
    obtain ⟨-, hp⟩ := returns_goto rfl hr
    cases hp
  | received hi hf =>
    obtain ⟨rfl, hp⟩ := returns_goto rfl hr
    obtain ⟨rfl, rfl⟩ := CallPhase.ended.inj hp
    exact .inr ⟨_, _, rfl, hi, rfl, .inl ⟨_, hf, rfl⟩⟩
  | failed hi hf hc =>
    obtain ⟨rfl, hp⟩ := returns_goto rfl hr
    obtain ⟨rfl, rfl⟩ := CallPhase.ended.inj hp
    exact .inr ⟨_, _, rfl, hi, rfl, .inr (.inl ⟨_, hf, hc, rfl, rfl⟩)⟩
  | raised hi hf hc =>
    obtain ⟨rfl, hp⟩ := returns_goto rfl hr
    obtain ⟨rfl, rfl⟩ := CallPhase.ended.inj hp
    exact .inr ⟨_, _, rfl, hi, rfl, .inr (.inr ⟨_, hf, hc, rfl⟩)⟩
  | tick | startRefresh | alreadyStarted | wake | refreshed | stopRefresh =>
    exact absurd hr (not_returns rfl)

/-- **What a waiting call has read** is what the cache held when it started. -/
theorem fetching_of_step {s s' : State} {a : Event} (h : step c cfg s a = some s') {i : ℕ}
    {name : String} {cached : Option CacheEntry} (hi : s'.calls i = .fetching name cached) :
    s.calls i = .fetching name cached
      ∨ a = .lookup i name ∧ cached = s.client.cache.get? name := by
  cases moves_of_step h with
  | asked hidle hl =>
    rcases calls_goto_cases hi with ⟨rfl, hp⟩ | hold
    · obtain ⟨rfl, rfl⟩ := CallPhase.fetching.inj hp
      exact .inr ⟨rfl, (of_lookup_inr hl).2⟩
    · exact .inl hold
  | answered | received | failed | raised =>
    rcases calls_goto_cases hi with ⟨-, hp⟩ | hold
    · cases hp
    · exact .inl hold
  | tick | startRefresh | alreadyStarted | wake | refreshed | stopRefresh => exact .inl hi

/-- A reply with a document is an entry received. -/
theorem fetch_sampleBody (name service version : String) :
    fetch EntryCoercions.exact name
        (.response 200 (some (RegistryEntry.sampleBody service version)))
      = .ok (RegistryEntry.sample service version) := by
  show (RegistryEntry.modelValidate EntryCoercions.exact
    (RegistryEntry.sampleBody service version).toYaml).mapError .validationError = _
  rw [RegistryEntry.modelValidate_sampleBody]
  rfl

end Registry
