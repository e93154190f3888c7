import PlatformSdk.Registry

/-!
# What a lookup comes to

A lookup is meant to fail softly: whatever the registry replies, the caller
gets an entry or learns that the service is not found, and a cell that is
still young stands in for a reply that is no use.

A reply with a status of the 200s and a body that is no entry escapes that.
It is an error nothing catches, and it reaches the caller though a young cell
is there (`softFails_iff`).

The other place is between two calls. A lookup that fails decides on the cell
it had read before it waited, so it may report a service not found that
another call has stored in the meantime. Where that does not happen, and only
there, `ServiceNotFound` means what it says (`along_notFoundJustified_iff`).
-/

namespace Registry

variable (c : EntryCoercions) (cfg : Settings)

/-! ## One call -/

/-- **A call of `lookup`** that nothing else moves in, from `now` to the reply
at `later`. -/
def Client.lookupAlone (client : Client) (now later : ℚ) (name : String) (reply : Reply) :
    Except RegistryExc RegistryEntry × Client :=
  match client.lookup cfg now name with
  | .inl result => (result, client)
  | .inr cached => client.resume c cfg later name cached reply

/-- Whether a call asks the registry: no cell is fresh, and the circuit is not
open. -/
def Client.Asks (client : Client) (now : ℚ) (name : String) : Prop :=
  (∀ cell, client.cache.get? name = some cell → cell.fresh now cfg.refreshSeconds = false)
    ∧ client.cb.isOpen now = false

/-- A reply that carries an entry. -/
def Reply.IsEntry (reply : Reply) : Prop :=
  ∃ status v entry, reply = .response status (some v) ∧ PostOutcome.isSuccess status = true
    ∧ RegistryEntry.modelValidate c v.toYaml = .ok entry

/-- A reply in the 200s that carries none. -/
def Reply.IsUnreadable (reply : Reply) : Prop :=
  ∃ status body, reply = .response status body ∧ PostOutcome.isSuccess status = true
    ∧ ∀ v, body = some v → ∀ entry, RegistryEntry.modelValidate c v.toYaml ≠ .ok entry

/-- **A call fails softly**: it comes to an entry or to `ServiceNotFound`; and
where it asks, a young cell stands in for every reply that is neither an entry
nor a 404, which counts as a failure. -/
def SoftFails (client : Client) (now later : ℚ) (name : String) (reply : Reply) : Prop :=
  let x := client.lookupAlone c cfg now later name reply
  ((∃ entry, x.1 = .ok entry) ∨ x.1 = .error (.serviceNotFound name))
    ∧ ∀ cell, client.cache.get? name = some cell → cell.young cfg later = true →
      client.Asks cfg now name → ¬ reply.IsEntry c → (∀ body, reply ≠ .response 404 body) →
      x.1 = .ok cell.entry ∧ x.2.cb = client.cb.recordFailure later

variable {c cfg}

/-- What is fetched is an entry if and only if the reply carries one. -/
theorem fetch_eq_ok_iff {name : String} {reply : Reply} :
    (∃ entry, fetch c name reply = .ok entry) ↔ reply.IsEntry c := by
  have hfetched := fetched_fetch c name reply
  constructor
  · rintro ⟨entry, hf⟩
    rw [hf] at hfetched
    cases hfetched with
    | entry hs hv => exact ⟨_, _, _, rfl, hs, hv⟩
  · rintro ⟨status, v, entry, rfl, hs, hv⟩
    cases hf : fetch c name (.response status (some v)) with
    | ok entry => exact ⟨entry, rfl⟩
    | error exc =>
      rw [hf] at hfetched
      cases hfetched with
      | notFound => exact absurd hs (by decide)
      | unreadable _ hno _ => exact absurd hv (hno v rfl entry)
      | unreachable hr _ => simp [Reply.isAnswered, hs] at hr

/-- A reply that carries an entry is an answer. -/
theorem Reply.IsEntry.isAnswered {reply : Reply} (h : reply.IsEntry c) :
    reply.isAnswered = true := by
  obtain ⟨status, v, entry, rfl, hs, -⟩ := h
  simp [Reply.isAnswered, hs]

section IsUnreadable

variable {reply : Reply} (h : reply.IsUnreadable c)

include h

/-- An unreadable reply is an answer, -/
theorem Reply.IsUnreadable.isAnswered : reply.isAnswered = true := by
  obtain ⟨status, body, rfl, hs, -⟩ := h
  simp [Reply.isAnswered, hs]

/-- but carries no entry, -/
theorem Reply.IsUnreadable.not_isEntry : ¬ reply.IsEntry c := by
  obtain ⟨status, body, rfl, -, hno⟩ := h
  rintro ⟨_, v, entry, hr, -, hv⟩
  obtain ⟨-, hbody⟩ := Reply.response.inj hr
  exact hno v hbody entry hv

/-- and is no 404. -/
theorem Reply.IsUnreadable.ne_notFound (body : Option Json) : reply ≠ .response 404 body := by
  obtain ⟨status, _, rfl, hs, -⟩ := h
  intro hr
  obtain ⟨rfl, -⟩ := Reply.response.inj hr
  exact absurd hs (by decide)

end IsUnreadable

/-- What stands in for the registry is an entry, or `ServiceNotFound`. -/
theorem staleOrRaise_soft (now : ℚ) (name : String) (cached : Option CacheEntry) :
    (∃ entry, staleOrRaise cfg now name cached = .ok entry)
      ∨ staleOrRaise cfg now name cached = .error (.serviceNotFound name) := by
  cases h : staleOrRaise cfg now name cached with
  | ok entry => exact .inl ⟨entry, rfl⟩
  | error exc => exact .inr ((staleOrRaise_eq_error_iff.mp h).1 ▸ rfl)

/-- A call that asks takes along the cell of the name. -/
theorem Client.Asks.lookup_eq {client : Client} {now : ℚ} {name : String}
    (h : client.Asks cfg now name) :
    client.lookup cfg now name = .inr (client.cache.get? name) := by
  rcases lookup_cases cfg client now name with ⟨cell, hcell, hfresh, -⟩ | ⟨-, ⟨hopen, -⟩ | ⟨-, hl⟩⟩
  · exact absurd (h.1 cell hcell) (by simp [hfresh])
  · exact absurd h.2 (by simp [hopen])
  · exact hl

/-- A call that does not ask fails softly. -/
theorem softFails_of_not_asks {client : Client} {now : ℚ} {name : String}
    (h : ¬ client.Asks cfg now name) (later : ℚ) (reply : Reply) :
    SoftFails c cfg client now later name reply := by
  refine ⟨?_, fun _ _ _ hasks => absurd hasks h⟩
  unfold Client.lookupAlone
  rcases lookup_cases cfg client now name with ⟨cell, -, -, hl⟩ | ⟨hfresh, ⟨-, hl⟩ | ⟨hopen, -⟩⟩
  · rw [hl]
    exact .inl ⟨cell.entry, rfl⟩
  · rw [hl]
    exact staleOrRaise_soft now name _
  · exact absurd ⟨hfresh, hopen⟩ h

/-- **When a lookup fails softly**: unless it asks, and the reply is one in the
200s whose body is no entry. What reading such a body raises is none of the two
exceptions a lookup catches, so the cell at hand is not used. -/
theorem softFails_iff (client : Client) (now later : ℚ) (name : String) (reply : Reply) :
    SoftFails c cfg client now later name reply
      ↔ ¬ (client.Asks cfg now name ∧ reply.IsUnreadable c) := by
  by_cases hasks : client.Asks cfg now name
  swap
  · exact iff_of_true (softFails_of_not_asks hasks later reply) (fun h => hasks h.1)
  have hx : client.lookupAlone c cfg now later name reply
      = client.resume c cfg later name (client.cache.get? name) reply := by
    rw [Client.lookupAlone, hasks.lookup_eq]
  unfold SoftFails
  rw [hx]
  cases hf : fetch c name reply with
  | ok entry =>
    rw [Client.resume_of_ok hf]
    have hentry : reply.IsEntry c := fetch_eq_ok_iff.mp ⟨entry, hf⟩
    refine iff_of_true ⟨.inl ⟨entry, rfl⟩, ?_⟩ (fun h => h.2.not_isEntry hentry)
    exact fun _ _ _ _ hno => absurd hentry hno
  | error exc =>
    cases hf ▸ fetched_fetch c name reply with
    | notFound =>
      rw [Client.resume_of_not_caught hf rfl]
      refine iff_of_true ⟨.inr rfl, ?_⟩ (fun h => h.2.ne_notFound _ rfl)
      exact fun _ _ _ _ _ hno => absurd rfl (hno _)
    | unreadable hs hv hexc =>
      refine iff_of_false ?_ (fun h => h ⟨hasks, _, _, rfl, hs, hv⟩)
      rintro ⟨hsoft, -⟩
      rcases hexc with rfl | ⟨errors, rfl⟩ <;> rw [Client.resume_of_not_caught hf rfl] at hsoft <;>
        simp at hsoft
    | unreachable hr hexc =>
      rw [Client.resume_of_caught hf hexc]
      refine iff_of_true ⟨staleOrRaise_soft later name _, fun cell hcell hy _ _ _ => ⟨?_, rfl⟩⟩ ?_
      · exact staleOrRaise_eq_ok_iff.mpr ⟨cell, hcell, hy, rfl⟩
      · exact fun h => absurd h.2.isAnswered (by simp [hr])

/-- A client that has had the entry of a service since the start. -/
def cachedClient : Client where
  cache :=
    [("ai-mcp-data", { entry := RegistryEntry.sample "ai-mcp-data" "0.5.0", fetchedAt := 0 })]

/-- A minute after the entry was received it is stale, and a lookup asks again.
-/
theorem asks_cachedClient : cachedClient.Asks {} 60 "ai-mcp-data" := by
  refine ⟨fun cell hcell => ?_, by decide⟩
  obtain rfl := Option.some.inj hcell
  decide +kernel

/-- **A body that is no JSON reaches the caller as an error**, a minute after
an entry was cached. -/
theorem not_softFails :
    ¬ SoftFails EntryCoercions.exact {} cachedClient 60 60 "ai-mcp-data"
        (.response 200 none) := by
  rintro ⟨hsoft, -⟩
  have hf : fetch EntryCoercions.exact "ai-mcp-data" (.response 200 none)
      = .error .jsonDecodeError := rfl
  rw [Client.lookupAlone, asks_cachedClient.lookup_eq] at hsoft
  simp only [Client.resume_of_not_caught hf rfl] at hsoft
  simp at hsoft

/-! ## Calls that overlap -/

variable (c cfg) in
/-- **`ServiceNotFound` is justified** in a step: the registry replied 404 to
this very call, or the cache is left without a young cell of the name. -/
def NotFoundJustified (s : State) (a : Event) : Prop :=
  ∀ s' i name n, step c cfg s a = some s' → Returns s s' i name (.error (.serviceNotFound n)) →
    (∃ body, a = .reply i (.response 404 body))
      ∨ ∀ cell, s'.client.cache.get? name = some cell → cell.young cfg s'.now = false

variable (cfg) in
/-- **A lookup that fails decides as the cache has it**: the cell it had read
before it waited is young, or the cell of the name that is there now is not. -/
def DecidesAsCached (s : State) (a : Event) : Prop :=
  ∀ i reply name cached, a = .reply i reply → reply.isAnswered = false →
    s.calls i = .fetching name cached →
    (∃ cell, cached = some cell ∧ cell.young cfg s.now = true)
      ∨ ∀ cell, s.client.cache.get? name = some cell → cell.young cfg s.now = false

/-- In such a step `ServiceNotFound` is justified. -/
theorem notFoundJustified_of_decidesAsCached {s : State} {a : Event}
    (hdecides : DecidesAsCached cfg s a) : NotFoundJustified c cfg s a := by
  intro s' i name n hstep hret
  rcases returns_of_step hstep hret with ⟨-, hl, rfl⟩ | ⟨cached, reply, rfl, hi, hnow, hresult⟩
  · -- no fresh cell and the circuit open: the cell is the one of this moment
    rcases cases_of_lookup_inl hl with ⟨_, -, -, hr⟩ | ⟨-, hr⟩
    · cases hr
    · exact .inr (staleOrRaise_eq_error_iff.mp hr.symm).2
  · rcases hresult with ⟨entry, -, hr⟩ | ⟨exc, hf, hc, hr, hcache⟩ | ⟨exc, hf, hc, hr⟩
    · cases hr
    · have hold := (staleOrRaise_eq_error_iff.mp hr.symm).2
      rw [hcache, hnow]
      rcases hdecides i reply name cached rfl ((isCaught_iff hf).mp hc) hi with
        ⟨cell, hcell, hy⟩ | hnone
      · exact absurd (hold cell hcell) (by simp [hy])
      · exact .inr hnone
    · obtain rfl := Except.error.inj hr
      cases hf ▸ fetched_fetch c name reply with
      | notFound => exact .inl ⟨_, rfl⟩
      | unreadable _ _ hexc => rcases hexc with h | ⟨_, h⟩ <;> cases h
      | unreachable _ hexc => cases hexc

/-- A reply that is no answer is an error that is caught. -/
theorem fetch_of_not_isAnswered {name : String} {reply : Reply} (hr : reply.isAnswered = false) :
    ∃ exc, fetch c name reply = .error exc ∧ exc.isCaught = true := by
  cases hf : fetch c name reply with
  | ok entry =>
    have hanswered := (fetch_eq_ok_iff.mp ⟨entry, hf⟩).isAnswered
    rw [hr] at hanswered
    cases hanswered
  | error exc => exact ⟨exc, rfl, (isCaught_iff hf).mpr hr⟩

/-- A lookup that fails and had read no young cell raises `ServiceNotFound`,
and leaves the cache as it is. -/
theorem returns_notFound_of_failed {s : State} {i : ℕ} {reply : Reply} {name : String}
    {cached : Option CacheEntry} (hr : reply.isAnswered = false)
    (hi : s.calls i = .fetching name cached)
    (hold : ∀ cell, cached = some cell → cell.young cfg s.now = false) :
    ∃ s', step c cfg s (.reply i reply) = some s'
      ∧ Returns s s' i name (.error (.serviceNotFound name))
      ∧ s'.client.cache = s.client.cache ∧ s'.now = s.now := by
  obtain ⟨exc, hf, hc⟩ : ∃ exc, fetch c name reply = .error exc ∧ exc.isCaught = true :=
    fetch_of_not_isAnswered hr
  have hresume : s.client.resume c cfg s.now name cached reply = _ :=
    Client.resume_of_caught hf hc
  rw [staleOrRaise_eq_error_iff.mpr ⟨rfl, hold⟩] at hresume
  refine ⟨_, step_reply hi reply, ⟨fun n r hended => ?_, ?_⟩, ?_, rfl⟩
  · rw [hi] at hended
    cases hended
  · rw [goto_calls_self, hresume]
  · rw [hresume]
    rfl

/-- **When `ServiceNotFound` is justified in a step**: exactly when the lookup
that fails decides as the cache has it by then. -/
theorem notFoundJustified_iff {s : State} {a : Event} :
    NotFoundJustified c cfg s a ↔ DecidesAsCached cfg s a := by
  refine ⟨?_, notFoundJustified_of_decidesAsCached⟩
  rintro h i reply name cached rfl hr hi
  by_cases hyoung : ∃ cell, cached = some cell ∧ cell.young cfg s.now = true
  · exact .inl hyoung
  · have hold : ∀ cell, cached = some cell → cell.young cfg s.now = false := fun cell hcell =>
      Bool.eq_false_iff.mpr fun hy => hyoung ⟨cell, hcell, hy⟩
    obtain ⟨s', hstep, hret, hcache, hnow⟩ := returns_notFound_of_failed hr hi hold
    rcases h s' i name name hstep hret with ⟨body, ha⟩ | hnone
    · -- a 404 is an answer
      obtain ⟨-, rfl⟩ := Event.reply.inj ha
      cases hr
    · rw [hcache, hnow] at hnone
      exact .inr hnone

/-- **When `ServiceNotFound` means what it says** throughout a run: exactly when
each lookup that fails decides as the cache has it. A lookup decides on the cell
it has read before its `await`, and meanwhile other calls may have stored a
newer one. -/
theorem along_notFoundJustified_iff (as : List Event) :
    (machine c cfg).Along (NotFoundJustified c cfg) {} as
      ↔ (machine c cfg).Along (DecidesAsCached cfg) {} as :=
  ⟨(machine c cfg).along_mono fun _ _ => notFoundJustified_iff.mp,
    (machine c cfg).along_mono fun _ _ => notFoundJustified_iff.mpr⟩

/-- **A lookup reports a service not found that has just been stored**: two
lookups of one name overlap, and the one that fails had read an empty
cache. -/
theorem not_along_notFoundJustified :
    ¬ (machine EntryCoercions.exact {}).Along (NotFoundJustified EntryCoercions.exact {}) {}
      [.lookup 0 "ai-mcp-data", .lookup 1 "ai-mcp-data",
        .reply 1 (.response 200 (some (RegistryEntry.sampleBody "ai-mcp-data" "0.5.0"))),
        .reply 0 (.requestError "connection refused")] := by
  intro h
  let s₁ : State := State.goto {} 0 (.fetching "ai-mcp-data" none)
  let s₂ : State := s₁.goto 1 (.fetching "ai-mcp-data" none)
  let entry := RegistryEntry.sample "ai-mcp-data" "0.5.0"
  let client : Client := { s₂.client with cb := s₂.client.cb.recordSuccess }
  let s₃ : State :=
    { s₂ with client := client.store 0 "ai-mcp-data" entry }.goto
      1 (.ended "ai-mcp-data" (.ok entry))
  have h₁ : step EntryCoercions.exact {} {} (.lookup 0 "ai-mcp-data") = some s₁ := step_lookup rfl
  have h₂ : step EntryCoercions.exact {} s₁ (.lookup 1 "ai-mcp-data") = some s₂ := step_lookup rfl
  have h₃ : step EntryCoercions.exact {} s₂
      (.reply 1 (.response 200 (some (RegistryEntry.sampleBody "ai-mcp-data" "0.5.0"))))
        = some s₃ := by
    rw [step_reply rfl, Client.resume_of_ok (fetch_sampleBody _ _ _)]
    rfl
  have hlast : NotFoundJustified EntryCoercions.exact {} s₃
      (.reply 0 (.requestError "connection refused")) :=
    (((h.2 s₁ h₁).2 s₂ h₂).2 s₃ h₃).1
  rcases hlast _ 0 "ai-mcp-data" "ai-mcp-data" (step_reply rfl _)
    ⟨fun _ _ hended => (by cases hended), rfl⟩ with ⟨body, hbody⟩ | hyoung
  · cases hbody
  · have hcell := hyoung { entry := entry, fetchedAt := 0 } rfl
    exact absurd hcell (by decide +kernel)

end Registry
