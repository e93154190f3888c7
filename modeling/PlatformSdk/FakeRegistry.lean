import PlatformSdk.RegistryHistory

/-!
# The fake registry

A test that looks services up does so on a `_FakeRegistry`: a dict of entries
that the test has seeded, where a name without an entry raises
`ServiceNotFound`. A client of the real registry has a cache with cells of two
ages, a breaker, and a task that refreshes the cache while lookups wait for
their replies.

As long as the registry has the entries of the fake and answers, none of this
can be told from outside: every lookup comes to what it comes to on the fake.
While the registry does not answer, a lookup may still return the entry that
is in the cache; the one thing it can do differently is to raise
`ServiceNotFound` (`FakeRegistry.lookup_of_run`).
-/

namespace Registry

/-- **`_FakeRegistry`**, as far as it is looked up in. -/
structure FakeRegistry where
  /-- `_entries`. -/
  entries : Dict String RegistryEntry := []

namespace FakeRegistry

/-- `seed`. -/
def seed (fake : FakeRegistry) (name : String) (entry : RegistryEntry) : FakeRegistry :=
  { fake with entries := fake.entries.set name entry }

/-- **`lookup`**. -/
def lookup (fake : FakeRegistry) (name : String) : Except RegistryExc RegistryEntry :=
  match fake.entries.get? name with
  | none => .error (.serviceNotFound name)
  | some entry => .ok entry

/-- **The reply of a registry with the same entries** to a `GET` of a name. -/
def Serves (c : EntryCoercions) (fake : FakeRegistry) (name : String) (reply : Reply) : Prop :=
  match fake.entries.get? name with
  | none => ∃ body, reply = .response 404 body
  | some entry => ∃ v, reply = .response 200 (some v)
    ∧ RegistryEntry.modelValidate c v.toYaml = .ok entry

/-- **The registry has the entries of the fake**: it says so where it answers,
and where it lists its services. -/
def Steady (c : EntryCoercions) (fake : FakeRegistry) (outages : Prop) (s : State) : Event → Prop
  | .reply i reply => ∀ name cached, s.calls i = .fetching name cached →
    fake.Serves c name reply ∨ outages ∧ reply.isAnswered = false
  | .refreshReply reply => ∀ entry ∈ listed c reply, fake.entries.get? entry.name = some entry
  | _ => True

variable {c : EntryCoercions} {cfg : Settings} {fake : FakeRegistry} {outages : Prop}
  {s s' : State} {name : String}

/-- A reply of that registry is read as the fake would answer. -/
theorem fetch_of_serves {reply : Reply} (h : fake.Serves c name reply) :
    fetch c name reply = fake.lookup name := by
  rw [Serves] at h
  rw [lookup]
  split at h
  · obtain ⟨body, rfl⟩ := h
    rfl
  · next entry _ =>
    obtain ⟨v, rfl, hv⟩ := h
    show (RegistryEntry.modelValidate c v.toYaml).mapError
      RegistryExc.validationError = .ok entry
    rw [hv]
    rfl

theorem lookup_eq_ok_iff {entry : RegistryEntry} :
    fake.lookup name = .ok entry ↔ fake.entries.get? name = some entry := by
  rw [lookup]
  split
  · next hnone => exact iff_of_false (by simp) (by simp [hnone])
  · next hsome => rw [hsome, Except.ok.injEq, Option.some.injEq]

/-- The fake raises nothing that a lookup of the client would catch, since a
name that was not seeded is not found. -/
theorem isCaught_of_lookup {exc : RegistryExc} (h : fake.lookup name = .error exc) :
    exc.isCaught = false := by
  rw [lookup] at h
  split at h
  · exact Except.error.inj h ▸ rfl
  · cases h

/-- What holds of a call: the cell it has read is right, and so is its
result. -/
def CallInv (fake : FakeRegistry) (outages : Prop) : CallPhase → Prop
  | .idle => True
  | .fetching name cached => ∀ cell, cached = some cell → fake.lookup name = .ok cell.entry
  | .ended name result =>
    result = fake.lookup name ∨ outages ∧ result = .error (.serviceNotFound name)

/-- **The invariant**: the cells of the cache are right, and without outages
the breaker has nothing to count. -/
structure Inv (fake : FakeRegistry) (outages : Prop) (s : State) : Prop where
  cells : ∀ name cell, s.client.cache.get? name = some cell → fake.lookup name = .ok cell.entry
  calls : ∀ i, CallInv fake outages (s.calls i)
  closed : ¬ outages → s.client.cb.failures = 0 ∧ s.client.cb.failureThreshold = 5

/-- Without outages the circuit is closed: nothing has been counted, and five
failures are what opens it. -/
theorem Inv.isOpen (h : Inv fake outages s) (hout : ¬ outages) (now : ℚ) :
    s.client.cb.isOpen now = false := by
  obtain ⟨h₀, h₅⟩ := h.closed hout
  rw [CircuitBreaker.isOpen, h₀, h₅]
  exact if_pos (by decide)

/-- What stands in for the registry in an outage is right, or nothing. -/
theorem callInv_staleOrRaise {now : ℚ} {cached : Option CacheEntry}
    (hcell : ∀ cell, cached = some cell → fake.lookup name = .ok cell.entry) (hout : outages) :
    CallInv fake outages (.ended name (staleOrRaise cfg now name cached)) := by
  cases cached with
  | none => exact .inr ⟨hout, rfl⟩
  | some cell =>
    rw [staleOrRaise]
    split
    · exact .inl (hcell cell rfl).symm
    · exact .inr ⟨hout, rfl⟩

theorem callInv_goto (h : ∀ i, CallInv fake outages (s.calls i)) {j : ℕ} {p : CallPhase}
    (hp : CallInv fake outages p) (i : ℕ) : CallInv fake outages ((s.goto j p).calls i) := by
  rcases calls_goto_cases (s := s) (j := j) (p := p) (i := i) rfl with ⟨-, hij⟩ | hij
  · exact hij ▸ hp
  · exact hij ▸ h i

/-- The cells stay right in every step: what a reply or a list stores is what
the fake has under the name. -/
theorem cells_of_step (h : Inv fake outages s) {a : Event} (ha : Steady c fake outages s a)
    (hstep : step c cfg s a = some s') {cell : CacheEntry}
    (hcell : s'.client.cache.get? name = some cell) : fake.lookup name = .ok cell.entry := by
  rcases cell_of_step hstep hcell with ⟨-, hold⟩ | ⟨hrec, -⟩
  · exact h.cells name cell hold
  · cases a with
    | reply i reply =>
      obtain ⟨⟨cached, hi⟩, hf⟩ := hrec
      rcases ha name cached hi with hserves | ⟨-, hdown⟩
      · rw [← fetch_of_serves hserves, hf]
      · have hanswered := (fetch_eq_ok_iff.mp ⟨_, hf⟩).isAnswered
        rw [hdown] at hanswered
        cases hanswered
    | refreshReply reply =>
      obtain ⟨-, hmem, rfl⟩ := hrec
      exact lookup_eq_ok_iff.mpr (ha cell.entry hmem)
    | _ => exact hrec.elim

/-- **Every step keeps the invariant.** Only a reply and a list of services
store a cell, and while the registry has the entries of the fake they store what
the fake would answer. -/
theorem inv_step (h : Inv fake outages s) {a : Event} (ha : Steady c fake outages s a)
    (hstep : step c cfg s a = some s') : Inv fake outages s' := by
  refine ⟨fun name cell => cells_of_step h ha hstep, ?_, ?_⟩
  · cases moves_of_step hstep with
    | @answered i name result _ hl =>
      refine callInv_goto h.calls ?_
      rcases cases_of_lookup_inl hl with ⟨cell, hcell, -, rfl⟩ | ⟨hopen, rfl⟩
      · exact .inl (h.cells name cell hcell).symm
      · refine callInv_staleOrRaise (h.cells name) (by_contra fun hout => ?_)
        rw [h.isOpen hout] at hopen
        cases hopen
    | @asked i name cached _ hl =>
      refine callInv_goto h.calls fun cell hcell => h.cells name cell ?_
      rw [← (of_lookup_inr hl).2, hcell]
    | @received i name cached reply entry hi hf =>
      refine callInv_goto h.calls (.inl ?_)
      rcases ha name cached hi with hserves | ⟨-, hdown⟩
      · rw [← fetch_of_serves hserves, hf]
      · have hanswered := (fetch_eq_ok_iff.mp ⟨_, hf⟩).isAnswered
        rw [hdown] at hanswered
        cases hanswered
    | @failed i name cached reply exc hi hf hc =>
      have hcalls := h.calls i
      rw [hi] at hcalls
      rcases ha name cached hi with hserves | ⟨hout, -⟩
      · rw [fetch_of_serves hserves] at hf
        exact absurd (isCaught_of_lookup hf) (by simp [hc])
      · exact callInv_goto h.calls (callInv_staleOrRaise hcalls hout)
    | @raised i name cached reply exc hi hf hc =>
      refine callInv_goto h.calls (.inl ?_)
      rcases ha name cached hi with hserves | ⟨-, hdown⟩
      · rw [← fetch_of_serves hserves, hf]
      · rw [(isCaught_iff hf).mpr hdown] at hc
        cases hc
    | tick | startRefresh | alreadyStarted | wake | refreshed | stopRefresh => exact h.calls
  · intro hout
    cases moves_of_step hstep with
    | received => exact ⟨rfl, (h.closed hout).2⟩
    | @failed i name cached reply exc hi hf hc =>
      rcases ha name cached hi with hserves | ⟨hyes, -⟩
      · rw [fetch_of_serves hserves] at hf
        exact absurd (isCaught_of_lookup hf) (by simp [hc])
      · exact absurd hyes hout
    | refreshed =>
      show (s.client.storeAll _ _).cb.failures = 0 ∧ (s.client.storeAll _ _).cb.failureThreshold = 5
      rw [cb_storeAll]
      exact h.closed hout
    | tick | answered | asked | raised | startRefresh | alreadyStarted | wake | stopRefresh =>
      exact h.closed hout

/-- A call that has ended in a run of a steady registry. -/
theorem ended_of_run {as : List Event}
    (hsteady : (machine c cfg).Along (Steady c fake outages) {} as) {t : State}
    (hrun : (machine c cfg).run {} as = some t) {i : ℕ}
    {result : Except RegistryExc RegistryEntry} (hi : t.calls i = .ended name result) :
    result = fake.lookup name ∨ outages ∧ result = .error (.serviceNotFound name) := by
  have hinit : Inv fake outages ({} : State) :=
    ⟨fun _ _ h => (by cases h), fun _ => trivial, fun _ => ⟨rfl, rfl⟩⟩
  have hinv : Inv fake outages t :=
    (machine c cfg).run_invariant_along (fun _ _ _ h ha hstep => inv_step h ha hstep) hinit
      hsteady hrun
  have hcall := hinv.calls i
  rw [hi] at hcall
  exact hcall

/-- **The fake answers as the client of a registry does** that has the same
entries, whatever the order of lookups, replies, refreshes and the time that
passes: always where the registry answers, and up to a `ServiceNotFound` where
it does not. -/
theorem lookup_of_run {as : List Event} (hsteady : (machine c cfg).Along (Steady c fake True) {} as)
    {t : State} (hrun : (machine c cfg).run {} as = some t) {i : ℕ}
    {result : Except RegistryExc RegistryEntry} (hi : t.calls i = .ended name result) :
    (result = fake.lookup name ∨ result = .error (.serviceNotFound name))
      ∧ ((∀ j reply, .reply j reply ∈ as → reply.isAnswered = true) →
        result = fake.lookup name) := by
  refine ⟨(ended_of_run hsteady hrun hi).imp_right And.right, fun hanswered => ?_⟩
  have hboth := (machine c cfg).along_and hsteady
    ((machine c cfg).along_of_forall (C := fun _ a => a ∈ as) (fun a ha _ => ha) {})
  have hsteady' : (machine c cfg).Along (Steady c fake False) {} as := by
    refine (machine c cfg).along_mono (fun s a h => ?_) hboth
    obtain ⟨h, hmem⟩ := h
    cases a with
    | reply j reply =>
      intro name cached hj
      refine .inl ((h name cached hj).resolve_right fun hdown => ?_)
      rw [hanswered j reply hmem] at hdown
      exact Bool.noConfusion hdown.2
    | _ => exact h
  exact (ended_of_run hsteady' hrun hi).resolve_right And.left

/-- A fake with two entries, as the registry of the runs below has them. -/
def seeded : FakeRegistry :=
  seed (seed {} "ai-mcp-data" (RegistryEntry.sample "ai-mcp-data" "0.5.0")) "ai-mcp-payments"
    (RegistryEntry.sample "ai-mcp-payments" "0.5.0")

/-- The registry answers a lookup of the first. -/
theorem along_steady_minuteEvents :
    (machine EntryCoercions.exact {}).Along (Steady EntryCoercions.exact seeded True) {}
      minuteEvents := by
  refine ⟨trivial, fun s hs => ⟨fun name cached hi => ?_, fun _ _ => ⟨trivial, fun _ _ => trivial⟩⟩⟩
  obtain rfl : State.goto {} 0 (.fetching "ai-mcp-data" none) = s := Option.some.inj hs
  rw [goto_calls_self] at hi
  obtain ⟨rfl, -⟩ := CallPhase.fetching.inj hi
  exact .inl ⟨_, rfl, RegistryEntry.modelValidate_sampleBody _ _⟩

/-- The registry refuses a connection. -/
def refusal (i : ℕ) : Event := .reply i (.requestError "connection refused")

/-- An outage a minute later, in which both names are looked up. -/
def outage : List Event :=
  [.lookup 1 "ai-mcp-data", refusal 1, .lookup 2 "ai-mcp-payments", refusal 2]

theorem along_steady_outage :
    (machine EntryCoercions.exact {}).Along (Steady EntryCoercions.exact seeded True) {}
      (minuteEvents ++ outage) := by
  have hrefused : ∀ i s, Steady EntryCoercions.exact seeded True s (refusal i) :=
    fun _ _ _ _ _ => .inr ⟨trivial, rfl⟩
  refine (Machine.along_append _ run_minuteEvents).mpr ⟨along_steady_minuteEvents, ?_⟩
  exact ⟨trivial, fun _ _ => ⟨hrefused 1 _, fun _ _ => ⟨trivial, fun _ _ =>
    ⟨hrefused 2 _, fun _ _ => trivial⟩⟩⟩⟩

/-- The first lookup makes do with the cell it has, the second has none. -/
theorem run_outage :
    ∃ t, (machine EntryCoercions.exact {}).run {} (minuteEvents ++ outage) = some t
      ∧ t.calls 1 = .ended "ai-mcp-data" (.ok (RegistryEntry.sample "ai-mcp-data" "0.5.0"))
      ∧ t.calls 2 = .ended "ai-mcp-payments" (.error (.serviceNotFound "ai-mcp-payments")) := by
  let failed : Client := { cachedClient with cb := cachedClient.cb.recordFailure 60 }
  let s₁ : State :=
    minuteLater.goto 1 (.fetching "ai-mcp-data" (cachedClient.cache.get? "ai-mcp-data"))
  let s₂ : State := { s₁ with client := failed }.goto 1
    (.ended "ai-mcp-data" (.ok (RegistryEntry.sample "ai-mcp-data" "0.5.0")))
  let s₃ : State := s₂.goto 2 (.fetching "ai-mcp-payments" none)
  let s₄ : State := { s₃ with client := { failed with cb := failed.cb.recordFailure 60 } }.goto 2
    (.ended "ai-mcp-payments" (.error (.serviceNotFound "ai-mcp-payments")))
  have h₁ : step EntryCoercions.exact {} minuteLater (.lookup 1 "ai-mcp-data") = some s₁ :=
    step_lookup_minuteLater rfl rfl rfl
  have h₂ : step EntryCoercions.exact {} s₁ (refusal 1) = some s₂ := by
    have hstale : staleOrRaise {} s₁.now "ai-mcp-data" (cachedClient.cache.get? "ai-mcp-data")
        = .ok (RegistryEntry.sample "ai-mcp-data" "0.5.0") :=
      staleOrRaise_eq_ok_iff.mpr ⟨_, rfl, by decide +kernel, rfl⟩
    rw [refusal, step_reply (goto_calls_self ..), Client.resume_of_caught rfl rfl, hstale]
    rfl
  have h₃ : step EntryCoercions.exact {} s₂ (.lookup 2 "ai-mcp-payments") = some s₃ :=
    step_lookup rfl
  have h₄ : step EntryCoercions.exact {} s₃ (refusal 2) = some s₄ := by
    rw [refusal, step_reply (goto_calls_self ..)]
    rfl
  refine ⟨s₄, ?_, ?_, goto_calls_self ..⟩
  · rw [Machine.run_append, run_minuteEvents, Option.bind_some, outage,
      Machine.run_cons_of_step _ h₁, Machine.run_cons_of_step _ h₂, Machine.run_cons_of_step _ h₃,
      Machine.run_cons_of_step _ h₄, Machine.run_nil]
  · rfl

/-- **An outage that can be told from the fake, and one that cannot**: the
name with a cell in the cache is found as on the fake, the one without is
not. -/
theorem lookup_of_run_outage :
    Except.ok (RegistryEntry.sample "ai-mcp-data" "0.5.0") = seeded.lookup "ai-mcp-data"
      ∧ ∃ t, (machine EntryCoercions.exact {}).run {} (minuteEvents ++ outage) = some t
        ∧ t.calls 1 = .ended "ai-mcp-data" (seeded.lookup "ai-mcp-data")
        ∧ t.calls 2 = .ended "ai-mcp-payments" (.error (.serviceNotFound "ai-mcp-payments"))
        ∧ ∀ i name result, t.calls i = .ended name result →
          result = seeded.lookup name ∨ result = .error (.serviceNotFound name) := by
  have hanswered : ∀ j reply, Event.reply j reply ∈ minuteEvents → reply.isAnswered = true := by
    intro j reply hmem
    simp only [minuteEvents, List.mem_cons, reduceCtorEq, List.not_mem_nil, or_false, false_or,
      Event.reply.injEq] at hmem
    rw [hmem.2]
    rfl
  obtain ⟨t, hrun, hdata, hpayments⟩ := run_outage
  have hone := lookup_of_run (i := 0) along_steady_minuteEvents run_minuteEvents rfl
  exact ⟨hone.2 hanswered, t, hrun, hdata, hpayments, fun i name result hi =>
    (lookup_of_run along_steady_outage hrun hi).1⟩

end FakeRegistry

end Registry
