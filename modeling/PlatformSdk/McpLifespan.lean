import PlatformSdk.McpService

/-!
# The resources of overlapping lifespans

Between its `yield` and the start of its exit a lifespan should find every
resource of the service open, and a lifespan should close a resource only when
it is the last one. The flags that say who owns a resource are on the service,
however, and so every lifespan that ends closes what the first one created:
with two connections open, the one that leaves takes the authorizer from the
one that stays (`not_lifespan_safe`).

`lifespan_safe` says when the code does keep both promises. A resource that
was injected is safe in every run, since no lifespan ever touches it
(`Fixed`); if every resource of the service was injected, that is all there is
to say. Otherwise the lifespans have to come one after the other: none enters
while another leaves, and none leaves while another is there. And no `aclose`
may raise, since that leaves the closed resource in its field for the next
lifespan to find.
-/

/-- Whether a lifespan that finds the field empty fills it. -/
def ServiceSetup.provides (setup : ServiceSetup) (slot : Slot) : Bool :=
  setup.wants slot && (setup.creates slot 0).isSome

/-- Creating a resource gives something or nothing, whatever its number. -/
theorem ServiceSetup.isSome_creates (setup : ServiceSetup) (slot : Slot) (r r' : ℕ) :
    (setup.creates slot r).isSome = (setup.creates slot r').isSome := by
  cases slot with
  | authorizer => rfl
  | cache =>
    simp only [ServiceSetup.creates]
    split <;> rfl
  | dbPool => rfl

/-- The slots a lifespan has behind it in a phase: all of them once
`on_startup` is called, and all but the pool while that is created. -/
def LifespanPhase.hasFilled : LifespanPhase → Slot → Bool
  | .creatingPool, slot => slot ≠ .dbPool
  | .startingUp, _ | .serving, _ => true
  | _, _ => false

/-- Ended, or on the way out and not at a resource. -/
def LifespanPhase.isDeregistering : LifespanPhase → Bool
  | .stoppingHeartbeat _ | .stoppingRefresh _ | .deregistering | .closingRegistry _
  | .ended _ => true
  | _ => false

/-- Ended, or on the way out. -/
def LifespanPhase.isLeft (p : LifespanPhase) : Bool := p.isExiting || !p.inProgress

/-! ## The resources alone -/

namespace ServiceResources

/-- **A slot nobody touches**: it holds `v`, which no lifespan owns and none
has closed. -/
structure Holds (slot : Slot) (v : Option ℕ) (s : ServiceResources) : Prop where
  field : s.field slot = v
  owns : v ≠ none → s.owns slot = false
  unclosed : ∀ r, (slot, r) ∉ s.closed

variable {setup : ServiceSetup} {fails : Slot → Option PyExc} {slot : Slot} {v : Option ℕ}
variable {s : ServiceResources}

/-- Creating another resource leaves the slot alone. -/
theorem Holds.create_of_ne (h : s.Holds slot v) {slot' : Slot} (hne : slot' ≠ slot) :
    (s.create setup slot').Holds slot v := by
  refine ⟨?_, fun hv => ?_, h.unclosed⟩
  · show Function.update s.field slot' _ slot = v
    rw [Function.update_of_ne (Ne.symm hne)]
    exact h.field
  · show Function.update s.owns slot' true slot = false
    rw [Function.update_of_ne (Ne.symm hne)]
    exact h.owns hv

/-- A slot is not created over: it is full, or creating it gives nothing. -/
theorem Holds.create (h : s.Holds slot v)
    (hv : v = none → setup.wants slot = true → ∀ r, setup.creates slot r = none) {slot' : Slot}
    (hneeds : s.needs setup slot' = true) : (s.create setup slot').Holds slot v := by
  obtain ⟨hnone, hwants⟩ := Bool.and_eq_true_iff.mp hneeds
  by_cases heq : slot' = slot
  · subst heq
    have hfield : s.field slot' = none := Option.isNone_iff_eq_none.mp hnone
    have hvnone : v = none := h.field ▸ hfield
    refine ⟨?_, fun hne => absurd hvnone hne, h.unclosed⟩
    show Function.update s.field slot' _ slot' = v
    rw [Function.update_self, hv hvnone hwants, hvnone]
  · exact h.create_of_ne heq

/-- The way in touches no such slot. -/
theorem Holds.prepare (h : s.Holds slot v)
    (hv : v = none → setup.wants slot = true → ∀ r, setup.creates slot r = none)
    (slots : List Slot) : (prepare setup fails slots s).1.Holds slot v := by
  induction slots generalizing s with
  | nil => exact h
  | cons slot' slots ih =>
    rw [ServiceResources.prepare]
    split
    · next hneeds =>
      split
      · exact h
      · exact ih (h.create hv hneeds)
    · exact ih h

/-- Nor does the way out, which closes no resource the service has been handed
and so does not stop at it. -/
theorem Holds.teardown (h : s.Holds slot v) (slots : List Slot) :
    (teardown slots s).1.Holds slot v
      ∧ ∀ rest, (teardown slots s).2 ≠ .closing slot rest := by
  induction slots with
  | nil => exact ⟨h, fun rest => by simp [ServiceResources.teardown]⟩
  | cons slot' slots ih =>
    rw [ServiceResources.teardown]
    split
    · next r howns hfield =>
      have hne : slot' ≠ slot := by
        rintro rfl
        have hv : v ≠ none := by
          rw [← h.field, hfield]
          exact Option.some_ne_none r
        rw [h.owns hv] at howns
        cases howns
      refine ⟨⟨h.field, h.owns, fun r' hmem => ?_⟩, fun rest heq => ?_⟩
      · rcases List.mem_cons.mp hmem with heq | hmem
        · exact hne (congrArg Prod.fst heq).symm
        · exact h.unclosed r' hmem
      · exact hne (LifespanPhase.closing.inj heq).1
    · exact ih

/-- Clearing a slot leaves the resources of the other slots alone. -/
theorem Holds.clear (h : s.Holds slot v) {slot' : Slot} (hne : slot' ≠ slot) :
    (s.clear slot').Holds slot v := by
  refine ⟨?_, h.owns, h.unclosed⟩
  show Function.update s.field slot' none slot = v
  rw [Function.update_of_ne (Ne.symm hne)]
  exact h.field

/-- **What the fields hold is open**, but for the slots that are being closed;
and the numbers of the resources stay below the next one. -/
structure Sound (busy : Slot → Prop) (s : ServiceResources) : Prop where
  field : ∀ slot r, s.field slot = some r → r < s.next
  closed : ∀ slot r, (slot, r) ∈ s.closed → r < s.next
  unclosed : ∀ slot r, s.field slot = some r → (slot, r) ∈ s.closed → busy slot

variable {busy busy' : Slot → Prop}

theorem Sound.mono (h : s.Sound busy) (hbusy : ∀ slot, busy slot → busy' slot) :
    s.Sound busy' :=
  ⟨h.field, h.closed, fun slot r hf hc => hbusy slot (h.unclosed slot r hf hc)⟩

/-- A new resource is open, and the ones of the other slots are as they were. -/
theorem Sound.create (h : s.Sound busy) (setup : ServiceSetup) (slot : Slot) :
    (s.create setup slot).Sound busy := by
  have hcreates : ∀ r, setup.creates slot s.next = some r → r = s.next := by
    intro r hr
    cases slot with
    | authorizer => exact (Option.some.inj hr).symm
    | cache =>
      simp only [ServiceSetup.creates] at hr
      split at hr
      · cases hr
      · exact (Option.some.inj hr).symm
    | dbPool => exact (Option.some.inj hr).symm
  have hfield : ∀ slot' r, (s.create setup slot).field slot' = some r →
      r = s.next ∨ s.field slot' = some r := by
    intro slot' r hr
    by_cases heq : slot' = slot
    · subst heq
      rw [show (s.create setup slot').field slot' = _ from Function.update_self ..] at hr
      exact .inl (hcreates r hr)
    · rw [show (s.create setup slot).field slot' = _ from Function.update_of_ne heq ..] at hr
      exact .inr hr
  refine ⟨fun slot' r hr => ?_, fun slot' r hr => ?_, fun slot' r hr hc => ?_⟩
  · rcases hfield slot' r hr with rfl | hr
    · exact Nat.lt_succ_self _
    · exact Nat.lt_succ_of_lt (h.field slot' r hr)
  · exact Nat.lt_succ_of_lt (h.closed slot' r hr)
  · rcases hfield slot' r hr with rfl | hr
    · exact absurd (h.closed slot' _ hc) (lt_irrefl _)
    · exact h.unclosed slot' r hr hc

theorem Sound.prepare (h : s.Sound busy) (slots : List Slot) :
    (prepare setup fails slots s).1.Sound busy := by
  induction slots generalizing s with
  | nil => exact h
  | cons slot slots ih =>
    rw [ServiceResources.prepare]
    split
    · split
      · exact h
      · exact ih (h.create setup slot)
    · exact ih h

/-- The way out closes one resource at a time. -/
theorem Sound.teardown (h : s.Sound fun _ => False) (slots : List Slot) :
    (teardown slots s).1.Sound fun slot => ∃ rest, (teardown slots s).2 = .closing slot rest := by
  induction slots with
  | nil => exact h.mono fun _ => False.elim
  | cons slot slots ih =>
    rw [ServiceResources.teardown]
    split
    · next r howns hfield =>
      refine ⟨h.field, fun slot' r' hmem => ?_, fun slot' r' hf hmem => ?_⟩
      · rcases List.mem_cons.mp hmem with heq | hmem
        · cases heq
          exact h.field slot r hfield
        · exact h.closed slot' r' hmem
      · rcases List.mem_cons.mp hmem with heq | hmem
        · cases heq
          exact ⟨slots, rfl⟩
        · exact (h.unclosed slot' r' hf hmem).elim
    · exact ih

/-- Once a resource is closed its field is emptied. -/
theorem Sound.clear {slot : Slot} (h : s.Sound fun slot' => slot' = slot) :
    (s.clear slot).Sound fun _ => False := by
  have hfield : ∀ slot' r, (s.clear slot).field slot' = some r →
      slot' ≠ slot ∧ s.field slot' = some r := by
    intro slot' r hr
    by_cases heq : slot' = slot
    · subst heq
      rw [show (s.clear slot').field slot' = none from Function.update_self ..] at hr
      cases hr
    · rw [show (s.clear slot).field slot' = _ from Function.update_of_ne heq ..] at hr
      exact ⟨heq, hr⟩
  refine ⟨fun slot' r hr => h.field slot' r (hfield slot' r hr).2, h.closed, ?_⟩
  intro slot' r hr hc
  obtain ⟨hne, hr⟩ := hfield slot' r hr
  exact hne (h.unclosed slot' r hr hc)


/-- Creating a resource that there is fills its field, and no other one is
emptied. -/
theorem filled_create {slot' : Slot}
    (hslot' : slot' = slot → (setup.creates slot 0).isSome = true)
    (h : slot' = slot ∨ s.field slot ≠ none) : (s.create setup slot').field slot ≠ none := by
  by_cases heq : slot' = slot
  · subst heq
    have hsome : (setup.creates slot' s.next).isSome = true := by
      rw [setup.isSome_creates slot' s.next 0]
      exact hslot' rfl
    rw [show (s.create setup slot').field slot' = _ from Function.update_self ..]
    exact Option.isSome_iff_ne_none.mp hsome
  · rw [show (s.create setup slot').field slot = s.field slot from
      Function.update_of_ne (Ne.symm heq) ..]
    exact h.resolve_left heq

/-- A field that is full and a field that is not to be filled need nothing. -/
theorem filled_of_not_needs (hprovides : setup.provides slot = true)
    (h : ¬ s.needs setup slot = true) : s.field slot ≠ none := by
  intro hnone
  refine h (Bool.and_eq_true_iff.mpr ⟨?_, (Bool.and_eq_true_iff.mp hprovides).1⟩)
  rw [hnone]
  rfl

/-- **What is provided is there** in every phase that has it behind it. -/
theorem filled_prepare (hprovides : setup.provides slot = true) (slots : List Slot)
    (h : slot ∈ slots ∨ slot = .dbPool ∨ s.field slot ≠ none)
    (hphase : (prepare setup fails slots s).2.hasFilled slot = true) :
    (prepare setup fails slots s).1.field slot ≠ none := by
  have hcreates : (setup.creates slot 0).isSome = true :=
    (Bool.and_eq_true_iff.mp hprovides).2
  induction slots generalizing s with
  | nil =>
    rw [ServiceResources.prepare] at hphase ⊢
    rcases h with h | rfl | h
    · exact absurd h List.not_mem_nil
    · refine filled_of_not_needs hprovides fun hneeds => ?_
      rw [if_pos hneeds] at hphase
      cases hphase
    · exact h
  | cons slot' slots ih =>
    rw [ServiceResources.prepare] at hphase ⊢
    split at hphase
    · next hneeds =>
      rw [if_pos hneeds]
      split at hphase
      · exact absurd hphase (by simp [LifespanPhase.hasFilled])
      · refine ih ?_ hphase
        rcases h with h | h | h
        · rcases List.mem_cons.mp h with heq | h
          · exact .inr (.inr (filled_create (fun _ => hcreates) (.inl heq.symm)))
          · exact .inl h
        · exact .inr (.inl h)
        · exact .inr (.inr (filled_create (fun _ => hcreates) (.inr h)))
    · next hneeds =>
      rw [if_neg hneeds]
      refine ih ?_ hphase
      rcases h with h | h
      · rcases List.mem_cons.mp h with heq | h
        · exact .inr (.inr (filled_of_not_needs hprovides (heq ▸ hneeds)))
        · exact .inl h
      · exact .inr h

/-- What is full stays full on the way in. -/
theorem filled_prepare_of_filled (h : s.field slot ≠ none) (slots : List Slot) :
    (prepare setup fails slots s).1.field slot ≠ none := by
  induction slots generalizing s with
  | nil => exact h
  | cons slot' slots ih =>
    rw [ServiceResources.prepare]
    split
    · next hneeds =>
      have hne : slot' ≠ slot := by
        rintro rfl
        exact h (Option.isNone_iff_eq_none.mp (Bool.and_eq_true_iff.mp hneeds).1)
      split
      · exact h
      · exact ih (filled_create (fun heq => absurd heq hne) (.inr h))
    · exact ih h

theorem prepare_phase (setup : ServiceSetup) (fails : Slot → Option PyExc) (slots : List Slot)
    (s : ServiceResources) :
    (prepare setup fails slots s).2.isExiting = false
      ∧ ((prepare setup fails slots s).2 = .creatingPool → setup.wants .dbPool = true
        ∧ (prepare setup fails slots s).1.field .dbPool = none) := by
  induction slots generalizing s with
  | nil =>
    rw [ServiceResources.prepare]
    show (if _ then _ else _ : LifespanPhase).isExiting = false ∧ ((if _ then _ else _) = _ → _)
    split
    · next hneeds =>
      obtain ⟨hnone, hwants⟩ := Bool.and_eq_true_iff.mp hneeds
      exact ⟨rfl, fun _ => ⟨hwants, Option.isNone_iff_eq_none.mp hnone⟩⟩
    · exact ⟨rfl, fun h => by cases h⟩
  | cons slot' slots ih =>
    rw [ServiceResources.prepare]
    split
    · split
      · exact ⟨rfl, fun h => by cases h⟩
      · exact ih _
    · exact ih _

/-- The way out ends, or is still on its way. -/
theorem teardown_phase (slots : List Slot) (s : ServiceResources) :
    (teardown slots s).2 = .ended none ∨ (teardown slots s).2.isExiting = true := by
  induction slots with
  | nil => exact .inl rfl
  | cons slot' slots ih =>
    rw [ServiceResources.teardown]
    split
    · exact .inr rfl
    · exact ih

end ServiceResources

/-! ## The registration alone -/

namespace ServiceRegistration

variable (s : ServiceRegistration)

theorem isDeregistering_closeRegistry (pending : Option PyExc) :
    (s.closeRegistry pending).2.isDeregistering = true := by
  unfold closeRegistry
  split <;> rfl

theorem isDeregistering_deregisterSelf : s.deregisterSelf.2.isDeregistering = true := by
  unfold deregisterSelf
  split
  · exact isDeregistering_closeRegistry ..
  · split
    · exact isDeregistering_closeRegistry ..
    · rfl

theorem isDeregistering_stopRefresh : s.stopRefresh.2.isDeregistering = true := by
  unfold stopRefresh
  split
  · exact isDeregistering_closeRegistry ..
  · split
    · exact isDeregistering_deregisterSelf ..
    · rfl

theorem isDeregistering_stopHeartbeat (k : ℕ) :
    (s.stopHeartbeat k).2.isDeregistering = true := by
  unfold stopHeartbeat
  split
  · exact isDeregistering_stopRefresh ..
  · rfl

end ServiceRegistration

namespace McpService

/-! ## What no lifespan touches -/

/-- **A slot no lifespan of the service touches.** -/
structure Fixed (slot : Slot) (v : Option ℕ) (s : McpService) : Prop where
  resources : s.resources.Holds slot v
  notClosing : ∀ c rest, s.phase c ≠ .closing slot rest
  noPool : slot = .dbPool → ∀ c, s.phase c ≠ .creatingPool

section Fixed

variable {setup : ServiceSetup} {slot : Slot} {v : Option ℕ} {s s' : McpService} {c : ℕ}

/-- A lifespan moves on without touching the slot. -/
theorem Fixed.move (h : Fixed slot v s) (hother : ∀ d ≠ c, s'.phase d = s.phase d)
    (hresources : s'.resources.Holds slot v) (hclosing : ∀ rest, s'.phase c ≠ .closing slot rest)
    (hpool : slot = .dbPool → s'.phase c ≠ .creatingPool) : Fixed slot v s' := by
  exact
    { resources := hresources
      notClosing := forall_phase (P := fun p => ∀ rest, p ≠ .closing slot rest) h.notClosing
        hother hclosing
      noPool := fun hslot => forall_phase (P := fun p => p ≠ .creatingPool) (h.noPool hslot)
        hother (hpool hslot) }

/-- A lifespan that works on the registration does not touch the slot. -/
theorem Fixed.withRegistration (h : Fixed slot v s)
    {x : ServiceRegistration × LifespanPhase} (hclosing : ∀ rest, x.2 ≠ .closing slot rest)
    (hpool : x.2 ≠ .creatingPool) : Fixed slot v (s.withRegistration c x) := by
  refine h.move (fun d hd => withRegistration_phase_of_ne _ _ _ hd) h.resources
    (fun rest => ?_) fun _ => ?_
  · rw [withRegistration_phase_self]
    exact hclosing rest
  · rw [withRegistration_phase_self]
    exact hpool

/-- Nor does a step that deregisters, which touches the client of the registry
only. -/
theorem Fixed.deregister (h : Fixed slot v s) {x : ServiceRegistration × LifespanPhase}
    (hx : x.2.isDeregistering = true) : Fixed slot v (s.withRegistration c x) := by
  refine h.withRegistration (fun rest heq => ?_) fun heq => ?_
  · rw [heq] at hx
    cases hx
  · rw [heq] at hx
    cases hx

/-- Nor one that only moves to a phase without resources. -/
theorem Fixed.goto (h : Fixed slot v s) {p : LifespanPhase}
    (hclosing : ∀ rest, p ≠ .closing slot rest) (hpool : p ≠ .creatingPool) :
    Fixed slot v (s.goto c p) := by
  refine h.move (fun d hd => goto_phase_of_ne _ _ _ hd) h.resources (fun rest => ?_) fun _ => ?_
  · rw [goto_phase_self]
    exact hclosing rest
  · rw [goto_phase_self]
    exact hpool

/-- Nor does one on its way in: nothing is created over what is there, and where
nothing is there the setup of the service gives nothing. -/
theorem Fixed.prepare (h : Fixed slot v s)
    (hv : v = none → setup.wants slot = true → ∀ r, setup.creates slot r = none)
    (fails : Slot → Option PyExc) (slots : List Slot) (registration : ServiceRegistration) :
    Fixed slot v ({ s with registration := registration }.withResources c
      (s.resources.prepare setup fails slots)) := by
  obtain ⟨hphase, hpool⟩ := ServiceResources.prepare_phase setup fails slots s.resources
  refine h.move (fun d hd => withResources_phase_of_ne _ _ _ hd)
    (h.resources.prepare hv slots) (fun rest heq => ?_) fun hslot heq => ?_
  · rw [withResources_phase_self] at heq
    rw [heq] at hphase
    cases hphase
  · rw [withResources_phase_self] at heq
    obtain ⟨hwants, hnone⟩ := hpool heq
    subst hslot
    have hvnone : v = none := (h.resources.prepare hv slots).field ▸ hnone
    exact absurd (hv hvnone hwants 0) (by simp [ServiceSetup.creates])

/-- Nor one that closes what it owns. -/
theorem Fixed.teardown (h : Fixed slot v s) {resources : ServiceResources}
    (hresources : resources.Holds slot v) (slots : List Slot)
    (registration : ServiceRegistration) :
    Fixed slot v ({ s with registration := registration }.withResources c
      (resources.teardown slots)) := by
  obtain ⟨hholds, hclosing⟩ := hresources.teardown slots
  refine h.move (fun d hd => withResources_phase_of_ne _ _ _ hd) hholds (fun rest heq => ?_)
    fun _ heq => ?_
  · rw [withResources_phase_self] at heq
    exact hclosing rest heq
  · rw [withResources_phase_self] at heq
    rcases ServiceResources.teardown_phase slots resources with hp | hp
    · rw [heq] at hp
      cases hp
    · rw [heq] at hp
      cases hp

/-- **No step touches a slot that was injected, or that nothing fills.** -/
theorem fixed_step (hv : v = none → setup.wants slot = true → ∀ r, setup.creates slot r = none)
    {a : ServiceEvent} (h : Fixed slot v s) (hstep : step setup s a = some s') :
    Fixed slot v s' := by
  have hended : ∀ c exc, Fixed slot v (s.goto c (.ended exc)) :=
    fun _ _ => h.goto (fun _ heq => by cases heq) fun heq => by cases heq
  cases moves_of_step hstep with
  | @enter c fails hp =>
    unfold McpService.enter
    split
    · exact hended c _
    · exact h.prepare hv fails _ s.registration
    · exact h.withRegistration (fun _ heq => by cases heq) fun heq => by cases heq
  | @registered c k fails hp =>
    unfold McpService.registered
    split
    · exact hended c _
    · exact h.prepare hv fails _ _
  | poolCreated hp =>
    have hne : Slot.dbPool ≠ slot := fun heq => h.noPool heq.symm _ hp
    refine h.move (fun d hd => withResources_phase_of_ne _ _ _ hd)
      (h.resources.create_of_ne hne) (fun rest heq => ?_) fun _ heq => ?_
    · rw [withResources_phase_self] at heq
      cases heq
    · rw [withResources_phase_self] at heq
      cases heq
  | started hp => exact h.goto (fun _ heq => by cases heq) fun heq => by cases heq
  | exit hp => exact h.goto (fun _ heq => by cases heq) fun heq => by cases heq
  | @deregister c hp =>
    unfold McpService.deregister
    split
    · exact h.teardown h.resources _ s.registration
    · exact h.deregister (ServiceRegistration.isDeregistering_stopHeartbeat ..)
  | heartbeatEnded hp => exact h.deregister (ServiceRegistration.isDeregistering_stopRefresh ..)
  | refreshEnded hp =>
    exact h.deregister (ServiceRegistration.isDeregistering_deregisterSelf ..)
  | deleted hp => exact h.deregister (ServiceRegistration.isDeregistering_closeRegistry ..)
  | @deregistered c pending hp =>
    unfold McpService.deregistered
    split
    · next exc =>
      have hend : Fixed slot v (s.goto c (.ended (some exc))) := hended c _
      exact ⟨hend.resources, hend.notClosing, hend.noPool⟩
    · exact h.teardown h.resources _ _
  | @closed c slot' rest hp =>
    have hne : slot' ≠ slot := by
      rintro rfl
      exact h.notClosing _ _ hp
    exact h.teardown (h.resources.clear hne) rest s.registration
  | failed hregister hclose => exact hended _ _

end Fixed

/-! ## Lifespans one after the other -/

/-- **A step of lifespans that come one after the other**: none enters while
another leaves, none leaves while another is there, and no `aclose` raises. -/
def Serial (s : McpService) : ServiceEvent → Prop
  | .enter _ _ _ => ∀ d, (s.phase d).isExiting = false
  | .exit c => ∀ d ≠ c, (s.phase d).inProgress = false
  | .resumeClose _ (some _) => False
  | _ => True

/-- **The invariant of such lifespans.** A lifespan that leaves is alone; what
the fields hold is open, but for the one being closed; and a lifespan finds
what the service provides. -/
structure Tidy (setup : ServiceSetup) (s : McpService) : Prop where
  alone : ∀ c, (s.phase c).isExiting = true → ∀ d ≠ c, (s.phase d).inProgress = false
  sound : s.resources.Sound fun slot => ∃ c rest, s.phase c = .closing slot rest
  filled : ∀ c slot, setup.provides slot = true → (s.phase c).hasFilled slot = true →
    s.resources.field slot ≠ none

section Tidy

variable {setup : ServiceSetup} {s s' : McpService} {c : ℕ}

/-- What is on its way out is in progress. -/
theorem inProgress_of_isExiting {p : LifespanPhase} (h : p.isExiting = true) :
    p.inProgress = true := by
  cases p <;> first | rfl | cases h

/-- A lifespan that finds the resources is in progress and not on its way
out. -/
theorem hasFilled_imp {p : LifespanPhase} {slot : Slot} (h : p.hasFilled slot = true) :
    p.inProgress = true ∧ p.isExiting = false := by
  cases p <;> first | exact ⟨rfl, rfl⟩ | cases h

/-- Nobody leaves while a lifespan is on its way in or serves. -/
theorem Tidy.noExit (h : Tidy setup s) (hc : (s.phase c).inProgress = true)
    (hexit : (s.phase c).isExiting = false) (d : ℕ) : (s.phase d).isExiting = false := by
  by_cases hd : d = c
  · rw [hd]
    exact hexit
  · by_contra hne
    have hidle := h.alone d (Bool.not_eq_false _ ▸ hne) c (Ne.symm hd)
    rw [hc] at hidle
    cases hidle

/-- Only the lifespan that leaves is at a resource. -/
theorem Tidy.eq_of_closing (h : Tidy setup s) (hc : (s.phase c).isExiting = true) {d : ℕ}
    {slot : Slot} {rest : List Slot} (hd : s.phase d = .closing slot rest) : d = c := by
  by_contra hdc
  have hidle := h.alone c hc d hdc
  rw [hd] at hidle
  cases hidle

/-- Where nobody leaves, nothing is being closed. -/
theorem Tidy.sound_of_noExit (h : Tidy setup s) (hnone : ∀ d, (s.phase d).isExiting = false) :
    s.resources.Sound fun _ => False := by
  refine h.sound.mono fun slot => ?_
  rintro ⟨d, rest, hd⟩
  have hexit := hnone d
  rw [hd] at hexit
  cases hexit

/-- **One step further in**, where nobody leaves: what the lifespan has filled
so far is there and open. -/
theorem Tidy.advance (h : Tidy setup s) (hnone : ∀ d, (s.phase d).isExiting = false)
    (hother : ∀ d ≠ c, s'.phase d = s.phase d) (hexit : (s'.phase c).isExiting = false)
    (hsound : s'.resources.Sound fun _ => False)
    (hkeep : ∀ slot, s.resources.field slot ≠ none → s'.resources.field slot ≠ none)
    (hfilled : ∀ slot, setup.provides slot = true → (s'.phase c).hasFilled slot = true →
      s'.resources.field slot ≠ none) : Tidy setup s' := by
  have hnone' : ∀ d, (s'.phase d).isExiting = false :=
    forall_phase (P := fun p => p.isExiting = false) hnone hother hexit
  refine ⟨fun d hd => ?_, hsound.mono fun _ => False.elim, fun d slot hprovides hslot => ?_⟩
  · rw [hnone' d] at hd
    cases hd
  · by_cases hd : d = c
    · subst hd
      exact hfilled slot hprovides hslot
    · rw [hother d hd] at hslot
      exact hkeep slot (h.filled d slot hprovides hslot)

/-- **One step further out.** The lifespan on its way out goes on with it while
all others stay where they are. -/
theorem Tidy.leave (h : Tidy setup s) (hc : (s.phase c).isExiting = true)
    (hother : ∀ d ≠ c, s'.phase d = s.phase d) (hleft : (s'.phase c).isLeft = true)
    (hsound : s'.resources.Sound fun slot => ∃ rest, s'.phase c = .closing slot rest) :
    Tidy setup s' := by
  have hidle : ∀ d ≠ c, (s'.phase d).inProgress = false := by
    intro d hd
    rw [hother d hd]
    exact h.alone c hc d hd
  refine ⟨fun d hd e he => ?_, hsound.mono fun slot ⟨rest, hrest⟩ => ⟨c, rest, hrest⟩,
    fun d slot _ hslot => ?_⟩
  · by_cases hdc : d = c
    · subst hdc
      exact hidle e he
    · have hbusy := inProgress_of_isExiting hd
      rw [hidle d hdc] at hbusy
      cases hbusy
  · obtain ⟨hprogress, hexit⟩ := hasFilled_imp hslot
    by_cases hd : d = c
    · subst hd
      rw [LifespanPhase.isLeft, hexit, hprogress] at hleft
      cases hleft
    · rw [hidle d hd] at hprogress
      cases hprogress

/-- A lifespan that is not at a resource may fail. -/
theorem Tidy.fail (h : Tidy setup s) (hc : ∀ slot rest, s.phase c ≠ .closing slot rest)
    (exc : Option PyExc) : Tidy setup (s.goto c (.ended exc)) := by
  refine ⟨fun d hd e he => ?_, h.sound.mono fun slot => ?_, fun d slot hprovides hslot => ?_⟩
  · by_cases hdc : d = c
    · rw [hdc, goto_phase_self] at hd
      cases hd
    · rw [goto_phase_of_ne _ _ _ hdc] at hd
      by_cases hec : e = c
      · rw [hec, goto_phase_self]
        rfl
      · rw [goto_phase_of_ne _ _ _ hec]
        exact h.alone d hd e he
  · rintro ⟨d, rest, hd⟩
    have hdc : d ≠ c := by
      rintro rfl
      exact hc slot rest hd
    exact ⟨d, rest, by rw [goto_phase_of_ne _ _ _ hdc]; exact hd⟩
  · by_cases hdc : d = c
    · rw [hdc, goto_phase_self] at hslot
      cases hslot
    · rw [goto_phase_of_ne _ _ _ hdc] at hslot
      exact h.filled d slot hprovides hslot

/-- The way in, while no other lifespan is on its way out: it finds each
resource open, or creates it. -/
theorem Tidy.prepare (h : Tidy setup s) (hnone : ∀ d, (s.phase d).isExiting = false)
    (fails : Slot → Option PyExc) (registration : ServiceRegistration) :
    Tidy setup ({ s with registration := registration }.withResources c
      (s.resources.prepare setup fails ServiceResources.constructed)) := by
  have hall : ∀ slot : Slot, slot ∈ ServiceResources.constructed ∨ slot = .dbPool := by
    intro slot
    cases slot <;> decide
  refine h.advance (c := c) hnone (fun d hd => withResources_phase_of_ne _ _ _ hd) ?_
    ((h.sound_of_noExit hnone).prepare _)
    (fun slot hslot => ServiceResources.filled_prepare_of_filled hslot _)
    fun slot hprovides hslot => ?_
  · rw [withResources_phase_self]
    exact (ServiceResources.prepare_phase ..).1
  · rw [withResources_phase_self] at hslot
    exact ServiceResources.filled_prepare hprovides _ ((hall slot).imp_right .inl) hslot

/-- The way out, at the resources: those the service owns are closed and cleared
one after the other. -/
theorem Tidy.teardown (h : Tidy setup s) (hc : (s.phase c).isExiting = true)
    {resources : ServiceResources} (hsound : resources.Sound fun _ => False)
    (slots : List Slot) (registration : ServiceRegistration) :
    Tidy setup ({ s with registration := registration }.withResources c
      (resources.teardown slots)) := by
  refine h.leave hc (fun d hd => withResources_phase_of_ne _ _ _ hd) ?_ ?_
  · rw [withResources_phase_self, LifespanPhase.isLeft]
    rcases ServiceResources.teardown_phase slots resources with hp | hp
    · rw [hp]
      rfl
    · rw [hp]
      rfl
  · rw [withResources_phase_self]
    exact hsound.teardown slots

/-- The way out, at the registration, where no resource has been closed yet. -/
theorem Tidy.deregister (h : Tidy setup s) (hc : (s.phase c).isExiting = true)
    (hclosing : ∀ slot rest, s.phase c ≠ .closing slot rest)
    {x : ServiceRegistration × LifespanPhase} (hx : x.2.isDeregistering = true) :
    Tidy setup (s.withRegistration c x) := by
  refine h.leave hc (fun d hd => withRegistration_phase_of_ne _ _ _ hd) ?_ ?_
  · rw [withRegistration_phase_self]
    cases hp : x.2 <;> rw [hp] at hx <;> first | rfl | cases hx
  · refine h.sound.mono fun slot => ?_
    rintro ⟨d, rest, hd⟩
    obtain rfl := h.eq_of_closing hc hd
    exact absurd hd (hclosing slot rest)

/-- **Every step of lifespans that come one after the other is tidy.** -/
theorem tidy_step {a : ServiceEvent} (h : Tidy setup s) (ha : Serial s a)
    (hstep : step setup s a = some s') : Tidy setup s' := by
  -- a lifespan on its way out and not at a resource leaves the resources sound
  have hquiet : ∀ {c p}, s.phase c = p → p.isExiting = true →
      (∀ slot rest, p ≠ .closing slot rest) →
      s.resources.Sound fun _ => False := by
    intro c p hp hexit hclosing
    refine h.sound.mono fun slot => ?_
    rintro ⟨d, rest, hd⟩
    obtain rfl := h.eq_of_closing (c := c) (hp ▸ hexit) hd
    exact hclosing slot rest (hp.symm.trans hd)
  cases moves_of_step hstep with
  | @enter c fails hp =>
    unfold McpService.enter
    split
    · exact h.fail (by simp [hp]) _
    · exact h.prepare ha fails s.registration
    · refine h.advance ha (fun d hd => withRegistration_phase_of_ne _ _ _ hd) ?_
        (h.sound_of_noExit ha) (fun _ => id) fun slot _ hslot => ?_
      · rw [withRegistration_phase_self]
        rfl
      · rw [withRegistration_phase_self] at hslot
        cases hslot
  | @registered c k fails hp =>
    have hnone := h.noExit (c := c) (by rw [hp]; rfl) (by rw [hp]; rfl)
    unfold McpService.registered
    split
    · exact h.fail (by simp [hp]) _
    · exact h.prepare hnone fails _
  | @poolCreated c hp =>
    have hnone := h.noExit (c := c) (by rw [hp]; rfl) (by rw [hp]; rfl)
    have hfill : ∀ slot, s.resources.field slot ≠ none →
        (s.resources.create setup .dbPool).field slot ≠ none :=
      fun slot hslot => ServiceResources.filled_create (fun heq => heq ▸ rfl) (.inr hslot)
    refine h.advance (c := c) hnone (fun d hd => withResources_phase_of_ne _ _ _ hd) ?_
      ((h.sound_of_noExit hnone).create setup .dbPool) hfill fun slot hprovides _ => ?_
    · rw [withResources_phase_self]
      rfl
    · by_cases hslot : slot = .dbPool
      · exact ServiceResources.filled_create (fun heq => heq ▸ rfl) (.inl hslot.symm)
      · refine hfill slot (h.filled c slot hprovides ?_)
        rw [hp]
        exact decide_eq_true hslot
  | @started c hp =>
    have hnone := h.noExit (c := c) (by rw [hp]; rfl) (by rw [hp]; rfl)
    refine h.advance hnone (fun d hd => goto_phase_of_ne _ _ _ hd) ?_ (h.sound_of_noExit hnone)
      (fun _ => id) fun slot hprovides _ => h.filled c slot hprovides ?_
    · rw [goto_phase_self]
      rfl
    · rw [hp]
      rfl
  | @exit c hp =>
    -- the one step that starts an exit, and the condition makes the lifespan alone
    have hnone := h.noExit (c := c) (by rw [hp]; rfl) (by rw [hp]; rfl)
    refine ⟨fun d hd e he => ?_, (h.sound_of_noExit hnone).mono fun _ => False.elim,
      fun d slot hprovides hslot => ?_⟩
    · by_cases hdc : d = c
      · subst hdc
        rw [goto_phase_of_ne _ _ _ he]
        exact ha e he
      · rw [goto_phase_of_ne _ _ _ hdc, hnone d] at hd
        cases hd
    · by_cases hdc : d = c
      · rw [hdc, goto_phase_self] at hslot
        cases hslot
      · rw [goto_phase_of_ne _ _ _ hdc] at hslot
        exact h.filled d slot hprovides hslot
  | @deregister c hp =>
    unfold McpService.deregister
    split
    · exact h.teardown (by rw [hp]; rfl) (hquiet hp rfl (by simp)) _ s.registration
    · exact h.deregister (by rw [hp]; rfl) (by simp [hp])
        (ServiceRegistration.isDeregistering_stopHeartbeat ..)
  | heartbeatEnded hp =>
    exact h.deregister (by rw [hp]; rfl) (by simp [hp])
      (ServiceRegistration.isDeregistering_stopRefresh ..)
  | refreshEnded hp =>
    exact h.deregister (by rw [hp]; rfl) (by simp [hp])
      (ServiceRegistration.isDeregistering_deregisterSelf ..)
  | deleted hp =>
    exact h.deregister (by rw [hp]; rfl) (by simp [hp])
      (ServiceRegistration.isDeregistering_closeRegistry ..)
  | @deregistered c pending hp =>
    unfold McpService.deregistered
    split
    · next exc =>
      have hend : Tidy setup (s.goto c (.ended (some exc))) := h.fail (by simp [hp]) _
      exact ⟨hend.alone, hend.sound, hend.filled⟩
    · exact h.teardown (by rw [hp]; rfl) (hquiet hp rfl (by simp)) _ _
  | @closed c slot rest hp =>
    -- only this lifespan is at a resource, so that no other slot holds a closed one
    have hexit : (s.phase c).isExiting = true := by rw [hp]; rfl
    refine h.teardown hexit (ServiceResources.Sound.clear ?_) rest s.registration
    refine h.sound.mono fun slot' => ?_
    rintro ⟨d, rest', hd⟩
    obtain rfl := h.eq_of_closing hexit hd
    exact (LifespanPhase.closing.inj (hp.symm.trans hd)).1.symm
  | @failed a c exc hregister hclose =>
    refine h.fail (fun slot rest hp => ?_) _
    rw [hclose slot rest hp] at ha
    exact ha

end Tidy

/-! ## What a lifespan can rely on -/

/-- A resource the service has: injected, or provided by its lifespans. -/
def configured (setup : ServiceSetup) (injected : Slot → Bool) (slot : Slot) : Bool :=
  injected slot || setup.provides slot

/-- **What is open is there**: between its `yield` and the start of its exit a
lifespan gets every resource of the service, and none that has been closed. -/
def Available (setup : ServiceSetup) (injected : Slot → Bool) (s : McpService) : Prop :=
  ∀ c, s.phase c = .serving → ∀ slot, configured setup injected slot = true →
    ∃ r, s.resources.get slot = .ok r ∧ (slot, r) ∉ s.resources.closed

/-- **The last one closes**: while a lifespan closes a resource, no other one
is in progress. -/
def ClosesAlone (s : McpService) : Prop :=
  ∀ c slot rest, s.phase c = .closing slot rest → ∀ d ≠ c, (s.phase d).inProgress = false

/-- Every resource of the service was injected. -/
def AllInjected (setup : ServiceSetup) (injected : Slot → Bool) : Prop :=
  ∀ slot, configured setup injected slot = true → injected slot = true

section Safety

variable {setup : ServiceSetup} {injected : Slot → Bool} {t : McpService}

/-- A property of the service returns what its field holds. -/
theorem get_of_field {s : ServiceResources} {slot : Slot} {r : ℕ} (h : s.field slot = some r) :
    s.get slot = .ok r := by
  cases slot with
  | authorizer => rw [ServiceResources.get, ServiceResources.authorizer, h]; rfl
  | cache => rw [ServiceResources.get, ServiceResources.cache, h]; rfl
  | dbPool => rw [ServiceResources.get, ServiceResources.dbPool, h]; rfl

/-- An injected resource stays where it is, in every run. -/
theorem fixed_of_injected {slot : Slot} (hslot : injected slot = true) {as : List ServiceEvent}
    (hrun : (machine setup).run (init injected) as = some t) : Fixed slot (some 0) t := by
  refine (machine setup).run_invariant
    (fun _ _ _ h hstep => fixed_step (fun hv => absurd hv (Option.some_ne_none 0)) h hstep) ?_ hrun
  refine ⟨⟨?_, fun _ => rfl, fun _ => List.not_mem_nil⟩, (fun _ _ h => by cases h),
    (fun _ _ h => by cases h)⟩
  show (if injected slot then some 0 else none) = some 0
  rw [if_pos hslot]

/-- A slot the service has no resource for stays empty, in every run. -/
theorem fixed_of_not_configured {slot : Slot} (hslot : ¬ configured setup injected slot = true)
    {as : List ServiceEvent} (hrun : (machine setup).run (init injected) as = some t) :
    Fixed slot none t := by
  have hnone : setup.wants slot = true → ∀ r, setup.creates slot r = none := by
    intro hwants r
    by_contra hne
    refine hslot (Bool.or_eq_true_iff.mpr (.inr (Bool.and_eq_true_iff.mpr ⟨hwants, ?_⟩)))
    rw [setup.isSome_creates slot 0 r]
    exact Option.isSome_iff_ne_none.mpr hne
  refine (machine setup).run_invariant
    (fun _ _ _ h hstep => fixed_step (fun _ => hnone) h hstep) ?_ hrun
  refine ⟨⟨?_, fun h => absurd rfl h, fun _ => List.not_mem_nil⟩, (fun _ _ h => by cases h),
    (fun _ _ h => by cases h)⟩
  show (if injected slot then some 0 else none) = none
  exact if_neg fun h => hslot (Bool.or_eq_true_iff.mpr (.inl h))

/-- **An injected resource is available in every run**: no lifespan owns it, so
none closes it. -/
theorem available_of_injected {slot : Slot} (hslot : injected slot = true)
    {as : List ServiceEvent} (hrun : (machine setup).run (init injected) as = some t) :
    ∃ r, t.resources.get slot = .ok r ∧ (slot, r) ∉ t.resources.closed := by
  have h := (fixed_of_injected hslot hrun).resources
  exact ⟨0, get_of_field h.field, h.unclosed 0⟩

theorem tidy_init : Tidy setup (init injected) := by
  have hfield : ∀ slot r, (init injected).resources.field slot = some r → r = 0 := by
    intro slot r h
    by_cases hslot : injected slot = true
    · rw [show (init injected).resources.field slot = some 0 from if_pos hslot] at h
      exact (Option.some.inj h).symm
    · rw [show (init injected).resources.field slot = none from if_neg hslot] at h
      cases h
  have hsound : (init injected).resources.Sound fun _ => False :=
    { field := fun slot r h => (hfield slot r h).symm ▸ Nat.one_pos
      closed := fun _ _ h => absurd h List.not_mem_nil
      unclosed := fun _ _ _ h => absurd h List.not_mem_nil }
  exact
    { alone := fun _ h => Bool.noConfusion h
      sound := hsound.mono fun _ => False.elim
      filled := fun _ _ _ h => Bool.noConfusion h }

/-- In a tidy state what is provided is available. -/
theorem Tidy.available (h : Tidy setup t) {c : ℕ} (hc : t.phase c = .serving) {slot : Slot}
    (hslot : setup.provides slot = true) :
    ∃ r, t.resources.get slot = .ok r ∧ (slot, r) ∉ t.resources.closed := by
  have hnone := h.noExit (c := c) (by rw [hc]; rfl) (by rw [hc]; rfl)
  obtain ⟨r, hr⟩ := Option.ne_none_iff_exists'.mp (h.filled c slot hslot (by rw [hc]; rfl))
  exact ⟨r, get_of_field hr, (h.sound_of_noExit hnone).unclosed slot r hr⟩

/-- **When the resources are safe.** In every run of lifespans that come one
after the other, and whose `aclose`s do not raise – and in every run at all if
the resources of the service were all injected –, a lifespan that is open has
every resource and finds it open, and one that closes a resource is the only
one in progress. -/
theorem lifespan_safe (setup : ServiceSetup) (injected : Slot → Bool) (as : List ServiceEvent)
    (t : McpService)
    (has : (machine setup).Along (fun s a => AllInjected setup injected ∨ Serial s a)
      (init injected) as)
    (hrun : (machine setup).run (init injected) as = some t) :
    Available setup injected t ∧ ClosesAlone t := by
  by_cases hall : AllInjected setup injected
  · -- no slot is ever closed: it was injected, or there is nothing in it
    refine ⟨fun c _ slot hslot => available_of_injected (hall slot hslot) hrun,
      fun c slot rest hc => ?_⟩
    by_cases hslot : configured setup injected slot = true
    · exact absurd hc ((fixed_of_injected (hall slot hslot) hrun).notClosing c rest)
    · exact absurd hc ((fixed_of_not_configured hslot hrun).notClosing c rest)
  · have htidy : Tidy setup t := (machine setup).run_invariant_along
      (fun _ _ _ h ha hstep => tidy_step h (ha.resolve_left hall) hstep) tidy_init has hrun
    refine ⟨fun c hc slot hslot => ?_, fun c slot rest hc => htidy.alone c (by rw [hc]; rfl)⟩
    rcases Bool.or_eq_true_iff.mp hslot with hinjected | hprovides
    · exact available_of_injected hinjected hrun
    · exact htidy.available hc hprovides

end Safety

/-! ## Two connections -/

/-- A service with an authorizer of its own, and nothing else. -/
def authorizerSetup : ServiceSetup where
  config := { environment := .dev, enableToolCache := false }
  requiresDatabase := false
  redisInstalled := false

/-- An unregistered connection opens, up to the point where it serves. -/
def entering (c : ℕ) : List ServiceEvent := [.enter c none noFailures, .resumeStartup c none]

/-- A connection leaves: its `on_shutdown` returns, and its `aclose` is on the
way. -/
def leaving (c : ℕ) : List ServiceEvent := [.exit c, .resumeShutdown c none]

/-- **Of two connections, the one that leaves takes the authorizer from the
one that stays**: it closes it while the other is open, and then the property
raises. -/
theorem not_lifespan_safe :
    (∃ t, (machine authorizerSetup).run (init fun _ => false)
        (entering 0 ++ entering 1 ++ leaving 0) = some t
      ∧ ¬ Available authorizerSetup (fun _ => false) t ∧ ¬ ClosesAlone t)
    ∧ ∃ t, (machine authorizerSetup).run (init fun _ => false)
        (entering 0 ++ entering 1 ++ leaving 0 ++ [.resumeClose 0 none]) = some t
      ∧ t.phase 1 = .serving
      ∧ t.resources.authorizer = .error (ServiceResources.notAvailable "Authorizer") := by
  refine ⟨⟨_, rfl, fun h => ?_, fun h => ?_⟩, _, rfl, rfl, rfl⟩
  · obtain ⟨r, hr, hopen⟩ := h 1 rfl .authorizer rfl
    cases hr
    exact hopen List.mem_cons_self
  · have hidle := h 0 .authorizer _ rfl 1 (by decide)
    cases hidle

/-- One connection after the other finds its authorizer, which each creates and
closes for itself. -/
theorem lifespan_safe_in_turn :
    ∃ t, (machine authorizerSetup).run (init fun _ => false)
        (entering 0 ++ leaving 0 ++ [.resumeClose 0 none] ++ entering 1) = some t
      ∧ t.phase 1 = .serving ∧ Available authorizerSetup (fun _ => false) t := by
  refine ⟨_, rfl, rfl, (lifespan_safe authorizerSetup (fun _ => false)
    (entering 0 ++ leaving 0 ++ [.resumeClose 0 none] ++ entering 1) _ ?_ rfl).1⟩
  have hothers : ∀ (p : ℕ → LifespanPhase), (∀ d, p (d + 1) = .notEntered) →
      ∀ d ≠ 0, (p d).inProgress = false := by
    intro p hp d hd
    obtain ⟨d', rfl⟩ := Nat.exists_eq_succ_of_ne_zero hd
    rw [hp d']
    rfl
  refine ⟨.inr fun _ => rfl, fun s h => ?_⟩
  obtain rfl := Option.some.inj h
  refine ⟨.inr trivial, fun s h => ?_⟩
  obtain rfl := Option.some.inj h
  refine ⟨.inr (hothers _ fun _ => rfl), fun s h => ?_⟩
  obtain rfl := Option.some.inj h
  refine ⟨.inr trivial, fun s h => ?_⟩
  obtain rfl := Option.some.inj h
  refine ⟨.inr trivial, fun s h => ?_⟩
  obtain rfl := Option.some.inj h
  refine ⟨.inr fun d => ?_, fun s h => ?_⟩
  · cases d <;> rfl
  obtain rfl := Option.some.inj h
  exact ⟨.inr trivial, fun _ _ => trivial⟩

end McpService
