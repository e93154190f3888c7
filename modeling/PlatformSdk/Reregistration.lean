import PlatformSdk.Heartbeat

/-!
# A registry that forgets

A registry that restarts, or evicts a service, knows nothing of a client that
goes on sending heartbeats, and answers them with 404. To be found again the
service has to be registered again; the loop, however, treats 404 as any other
status: it logs it and sleeps.

`reregisters_exact` says what follows. A client that is never answered 404 has
nothing to do, and one whose loop is answered 404 sends its next heartbeat
without a registration, unless somebody else calls `register_self` in the
meantime. With a registry that knows every live loop the first is the case
(`reregisters_of_remembers`).
-/

namespace HeartbeatState

/-- **Re-registration**: between the answer 404 to a heartbeat and the next
heartbeat there is a `POST /api/services`. -/
def Reregisters (wire : List WireEntry) : Prop :=
  ∀ pre mid post name name',
    wire = pre ++ .answered name 404 :: (mid ++ .heartbeat name' :: post) →
    ∃ n, .register n ∈ mid

/-- What an event puts on the wire. -/
def entries (s : HeartbeatState) : HeartbeatEvent → List WireEntry
  | .beat task => ((s.loops task).map fun l => .heartbeat l.name).toList
  | .answer task (.ok status) => ((s.loops task).map fun l => .answered l.name status).toList
  | .register name => [.register name]
  | _ => []

variable {s s' t : HeartbeatState} {a : HeartbeatEvent} {as : List HeartbeatEvent}

/-- **The wire only grows**, by what the events put on it. -/
theorem wire_step (h : step s a = some s') : s'.wire = s.wire ++ s.entries a := by
  cases moves_of_step h with
  | beat hl _ =>
    rw [entries, hl]
    rfl
  | answer hl _ _ =>
    rw [entries, hl]
    rfl
  | register name => rfl
  | started | start _ | stopNothing | stop _ _ | stopDone _ _ _ | resumeStop | noAnswer _ _
  | endCancelled _ _ | learn _ | forget _ => exact (List.append_nil _).symm

/-- **Who writes what on the wire**: a beat a heartbeat, an answer itself, and
`register_self` a registration. -/
theorem mem_entries_cases {e : WireEntry} (h : e ∈ s.entries a) :
    (∃ name, e = .heartbeat name)
      ∨ (∃ task name status, a = .answer task (.ok status) ∧ e = .answered name status)
      ∨ ∃ name, a = .register name ∧ e = .register name := by
  cases a with
  | beat task =>
    obtain ⟨l, -, rfl⟩ := Option.map_eq_some_iff.mp (Option.mem_toList.mp h)
    exact .inl ⟨l.name, rfl⟩
  | answer task reply =>
    cases reply with
    | error exc => exact absurd h List.not_mem_nil
    | ok status =>
      obtain ⟨l, -, rfl⟩ := Option.map_eq_some_iff.mp (Option.mem_toList.mp h)
      exact .inr (.inl ⟨task, l.name, status, rfl, rfl⟩)
  | register name => exact .inr (.inr ⟨name, rfl, List.mem_singleton.mp h⟩)
  | start _ _ | stop _ | resumeStop _ | endCancelled _ | learn _ | forget _ =>
    exact absurd h List.not_mem_nil

/-- Only a call of `register_self` registers a name, so an entry that says so
tells which event it was. -/
theorem eq_register_of_mem {name : String} (h : .register name ∈ s.entries a) :
    a = .register name := by
  obtain ⟨_, heq⟩ | ⟨_, _, _, -, heq⟩ | ⟨name', rfl, heq⟩ := mem_entries_cases h
  · cases heq
  · cases heq
  · rw [WireEntry.register.inj heq]

/-- Only an answer to a heartbeat says that one was answered, and with which
status. -/
theorem eq_answer_of_mem {name : String} {status : ℕ}
    (h : .answered name status ∈ s.entries a) : ∃ task, a = .answer task (.ok status) := by
  obtain ⟨_, heq⟩ | ⟨task, _, _, rfl, heq⟩ | ⟨_, -, heq⟩ := mem_entries_cases h
  · cases heq
  · exact ⟨task, by rw [(WireEntry.answered.inj heq).2]⟩
  · cases heq

/-! ## A client that is never answered 404 -/

/-- What was never answered is not on the wire. -/
theorem answered_notMem_of_run (has : ∀ task, .answer task (.ok 404) ∉ as)
    (hrun : machine.run {} as = some t) (name : String) : .answered name 404 ∉ t.wire := by
  have hinv : ∀ s a s', .answered name 404 ∉ s.wire → (∀ task, a ≠ .answer task (.ok 404)) →
      machine.step s a = some s' → .answered name 404 ∉ s'.wire := by
    intro s a s' hs ha hstep hmem
    rw [wire_step hstep] at hmem
    rcases List.mem_append.mp hmem with hmem | hmem
    · exact hs hmem
    · obtain ⟨task, rfl⟩ := eq_answer_of_mem hmem
      exact ha task rfl
  refine machine.run_invariant_of_forall hinv List.not_mem_nil ?_ hrun
  rintro a ha task rfl
  exact has task ha

/-- **Where no heartbeat is answered 404** there is nothing to register
again. -/
theorem reregisters_of_notMem {wire : List WireEntry}
    (h : ∀ name, .answered name 404 ∉ wire) : Reregisters wire := by
  intro pre mid post name name' hwire
  refine absurd ?_ (h name)
  rw [hwire]
  exact List.mem_append_right _ List.mem_cons_self

/-! ## A client that is -/

/-- **What a run puts on the wire** comes behind what was there, and registers
what the calls of `register_self` register. -/
theorem wire_of_run (hrun : machine.run s as = some t) :
    ∃ mid, t.wire = s.wire ++ mid ∧ ∀ name, .register name ∈ mid → .register name ∈ as := by
  induction as generalizing s with
  | nil =>
    exact ⟨[], Option.some.inj hrun ▸ (List.append_nil _).symm,
      fun _ h => absurd h List.not_mem_nil⟩
  | cons a as ih =>
    obtain ⟨s', hstep, hrest⟩ := machine.run_cons_eq_some.mp hrun
    obtain ⟨mid, hmid, hregister⟩ := ih hrest
    refine ⟨s.entries a ++ mid, ?_, fun name h => ?_⟩
    · rw [hmid, wire_step hstep, List.append_assoc]
    · rcases List.mem_append.mp h with h | h
      · exact eq_register_of_mem h ▸ List.mem_cons_self
      · exact List.mem_cons_of_mem a (hregister name h)

/-- A loop that moves exists, and what it puts on the wire bears its name. -/
theorem wire_beat {task : ℕ} (h : step s (.beat task) = some s') :
    ∃ name, s'.wire = s.wire ++ [.heartbeat name] := by
  have hwire := wire_step h
  cases hl : s.loops task with
  | none =>
    simp only [step, hl] at h
    cases h
  | some l =>
    rw [entries, hl] at hwire
    exact ⟨l.name, hwire⟩

theorem wire_answer {task status : ℕ} (h : step s (.answer task (.ok status)) = some s') :
    ∃ name, s'.wire = s.wire ++ [.answered name status] := by
  have hwire := wire_step h
  cases hl : s.loops task with
  | none =>
    simp only [step, hl] at h
    cases h
  | some l =>
    rw [entries, hl] at hwire
    exact ⟨l.name, hwire⟩

/-- **A loop that is answered 404 goes on without a registration.** -/
theorem not_reregisters_of_run {pre bs post : List HeartbeatEvent} {task task' : ℕ}
    (hbs : ∀ name, .register name ∉ bs)
    (hrun : machine.run s (pre ++ .answer task (.ok 404) :: (bs ++ .beat task' :: post))
      = some t) : ¬ Reregisters t.wire := by
  rw [Machine.run_append, Option.bind_eq_some_iff] at hrun
  obtain ⟨s₁, -, hrun⟩ := hrun
  obtain ⟨s₂, h404, hrun⟩ := machine.run_cons_eq_some.mp hrun
  rw [Machine.run_append, Option.bind_eq_some_iff] at hrun
  obtain ⟨s₃, hmid, hrun⟩ := hrun
  obtain ⟨s₄, hbeat, hpost⟩ := machine.run_cons_eq_some.mp hrun
  obtain ⟨name, h₂⟩ := wire_answer h404
  obtain ⟨mid, h₃, hregister⟩ := wire_of_run hmid
  obtain ⟨name', h₄⟩ := wire_beat hbeat
  obtain ⟨rest, ht, -⟩ := wire_of_run hpost
  have hwire : t.wire = s₁.wire ++ .answered name 404 :: (mid ++ .heartbeat name' :: rest) := by
    rw [ht, h₄, h₃, h₂]
    simp only [List.append_assoc, List.cons_append, List.nil_append]
  intro h
  obtain ⟨n, hn⟩ := h _ _ _ _ _ hwire
  exact hbs n (hregister n hn)

/-- **When a client re-registers**: in every run in which no heartbeat is
answered 404; and in no run in which one is and another heartbeat follows,
unless somebody has called `register_self` between the two. -/
theorem reregisters_exact (hrun : machine.run {} as = some t) :
    ((∀ task, .answer task (.ok 404) ∉ as) → Reregisters t.wire)
      ∧ ∀ pre bs post task task',
        as = pre ++ .answer task (.ok 404) :: (bs ++ .beat task' :: post) →
        (∀ name, .register name ∉ bs) → ¬ Reregisters t.wire := by
  refine ⟨fun has => reregisters_of_notMem (answered_notMem_of_run has hrun), ?_⟩
  rintro pre bs post task task' rfl hbs
  exact not_reregisters_of_run hbs hrun

/-- A registered service sends two heartbeats, and stops. -/
def twoBeats : List HeartbeatEvent :=
  [.register "inventory", .learn "inventory", .start 0 "inventory", .beat 0,
    .answer 0 (.ok 200), .beat 0, .answer 0 (.ok 200), .stop 0, .endCancelled 0, .resumeStop 0]

/-- The registry restarts between two heartbeats. -/
def restartedRegistry : List HeartbeatEvent :=
  [.register "inventory", .learn "inventory", .start 0 "inventory", .beat 0,
    .answer 0 (.ok 200), .forget "inventory", .beat 0, .answer 0 (.ok 404), .beat 0]

theorem reregisters_exact_twoBeats :
    ∃ t, machine.run {} twoBeats = some t ∧ Reregisters t.wire := by
  have hrun : machine.run {} twoBeats = some _ := rfl
  refine ⟨_, hrun, (reregisters_exact hrun).1 fun task h => ?_⟩
  simp [twoBeats] at h

/-- **After a restart of the registry** the loop sends heartbeats for a name
the registry does not know. -/
theorem not_reregisters :
    ∃ t, machine.run {} restartedRegistry = some t ∧ ¬ Reregisters t.wire := by
  refine ⟨_, rfl, fun h => ?_⟩
  obtain ⟨n, hn⟩ := h [.register "inventory", .heartbeat "inventory",
    .answered "inventory" 200, .heartbeat "inventory"] [] [] "inventory" "inventory" rfl
  exact List.not_mem_nil hn

/-! ## A registry that remembers -/

/-- The registry knows the name of every loop that is alive. -/
def KnowsLoops (s : HeartbeatState) : Prop :=
  ∀ task l, s.loops task = some l → l.isAlive = true → s.known l.name = true

/-- A heartbeat is started for a name the registry knows, and no name of a
live loop is forgotten. -/
def Remembers (s : HeartbeatState) : HeartbeatEvent → Prop
  | .start _ name => s.known name = true
  | .forget name => ∀ task l, s.loops task = some l → l.isAlive = true → l.name ≠ name
  | _ => True

/-- A loop whose name the registry knows may take the place of another, or be
new. -/
theorem KnowsLoops.setLoop (h : s.KnowsLoops) {task : ℕ} {l : HeartbeatLoop}
    (hl : s.known l.name = true) : (s.setLoop task l).KnowsLoops :=
  (Function.forall_update_iff s.loops fun _ o => ∀ l', o = some l' → l'.isAlive = true →
    s.known l'.name = true).mpr
    ⟨fun _ hl' _ => Option.some.inj hl' ▸ hl, fun task' _ => h task'⟩

/-- A loop that is alive keeps its name. -/
theorem KnowsLoops.setLoop_of_alive (h : s.KnowsLoops) {task : ℕ} {l l' : HeartbeatLoop}
    (hl : s.loops task = some l) (hlive : l.isAlive = true) (hname : l'.name = l.name) :
    (s.setLoop task l').KnowsLoops :=
  h.setLoop (hname ▸ h task l hl hlive)

/-- **A registry that remembers knows every live loop**: a loop is made behind a
registration, and nothing is forgotten. -/
theorem knowsLoops_step (h : s.KnowsLoops) (ha : s.Remembers a) (hstep : step s a = some s') :
    s'.KnowsLoops := by
  cases moves_of_step hstep with
  | start _ => exact h.setLoop ha
  | stop hl hlive => exact h.setLoop_of_alive hl hlive rfl
  | beat hl hlive => exact h.setLoop_of_alive hl hlive rfl
  | noAnswer hl hlive => exact h.setLoop_of_alive hl hlive rfl
  | answer hl hlive _ => exact h.setLoop_of_alive hl hlive rfl
  | endCancelled hl hlive => exact h.setLoop_of_alive hl hlive rfl
  | learn name =>
    intro task l hl halive
    show Function.update s.known name true l.name = true
    by_cases heq : l.name = name
    · rw [heq, Function.update_self]
    · rw [Function.update_of_ne heq]
      exact h task l hl halive
  | forget name =>
    intro task l hl halive
    show Function.update s.known name false l.name = true
    rw [Function.update_of_ne (ha task l hl halive)]
    exact h task l hl halive
  | started | stopNothing | stopDone _ _ _ | resumeStop | register _ => exact h

/-- **A registry that knows a loop does not answer it with 404.** -/
theorem KnowsLoops.step_ne (h : s.KnowsLoops) (task : ℕ) :
    step s (.answer task (.ok 404)) ≠ some s' := by
  intro hstep
  cases moves_of_step hstep with
  | answer hl hlive hcan =>
    rw [canAnswer, if_pos (h _ _ hl hlive)] at hcan
    cases hcan

/-- Nor is it answered 404 by one that remembers. -/
theorem remembers_step (h : s.KnowsLoops ∧ ∀ name, .answered name 404 ∉ s.wire)
    (ha : s.Remembers a) (hstep : step s a = some s') :
    s'.KnowsLoops ∧ ∀ name, .answered name 404 ∉ s'.wire := by
  refine ⟨knowsLoops_step h.1 ha hstep, fun name hmem => ?_⟩
  rw [wire_step hstep] at hmem
  rcases List.mem_append.mp hmem with hmem | hmem
  · exact h.2 name hmem
  · obtain ⟨task, rfl⟩ := eq_answer_of_mem hmem
    exact h.1.step_ne task hstep

/-- **With a registry that remembers** there is nothing to register again. -/
theorem reregisters_of_remembers (hC : machine.Along Remembers {} as)
    (hrun : machine.run {} as = some t) : Reregisters t.wire := by
  have hinit : KnowsLoops {} ∧ ∀ name, .answered name 404 ∉ ({} : HeartbeatState).wire :=
    ⟨fun _ _ hl => absurd hl.symm (Option.some_ne_none _), fun _ => List.not_mem_nil⟩
  exact reregisters_of_notMem
    (machine.run_invariant_along (fun _ _ _ h ha hstep => remembers_step h ha hstep)
      hinit hC hrun).2

end HeartbeatState
