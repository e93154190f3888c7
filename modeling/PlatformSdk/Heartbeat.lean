import Mathlib.Logic.Function.Basic
import PlatformSdk.Python
import PlatformSdk.Run

/-!
# The heartbeat of a registry client

`start_heartbeat` creates a task that posts heartbeats and keeps it in
`_heartbeat_task`; `stop_heartbeat` cancels that task, waits until it has
ended, and clears the field. Between the cancellation and the clearing other
calls move, and the field that is cleared need not hold the task that was
waited for: two stops that wait for one loop both clear it, and a loop that
was started between the two is then running with nobody to refer to it
(`not_noOrphan`).

`noOrphan_iff_along` says that nothing else can go wrong: along a run there is
never an orphaned loop if and only if no stop wakes up while the field refers
to a loop that is alive.

The machine has the registry in it as well, with the names it knows, and what
the client sends and gets back (`wire`); `Reregistration` is about these.
-/

/-! ## The machine -/

/-- Where a heartbeat loop stands: made and not run, waiting for an answer,
asleep, or done. -/
inductive LoopPhase where
  /-- Created, and not run yet. -/
  | created
  /-- Waiting for the answer to its heartbeat. -/
  | posting
  | sleeping
  | done
  deriving DecidableEq

/-- **A heartbeat loop**, the task of `_loop()`, and the name it was started
for. -/
structure HeartbeatLoop where
  name : String
  phase : LoopPhase := .created
  /-- `task.cancel()` has been called. -/
  cancelRequested : Bool := false

/-- The task has not ended, and so will send again unless it is stopped. -/
def HeartbeatLoop.isAlive (l : HeartbeatLoop) : Bool := l.phase ≠ .done

/-- Where a call of `stop_heartbeat` stands: it cancels a task and awaits it. -/
inductive StopStage where
  | idle
  | awaiting (task : ℕ)
  | returned
  deriving DecidableEq

/-- **What goes over the wire**: what the client posts, and the status it
gets for a heartbeat. -/
inductive WireEntry where
  /-- `POST /api/services`. -/
  | register (name : String)
  /-- `POST /api/services/{name}/heartbeat`. -/
  | heartbeat (name : String)
  | answered (name : String) (status : ℕ)
  deriving DecidableEq

/-- **The state of a client and its registry**: the tasks, the field that refers
to one, and the names known. -/
structure HeartbeatState where
  /-- `_heartbeat_task`. -/
  heartbeatTask : Option ℕ := none
  /-- The tasks that have been created. -/
  loops : ℕ → Option HeartbeatLoop := fun _ => none
  /-- The calls of `stop_heartbeat`. -/
  stops : ℕ → StopStage := fun _ => .idle
  /-- Whether the registry knows a name. -/
  known : String → Bool := fun _ => false
  wire : List WireEntry := []

/-- **What can happen** to a client, its loops and the calls that start and stop
them. -/
inductive HeartbeatEvent where
  /-- A call of `start_heartbeat`, with the task it creates if it creates
  one. -/
  | start (task : ℕ) (name : String)
  | stop (c : ℕ)
  /-- The task that a stop waits for has ended, and the stop wakes up. -/
  | resumeStop (c : ℕ)
  | beat (task : ℕ)
  | answer (task : ℕ) (reply : Except PyExc ℕ)
  /-- A cancelled loop gets its `CancelledError`. -/
  | endCancelled (task : ℕ)
  /-- A call of `register_self` posts. -/
  | register (name : String)
  /-- The registry takes a registration on. -/
  | learn (name : String)
  /-- The registry forgets a name. -/
  | forget (name : String)

namespace HeartbeatState

/-- Whether a task exists and has not ended, be it cancelled or not. -/
def isAlive (s : HeartbeatState) (task : ℕ) : Bool := (s.loops task).any HeartbeatLoop.isAlive

/-- A loop changes, and the field and the other loops stay. -/
def setLoop (s : HeartbeatState) (task : ℕ) (l : HeartbeatLoop) : HeartbeatState :=
  { s with loops := Function.update s.loops task (some l) }

/-- A stop moves on, from its `await` for the task to its end. -/
def setStop (s : HeartbeatState) (c : ℕ) (stage : StopStage) : HeartbeatState :=
  { s with stops := Function.update s.stops c stage }

/-- A stop returns, having cleared the field, whatever task the field refers to
by then. -/
def clearField (s : HeartbeatState) (c : ℕ) : HeartbeatState :=
  { s.setStop c .returned with heartbeatTask := none }

/-- The status the registry can answer a heartbeat with: 404 to a name it does
not know, and only to such a name. -/
def canAnswer (s : HeartbeatState) (name : String) (status : ℕ) : Bool :=
  if s.known name then status ≠ 404 else status = 404 ∨ 500 ≤ status

/-- **One step of the client and its registry**, where the event can happen at
that moment. -/
def step (s : HeartbeatState) : HeartbeatEvent → Option HeartbeatState
  | .start task name =>
    match s.heartbeatTask, s.loops task with
    | some _, _ => some s
    | none, some _ => none
    | none, none => some { s.setLoop task { name := name } with heartbeatTask := some task }
  | .stop c =>
    match s.stops c, s.heartbeatTask with
    | .idle, none => some (s.setStop c .returned)
    | .idle, some task =>
      match s.loops task with
      | some l =>
        -- a task that has ended is not waited for
        if l.isAlive then
          some ((s.setLoop task { l with cancelRequested := true }).setStop c (.awaiting task))
        else some (s.clearField c)
      | none => none
    | _, _ => none
  | .resumeStop c =>
    match s.stops c with
    | .awaiting task => if s.isAlive task then none else some (s.clearField c)
    | _ => none
  | .beat task =>
    match s.loops task with
    | some ⟨name, .created, false⟩ | some ⟨name, .sleeping, false⟩ =>
      some { s.setLoop task { name := name, phase := .posting } with
        wire := s.wire ++ [.heartbeat name] }
    | _ => none
  | .answer task reply =>
    match s.loops task with
    | some ⟨name, .posting, false⟩ =>
      match reply with
      | .error _ => some (s.setLoop task { name := name, phase := .sleeping })
      | .ok status =>
        -- whatever the status, the loop goes to sleep
        if s.canAnswer name status then
          some { s.setLoop task { name := name, phase := .sleeping } with
            wire := s.wire ++ [.answered name status] }
        else none
    | _ => none
  | .endCancelled task =>
    match s.loops task with
    | some l =>
      if l.cancelRequested && l.isAlive then
        some (s.setLoop task { l with phase := .done })
      else none
    | none => none
  | .register name => some { s with wire := s.wire ++ [.register name] }
  | .learn name =>
    if .register name ∈ s.wire then
      some { s with known := Function.update s.known name true }
    else none
  | .forget name => some { s with known := Function.update s.known name false }

/-- **The machine of a client and its registry**, whose requests and
cancellations overlap. -/
def machine : Machine HeartbeatState HeartbeatEvent := ⟨step⟩

/-- **What a step can be.** A step changes one loop that is alive, or starts
one, or leaves all of them alone. -/
inductive Moves (s : HeartbeatState) : HeartbeatEvent → HeartbeatState → Prop
  | started {task : ℕ} {name : String} : Moves s (.start task name) s
  | start {task : ℕ} {name : String} (hfield : s.heartbeatTask = none) :
    Moves s (.start task name)
      { s.setLoop task { name := name } with heartbeatTask := some task }
  | stopNothing {c : ℕ} : Moves s (.stop c) (s.setStop c .returned)
  | stop {c task : ℕ} {l : HeartbeatLoop} (hl : s.loops task = some l) (hlive : l.isAlive = true) :
    Moves s (.stop c)
      ((s.setLoop task { l with cancelRequested := true }).setStop c (.awaiting task))
  | stopDone {c task : ℕ} {l : HeartbeatLoop} (hfield : s.heartbeatTask = some task)
      (hl : s.loops task = some l) (hdead : l.isAlive = false) :
    Moves s (.stop c) (s.clearField c)
  | resumeStop {c : ℕ} : Moves s (.resumeStop c) (s.clearField c)
  | beat {task : ℕ} {l : HeartbeatLoop} (hl : s.loops task = some l) (hlive : l.isAlive = true) :
    Moves s (.beat task)
      { s.setLoop task { name := l.name, phase := .posting } with
        wire := s.wire ++ [.heartbeat l.name] }
  | noAnswer {task : ℕ} {exc : PyExc} {l : HeartbeatLoop} (hl : s.loops task = some l)
      (hlive : l.isAlive = true) :
    Moves s (.answer task (.error exc)) (s.setLoop task { name := l.name, phase := .sleeping })
  | answer {task status : ℕ} {l : HeartbeatLoop} (hl : s.loops task = some l)
      (hlive : l.isAlive = true) (hcan : s.canAnswer l.name status = true) :
    Moves s (.answer task (.ok status))
      { s.setLoop task { name := l.name, phase := .sleeping } with
        wire := s.wire ++ [.answered l.name status] }
  | endCancelled {task : ℕ} {l : HeartbeatLoop} (hl : s.loops task = some l)
      (hlive : l.isAlive = true) :
    Moves s (.endCancelled task) (s.setLoop task { l with phase := .done })
  | register (name : String) :
    Moves s (.register name) { s with wire := s.wire ++ [.register name] }
  | learn (name : String) :
    Moves s (.learn name) { s with known := Function.update s.known name true }
  | forget (name : String) :
    Moves s (.forget name) { s with known := Function.update s.known name false }

/-- Every step is of one of these kinds, so that what they all keep is shown
once for each kind and not for each branch of the step. -/
theorem moves_of_step {s s' : HeartbeatState} {a : HeartbeatEvent} (h : step s a = some s') :
    Moves s a s' := by
  cases a with
  | start task name =>
    simp only [step] at h
    split at h
    · exact Option.some.inj h ▸ .started
    · cases h
    · next hfield _ => exact Option.some.inj h ▸ .start hfield
  | stop c =>
    simp only [step] at h
    split at h
    · exact Option.some.inj h ▸ .stopNothing
    · next hfield =>
      split at h
      · next hl =>
        split at h
        · next hlive => exact Option.some.inj h ▸ .stop hl hlive
        · next hdead =>
          exact Option.some.inj h ▸ .stopDone hfield hl (Bool.eq_false_iff.mpr hdead)
      · cases h
    · cases h
  | resumeStop c =>
    simp only [step] at h
    split at h
    · obtain ⟨-, h⟩ := Option.ite_none_left_eq_some.mp h
      exact Option.some.inj h ▸ .resumeStop
    · cases h
  | beat task =>
    simp only [step] at h
    split at h
    · next hl => exact Option.some.inj h ▸ .beat hl rfl
    · next hl => exact Option.some.inj h ▸ .beat hl rfl
    · cases h
  | answer task reply =>
    simp only [step] at h
    split at h
    · next hl =>
      split at h
      · exact Option.some.inj h ▸ .noAnswer hl rfl
      · obtain ⟨hcan, h⟩ := Option.ite_none_right_eq_some.mp h
        exact Option.some.inj h ▸ .answer hl rfl hcan
    · cases h
  | endCancelled task =>
    simp only [step] at h
    split at h
    · next hl =>
      obtain ⟨hcancelled, h⟩ := Option.ite_none_right_eq_some.mp h
      exact Option.some.inj h ▸ .endCancelled hl (Bool.and_eq_true_iff.mp hcancelled).2
    · cases h
  | register name => exact Option.some.inj h ▸ .register name
  | learn name =>
    obtain ⟨-, h⟩ := Option.ite_none_right_eq_some.mp h
    exact Option.some.inj h ▸ .learn name
  | forget name => exact Option.some.inj h ▸ .forget name

theorem isAlive_of_loops {s : HeartbeatState} {task : ℕ} {l : HeartbeatLoop}
    (h : s.loops task = some l) : s.isAlive task = l.isAlive := by
  rw [isAlive, h]
  rfl

@[simp] theorem setLoop_loops_self (s : HeartbeatState) (task : ℕ) (l : HeartbeatLoop) :
    (s.setLoop task l).loops task = some l := Function.update_self ..

@[simp] theorem isAlive_setLoop_self (s : HeartbeatState) (task : ℕ) (l : HeartbeatLoop) :
    (s.setLoop task l).isAlive task = l.isAlive :=
  isAlive_of_loops (setLoop_loops_self s task l)

theorem isAlive_setLoop_of_ne (s : HeartbeatState) {task task' : ℕ} (l : HeartbeatLoop)
    (h : task' ≠ task) : (s.setLoop task l).isAlive task' = s.isAlive task' :=
  congrArg (Option.any HeartbeatLoop.isAlive) (Function.update_of_ne h ..)

/-- A loop that is alive changes: no other task comes alive. -/
theorem isAlive_of_setLoop {s : HeartbeatState} {task task' : ℕ} {l : HeartbeatLoop}
    (hs : s.isAlive task = true) (h : (s.setLoop task l).isAlive task' = true) :
    s.isAlive task' = true := by
  by_cases heq : task' = task
  · rw [heq]
    exact hs
  · rwa [isAlive_setLoop_of_ne s l heq] at h

/-! ## No orphaned loop -/

/-- **No orphaned loop**: at most one is alive, the field refers to it, and a
stop can end it. -/
structure NoOrphan (s : HeartbeatState) : Prop where
  /-- At most one loop is alive. -/
  unique : ∀ task task', s.isAlive task → s.isAlive task' → task = task'
  /-- The field refers to it. -/
  referred : ∀ task, s.isAlive task → s.heartbeatTask = some task
  /-- A later stop ends it. -/
  endable : ∀ task c, s.isAlive task → s.stops c = .idle →
    ∃ t, machine.run s [.stop c, .endCancelled task] = some t ∧ t.isAlive task = false

/-- A stop ends the loop that the field refers to. -/
theorem run_stop {s : HeartbeatState} {task c : ℕ} (hfield : s.heartbeatTask = some task)
    (halive : s.isAlive task = true) (hc : s.stops c = .idle) :
    ∃ t, machine.run s [.stop c, .endCancelled task] = some t ∧ t.isAlive task = false := by
  obtain ⟨l, hl, hlive⟩ := (Option.any_eq_true _ _).mp halive
  let u := (s.setLoop task { l with cancelRequested := true }).setStop c (.awaiting task)
  have hu : u.loops task = some { l with cancelRequested := true } := setLoop_loops_self ..
  have hstop : machine.step s (.stop c) = some u := by
    show step s (.stop c) = some u
    simp only [step, hc, hfield, hl, hlive, if_true, u]
  have hend : machine.step u (.endCancelled task)
      = some (u.setLoop task { l with cancelRequested := true, phase := .done }) := by
    show step u (.endCancelled task) = _
    have hlive' : ({ l with cancelRequested := true } : HeartbeatLoop).isAlive = true := hlive
    simp only [step, hu, hlive', Bool.and_self, if_true]
  refine ⟨u.setLoop task { l with cancelRequested := true, phase := .done }, ?_, ?_⟩
  · rw [machine.run_cons_of_step hstop]
    exact machine.run_singleton hend
  · rw [isAlive_setLoop_self]
    rfl

/-- All of it rests on the field: a loop that the field refers to is the only
one, and a stop finds it there. -/
theorem noOrphan_iff {s : HeartbeatState} :
    s.NoOrphan ↔ ∀ task, s.isAlive task → s.heartbeatTask = some task := by
  refine ⟨NoOrphan.referred, fun h => ⟨fun task task' ht ht' => ?_, h, fun task c ht hc => ?_⟩⟩
  · exact Option.some.inj ((h task ht).symm.trans (h task' ht'))
  · exact run_stop (h task ht) ht hc

/-- A stop that wakes up finds no live loop in the field. -/
def WakesToNoLoop (s : HeartbeatState) : HeartbeatEvent → Prop
  | .resumeStop _ => ∀ task, s.heartbeatTask = some task → s.isAlive task = false
  | _ => True

/-- A field that is cleared refers to no loop. -/
theorem noOrphan_clearField {s : HeartbeatState} (h : s.NoOrphan) {c : ℕ} :
    (s.clearField c).NoOrphan ↔ ∀ task, s.heartbeatTask = some task → s.isAlive task = false := by
  rw [noOrphan_iff]
  constructor
  · intro hclear task _
    refine Bool.eq_false_iff.mpr fun halive => ?_
    exact absurd (hclear task halive) (Option.some_ne_none task).symm
  · intro hdead task halive
    have halive' : s.isAlive task = true := halive
    rw [hdead task (h.referred task halive')] at halive'
    cases halive'

/-- A loop that is alive changes, and none is orphaned. -/
theorem NoOrphan.setLoop {s s' : HeartbeatState} (h : s.NoOrphan) {task : ℕ} {l : HeartbeatLoop}
    (hs : s.isAlive task = true) (hloops : s'.loops = (s.setLoop task l).loops)
    (hfield : s'.heartbeatTask = s.heartbeatTask) : s'.NoOrphan := by
  refine noOrphan_iff.mpr fun task' halive => ?_
  rw [hfield]
  refine h.referred task' (isAlive_of_setLoop (l := l) hs ?_)
  rwa [isAlive, hloops] at halive

/-- The first loop, or the first after the last one was cleared. -/
theorem NoOrphan.start {s : HeartbeatState} (h : s.NoOrphan) (hfield : s.heartbeatTask = none)
    (task : ℕ) (l : HeartbeatLoop) :
    ({ s.setLoop task l with heartbeatTask := some task } : HeartbeatState).NoOrphan := by
  refine noOrphan_iff.mpr fun task' halive => ?_
  have halive' : (s.setLoop task l).isAlive task' = true := halive
  by_cases heq : task' = task
  · rw [heq]
  · rw [isAlive_setLoop_of_ne s l heq] at halive'
    have hnone := h.referred task' halive'
    rw [hfield] at hnone
    cases hnone

/-- **One step orphans a loop if and only if it is a stop that wakes up to
one.** -/
theorem noOrphan_step {s s' : HeartbeatState} {a : HeartbeatEvent} (h : s.NoOrphan)
    (hstep : step s a = some s') : s'.NoOrphan ↔ s.WakesToNoLoop a := by
  cases moves_of_step hstep with
  | resumeStop => exact noOrphan_clearField h
  | started => exact iff_of_true h trivial
  | start hfield => exact iff_of_true (h.start hfield _ _) trivial
  | stopNothing => exact iff_of_true (noOrphan_iff.mpr h.referred) trivial
  | stop hl hlive =>
    exact iff_of_true (h.setLoop ((isAlive_of_loops hl).trans hlive) rfl rfl) trivial
  | stopDone hfield hl hdead =>
    refine iff_of_true ((noOrphan_clearField h).mpr fun task hfield' => ?_) trivial
    obtain rfl := Option.some.inj (hfield.symm.trans hfield')
    exact (isAlive_of_loops hl).trans hdead
  | beat hl hlive =>
    exact iff_of_true (h.setLoop ((isAlive_of_loops hl).trans hlive) rfl rfl) trivial
  | noAnswer hl hlive =>
    exact iff_of_true (h.setLoop ((isAlive_of_loops hl).trans hlive) rfl rfl) trivial
  | answer hl hlive _ =>
    exact iff_of_true (h.setLoop ((isAlive_of_loops hl).trans hlive) rfl rfl) trivial
  | endCancelled hl hlive =>
    exact iff_of_true (h.setLoop ((isAlive_of_loops hl).trans hlive) rfl rfl) trivial
  | register name => exact iff_of_true (noOrphan_iff.mpr h.referred) trivial
  | learn name => exact iff_of_true (noOrphan_iff.mpr h.referred) trivial
  | forget name => exact iff_of_true (noOrphan_iff.mpr h.referred) trivial

theorem noOrphan_init : ({} : HeartbeatState).NoOrphan :=
  noOrphan_iff.mpr fun _ h => absurd h Bool.false_ne_true

/-- **When no loop is ever orphaned**: in every state a run of calls comes
through at most one loop is alive, the field refers to it and a stop can end
it, if and only if no stop wakes up while the field refers to a live loop. -/
theorem noOrphan_iff_along {as : List HeartbeatEvent} {t : HeartbeatState}
    (hrun : machine.run {} as = some t) :
    (∀ bs u, bs <+: as → machine.run {} bs = some u → u.NoOrphan)
      ↔ machine.Along WakesToNoLoop {} as :=
  machine.forall_prefix_iff_along (fun _ _ _ h hstep => noOrphan_step h hstep) noOrphan_init hrun

/-- A loop is stopped, and another one started after that. -/
def restart : List HeartbeatEvent :=
  [.start 0 "inventory", .stop 0, .endCancelled 0, .resumeStop 0, .start 1 "inventory"]

/-- One stop at a time orphans nothing: the loop of the second start is the one
the field refers to. -/
theorem noOrphan_iff_along_restart :
    ∃ t, machine.run {} restart = some t ∧ t.isAlive 1 = true ∧ t.NoOrphan := by
  have hrun : machine.run {} restart = some _ := rfl
  have hwakes : machine.Along WakesToNoLoop {} restart := by
    simp [restart, Machine.Along, machine, step, WakesToNoLoop, setLoop, setStop, isAlive,
      HeartbeatLoop.isAlive]
  exact ⟨_, hrun, rfl, (noOrphan_iff_along hrun).mpr hwakes restart _ List.prefix_rfl hrun⟩

/-- Two stops wait for one loop, and the caller of the first starts another
one as soon as its stop has returned. -/
def stopTwice : List HeartbeatEvent :=
  [.start 0 "inventory", .stop 0, .stop 1, .endCancelled 0, .resumeStop 0,
    .start 1 "inventory", .resumeStop 1]

/-- **The second stop clears the field of a loop it never waited for**: the
loop is alive, and no later stop finds it. -/
theorem not_noOrphan :
    ∃ t, machine.run {} stopTwice = some t ∧ t.isAlive 1 = true ∧ t.heartbeatTask = none
      ∧ ¬ t.NoOrphan := by
  refine ⟨_, rfl, rfl, rfl, fun h => ?_⟩
  exact absurd (h.referred 1 rfl) (Option.some_ne_none 1).symm

end HeartbeatState
