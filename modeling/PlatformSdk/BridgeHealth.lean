import PlatformSdk.Journal
import PlatformSdk.Python

/-!
# The health of the bridges

`BridgeHealthMatrix` has two dictionaries: the bridges by name, and what was
last noted about each of them. `connect_all` starts every bridge at once and
notes, when all are through, whether each was connected at the moment its own
`connect` returned. Bridges go on connecting and dropping after that, so a probe
asks every bridge whether it is connected now and looks at the notes only for
those that are not.

While `connect_all` and `disconnect_all` await a bridge, other tasks register
bridges, start further calls and probe. Bridges are numbers here, and what they
do on their own is an event.

`readiness_of_run` says what a probe shows in every run: the notes are what the
run's journal replays to, and a bridge is shown as reconnecting only because of a
`connect_all` that saw it, or one registered under its name before, unconnected.
`disconnectAll_of_run` says what `disconnect_all` comes to while bridges are
registered: a new name makes it fail with a `RuntimeError` and leave the bridges
it has not asked yet.
-/

namespace BridgeHealth

/-- **What is noted about a bridge** when it is registered, connected or
disconnected; a drop in between is not noted. -/
inductive Status where
  | registered
  | connected
  | reconnecting
  | failed
  | disconnected
  deriving DecidableEq

/-- How an awaited method of a bridge ends, which is all that is known of the
bridge here. -/
inductive Outcome where
  | returned
  /-- With an `Exception`. -/
  | raised
  /-- With a `CancelledError`, which is none. -/
  | cancelled
  deriving DecidableEq

/-- What `gather` has for a task: nothing yet, its status, or its
`CancelledError`. -/
inductive Progress where
  | awaiting
  | completed (s : Status)
  | cancelled
  deriving DecidableEq

/-- **A task of `connect_all`**, one `_connect_one`, by the bridge it connects.
-/
structure Task where
  name : String
  bridge : ℕ
  progress : Progress := .awaiting

/-- A call of `connect_all`: the tasks it has created, until `gather` is
through. -/
inductive Connecting where
  | idle
  | gathering (tasks : List Task)
  | returned (results : Dict String Status)
  | raised (exc : PyExc)

/-- A call of `disconnect_all`, with the entries it has asked. -/
inductive Disconnecting where
  | idle
  /-- Awaiting the bridge of an entry, in a dictionary that had a size. -/
  | awaiting (size : ℕ) (asked : List (String × ℕ)) (entry : String × ℕ)
  | returned (asked : List (String × ℕ))
  | raised (asked : List (String × ℕ)) (exc : PyExc)
  | cancelled (asked : List (String × ℕ))

/-- **The matrix**, its bridges and the calls on it. -/
structure State where
  /-- `_bridges`. -/
  bridges : Dict String ℕ := []
  /-- `_startup_status`. -/
  startupStatus : Dict String Status := []
  /-- `is_connected` of every bridge. -/
  isConnected : ℕ → Bool := fun _ => false
  connecting : ℕ → Connecting := fun _ => .idle
  disconnecting : ℕ → Disconnecting := fun _ => .idle

/-- **What can happen**: a bridge is registered, connects or drops, and the
calls and their tasks move on, each on its own. -/
inductive Event where
  /-- A bridge connects or drops. -/
  | link (bridge : ℕ) (up : Bool)
  | register (name : String) (bridge : ℕ)
  | connectAll (call : ℕ)
  /-- `bridge.connect` of a task is through. -/
  | connectEnds (call i : ℕ) (o : Outcome)
  /-- `gather` is through. -/
  | gathered (call : ℕ)
  | disconnectAll (call : ℕ)
  /-- The awaited `bridge.disconnect` is through. -/
  | disconnectEnds (call : ℕ) (o : Outcome)

namespace State

/-- What `_connect_one` returns when `connect` is through, `is_connected` being
asked after it. -/
def connectOne (s : State) (bridge : ℕ) : Outcome → Progress
  | .returned => .completed (if s.isConnected bridge then .connected else .reconnecting)
  | .raised => .completed .failed
  | .cancelled => .cancelled

/-- The next step of the loop of `disconnect_all`: the dictionary's iterator
compares sizes first. -/
def nextEntry (s : State) (size : ℕ) (asked : List (String × ℕ)) : Disconnecting :=
  if s.bridges.length ≠ size then
    .raised asked (.runtimeError "dictionary changed size during iteration")
  else
    match s.bridges[asked.length]? with
    | some entry => .awaiting size asked entry
    | none => .returned asked

end State

/-- **The loop over the results**: the statuses up to a `CancelledError`, which
does not unpack. -/
def statuses : List Task → List (String × Status) × Option PyExc
  | [] => ([], none)
  | task :: tasks =>
    match task.progress with
    | .completed s => ((task.name, s) :: (statuses tasks).1, (statuses tasks).2)
    | _ => ([], some (.typeError "cannot unpack non-iterable CancelledError object"))

/-- A task is through, with a status or with what it raised. -/
def Task.isDone (task : Task) : Bool := task.progress != .awaiting

/-- **What a step writes** into `_startup_status`: one entry at most but at the
end of a `gather`. -/
def writes (s : State) : Event → List (String × Status)
  | .register name _ => [(name, .registered)]
  | .gathered call =>
    match s.connecting call with
    | .gathering tasks => (statuses tasks).1
    | _ => []
  | .disconnectEnds call .returned =>
    match s.disconnecting call with
    | .awaiting _ _ entry => [(entry.1, .disconnected)]
    | _ => []
  | _ => []

/-- **One step of the matrix**, where the event can happen in the state. -/
def step (s : State) (a : Event) : Option State :=
  let noted := s.startupStatus.update (writes s a)
  match a with
  | .link bridge up => some { s with isConnected := Function.update s.isConnected bridge up }
  | .register name bridge =>
    some { s with bridges := s.bridges.set name bridge, startupStatus := noted }
  | .connectAll call =>
    match s.connecting call with
    | .idle =>
      some { s with
        connecting := Function.update s.connecting call
          (.gathering (s.bridges.map fun e => { name := e.1, bridge := e.2 })) }
    | _ => none
  | .connectEnds call i o =>
    match s.connecting call with
    | .gathering tasks =>
      match tasks[i]? with
      | some task =>
        if task.isDone then none
        else
          some { s with
            connecting := Function.update s.connecting call
              (.gathering (tasks.set i { task with progress := s.connectOne task.bridge o })) }
      | none => none
    | _ => none
  | .gathered call =>
    match s.connecting call with
    | .gathering tasks =>
      if tasks.all Task.isDone then
        some { s with
          startupStatus := noted
          connecting := Function.update s.connecting call
            (match (statuses tasks).2 with
            | none => .returned (Dict.update [] (statuses tasks).1)
            | some exc => .raised exc) }
      else none
    | _ => none
  | .disconnectAll call =>
    match s.disconnecting call with
    | .idle =>
      some { s with
        disconnecting := Function.update s.disconnecting call (s.nextEntry s.bridges.length []) }
    | _ => none
  | .disconnectEnds call o =>
    match s.disconnecting call with
    | .awaiting size asked entry =>
      some { s with
        startupStatus := noted
        disconnecting := Function.update s.disconnecting call
          (if o = .cancelled then .cancelled (asked ++ [entry])
          else s.nextEntry size (asked ++ [entry])) }
    | _ => none

/-- **The machine of the matrix**, in which calls and tasks move in any order.
-/
def machine : Machine State Event := ⟨step⟩

/-- **The steps there are**, one kind for each event. -/
inductive Moves (s : State) : Event → State → Prop
  | link (bridge : ℕ) (up : Bool) :
    Moves s (.link bridge up) { s with isConnected := Function.update s.isConnected bridge up }
  | register (name : String) (bridge : ℕ) :
    Moves s (.register name bridge)
      { s with
        bridges := s.bridges.set name bridge
        startupStatus := s.startupStatus.update (writes s (.register name bridge)) }
  | connectAll {call : ℕ} (h : s.connecting call = .idle) :
    Moves s (.connectAll call)
      { s with
        connecting := Function.update s.connecting call
          (.gathering (s.bridges.map fun e => { name := e.1, bridge := e.2 })) }
  | connectEnds {call i : ℕ} {tasks : List Task} {task : Task} (o : Outcome)
      (h : s.connecting call = .gathering tasks) (hi : tasks[i]? = some task) :
    Moves s (.connectEnds call i o)
      { s with
        connecting := Function.update s.connecting call
          (.gathering (tasks.set i { task with progress := s.connectOne task.bridge o })) }
  | gathered {call : ℕ} {tasks : List Task} (h : s.connecting call = .gathering tasks)
      (hdone : tasks.all Task.isDone = true) :
    Moves s (.gathered call)
      { s with
        startupStatus := s.startupStatus.update (writes s (.gathered call))
        connecting := Function.update s.connecting call
          (match (statuses tasks).2 with
          | none => .returned (Dict.update [] (statuses tasks).1)
          | some exc => .raised exc) }
  | disconnectAll {call : ℕ} (h : s.disconnecting call = .idle) :
    Moves s (.disconnectAll call)
      { s with
        disconnecting := Function.update s.disconnecting call
          (s.nextEntry s.bridges.length []) }
  | disconnectEnds {call size : ℕ} {asked : List (String × ℕ)} {entry : String × ℕ} (o : Outcome)
      (h : s.disconnecting call = .awaiting size asked entry) :
    Moves s (.disconnectEnds call o)
      { s with
        startupStatus := s.startupStatus.update (writes s (.disconnectEnds call o))
        disconnecting := Function.update s.disconnecting call
          (if o = .cancelled then .cancelled (asked ++ [entry])
          else s.nextEntry size (asked ++ [entry])) }

/-- Every step is one of the moves, so that what the moves keep is shown once
for each of them and holds of every run. -/
theorem moves_of_step {s s' : State} {a : Event} (hstep : machine.step s a = some s') :
    Moves s a s' := by
  cases a with
  | link bridge up => exact Option.some.inj hstep ▸ .link bridge up
  | register name bridge => exact Option.some.inj hstep ▸ .register name bridge
  | connectAll call =>
    simp only [machine, step] at hstep
    split at hstep
    · next h => exact Option.some.inj hstep ▸ .connectAll h
    · cases hstep
  | connectEnds call i o =>
    simp only [machine, step] at hstep
    split at hstep
    · next h =>
      split at hstep
      · next hi =>
        split at hstep
        · cases hstep
        · exact Option.some.inj hstep ▸ .connectEnds o h hi
      · cases hstep
    · cases hstep
  | gathered call =>
    simp only [machine, step] at hstep
    split at hstep
    · next h =>
      split at hstep
      · next hdone => exact Option.some.inj hstep ▸ .gathered h hdone
      · cases hstep
    · cases hstep
  | disconnectAll call =>
    simp only [machine, step] at hstep
    split at hstep
    · next h => exact Option.some.inj hstep ▸ .disconnectAll h
    · cases hstep
  | disconnectEnds call o =>
    simp only [machine, step] at hstep
    split at hstep
    · next h => exact Option.some.inj hstep ▸ .disconnectEnds o h
    · cases hstep

/-! ## Probes -/

/-- What a probe shows of a bridge: whether it is connected now, and else what
was noted. -/
inductive Shown where
  | connected
  | reconnecting
  | disconnected
  deriving DecidableEq

/-- The overall status, as a probe reports it: of all bridges, of some or of
none. -/
inductive Overall where
  | ok
  | degraded
  | unavailable
  deriving DecidableEq

namespace State

/-- The status of one bridge: whether it is connected is asked at the probe, and
what else is shown was noted before. -/
def shown (s : State) (e : String × ℕ) : Shown :=
  if s.isConnected e.2 then .connected
  else if s.startupStatus.get? e.1 = some .reconnecting then .reconnecting
  else .disconnected

/-- `readiness()["bridges"]`, in the order of registration. -/
def bridgeStatus (s : State) : Dict String Shown := s.bridges.map fun e => (e.1, s.shown e)

/-- `readiness()["status"]`, told by how many bridges are connected now. -/
def overall (s : State) : Overall :=
  let connected := s.bridgeStatus.countP fun e => e.2 = .connected
  let total := s.bridgeStatus.length
  if connected = total ∧ total > 0 then .ok
  else if connected > 0 then .degraded
  else .unavailable

/-- `is_bridge_available`: a name that was not registered is not available. -/
def isBridgeAvailable (s : State) (name : String) : Bool :=
  match s.bridges.get? name with
  | some bridge => s.isConnected bridge
  | none => false

end State

/-- The notes are what the journal of the run says: each write of a step is one
of its entries. -/
theorem keeps_startupStatus : machine.Keeps State.startupStatus writes := by
  intro s a s' hstep
  cases moves_of_step hstep <;> rfl

/-- A bridge is shown as connected when it is. -/
theorem shown_eq_connected_iff {s : State} {e : String × ℕ} :
    s.shown e = .connected ↔ s.isConnected e.2 = true := by
  rw [State.shown]
  cases s.isConnected e.2 with
  | true => exact iff_of_true rfl rfl
  | false =>
    refine iff_of_false ?_ (by simp)
    rw [if_neg (by simp)]
    split <;> simp

/-- **A bridge is available when it is shown as connected.** -/
theorem isBridgeAvailable_iff (s : State) (name : String) :
    s.isBridgeAvailable name = true ↔ s.bridgeStatus.get? name = some .connected := by
  rw [State.isBridgeAvailable, State.bridgeStatus, Dict.get?_map]
  cases s.bridges.get? name with
  | none => exact iff_of_false (by simp) (by simp)
  | some bridge =>
    rw [Option.map_some, Option.some.injEq, shown_eq_connected_iff]

/-- The bridges shown as connected are those that are connected, so that the
status counts either. -/
theorem countP_bridgeStatus (s : State) :
    s.bridgeStatus.countP (fun e => e.2 = .connected)
      = s.bridges.countP fun e => s.isConnected e.2 := by
  rw [State.bridgeStatus, List.countP_map]
  refine List.countP_congr fun e _ => ?_
  exact decide_eq_true_iff.trans shown_eq_connected_iff

/-- **When all is well**: there is a bridge, and every bridge is connected. -/
theorem overall_eq_ok_iff (s : State) :
    s.overall = .ok ↔ s.bridges ≠ [] ∧ ∀ e ∈ s.bridges, s.isConnected e.2 = true := by
  rw [State.overall, countP_bridgeStatus, State.bridgeStatus, List.length_map]
  rw [← List.countP_eq_length, ← List.length_pos_iff]
  by_cases hall : s.bridges.countP (fun e => s.isConnected e.2) = s.bridges.length
      ∧ s.bridges.length > 0
  · rw [if_pos hall]
    exact iff_of_true rfl hall.symm
  · rw [if_neg hall]
    refine iff_of_false ?_ (fun h => hall h.symm)
    split <;> simp

/-- **When nothing works**: no bridge is connected, be it that there is none. -/
theorem overall_eq_unavailable_iff (s : State) :
    s.overall = .unavailable ↔ ∀ e ∈ s.bridges, s.isConnected e.2 = false := by
  rw [State.overall, countP_bridgeStatus, State.bridgeStatus, List.length_map]
  have hnone : (∀ e ∈ s.bridges, s.isConnected e.2 = false)
      ↔ s.bridges.countP (fun e => s.isConnected e.2) = 0 := by
    rw [List.countP_eq_zero]
    simp only [Bool.not_eq_true]
  rw [hnone]
  by_cases hzero : s.bridges.countP (fun e => s.isConnected e.2) = 0
  · rw [hzero, if_neg (fun h => by omega), if_neg (lt_irrefl 0)]
    exact iff_of_true rfl rfl
  · refine iff_of_false ?_ hzero
    split
    · simp
    · rw [if_pos (Nat.pos_of_ne_zero hzero)]
      simp

/-! ## What is noted, and why -/

/-- **A task has seen its bridge unconnected**: its `connect` returned, and the
bridge registered under the name when its call began was not connected then. -/
def SeenUnconnected (name : String) (s : State) (a : Event) : Prop :=
  ∃ call i tasks task, a = .connectEnds call i .returned ∧ s.connecting call = .gathering tasks
    ∧ tasks[i]? = some task ∧ task.name = name ∧ s.isConnected task.bridge = false

/-- A task that is through as reconnecting has seen its bridge unconnected. -/
def Explained (as : List Event) (t : State) : Prop :=
  ∀ call tasks, t.connecting call = .gathering tasks → ∀ task ∈ tasks,
    task.progress = .completed .reconnecting →
      machine.Happened (SeenUnconnected task.name) {} as

/-- Calls that do not move stay explained, whatever else the run goes on to do.
-/
theorem Explained.of_connecting_eq {as : List Event} {t t' : State} {a : Event}
    (hrun : machine.run {} as = some t) (h : Explained as t)
    (hsame : t'.connecting = t.connecting) : Explained (as ++ [a]) t' := by
  intro call tasks htasks task hmem hprogress
  rw [hsame] at htasks
  exact (machine.happened_concat hrun).mpr (Or.inl (h call tasks htasks task hmem hprogress))

/-- A call that moves stays explained if its new tasks are. -/
theorem Explained.update {as : List Event} {t t' : State} {a : Event} {call : ℕ} {c : Connecting}
    (hrun : machine.run {} as = some t) (h : Explained as t)
    (hupdate : t'.connecting = Function.update t.connecting call c)
    (hnew : ∀ tasks, c = .gathering tasks → ∀ task ∈ tasks,
      task.progress = .completed .reconnecting →
        machine.Happened (SeenUnconnected task.name) {} (as ++ [a])) :
    Explained (as ++ [a]) t' := by
  intro call' tasks htasks task hmem hprogress
  rw [hupdate] at htasks
  by_cases hcall : call' = call
  · subst hcall
    rw [Function.update_self] at htasks
    exact hnew tasks htasks task hmem hprogress
  · rw [Function.update_of_ne hcall] at htasks
    exact (machine.happened_concat hrun).mpr (Or.inl (h call' tasks htasks task hmem hprogress))

theorem explained_step {as : List Event} {t t' : State} {a : Event}
    (hrun : machine.run {} as = some t) (h : Explained as t)
    (hstep : machine.step t a = some t') : Explained (as ++ [a]) t' := by
  cases moves_of_step hstep with
  | link bridge up => exact h.of_connecting_eq hrun rfl
  | register name bridge => exact h.of_connecting_eq hrun rfl
  | disconnectAll hidle => exact h.of_connecting_eq hrun rfl
  | disconnectEnds o hawaiting => exact h.of_connecting_eq hrun rfl
  | connectAll hidle =>
    refine h.update hrun rfl fun tasks htasks task hmem hprogress => ?_
    -- a task that has just been made awaits its bridge
    rw [← Connecting.gathering.inj htasks] at hmem
    obtain ⟨e, -, rfl⟩ := List.mem_map.mp hmem
    cases hprogress
  | gathered hgathering hdone =>
    refine h.update hrun rfl fun tasks htasks => ?_
    split at htasks <;> cases htasks
  | @connectEnds call i tasks task o hgathering hi =>
    refine h.update hrun rfl fun tasks' htasks' task' hmem hprogress => ?_
    rw [← Connecting.gathering.inj htasks'] at hmem
    rw [machine.happened_concat hrun]
    rcases List.mem_or_eq_of_mem_set hmem with hmem | rfl
    · exact Or.inl (h call tasks hgathering task' hmem hprogress)
    · refine Or.inr ?_
      have hone : t.connectOne task.bridge o = .completed .reconnecting := hprogress
      cases o with
      | returned =>
        refine ⟨call, i, tasks, task, rfl, hgathering, hi, rfl, ?_⟩
        cases hup : t.isConnected task.bridge with
        | false => rfl
        | true =>
          rw [State.connectOne, hup] at hone
          cases hone
      | raised => cases hone
      | cancelled => cases hone

/-- A status of a call is that of one of its tasks. -/
theorem exists_task_of_mem_statuses {tasks : List Task} {e : String × Status}
    (h : e ∈ (statuses tasks).1) :
    ∃ task ∈ tasks, task.name = e.1 ∧ task.progress = .completed e.2 := by
  induction tasks with
  | nil => cases h
  | cons task tasks ih =>
    rw [statuses] at h
    split at h
    · next s hprogress =>
      rcases List.mem_cons.mp h with rfl | h
      · exact ⟨task, List.mem_cons_self, rfl, hprogress⟩
      · obtain ⟨task', hmem, hname⟩ := ih h
        exact ⟨task', List.mem_cons_of_mem _ hmem, hname⟩
    · cases h

/-- **Only a `connect_all` notes a bridge as reconnecting**, and only one of
which a task has seen it so. -/
theorem happened_of_reconnecting {as : List Event} {t : State} {a : Event} {name : String}
    (hrun : machine.run {} as = some t) (h : (name, .reconnecting) ∈ writes t a) :
    (∃ call, a = .gathered call) ∧ machine.Happened (SeenUnconnected name) {} as := by
  have hstart : Explained [] {} := fun _ _ htasks => by cases htasks
  have hexplained : Explained as t :=
    machine.run_history hstart (fun _ _ _ _ hrun h hstep => explained_step hrun h hstep) hrun
  cases a with
  | gathered call =>
    refine ⟨⟨call, rfl⟩, ?_⟩
    simp only [writes] at h
    split at h
    · next tasks hgathering =>
      obtain ⟨task, hmem, rfl, hprogress⟩ := exists_task_of_mem_statuses h
      exact hexplained call tasks hgathering task hmem hprogress
    · cases h
  | register name' bridge => cases List.mem_singleton.mp h
  | disconnectEnds call o =>
    cases o with
    | returned =>
      simp only [writes] at h
      split at h
      · cases List.mem_singleton.mp h
      · cases h
    | raised => cases h
    | cancelled => cases h
  | link bridge up => cases h
  | connectAll call => cases h
  | connectEnds call i o => cases h
  | disconnectAll call => cases h

/-- **What a probe shows, in every run.** Overall all is well when there is a
bridge and every bridge is connected now, and nothing works when none is. A
bridge is shown as connected exactly when it is connected now, and as
reconnecting exactly when it is not and that is the last that was noted about
its name; it was noted by a `connect_all` that had begun before, one of whose
tasks had seen the bridge of that name unconnected, and nothing has been noted
about the name since. -/
theorem readiness_of_run {as : List Event} {t : State} (hrun : machine.run {} as = some t) :
    (t.overall = .ok ↔ t.bridges ≠ [] ∧ ∀ e ∈ t.bridges, t.isConnected e.2 = true)
      ∧ (t.overall = .unavailable ↔ ∀ e ∈ t.bridges, t.isConnected e.2 = false)
      ∧ ∀ name bridge, t.bridges.get? name = some bridge →
        (t.bridgeStatus.get? name = some .connected ↔ t.isConnected bridge = true)
          ∧ (t.bridgeStatus.get? name = some .reconnecting ↔ t.isConnected bridge = false
            ∧ Dict.lastWrite (machine.journal writes {} as) name = some .reconnecting)
          ∧ (t.bridgeStatus.get? name = some .reconnecting →
            ∃ bs call cs u u', as = bs ++ .gathered call :: cs ∧ machine.run {} bs = some u
              ∧ machine.step u (.gathered call) = some u'
              ∧ machine.Happened (SeenUnconnected name) {} bs
              ∧ Dict.lastWrite (machine.journal writes u' cs) name = none) := by
  refine ⟨overall_eq_ok_iff t, overall_eq_unavailable_iff t, fun name bridge hbridge => ?_⟩
  have hshown : t.bridgeStatus.get? name = some (t.shown (name, bridge)) := by
    rw [State.bridgeStatus, Dict.get?_map, hbridge, Option.map_some]
  have hnoted : t.startupStatus.get? name
      = Dict.lastWrite (machine.journal writes {} as) name := by
    rw [Machine.get?_table keeps_startupStatus hrun]
    cases Dict.lastWrite (machine.journal writes {} as) name <;> rfl
  have hreconnecting : t.bridgeStatus.get? name = some .reconnecting
      ↔ t.isConnected bridge = false
        ∧ Dict.lastWrite (machine.journal writes {} as) name = some .reconnecting := by
    rw [hshown, Option.some.injEq, State.shown, hnoted]
    cases t.isConnected bridge with
    | true => exact iff_of_false (by simp) (fun h => by cases h.1)
    | false =>
      rw [if_neg (by simp), and_iff_right rfl]
      by_cases hlast : Dict.lastWrite (machine.journal writes {} as) name = some .reconnecting
      · rw [if_pos hlast]
        exact iff_of_true rfl hlast
      · rw [if_neg hlast]
        exact iff_of_false (by simp) hlast
  refine ⟨?_, hreconnecting, fun h => ?_⟩
  · rw [hshown, Option.some.injEq]
    exact shown_eq_connected_iff
  · obtain ⟨bs, a, cs, u, u', rfl, hbs, hstep, hlast, hnone⟩ :=
      Machine.exists_lastWrite hrun (hreconnecting.mp h).2
    obtain ⟨⟨call, rfl⟩, hseen⟩ := happened_of_reconnecting hbs (Dict.mem_of_lastWrite hlast)
    exact ⟨bs, call, cs, u, u', rfl, hbs, hstep, hseen, hnone⟩

/-- A bridge that a `connect_all` saw unconnected, came up and dropped again. -/
theorem readiness_of_run_dropped :
    ∃ t, machine.run {} [.register "crm" 0, .connectAll 0, .connectEnds 0 0 .returned,
        .gathered 0, .link 0 true, .link 0 false] = some t
      ∧ t.bridgeStatus.get? "crm" = some .reconnecting := by
  obtain ⟨t, hrun, hbridge, hdown, hlast⟩ : ∃ t, machine.run {} [.register "crm" 0, .connectAll 0,
      .connectEnds 0 0 .returned, .gathered 0, .link 0 true, .link 0 false] = some t
      ∧ t.bridges.get? "crm" = some 0 ∧ t.isConnected 0 = false
      ∧ Dict.lastWrite (machine.journal writes {} [.register "crm" 0, .connectAll 0,
        .connectEnds 0 0 .returned, .gathered 0, .link 0 true, .link 0 false]) "crm"
        = some .reconnecting :=
    ⟨_, rfl, rfl, rfl, rfl⟩
  exact ⟨t, hrun, ((readiness_of_run hrun).2.2 "crm" 0 hbridge).2.1.mpr ⟨hdown, hlast⟩⟩

/-! ## `disconnect_all` -/

/-- **What a `disconnect_all` has come to**, if the dictionary had the given
names when it began: it has asked the first of them, one after another, all of
them if it has returned. -/
def AsksInOrder (names : List String) : Disconnecting → Prop
  | .idle => False
  | .awaiting size asked entry =>
    size = names.length ∧ (asked ++ [entry]).map Prod.fst <+: names
  | .returned asked => asked.map Prod.fst = names
  | .raised asked exc =>
    exc = .runtimeError "dictionary changed size during iteration"
      ∧ asked ≠ [] ∧ asked.map Prod.fst <+: names
  | .cancelled asked => asked.map Prod.fst <+: names

/-- The names asked are the first ones of the dict, and the next entry goes on
behind them. -/
theorem prefix_concat_of_getElem? {d : Dict String ℕ} {asked : List (String × ℕ)}
    {entry : String × ℕ} (hasked : asked.map Prod.fst <+: d.keys)
    (hentry : d[asked.length]? = some entry) : (asked ++ [entry]).map Prod.fst <+: d.keys := by
  have hname : d.keys[asked.length]? = some entry.1 := by
    rw [Dict.keys, List.getElem?_map, hentry]
    rfl
  obtain ⟨rest, hrest⟩ := hasked
  rw [← hrest, List.getElem?_append_right (by rw [List.length_map]), List.length_map,
    Nat.sub_self] at hname
  cases rest with
  | nil => cases hname
  | cons name rest =>
    refine ⟨rest, ?_⟩
    rw [← hrest, List.map_append, List.append_assoc]
    exact congrArg (fun n => asked.map Prod.fst ++ n :: rest) (Option.some.inj hname).symm

/-- **The loop goes on**, and fails if the dictionary has grown. -/
theorem asksInOrder_nextEntry {s : State} {names : List String} {asked : List (String × ℕ)}
    (hnames : names <+: s.bridges.keys) (hasked : asked.map Prod.fst <+: names)
    (hne : asked = [] → s.bridges.length = names.length) :
    AsksInOrder names (s.nextEntry names.length asked) := by
  rw [State.nextEntry]
  by_cases hsize : s.bridges.length = names.length
  · rw [if_neg (not_not.mpr hsize)]
    have hkeys : names = s.bridges.keys :=
      hnames.eq_of_length (by rw [Dict.keys, List.length_map, hsize])
    cases hentry : s.bridges[asked.length]? with
    | some entry =>
      refine ⟨rfl, ?_⟩
      rw [hkeys] at hasked ⊢
      exact prefix_concat_of_getElem? hasked hentry
    | none =>
      have hlength : names.length ≤ asked.length :=
        hsize ▸ List.getElem?_eq_none_iff.mp hentry
      exact hasked.eq_of_length (le_antisymm hasked.length_le (by rwa [List.length_map]))
  · rw [if_pos hsize]
    exact ⟨rfl, fun hnil => hsize (hne hnil), hasked⟩

/-- Names are only added, at the end, and only by `register`. -/
theorem keys_prefix_step {s s' : State} {a : Event} (hstep : machine.step s a = some s') :
    s.bridges.keys <+: s'.bridges.keys := by
  cases moves_of_step hstep with
  | register name bridge =>
    show s.bridges.keys <+: (s.bridges.set name bridge).keys
    by_cases hname : name ∈ s.bridges.keys
    · exact Dict.keys_set_of_mem hname bridge ▸ List.prefix_rfl
    · rw [Dict.set_of_notMem _ _ hname, Dict.keys, Dict.keys, List.map_append]
      exact List.prefix_append _ _
  | _ => exact List.prefix_rfl

/-- **One step of other calls and of this one** keeps the order. -/
theorem asksInOrder_step {s s' : State} {a : Event} {names : List String} {call : ℕ}
    (hnames : names <+: s.bridges.keys) (h : AsksInOrder names (s.disconnecting call))
    (hstep : machine.step s a = some s') : AsksInOrder names (s'.disconnecting call) := by
  cases moves_of_step hstep with
  | @disconnectAll call' hidle =>
    have hne : call ≠ call' := by
      rintro rfl
      rw [hidle] at h
      exact h
    show AsksInOrder names (Function.update s.disconnecting call' _ call)
    rwa [Function.update_of_ne hne]
  | @disconnectEnds call' size asked entry o hawaiting =>
    show AsksInOrder names (Function.update s.disconnecting call' _ call)
    by_cases hcall : call = call'
    · subst hcall
      rw [hawaiting] at h
      obtain ⟨rfl, hasked⟩ := h
      rw [Function.update_self]
      split
      · exact hasked
      · exact asksInOrder_nextEntry hnames hasked (by simp)
    · rwa [Function.update_of_ne hcall]
  | _ => exact h

/-- A call, in a dictionary that has had the given names. -/
structure Asking (names : List String) (call : ℕ) (s : State) : Prop where
  keys : names <+: s.bridges.keys
  asks : AsksInOrder names (s.disconnecting call)

theorem Asking.step {s s' : State} {a : Event} {names : List String} {call : ℕ}
    (h : Asking names call s) (hstep : machine.step s a = some s') : Asking names call s' :=
  ⟨h.keys.trans (keys_prefix_step hstep), asksInOrder_step h.keys h.asks hstep⟩

/-- A call that has not failed, in a dictionary that keeps its names. -/
structure Unfailed (names : List String) (call : ℕ) (s : State) : Prop where
  keys : s.bridges.keys = names
  asks : AsksInOrder names (s.disconnecting call)
  notRaised : ∀ asked exc, s.disconnecting call ≠ .raised asked exc

/-- The loop does not fail in a dictionary of its size. -/
theorem nextEntry_ne_raised {s : State} {asked : List (String × ℕ)} (asked' : List (String × ℕ))
    (exc : PyExc) : s.nextEntry s.bridges.length asked ≠ .raised asked' exc := by
  rw [State.nextEntry, if_neg (not_not.mpr rfl)]
  split <;> simp

/-- **One step that registers no new name** lets no call fail. -/
theorem unfailed_step {s s' : State} {a : Event} {names : List String} {call : ℕ}
    (h : Unfailed names call s) (hnew : ∀ name bridge, a = .register name bridge → name ∈ names)
    (hstep : machine.step s a = some s') : Unfailed names call s' := by
  have hasks : AsksInOrder names (s'.disconnecting call) :=
    asksInOrder_step (h.keys ▸ List.prefix_rfl) h.asks hstep
  cases moves_of_step hstep with
  | register name bridge =>
    refine ⟨?_, hasks, h.notRaised⟩
    show (s.bridges.set name bridge).keys = names
    rw [Dict.keys_set_of_mem (h.keys ▸ hnew name bridge rfl), h.keys]
  | @disconnectAll call' hidle =>
    refine ⟨h.keys, hasks, fun asked exc => ?_⟩
    show Function.update s.disconnecting call' _ call ≠ _
    by_cases hcall : call = call'
    · subst hcall
      rw [Function.update_self]
      exact nextEntry_ne_raised asked exc
    · rw [Function.update_of_ne hcall]
      exact h.notRaised asked exc
  | @disconnectEnds call' size asked entry o hawaiting =>
    refine ⟨h.keys, hasks, fun asked' exc => ?_⟩
    show Function.update s.disconnecting call' _ call ≠ _
    by_cases hcall : call = call'
    · subst hcall
      have hsize : size = s.bridges.length := by
        have hawaits := h.asks
        rw [hawaiting] at hawaits
        rw [hawaits.1, ← h.keys, Dict.keys, List.length_map]
      rw [Function.update_self, hsize]
      split
      · simp
      · exact nextEntry_ne_raised asked' exc
    · rw [Function.update_of_ne hcall]
      exact h.notRaised asked' exc
  | _ => exact ⟨h.keys, hasks, h.notRaised⟩

/-- **What a `disconnect_all` does while others register bridges.** It asks the
names that were registered when it began, one after another in that order; when
it returns it has asked every one of them. It fails with nothing but a
`RuntimeError`, behind some of them, and only where a new name has been
registered since it began: while none is, it does not fail. -/
theorem disconnectAll_of_run {s t : State} {call : ℕ} {as : List Event}
    (hrun : machine.run s (.disconnectAll call :: as) = some t) :
    AsksInOrder s.bridges.keys (t.disconnecting call)
      ∧ ((∀ name bridge, Event.register name bridge ∈ as → name ∈ s.bridges.keys) →
        ∀ asked exc, t.disconnecting call ≠ .raised asked exc) := by
  obtain ⟨u, hfirst, hrest⟩ := machine.run_cons_eq_some.mp hrun
  have hbegun : Unfailed s.bridges.keys call u := by
    cases moves_of_step hfirst with
    | disconnectAll hidle =>
      refine ⟨rfl, ?_, fun asked exc => ?_⟩
      · show AsksInOrder _ (Function.update s.disconnecting call _ call)
        rw [Function.update_self]
        have hnext : AsksInOrder s.bridges.keys (s.nextEntry s.bridges.keys.length []) :=
          asksInOrder_nextEntry (List.prefix_refl s.bridges.keys) List.nil_prefix
            (fun _ => (List.length_map _).symm)
        have hlength : s.bridges.keys.length = s.bridges.length := List.length_map _
        rwa [hlength] at hnext
      · show Function.update s.disconnecting call _ call ≠ _
        rw [Function.update_self]
        exact nextEntry_ne_raised asked exc
  constructor
  · have hasking : Asking s.bridges.keys call t :=
      machine.run_invariant (fun _ _ _ h hstep => h.step hstep)
        ⟨hbegun.keys ▸ List.prefix_rfl, hbegun.asks⟩ hrest
    exact hasking.asks
  · intro hold
    refine (machine.run_invariant_of_forall
      (C := fun a => ∀ name bridge, a = .register name bridge → name ∈ s.bridges.keys)
      (fun v a v' h hnew hstep => unfailed_step h hnew hstep) hbegun ?_ hrest).notRaised
    rintro a ha name bridge rfl
    exact hold name bridge ha

/-- **A name that is registered in between.** The first of two bridges is
asked, and the loop fails. -/
theorem disconnectAll_of_run_grown :
    ∃ t, machine.run { bridges := [("crm", 0), ("payments", 1)] }
        [.disconnectAll 7, .register "news" 2, .disconnectEnds 7 .returned] = some t
      ∧ t.disconnecting 7 = .raised [("crm", 0)]
        (.runtimeError "dictionary changed size during iteration")
      ∧ AsksInOrder ["crm", "payments"] (t.disconnecting 7) := by
  obtain ⟨t, hrun, hraised⟩ : ∃ t, machine.run { bridges := [("crm", 0), ("payments", 1)] }
      [.disconnectAll 7, .register "news" 2, .disconnectEnds 7 .returned] = some t
      ∧ t.disconnecting 7 = .raised [("crm", 0)]
        (.runtimeError "dictionary changed size during iteration") := ⟨_, rfl, rfl⟩
  exact ⟨t, hrun, hraised, (disconnectAll_of_run hrun).1⟩

end BridgeHealth
