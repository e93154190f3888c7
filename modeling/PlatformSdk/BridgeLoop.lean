import PlatformSdk.McpBridge
import PlatformSdk.Run

/-!
# The background task of a bridge

`connect` makes two events and a task, and stores all three on the bridge. The
task, `_reconnect_loop`, opens one connection after another: it opens the
stream, enters the session, stores it in `_session`, awaits its handshake,
holds it until the stop event is set or the connection drops, awaits the exit
stack, and clears `_session`. In between it pauses, in slices of a second.
`disconnect` sets the stop event and awaits the task.

Every await is a point where other tasks run, so the machine steps from one
await to the next. A second `connect` is not refused: it replaces the events
and the task on the bridge, and the loop that is already there reads the new
stop event from then on. Events and tasks are numbered here by the call of
`connect` that made them, so that the stop event on the bridge is the last one
made.

`_session` is set while the handshake is still to come, and cleared only after
the exit stack has closed, so what `is_connected` reports is that there is a
session, not that it is ready (`along_ready_iff`). And the bridge has one loop,
which `disconnect` leaves dead, as long as `connect` is called only when no
loop is alive and no `disconnect` is under way (`single_loop_along`).
-/

namespace BridgeLoop

/-- **What an await of the loop can raise**: an `Exception`, a cancellation, or
any other `BaseException`. -/
inductive Interrupt where
  | exception
  | cancelled
  | escaped
  deriving DecidableEq

/-- **Where a loop is**: at which of its awaits, or before the first or behind
the last of them. -/
inductive Phase where
  /-- There is no such task. -/
  | absent
  /-- The task has been made and has not begun. -/
  | pending
  /-- Awaiting the stream. -/
  | opening
  /-- Awaiting `ClientSession.__aenter__`. -/
  | entering
  /-- Awaiting `initialize()`. -/
  | initializing
  /-- Awaiting the stop event of a number. -/
  | holding (stop : ℕ)
  /-- Awaiting the exit stack. -/
  | closing
  /-- Sleeping a slice of a pause. -/
  | pausing (delay elapsed : ℕ) (since : ℚ)
  /-- The task is over, and an await of it raises or not. -/
  | done (raises : Bool)
  deriving DecidableEq

/-- **A loop**: where it is, and its `consecutive_failures`, a local variable of
its own. -/
structure Loop where
  phase : Phase := .absent
  failures : ℕ := 0

/-- A call of `connect`, by its number, and whether its wait for the connected
event is over. -/
inductive Connecting where
  | idle
  /-- Awaiting its connected event. -/
  | waiting (since : ℚ) (timeout : FloatValue)
  | returned

/-- A call of `disconnect`, by its number: not made, awaiting a task, or over.
-/
inductive Disconnecting where
  | idle
  /-- Awaiting the task of a number. -/
  | awaiting (task : ℕ)
  | returned
  /-- The awaited task has been cancelled, or ended with a
  `BaseException`. -/
  | raised
  deriving DecidableEq

/-- **A bridge, its loops and the calls on it.** -/
structure State where
  now : ℚ
  /-- How many times `connect` has been called. -/
  connects : ℕ := 0
  /-- The stop events that are set. -/
  stopSet : ℕ → Bool := fun _ => false
  /-- The connected events that are set. -/
  connectedSet : ℕ → Bool := fun _ => false
  /-- `_bg_task`. -/
  bgTask : Option ℕ := none
  /-- `_session`, by the loop that entered it. -/
  session : Option ℕ := none
  loop : ℕ → Loop := fun _ => {}
  connecting : ℕ → Connecting := fun _ => .idle
  disconnecting : ℕ → Disconnecting := fun _ => .idle

/-- **What can happen** to a bridge: each event takes a call or a loop from one
of its awaits to the next. -/
inductive Event where
  | tick (d : ℚ)
  | connect (startupTimeout : FloatValue)
  /-- A `connect` has its connection, or gives up waiting for it. -/
  | connectReturns (k : ℕ)
  | disconnect (j : ℕ)
  /-- The task a `disconnect` awaits is over. -/
  | disconnectResumes (j : ℕ)
  /-- A tool of the bridge is invoked. -/
  | invoke
  /-- The task of a loop begins. -/
  | begins (k : ℕ)
  | opened (k : ℕ)
  | entered (k : ℕ)
  | initialized (k : ℕ)
  /-- The stop event a loop awaits is set. -/
  | stopSeen (k : ℕ)
  /-- The await of a loop raises. -/
  | interrupted (k : ℕ) (r : Interrupt)
  /-- The exit stack of a loop is through, and has raised or not. -/
  | closed (k : ℕ) (r : Option Interrupt)
  /-- A slice of a pause is over. -/
  | slept (k : ℕ)

namespace State

/-- `_stop_event` and `_connected_event`: the last ones made, each `connect`
making two of its own. -/
def currentEvent (s : State) : Option ℕ :=
  match s.connects with
  | 0 => none
  | n + 1 => some n

/-- `self._stop_event.is_set()`, which a loop asks of the event that is current,
not of the one it began with. -/
def stopping (s : State) : Bool :=
  match s.currentEvent with
  | some e => s.stopSet e
  | none => false

/-- `is_connected`: a session is there, whatever it can be used for. -/
def isConnected (s : State) : Bool := s.session.isSome

/-- A loop moves on, and keeps its count of failures. -/
def setPhase (s : State) (k : ℕ) (p : Phase) : State :=
  { s with loop := Function.update s.loop k { s.loop k with phase := p } }

/-- A loop counts its failures anew, or one more of them. -/
def setFailures (s : State) (k : ℕ) (n : ℕ) : State :=
  { s with loop := Function.update s.loop k { s.loop k with failures := n } }

/-- The head of the `while` loop: it goes on to another attempt, unless the stop
event is set. -/
def enterLoop (s : State) (k : ℕ) : State :=
  if s.stopping then s.setPhase k (.done false) else s.setPhase k .opening

/-- The pause after an attempt, unless the loop is to stop. -/
def pause (s : State) (k : ℕ) : State :=
  if s.stopping then s.setPhase k (.done false)
  else s.setPhase k (.pausing (min (2 ^ (s.loop k).failures) 60) 0 s.now)

/-- **The end of an attempt**: the `except` clause and the `finally`, and what
comes after. -/
def afterTry (s : State) (k : ℕ) (r : Option Interrupt) : State :=
  let s := { s with session := none }
  match r with
  | none => s.pause k
  | some .exception => (s.setFailures k ((s.loop k).failures + 1)).pause k
  | some .cancelled => s.setPhase k (.done false)
  | some .escaped => s.setPhase k (.done true)

/-- The handshake is over: `connect` is told, and the stop event awaited,
unless it is set. -/
def handshakeDone (s : State) (k : ℕ) : State :=
  match s.currentEvent with
  | some e =>
    let s := { s.setFailures k 0 with connectedSet := Function.update s.connectedSet e true }
    if s.stopSet e then s.setPhase k .closing else s.setPhase k (.holding e)
  | none => (s.setFailures k 0).setPhase k .closing

/-- The start of `connect`: two fresh events and a task. -/
def spawn (s : State) (startupTimeout : FloatValue) : State where
  now := s.now
  connects := s.connects + 1
  stopSet := Function.update s.stopSet s.connects false
  connectedSet := Function.update s.connectedSet s.connects false
  bgTask := some s.connects
  session := s.session
  loop := Function.update s.loop s.connects { phase := .pending }
  connecting := Function.update s.connecting s.connects
    (if startupTimeout.isPositive then .waiting s.now startupTimeout else .returned)
  disconnecting := s.disconnecting

/-- The stop event on the bridge, if there is one, is set. -/
def requestStop (s : State) : State :=
  match s.currentEvent with
  | some e => { s with stopSet := Function.update s.stopSet e true }
  | none => s

/-- `disconnect` returns, and leaves no task on the bridge. -/
def released (s : State) (j : ℕ) : State :=
  { s with bgTask := none, disconnecting := Function.update s.disconnecting j .returned }

/-- `disconnect` awaits the task that is on the bridge, whichever loop it is by
now. -/
def awaitTask (s : State) (j t : ℕ) : State :=
  { s with disconnecting := Function.update s.disconnecting j (.awaiting t) }

/-- The start of `disconnect`, up to its await of the task it finds. -/
def stop (s : State) (j : ℕ) : State :=
  let s := s.requestStop
  match s.bgTask with
  | none => s.released j
  | some t =>
    match (s.loop t).phase with
    | .done _ => s.released j
    | _ => s.awaitTask j t

end State

/-- **One step of a bridge**, from one await to the next, where the event can
happen in the state. -/
def step (s : State) : Event → Option State
  | .tick d => if 0 ≤ d then some { s with now := s.now + d } else none
  | .connect startupTimeout => some (s.spawn startupTimeout)
  | .connectReturns k =>
    match s.connecting k with
    | .waiting since timeout =>
      if s.connectedSet k || (timeout.addTo since).reachedBy s.now then
        some { s with connecting := Function.update s.connecting k .returned }
      else none
    | _ => none
  | .disconnect j => if s.disconnecting j = .idle then some (s.stop j) else none
  | .disconnectResumes j =>
    match s.disconnecting j with
    | .awaiting t =>
      match (s.loop t).phase with
      | .done false => some (s.released j)
      | .done true =>
        some { s with disconnecting := Function.update s.disconnecting j .raised }
      | _ => none
    | _ => none
  | .invoke => some s
  | .begins k => if (s.loop k).phase = .pending then some (s.enterLoop k) else none
  | .opened k => if (s.loop k).phase = .opening then some (s.setPhase k .entering) else none
  | .entered k =>
    if (s.loop k).phase = .entering then
      some ({ s with session := some k }.setPhase k .initializing)
    else none
  | .initialized k =>
    if (s.loop k).phase = .initializing then some (s.handshakeDone k) else none
  | .stopSeen k =>
    match (s.loop k).phase with
    | .holding e => if s.stopSet e then some (s.setPhase k .closing) else none
    | _ => none
  | .interrupted k r =>
    match (s.loop k).phase, r with
    | .pending, .cancelled => some (s.setPhase k (.done true))
    | .opening, r => some (s.afterTry k (some r))
    -- the exit stack has something to close
    | .entering, _ | .initializing, _ | .holding _, _ => some (s.setPhase k .closing)
    -- a pause is outside the `try`
    | .pausing _ _ _, .cancelled | .pausing _ _ _, .escaped => some (s.setPhase k (.done true))
    | _, _ => none
  | .closed k r => if (s.loop k).phase = .closing then some (s.afterTry k r) else none
  | .slept k =>
    match (s.loop k).phase with
    | .pausing delay elapsed since =>
      if since + min 1 ((delay : ℚ) - elapsed) ≤ s.now then
        if elapsed + 1 < delay ∧ s.stopping = false then
          some (s.setPhase k (.pausing delay (elapsed + 1) s.now))
        else some (s.enterLoop k)
      else none
    | _ => none

/-- **The machine of a bridge**, with any number of calls and loops. -/
abbrev machine : Machine State Event := ⟨step⟩

/-- A new bridge, on which nobody has called `connect`. -/
def start (now : ℚ) : State := { now }

/-! ## What the operations change -/

namespace State

variable (s : State) (k : ℕ)

@[simp] theorem phase_setPhase_self (p : Phase) : ((s.setPhase k p).loop k).phase = p := by
  simp [setPhase]

theorem loop_setPhase_of_ne {j : ℕ} (h : j ≠ k) (p : Phase) :
    (s.setPhase k p).loop j = s.loop j := Function.update_of_ne h _ _

@[simp] theorem phase_setFailures (n j : ℕ) :
    ((s.setFailures k n).loop j).phase = (s.loop j).phase := by
  by_cases h : j = k
  · subst h
    simp [setFailures]
  · exact congrArg Loop.phase (Function.update_of_ne h _ _)

theorem loop_setFailures_of_ne {j : ℕ} (h : j ≠ k) (n : ℕ) :
    (s.setFailures k n).loop j = s.loop j := Function.update_of_ne h _ _

end State

/-- A loop that has been made and is not over. -/
def Phase.alive : Phase → Bool
  | .absent | .done _ => false
  | _ => true

/-- A loop that has entered a session and not cleared it. -/
def Phase.inSession : Phase → Bool
  | .initializing | .holding _ | .closing => true
  | _ => false

namespace State

/-- The loop of a number is alive: its task has been created and has not come to
its end. -/
def Alive (s : State) (k : ℕ) : Prop := (s.loop k).phase.alive = true

/-- **The session on the bridge is one that a loop has not cleared yet.** -/
def SessionOwned (s : State) : Prop :=
  ∀ k, s.session = some k → (s.loop k).phase.inSession = true

/-- **The session on the bridge is ready**: its handshake is over, and its exit
stack not begun. -/
def Ready (s : State) : Prop := ∀ k, s.session = some k → ∃ e, (s.loop k).phase = .holding e

/-- **What a step of one loop leaves alone**: the other loops, the tasks and
what has been set. -/
structure Moves (s : State) (k : ℕ) (s' : State) : Prop where
  connects_eq : s'.connects = s.connects
  bgTask_eq : s'.bgTask = s.bgTask
  disconnecting_eq : s'.disconnecting = s.disconnecting
  loop_eq : ∀ j, j ≠ k → s'.loop j = s.loop j
  /-- Only a loop that is alive moves. -/
  was_alive : s.Alive k
  /-- The session stays another loop's, or is the loop's own. -/
  session_eq : ∀ j, s'.session = some j →
    j ≠ k ∧ s.session = some j ∨ j = k ∧ (s'.loop k).phase.inSession = true

end State

/-- A loop that moves within its session, or without one. -/
theorem moves_setPhase {s : State} {k : ℕ} {p : Phase} (halive : s.Alive k)
    (hsession : s.session = some k → p.inSession = true) : s.Moves k (s.setPhase k p) where
  connects_eq := rfl
  bgTask_eq := rfl
  disconnecting_eq := rfl
  loop_eq _ hj := s.loop_setPhase_of_ne k hj p
  was_alive := halive
  session_eq j hj := by
    by_cases h : j = k
    · subst h
      exact Or.inr ⟨rfl, by rw [State.phase_setPhase_self]; exact hsession hj⟩
    · exact Or.inl ⟨h, hj⟩

/-- A loop that goes back to the head of the loop has no session. -/
theorem moves_enterLoop {s : State} {k : ℕ} (halive : s.Alive k) (hsession : s.session ≠ some k) :
    s.Moves k (s.enterLoop k) := by
  unfold State.enterLoop
  split <;> exact moves_setPhase halive fun h => absurd h hsession

/-- Counting failures and setting events moves nothing, so a step behind them is
a step of the loop. -/
theorem moves_of_setFailures {s s' : State} {k n : ℕ} {c : ℕ → Bool}
    (h : { s.setFailures k n with connectedSet := c }.Moves k s') : s.Moves k s' where
  connects_eq := h.connects_eq
  bgTask_eq := h.bgTask_eq
  disconnecting_eq := h.disconnecting_eq
  loop_eq j hj := (h.loop_eq j hj).trans (s.loop_setFailures_of_ne k hj n)
  was_alive := by
    have halive : ((s.setFailures k n).loop k).phase.alive = true := h.was_alive
    rwa [State.phase_setFailures] at halive
  session_eq := h.session_eq

/-- Clearing the session moves nothing else, so a loop that moves from the
cleared state moves from the state before. -/
theorem moves_of_clear {s s' : State} {k : ℕ} (h : { s with session := none }.Moves k s') :
    s.Moves k s' where
  connects_eq := h.connects_eq
  bgTask_eq := h.bgTask_eq
  disconnecting_eq := h.disconnecting_eq
  loop_eq := h.loop_eq
  was_alive := h.was_alive
  session_eq j hj := (h.session_eq j hj).elim (fun h' => nomatch h'.2) Or.inr

theorem moves_pause {s : State} {k : ℕ} (halive : s.Alive k) (hsession : s.session ≠ some k) :
    s.Moves k (s.pause k) := by
  unfold State.pause
  split <;> exact moves_setPhase halive fun h => absurd h hsession

/-- The end of an attempt clears the session, and leaves the other loops alone.
-/
theorem moves_afterTry {s : State} {k : ℕ} (halive : s.Alive k) (r : Option Interrupt) :
    s.Moves k (s.afterTry k r) := by
  refine moves_of_clear ?_
  have halive' : { s with session := none }.Alive k := halive
  have hnone : { s with session := none }.session ≠ some k := nofun
  rcases r with _ | _ | _ | _
  · exact moves_pause halive' hnone
  · refine moves_of_setFailures (c := s.connectedSet) (moves_pause ?_ hnone)
    show ((State.setFailures _ k _).loop k).phase.alive = true
    rw [State.phase_setFailures]
    exact halive'
  · exact moves_setPhase halive' fun h => absurd h hnone
  · exact moves_setPhase halive' fun h => absurd h hnone

/-- The end of the handshake keeps the session that was set before it. -/
theorem moves_handshakeDone {s : State} {k : ℕ} (halive : s.Alive k) :
    s.Moves k (s.handshakeDone k) := by
  have halive' : ((s.setFailures k 0).loop k).phase.alive = true := by
    rw [State.phase_setFailures]
    exact halive
  unfold State.handshakeDone
  split
  · next e _ =>
    refine moves_of_setFailures (n := 0) (c := Function.update s.connectedSet e true) ?_
    dsimp only
    split <;> exact moves_setPhase halive' fun _ => rfl
  · exact moves_of_setFailures (c := s.connectedSet) (moves_setPhase halive' fun _ => rfl)

/-- A session is stored where its handshake begins, and so before it is ready.
-/
theorem moves_entered {s : State} {k : ℕ} (halive : s.Alive k) :
    s.Moves k ({ s with session := some k }.setPhase k .initializing) where
  connects_eq := rfl
  bgTask_eq := rfl
  disconnecting_eq := rfl
  loop_eq _ hj := State.loop_setPhase_of_ne _ k hj _
  was_alive := halive
  session_eq j hj := by
    refine Or.inr ⟨(Option.some.inj hj).symm, ?_⟩
    rw [State.phase_setPhase_self]
    rfl

/-- The loop whose step an event is, where it is the step of one. -/
def Event.loop? : Event → Option ℕ
  | .begins k | .opened k | .entered k | .initialized k | .stopSeen k | .interrupted k _
  | .closed k _ | .slept k => some k
  | _ => none

/-- **A step of a loop moves that loop only.** -/
theorem moves_of_step {s s' : State} {e : Event} {k : ℕ} (hs : s.SessionOwned)
    (hk : e.loop? = some k) (hstep : step s e = some s') : s.Moves k s' := by
  have hout : (s.loop k).phase.inSession = false → s.session ≠ some k :=
    fun h h' => Bool.false_ne_true (h.symm.trans (hs k h'))
  cases e with
  | tick d | connect t | connectReturns i | disconnect j | disconnectResumes j | invoke =>
    cases hk
  | begins i =>
    obtain rfl := Option.some.inj hk
    obtain ⟨hp, h⟩ := Option.ite_none_right_eq_some.mp hstep
    exact Option.some.inj h ▸ moves_enterLoop (by rw [State.Alive, hp]; rfl)
      (hout (by rw [hp]; rfl))
  | opened i =>
    obtain rfl := Option.some.inj hk
    obtain ⟨hp, h⟩ := Option.ite_none_right_eq_some.mp hstep
    exact Option.some.inj h ▸ moves_setPhase (by rw [State.Alive, hp]; rfl)
      (fun h' => absurd h' (hout (by rw [hp]; rfl)))
  | entered i =>
    obtain rfl := Option.some.inj hk
    obtain ⟨hp, h⟩ := Option.ite_none_right_eq_some.mp hstep
    exact Option.some.inj h ▸ moves_entered (by rw [State.Alive, hp]; rfl)
  | initialized i =>
    obtain rfl := Option.some.inj hk
    obtain ⟨hp, h⟩ := Option.ite_none_right_eq_some.mp hstep
    exact Option.some.inj h ▸ moves_handshakeDone (by rw [State.Alive, hp]; rfl)
  | stopSeen i =>
    obtain rfl := Option.some.inj hk
    simp only [step] at hstep
    split at hstep
    · next e hp =>
      obtain ⟨-, h⟩ := Option.ite_none_right_eq_some.mp hstep
      exact Option.some.inj h ▸ moves_setPhase (by rw [State.Alive, hp]; rfl) (fun _ => rfl)
    · cases hstep
  | interrupted i r =>
    obtain rfl := Option.some.inj hk
    have hclear : ∀ {p q : Phase}, (s.loop i).phase = p → p.alive = true → p.inSession = false →
        some (s.setPhase i q) = some s' → s.Moves i s' := fun hp ha hi h =>
      Option.some.inj h ▸ moves_setPhase (by rw [State.Alive, hp]; exact ha)
        (fun h' => absurd h' (hout (by rw [hp]; exact hi)))
    have hclose : ∀ {p : Phase}, (s.loop i).phase = p → p.alive = true →
        some (s.setPhase i .closing) = some s' → s.Moves i s' := fun hp ha h =>
      Option.some.inj h ▸ moves_setPhase (by rw [State.Alive, hp]; exact ha) (fun _ => rfl)
    simp only [step] at hstep
    split at hstep
    · next hp => exact hclear hp rfl rfl hstep
    · next hp => exact Option.some.inj hstep ▸ moves_afterTry (by rw [State.Alive, hp]; rfl) _
    · next hp => exact hclose hp rfl hstep
    · next hp => exact hclose hp rfl hstep
    · next hp => exact hclose hp rfl hstep
    · next hp => exact hclear hp rfl rfl hstep
    · next hp => exact hclear hp rfl rfl hstep
    · cases hstep
  | closed i r =>
    obtain rfl := Option.some.inj hk
    obtain ⟨hp, h⟩ := Option.ite_none_right_eq_some.mp hstep
    exact Option.some.inj h ▸ moves_afterTry (by rw [State.Alive, hp]; rfl) r
  | slept i =>
    obtain rfl := Option.some.inj hk
    simp only [step] at hstep
    split at hstep
    · next delay elapsed since hp =>
      have halive : s.Alive i := by rw [State.Alive, hp]; rfl
      have hsession : s.session ≠ some i := hout (by rw [hp]; rfl)
      obtain ⟨-, h⟩ := Option.ite_none_right_eq_some.mp hstep
      split at h
      · exact Option.some.inj h ▸ moves_setPhase halive fun h' => absurd h' hsession
      · exact Option.some.inj h ▸ moves_enterLoop halive hsession
    · cases hstep

/-- **What a step can be**: one of the bridge's own, or the step of a loop. -/
inductive Took (s : State) : Event → State → Prop
  | tick {d : ℚ} (hd : 0 ≤ d) : Took s (.tick d) { s with now := s.now + d }
  | connect (timeout : FloatValue) : Took s (.connect timeout) (s.spawn timeout)
  | connectReturns (k : ℕ) :
    Took s (.connectReturns k) { s with connecting := Function.update s.connecting k .returned }
  | disconnect {j : ℕ} (hj : s.disconnecting j = .idle) : Took s (.disconnect j) (s.stop j)
  | released {j t : ℕ} (hj : s.disconnecting j = .awaiting t)
    (ht : (s.loop t).phase = .done false) : Took s (.disconnectResumes j) (s.released j)
  | raised {j t : ℕ} (hj : s.disconnecting j = .awaiting t)
    (ht : (s.loop t).phase = .done true) :
    Took s (.disconnectResumes j)
      { s with disconnecting := Function.update s.disconnecting j .raised }
  | invoke : Took s .invoke s
  | moved {e : Event} {s' : State} (k : ℕ) (h : s.Moves k s') : Took s e s'

/-- Every step is of one of these kinds, so that what they all keep is shown
once for each kind and not for each branch of the step. -/
theorem took_of_step {s s' : State} {e : Event} (hs : s.SessionOwned) (h : step s e = some s') :
    Took s e s' := by
  cases e with
  | tick d =>
    obtain ⟨hd, h⟩ := Option.ite_none_right_eq_some.mp h
    exact Option.some.inj h ▸ .tick hd
  | connect timeout => exact Option.some.inj h ▸ .connect timeout
  | connectReturns k =>
    simp only [step] at h
    split at h
    · obtain ⟨-, h⟩ := Option.ite_none_right_eq_some.mp h
      exact Option.some.inj h ▸ .connectReturns k
    · cases h
  | disconnect j =>
    obtain ⟨hj, h⟩ := Option.ite_none_right_eq_some.mp h
    exact Option.some.inj h ▸ .disconnect hj
  | disconnectResumes j =>
    simp only [step] at h
    split at h
    · next t hj =>
      split at h
      · next ht => exact Option.some.inj h ▸ .released hj ht
      · next ht => exact Option.some.inj h ▸ .raised hj ht
      · cases h
    · cases h
  | invoke => exact Option.some.inj h ▸ .invoke
  | begins k | opened k | entered k | initialized k | stopSeen k | closed k r | slept k
  | interrupted k r => exact .moved k (moves_of_step hs rfl h)

/-! ## The session on the bridge -/

namespace State

variable (s : State) (k j : ℕ)

@[simp] theorem session_enterLoop : (s.enterLoop k).session = s.session := by
  unfold enterLoop
  split <;> rfl

@[simp] theorem session_pause : (s.pause k).session = s.session := by
  unfold pause
  split <;> rfl

@[simp] theorem session_afterTry (r : Option Interrupt) : (s.afterTry k r).session = none := by
  rcases r with _ | _ | _ | _
  · exact session_pause _ k
  · exact session_pause _ k
  · rfl
  · rfl

@[simp] theorem session_handshakeDone : (s.handshakeDone k).session = s.session := by
  unfold handshakeDone
  split
  · dsimp only
    split <;> rfl
  · rfl

@[simp] theorem requestStop_session : s.requestStop.session = s.session := by
  unfold requestStop
  split <;> rfl

@[simp] theorem requestStop_loop : s.requestStop.loop = s.loop := by
  unfold requestStop
  split <;> rfl

@[simp] theorem requestStop_bgTask : s.requestStop.bgTask = s.bgTask := by
  unfold requestStop
  split <;> rfl

@[simp] theorem requestStop_disconnecting : s.requestStop.disconnecting = s.disconnecting := by
  unfold requestStop
  split <;> rfl

theorem disconnecting_awaitTask_self (t : ℕ) :
    (s.awaitTask j t).disconnecting j = .awaiting t := Function.update_self _ _ _

theorem disconnecting_awaitTask_of_ne (t : ℕ) {i : ℕ} (h : i ≠ j) :
    (s.awaitTask j t).disconnecting i = s.disconnecting i := Function.update_of_ne h _ _

/-- **How `disconnect` begins**: it returns at once when there is no task or
the task is over, and awaits the task otherwise. -/
theorem stop_cases :
    ((∀ t, s.bgTask = some t → ¬ s.Alive t) ∧ s.stop j = s.requestStop.released j)
      ∨ ∃ t, s.bgTask = some t ∧ s.stop j = s.requestStop.awaitTask j t := by
  unfold stop
  dsimp only
  rw [requestStop_bgTask, requestStop_loop]
  cases ht : s.bgTask with
  | none => exact Or.inl ⟨nofun, rfl⟩
  | some t =>
    dsimp only
    split
    · next b hp =>
      refine Or.inl ⟨fun t' ht' => ?_, rfl⟩
      rw [← Option.some.inj ht', Alive, hp]
      exact Bool.false_ne_true
    · exact Or.inr ⟨t, rfl, rfl⟩

theorem session_stop : (s.stop j).session = s.session := by
  rcases s.stop_cases j with ⟨-, h⟩ | ⟨t, -, h⟩ <;> rw [h] <;> exact s.requestStop_session

end State

/-- **Where a session on the bridge comes from**: it was there, or it is being
entered. -/
theorem session_of_step {s s' : State} {e : Event} (h : step s e = some s') :
    s'.session = s.session ∨ s'.session = none
      ∨ ∃ k, e = .entered k ∧ (s.loop k).phase = .entering := by
  cases e with
  | tick d =>
    obtain ⟨-, h⟩ := Option.ite_none_right_eq_some.mp h
    exact Or.inl (Option.some.inj h ▸ rfl)
  | connect t => exact Or.inl (Option.some.inj h ▸ rfl)
  | connectReturns k =>
    simp only [step] at h
    split at h
    · obtain ⟨-, h⟩ := Option.ite_none_right_eq_some.mp h
      exact Or.inl (Option.some.inj h ▸ rfl)
    · cases h
  | disconnect j =>
    obtain ⟨-, h⟩ := Option.ite_none_right_eq_some.mp h
    exact Or.inl (Option.some.inj h ▸ s.session_stop j)
  | disconnectResumes j =>
    simp only [step] at h
    split at h
    · split at h
      · exact Or.inl (Option.some.inj h ▸ rfl)
      · exact Or.inl (Option.some.inj h ▸ rfl)
      · cases h
    · cases h
  | invoke => exact Or.inl (Option.some.inj h ▸ rfl)
  | begins k =>
    obtain ⟨-, h⟩ := Option.ite_none_right_eq_some.mp h
    exact Or.inl (Option.some.inj h ▸ s.session_enterLoop k)
  | opened k =>
    obtain ⟨-, h⟩ := Option.ite_none_right_eq_some.mp h
    exact Or.inl (Option.some.inj h ▸ rfl)
  | entered k =>
    obtain ⟨hp, -⟩ := Option.ite_none_right_eq_some.mp h
    exact Or.inr (Or.inr ⟨k, rfl, hp⟩)
  | initialized k =>
    obtain ⟨-, h⟩ := Option.ite_none_right_eq_some.mp h
    exact Or.inl (Option.some.inj h ▸ s.session_handshakeDone k)
  | stopSeen k =>
    simp only [step] at h
    split at h
    · obtain ⟨-, h⟩ := Option.ite_none_right_eq_some.mp h
      exact Or.inl (Option.some.inj h ▸ rfl)
    · cases h
  | interrupted k r =>
    simp only [step] at h
    split at h
    case h_2 => exact Or.inr (Or.inl (Option.some.inj h ▸ s.session_afterTry k _))
    case h_8 => cases h
    all_goals exact Or.inl (Option.some.inj h ▸ rfl)
  | closed k r =>
    obtain ⟨-, h⟩ := Option.ite_none_right_eq_some.mp h
    exact Or.inr (Or.inl (Option.some.inj h ▸ s.session_afterTry k r))
  | slept k =>
    simp only [step] at h
    split at h
    · obtain ⟨-, h⟩ := Option.ite_none_right_eq_some.mp h
      split at h
      · exact Or.inl (Option.some.inj h ▸ rfl)
      · exact Or.inl (Option.some.inj h ▸ s.session_enterLoop k)
    · cases h

/-- What a coroutine of a tool reads of its bridge. -/
def State.view (s : State) (sseUrl : String) (toolCallTimeout : PyFloat) : Bridge :=
  ⟨sseUrl, toolCallTimeout, s.isConnected⟩

/-- **A tool calls its server exactly when the bridge shows a session**, ready
or not. -/
theorem invoke_calls_iff (s : State) (sseUrl : String) (toolCallTimeout : PyFloat)
    (toolName : String) (sessionScoped : Bool) (bridgeSessionId sessionIdCtx : Option String)
    (userCtx : Option UserContext) (kwargs : Dict String Json) (outcome : CallOutcome) :
    (invoke (s.view sseUrl toolCallTimeout) toolName sessionScoped bridgeSessionId
        sessionIdCtx userCtx kwargs outcome).2 ≠ [] ↔ ∃ k, s.session = some k := by
  rw [← Option.isSome_iff_exists]
  show _ ↔ s.isConnected = true
  rw [invoke]
  show (if s.isConnected = true then _ else _ : String × List ToolCall).2 ≠ [] ↔ _
  split <;> simp_all

/-- **The bridge shows ready sessions only**: after the step, and where a tool
is invoked before it, the session there is one whose handshake is over and
whose exit stack has not begun. -/
def ReadyThroughout (s : State) (e : Event) : Prop :=
  (e = .invoke → s.Ready) ∧ ∀ s', step s e = some s' → s'.Ready

/-- **No attempt gets as far as entering its session.** -/
def NeverEnters (s : State) (e : Event) : Prop :=
  ∀ k, e = .entered k → (s.loop k).phase ≠ .entering

/-- A session is shown before its handshake, so a bridge that is ready
throughout never enters one. -/
theorem neverEnters_of_readyThroughout {s : State} {e : Event} (h : ReadyThroughout s e) :
    NeverEnters s e := by
  rintro k rfl hp
  have hstep : step s (.entered k)
      = some ({ s with session := some k }.setPhase k .initializing) := if_pos hp
  obtain ⟨e, he⟩ := h.2 _ hstep k rfl
  rw [State.phase_setPhase_self] at he
  cases he

/-- Without a session on the bridge none is shown. -/
theorem ready_of_session_eq_none {s : State} (h : s.session = none) : s.Ready :=
  fun _ hk => absurd (h.symm.trans hk) nofun

/-- **When `_session` is a session that is ready.** In every run of a bridge,
whatever its loops, its tools and the calls of `connect` and `disconnect` do,
the session it shows is ready throughout if and only if none is ever
entered. -/
theorem along_ready_iff (now : ℚ) (es : List Event) :
    machine.Along ReadyThroughout (start now) es ↔ machine.Along NeverEnters (start now) es := by
  refine ⟨machine.along_mono fun s e => neverEnters_of_readyThroughout, ?_⟩
  have hstep : ∀ s e s', s.session = none → NeverEnters s e → step s e = some s' →
      s'.session = none := by
    intro s e s' hs he h
    rcases session_of_step h with h' | h' | ⟨k, hk, hp⟩
    · exact h'.trans hs
    · exact h'
    · exact absurd hp (he k hk)
  exact machine.along_of_invariant (I := fun s => s.session = none) hstep
    (fun s e hs he => ⟨fun _ => ready_of_session_eq_none hs,
      fun s' h => ready_of_session_eq_none (hstep s e s' hs he h)⟩) rfl

/-- A bridge that connects, up to its handshake, where the session is already
set. -/
def handshakeEvents : List Event := [.connect (.finite 60), .begins 0, .opened 0, .entered 0]

/-- **A tool is invoked during the handshake**: the session is stored before
`initialize` has returned. -/
theorem not_along_ready :
    ¬ machine.Along ReadyThroughout (start 0) (handshakeEvents ++ [.invoke]) := by
  have hend : (machine.run (start 0) handshakeEvents).map
      (fun s => (s.session, (s.loop 0).phase)) = some (some 0, .initializing) := by
    decide +kernel
  obtain ⟨s, hrun, hvalues⟩ := Option.map_eq_some_iff.mp hend
  obtain ⟨hsession, hphase⟩ := Prod.mk.inj hvalues
  refine machine.not_along_concat hrun fun h => ?_
  obtain ⟨_, he⟩ := h.1 rfl 0 hsession
  rw [hphase] at he
  cases he

/-! ## One loop at a time -/

namespace State

/-- Nothing has been made beyond the calls of `connect` so far. -/
def Fresh (s : State) : Prop := ∀ k, s.connects ≤ k → (s.loop k).phase = .absent

/-- **What holds of every bridge**, however it is used: loops come from calls of
`connect`, and the session from a loop. -/
structure Sound (s : State) : Prop where
  fresh : s.Fresh
  session : s.SessionOwned

/-- **What holds of a bridge whose connects come one at a time**: a loop that is
alive is the last one made and the one on the bridge, and whoever disconnects
awaits it. -/
structure Single (s : State) : Prop extends s.Sound where
  newest : ∀ k, s.Alive k → k + 1 = s.connects
  owned : ∀ k, s.Alive k → s.bgTask = some k
  awaited : ∀ j t k, s.disconnecting j = .awaiting t → s.Alive k → t = k

/-- No loop is alive: each has ended, or was never made. -/
def Quiet (s : State) : Prop := ∀ k, ¬ s.Alive k

/-- **`connect` is called when no loop is alive and no `disconnect` is under
way.** -/
def ConnectsAlone (s : State) : Event → Prop
  | .connect _ => s.Quiet ∧ ∀ j t, s.disconnecting j ≠ .awaiting t
  | _ => True

/-- A `disconnect` returns in the step, with or without having waited for a
task. -/
def Returns (s : State) (j : ℕ) (s' : State) : Prop :=
  s.disconnecting j ≠ .returned ∧ s'.disconnecting j = .returned

end State

theorem alive_of_inSession {p : Phase} (h : p.inSession = true) : p.alive = true := by
  cases p <;> first | rfl | cases h

/-- Without a loop that is alive there is no session. -/
theorem session_eq_none_of_quiet {s : State} (hs : s.SessionOwned) (hq : s.Quiet) :
    s.session = none :=
  Option.eq_none_iff_forall_ne_some.mpr fun k hk => hq k (alive_of_inSession (hs k hk))

/-- Who is alive after the step of a loop was so before. -/
theorem alive_of_moves {s s' : State} {k j : ℕ} (h : s.Moves k s') (hj : s'.Alive j) :
    s.Alive j := by
  by_cases hjk : j = k
  · exact hjk ▸ h.was_alive
  · rw [State.Alive, h.loop_eq j hjk] at hj
    exact hj

/-- The step of a loop stores its own session, or none. -/
theorem sound_of_moves {s s' : State} {k : ℕ} (hs : s.Sound) (h : s.Moves k s') : s'.Sound where
  fresh j hj := by
    rw [h.connects_eq] at hj
    have hne : j ≠ k := by
      rintro rfl
      have halive := h.was_alive
      rw [State.Alive, hs.fresh j hj] at halive
      cases halive
    rw [h.loop_eq j hne]
    exact hs.fresh j hj
  session j hj := by
    rcases h.session_eq j hj with ⟨hne, hold⟩ | ⟨rfl, hin⟩
    · rw [h.loop_eq j hne]
      exact hs.session j hold
    · exact hin

theorem loop_spawn_of_ne (s : State) (timeout : FloatValue) {k : ℕ} (hk : k ≠ s.connects) :
    (s.spawn timeout).loop k = s.loop k := Function.update_of_ne hk _ _

/-- A new loop has no session yet, so a session there is belongs to an older
one. -/
theorem sound_spawn {s : State} (hs : s.Sound) (timeout : FloatValue) :
    (s.spawn timeout).Sound where
  fresh k hk := by
    rw [loop_spawn_of_ne s timeout (Nat.ne_of_gt hk)]
    exact hs.fresh k (Nat.le_of_succ_le hk)
  session k hk := by
    have hin := hs.session k hk
    have hne : k ≠ s.connects := by
      rintro rfl
      rw [hs.fresh _ le_rfl] at hin
      cases hin
    rw [loop_spawn_of_ne s timeout hne]
    exact hin

theorem sound_requestStop {s : State} (hs : s.Sound) : s.requestStop.Sound := by
  unfold State.requestStop
  split <;> exact ⟨hs.fresh, hs.session⟩

theorem sound_stop {s : State} (hs : s.Sound) (j : ℕ) : (s.stop j).Sound := by
  have hs' := sound_requestStop hs
  rcases s.stop_cases j with ⟨-, h⟩ | ⟨t, -, h⟩ <;> rw [h] <;> exact ⟨hs'.fresh, hs'.session⟩

/-- **Every step of every bridge keeps it sound**, whatever the calls of
`connect` and `disconnect`. -/
theorem sound_of_step {s s' : State} {e : Event} (hs : s.Sound) (h : step s e = some s') :
    s'.Sound := by
  cases took_of_step hs.session h with
  | tick | connectReturns | released | raised => exact ⟨hs.fresh, hs.session⟩
  | connect timeout => exact sound_spawn hs timeout
  | @disconnect j _ => exact sound_stop hs j
  | invoke => exact hs
  | moved k hm => exact sound_of_moves hs hm

theorem sound_start (now : ℚ) : (start now).Sound := ⟨fun _ _ => rfl, nofun⟩

/-- **What `is_connected` does say**, in every state a bridge reaches: some loop
has entered the session there, and has not cleared it. -/
theorem isConnected_run {now : ℚ} {es : List Event} {s : State}
    (hrun : machine.run (start now) es = some s) (h : s.isConnected = true) :
    ∃ k, s.session = some k ∧ (s.loop k).phase.inSession = true := by
  obtain ⟨k, hk⟩ := Option.isSome_iff_exists.mp h
  have hs : s.Sound :=
    machine.run_invariant (fun s e s' hs h => sound_of_step hs h) (sound_start now) hrun
  exact ⟨k, hk, hs.session k hk⟩

/-- The step of a loop keeps a single loop single. -/
theorem single_of_moves {s s' : State} {k : ℕ} (hs : s.Single) (h : s.Moves k s') : s'.Single where
  toSound := sound_of_moves hs.toSound h
  newest j hj := by rw [h.connects_eq]; exact hs.newest j (alive_of_moves h hj)
  owned j hj := by rw [h.bgTask_eq]; exact hs.owned j (alive_of_moves h hj)
  awaited i t j hi hj := by
    rw [h.disconnecting_eq] at hi
    exact hs.awaited i t j hi (alive_of_moves h hj)

/-- A `connect` that comes alone, with no loop alive and no `disconnect` on its
way, leaves one loop. -/
theorem single_spawn {s : State} (hs : s.Single) (hq : s.Quiet)
    (hd : ∀ j t, s.disconnecting j ≠ .awaiting t) (timeout : FloatValue) :
    (s.spawn timeout).Single := by
  have halive : ∀ k, (s.spawn timeout).Alive k → k = s.connects := by
    intro k hk
    by_contra h
    rw [State.Alive, loop_spawn_of_ne s timeout h] at hk
    exact hq k hk
  refine ⟨sound_spawn hs.toSound timeout, fun k hk => ?_, fun k hk => ?_, fun j t k hj => ?_⟩
  · rw [halive k hk]
    rfl
  · rw [halive k hk]
    rfl
  · exact absurd hj (hd j t)

/-- What `disconnect` leaves when it does not wait is still one loop at most. -/
theorem single_released {s : State} (hs : s.Single) (hq : s.Quiet) (j : ℕ) :
    (s.released j).Single :=
  ⟨⟨hs.fresh, hs.session⟩, fun k hk => absurd hk (hq k), fun k hk => absurd hk (hq k),
    fun _ _ k _ hk => absurd hk (hq k)⟩

theorem single_requestStop {s : State} (hs : s.Single) : s.requestStop.Single := by
  unfold State.requestStop
  split <;> exact ⟨⟨hs.fresh, hs.session⟩, hs.newest, hs.owned, hs.awaited⟩

/-- `disconnect` begins: it has nothing to wait for, or waits for the one
loop. -/
theorem single_stop {s : State} (hs : s.Single) (j : ℕ) : (s.stop j).Single := by
  have hs' : s.requestStop.Single := single_requestStop hs
  rcases s.stop_cases j with ⟨hdead, h⟩ | ⟨t, ht, h⟩ <;> rw [h]
  · refine single_released hs' (fun k hk => ?_) j
    rw [State.Alive, s.requestStop_loop] at hk
    exact hdead k (hs.owned k hk) hk
  · refine ⟨⟨hs'.fresh, hs'.session⟩, hs'.newest, hs'.owned, fun i t' k hi hk => ?_⟩
    by_cases hij : i = j
    · subst hij
      have hk' := hs'.owned k hk
      rw [s.requestStop_bgTask, ht] at hk'
      rw [State.disconnecting_awaitTask_self] at hi
      rw [← Disconnecting.awaiting.inj hi]
      exact Option.some.inj hk'
    · rw [State.disconnecting_awaitTask_of_ne _ _ _ hij] at hi
      exact hs'.awaited i t' k hi hk

/-- When the awaited loop is over, every loop is. -/
theorem quiet_of_awaited {s : State} (hs : s.Single) {j t : ℕ} {b : Bool}
    (hj : s.disconnecting j = .awaiting t) (ht : (s.loop t).phase = .done b) : s.Quiet := by
  intro k hk
  rw [← hs.awaited j t k hj hk, State.Alive, ht] at hk
  cases hk

/-- **A single loop stays single**, where connects come alone. -/
theorem single_of_step {s s' : State} {e : Event} (hs : s.Single) (he : s.ConnectsAlone e)
    (h : step s e = some s') : s'.Single := by
  cases took_of_step hs.session h with
  | tick | connectReturns => exact ⟨⟨hs.fresh, hs.session⟩, hs.newest, hs.owned, hs.awaited⟩
  | connect timeout => exact single_spawn hs he.1 he.2 timeout
  | @disconnect j _ => exact single_stop hs j
  | @released j t hj ht => exact single_released hs (quiet_of_awaited hs hj ht) j
  | raised hj ht =>
    have hq : s.Quiet := quiet_of_awaited hs hj ht
    exact ⟨⟨hs.fresh, hs.session⟩, hs.newest, hs.owned, fun _ _ k _ hk => absurd hk (hq k)⟩
  | invoke => exact hs
  | moved k hm => exact single_of_moves hs hm

/-- `disconnect` returns at once only where the loop is over. -/
theorem quiet_of_stop {s : State} (hs : s.Single) {i j : ℕ} (hj : s.Returns j (s.stop i)) :
    s.Quiet := by
  rcases s.stop_cases i with ⟨hdead, -⟩ | ⟨t, -, h⟩
  · exact fun k hk => hdead k (hs.owned k hk) hk
  · obtain ⟨hne, hret⟩ := hj
    rw [h] at hret
    by_cases hij : j = i
    · rw [hij, State.disconnecting_awaitTask_self] at hret
      cases hret
    · rw [State.disconnecting_awaitTask_of_ne _ _ _ hij, s.requestStop_disconnecting] at hret
      exact absurd hret hne

theorem loop_stop (s : State) (j : ℕ) : (s.stop j).loop = s.loop := by
  rcases s.stop_cases j with ⟨-, h⟩ | ⟨t, -, h⟩ <;> rw [h] <;> exact s.requestStop_loop

/-- `disconnect` ends no loop by itself, and starts none. -/
theorem quiet_stop {s : State} (hq : s.Quiet) (j : ℕ) : (s.stop j).Quiet := by
  intro k hk
  rw [State.Alive, loop_stop] at hk
  exact hq k hk

/-- **Where `disconnect` returns no loop is alive**: it returns when the task it
awaits is over, and that was the only one. -/
theorem quiet_of_returns {s s' : State} {e : Event} {j : ℕ} (hs : s.Single)
    (h : step s e = some s') (hj : s.Returns j s') : s'.Quiet := by
  cases took_of_step hs.session h with
  | tick | connectReturns | connect | invoke => exact absurd hj.2 hj.1
  | @disconnect i _ => exact quiet_stop (quiet_of_stop hs hj) i
  | released hi ht | raised hi ht =>
    have hq : s.Quiet := quiet_of_awaited hs hi ht
    exact hq
  | moved k hm => exact absurd (hm.disconnecting_eq ▸ hj.2) hj.1

/-- **Only `connect` makes a loop.** Where no loop is alive, every other step
leaves it at that. -/
theorem quiet_of_step {s s' : State} {e : Event} (hs : s.SessionOwned) (hq : s.Quiet)
    (he : ∀ timeout, e ≠ .connect timeout) (h : step s e = some s') : s'.Quiet := by
  cases took_of_step hs h with
  | tick | connectReturns | released | raised | invoke => exact hq
  | connect timeout => exact absurd rfl (he timeout)
  | @disconnect j _ => exact quiet_stop hq j
  | moved k hm => exact absurd hm.was_alive (hq k)

/-- A new bridge has no loop, and so at most one. -/
theorem single_start (now : ℚ) : (start now).Single := ⟨sound_start now, nofun, nofun, nofun⟩

/-- **One loop, which `disconnect` ends.** In every run of a bridge on which
`connect` is called only when no loop is alive and no `disconnect` is under
way, at most one loop is alive in the state reached; and if a `disconnect` has
returned with no `connect` after it, none is, and there is no session. -/
theorem single_loop_along {now : ℚ} {es : List Event} {s : State}
    (hC : machine.Along State.ConnectsAlone (start now) es)
    (hrun : machine.run (start now) es = some s) :
    (∀ j k, s.Alive j → s.Alive k → j = k)
      ∧ ∀ bs e cs j u v, es = bs ++ e :: cs → machine.run (start now) bs = some u →
          step u e = some v → u.Returns j v → (∀ c ∈ cs, ∀ timeout, c ≠ .connect timeout) →
          s.Quiet ∧ s.session = none := by
  have hinv : ∀ s e s', s.Single → s.ConnectsAlone e → step s e = some s' → s'.Single :=
    fun s e s' hs he h => single_of_step hs he h
  have hsingle : s.Single := machine.run_invariant_along hinv (single_start now) hC hrun
  refine ⟨fun j k hj hk => ?_, fun bs e cs j u v hes hu hv hj hcs => ?_⟩
  · have hjk : j + 1 = k + 1 := (hsingle.newest j hj).trans (hsingle.newest k hk).symm
    exact Nat.succ.inj hjk
  · subst hes
    obtain ⟨hC₁, hC₂⟩ := (machine.along_append hu).mp hC
    have husingle : u.Single := machine.run_invariant_along hinv (single_start now) hC₁ hu
    have hvsingle : v.Single := hinv u e v husingle hC₂.1 hv
    have hrest : machine.run v cs = some s := by
      rw [machine.run_append, hu, Option.bind_some, machine.run_cons_of_step hv] at hrun
      exact hrun
    have hkept : ∀ s c s', s.Single ∧ s.Quiet →
        (s.ConnectsAlone c ∧ ∀ timeout, c ≠ .connect timeout) → step s c = some s' →
          s'.Single ∧ s'.Quiet :=
      fun s c s' hs hc h => ⟨hinv s c s' hs.1 hc.1 h, quiet_of_step hs.1.session hs.2 hc.2 h⟩
    have hquiet : s.Single ∧ s.Quiet :=
      machine.run_invariant_along hkept ⟨hvsingle, quiet_of_returns husingle hv hj⟩
        (machine.along_and (hC₂.2 v hv) (machine.along_of_forall (fun c hc _ => hcs c hc) v)) hrest
    exact ⟨hquiet.2, session_eq_none_of_quiet hsingle.session hquiet.2⟩

/-- Only `connect` has to come alone, so an event that is none of its calls
meets the condition in every state. -/
theorem connectsAlone_of_ne {s : State} {e : Event} (he : ∀ timeout, e ≠ .connect timeout) :
    s.ConnectsAlone e := by
  cases e with
  | connect timeout => exact absurd rfl (he timeout)
  | _ => trivial

/-- A bridge that connects, whose loop holds its session until it is told to
stop. -/
def sessionEvents : List Event :=
  handshakeEvents ++ [.initialized 0, .disconnect 0, .stopSeen 0, .closed 0 none]

theorem single_loop_session :
    ∃ r s, machine.run (start 0) (handshakeEvents ++ [.initialized 0]) = some r
      ∧ r.Alive 0 ∧ r.session = some 0
      ∧ machine.run (start 0) (sessionEvents ++ [.disconnectResumes 0]) = some s
      ∧ (∀ j k, s.Alive j → s.Alive k → j = k) ∧ s.Quiet ∧ s.session = none := by
  have hrest : ∀ e ∈ (sessionEvents ++ [Event.disconnectResumes 0]).tail, ∀ timeout,
      e ≠ .connect timeout := by
    simp [sessionEvents, handshakeEvents]
  have hC : machine.Along State.ConnectsAlone (start 0)
      (sessionEvents ++ [.disconnectResumes 0]) :=
    ⟨⟨fun _ hk => Bool.false_ne_true hk, fun _ _ h => nomatch h⟩,
      fun s _ => machine.along_of_forall (fun e he _ => connectsAlone_of_ne (hrest e he)) s⟩
  obtain ⟨hone, hafter⟩ := single_loop_along hC rfl
  exact ⟨_, _, rfl, rfl, rfl, rfl, hone, hafter sessionEvents (.disconnectResumes 0) [] 0 _ _ rfl
    rfl rfl ⟨by decide, rfl⟩ nofun⟩
/-- A bridge that is connected, and connected again while its first loop is
alive. -/
def twoConnects : List Event :=
  [.connect (.finite 60), .begins 0, .opened 0, .entered 0, .initialized 0, .connect (.finite 60)]

/-- A whole call of `disconnect`, which finds the second task and sees it end.
-/
def oneDisconnect : List Event := [.disconnect 0, .begins 1, .disconnectResumes 0]

/-- **A second `connect` leaves two loops**, and `disconnect` ends one of
them: the other one awaits a stop event that nobody can set any more, and its
session stays on the bridge. -/
theorem not_single_loop :
    ∃ s t, machine.run (start 0) twoConnects = some s
      ∧ (¬ ∀ j k, s.Alive j → s.Alive k → j = k)
      ∧ machine.run s oneDisconnect = some t
      ∧ t.disconnecting 0 = .returned ∧ ¬ t.Quiet ∧ t.session = some 0 := by
  refine ⟨_, _, rfl, fun h => ?_, rfl, rfl, fun h => ?_, rfl⟩
  · exact absurd (h 0 1 rfl rfl) (by decide)
  · exact h 0 rfl

end BridgeLoop
