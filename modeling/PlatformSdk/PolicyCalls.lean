import PlatformSdk.Run
import PlatformSdk.Security

/-!
# Policy checks under way at once

A server has one `OpaClient`, and its tools call `authorize` at the same time.
Between two of its awaits a call runs undisturbed: it reads `is_open` once, at
its start, and goes on to the POST; what the POST came to is recorded, and
after a failure the call sleeps and tries again. Meanwhile other calls record
their own outcomes, and time passes.

Two things follow from the shape of that loop. The breaker is not asked again
before a retry, so a POST starts while the circuit is open exactly when a call
comes back from its backoff then (`along_failsFast_iff`). And the encoder runs
inside the `try`, so a payload that does not encode is recorded as a failure of
the engine: the breaker counts what the network did, and nothing else, exactly
when the calls that get past it have payloads that encode
(`along_countsReplies_iff`).
-/

namespace PolicyCalls

/-- **Where a call is**: not made, waiting for its request or asleep before the
next, or over. -/
inductive Phase where
  /-- Not made yet. -/
  | idle
  /-- Awaiting the POST of an attempt. -/
  | posting (body : Json) (attempt : ℕ)
  /-- Sleeping after a failed attempt. -/
  | sleeping (body : Except PyExc Json) (attempt : ℕ) (since : ℚ)
  /-- Over: what it returned, nothing if it was cancelled. -/
  | ended (decision : Option Bool)

/-- **A client and its calls**, with the time they share. -/
structure State where
  client : OpaClient
  now : ℚ
  phase : ℕ → Phase := fun _ => .idle

/-- **What can happen**: time passes, a call is made, its request comes to
something, it wakes up or is cancelled. -/
inductive Event where
  | tick (d : ℚ)
  /-- A call is made. -/
  | call (i : ℕ) (toolName : String) (payload : Dict String PyValue)
  /-- The POST of a call comes to something. -/
  | reply (i : ℕ) (outcome : PostOutcome)
  /-- The backoff of a call is over. -/
  | wake (i : ℕ)
  /-- A call is cancelled at its await. -/
  | cancel (i : ℕ)

namespace State

/-- A call moves on, and the client stays as it is. -/
def setPhase (s : State) (i : ℕ) (p : Phase) : State :=
  { s with phase := Function.update s.phase i p }

/-- A success is recorded, which closes the circuit for the calls of every task.
-/
def recordSuccess (s : State) : State :=
  { s with client := { s.client with cb := s.client.cb.recordSuccess } }

/-- A failure is recorded, with the present time, and may open the circuit. -/
def recordFailure (s : State) : State :=
  { s with client := { s.client with cb := s.client.cb.recordFailure s.now } }

/-- **The `except` clauses**, and the sleep unless it was the last attempt. -/
def failed (s : State) (i : ℕ) (body : Except PyExc Json) (attempt : ℕ) : PyExc → State
  | .httpStatusError _ => s.recordFailure.setPhase i (.ended (some false))
  | _ =>
    if (attempt : ℤ) < s.client.maxRetries - 1 then
      s.recordFailure.setPhase i (.sleeping body attempt s.now)
    else s.recordFailure.setPhase i (.ended (some false))

/-- The start of an attempt: the encoder runs before anything is sent. -/
def startAttempt (s : State) (i : ℕ) (body : Except PyExc Json) (attempt : ℕ) : State :=
  match body with
  | .ok b => s.setPhase i (.posting b attempt)
  | .error exc => s.failed i body attempt exc

end State

/-- **One step of the calls**, where the event can happen in the state. -/
def step (s : State) : Event → Option State
  | .tick d => if 0 ≤ d then some { s with now := s.now + d } else none
  | .call i toolName payload =>
    match s.phase i with
    | .idle =>
      if s.client.cb.isOpen s.now then some (s.setPhase i (.ended (some false)))
      else if 0 < s.client.maxRetries then
        some (s.startAttempt i (s.client.requestBody toolName payload) 0)
      else some (s.setPhase i (.ended (some false)))
    | _ => none
  | .reply i outcome =>
    match s.phase i with
    | .posting body attempt =>
      match outcome.response with
      | .ok decision => some (s.recordSuccess.setPhase i (.ended (some decision)))
      | .error exc => some (s.failed i (.ok body) attempt exc)
    | _ => none
  | .wake i =>
    match s.phase i with
    | .sleeping body attempt since =>
      if s.client.retryBackoff.isAbove (s.now - since) then none
      else some (s.startAttempt i body (attempt + 1))
    | _ => none
  | .cancel i =>
    match s.phase i with
    | .posting _ _ | .sleeping _ _ _ => some (s.setPhase i (.ended none))
    | _ => none

/-- **The machine of the calls** of one client, which share its breaker and
nothing else. -/
abbrev machine : Machine State Event := ⟨step⟩

/-- A client that has just been made, with no call on its way. -/
def start (config : MCPConfig) (now : ℚ) : State := { client := OpaClient.ofConfig config, now }

/-! ## One step -/

/-- A call awaits a POST, so that its next reply is a reply to it. -/
def Phase.Posting (p : Phase) : Prop := ∃ body attempt, p = .posting body attempt

instance (p : Phase) : Decidable p.Posting :=
  match p with
  | .posting body attempt => isTrue ⟨body, attempt, rfl⟩
  | .idle | .sleeping _ _ _ | .ended _ => isFalse (fun ⟨_, _, h⟩ => nomatch h)

/-- A call has a payload that does not encode, and means to try again. -/
def Phase.Doomed (p : Phase) : Prop := ∃ exc attempt since, p = .sleeping (.error exc) attempt since

namespace State

variable (s : State) (i j : ℕ) (p : Phase)

@[simp] theorem client_setPhase : (s.setPhase i p).client = s.client := rfl

@[simp] theorem now_setPhase : (s.setPhase i p).now = s.now := rfl

@[simp] theorem phase_setPhase_self : (s.setPhase i p).phase i = p := Function.update_self _ _ _

theorem phase_setPhase_of_ne {j : ℕ} (h : j ≠ i) : (s.setPhase i p).phase j = s.phase j :=
  Function.update_of_ne h _ _

@[simp] theorem phase_recordFailure : s.recordFailure.phase = s.phase := rfl

@[simp] theorem failures_recordFailure :
    s.recordFailure.client.cb.failures = s.client.cb.failures + 1 :=
  CircuitBreaker.failures_recordFailure _ _

/-- What a failed attempt comes to: it is recorded, and the call sleeps or is
over. -/
theorem failed_cases (body : Except PyExc Json) (attempt : ℕ) (exc : PyExc) :
    s.failed i body attempt exc = s.recordFailure.setPhase i (.ended (some false))
      ∨ s.failed i body attempt exc
          = s.recordFailure.setPhase i (.sleeping body attempt s.now) := by
  unfold failed
  split
  · exact Or.inl rfl
  · split
    · exact Or.inr rfl
    · exact Or.inl rfl

/-- A failed attempt awaits no `POST`: the call is asleep, or over. -/
theorem not_posting_failed (body : Except PyExc Json) (attempt : ℕ) (exc : PyExc) :
    ¬ ((s.failed i body attempt exc).phase i).Posting := by
  rintro ⟨b, n, hp⟩
  rcases s.failed_cases i body attempt exc with h | h <;>
    rw [h, phase_setPhase_self] at hp <;> cases hp

/-- A failed attempt moves the call that made it and no other. -/
theorem phase_failed_of_ne {j : ℕ} (hj : j ≠ i) (body : Except PyExc Json) (attempt : ℕ)
    (exc : PyExc) : (s.failed i body attempt exc).phase j = s.phase j := by
  rcases s.failed_cases i body attempt exc with h | h <;>
    rw [h, phase_setPhase_of_ne _ _ _ hj, phase_recordFailure]

/-- A failed attempt is counted, whatever it failed with. -/
theorem failures_failed (body : Except PyExc Json) (attempt : ℕ) (exc : PyExc) :
    (s.failed i body attempt exc).client.cb.failures = s.client.cb.failures + 1 := by
  rcases s.failed_cases i body attempt exc with h | h <;>
    rw [h, client_setPhase, failures_recordFailure]

theorem phase_startAttempt_of_ne {j : ℕ} (hj : j ≠ i) (body : Except PyExc Json) (attempt : ℕ) :
    (s.startAttempt i body attempt).phase j = s.phase j := by
  cases body with
  | ok b => exact s.phase_setPhase_of_ne i _ hj
  | error exc => exact s.phase_failed_of_ne i hj _ attempt exc

/-- An attempt awaits a POST exactly when its body encodes. -/
theorem posting_startAttempt_iff (body : Except PyExc Json) (attempt : ℕ) :
    ((s.startAttempt i body attempt).phase i).Posting ↔ ∃ b, body = .ok b := by
  cases body with
  | ok b => exact iff_of_true ⟨b, attempt, s.phase_setPhase_self i _⟩ ⟨b, rfl⟩
  | error exc =>
    exact iff_of_false (s.not_posting_failed i _ attempt exc) (fun ⟨_, h⟩ => nomatch h)

end State

/-- **What one step does**, by what happens, with the branch of the loop that it
takes. -/
inductive Took (s : State) : Event → State → Prop
  | tick {d : ℚ} (hd : 0 ≤ d) : Took s (.tick d) { s with now := s.now + d }
  /-- The call makes no attempt. -/
  | refused {i : ℕ} {toolName : String} {payload : Dict String PyValue}
    (h : s.client.cb.isOpen s.now = true ∨ s.client.maxRetries ≤ 0) :
    Took s (.call i toolName payload) (s.setPhase i (.ended (some false)))
  | attempt {i : ℕ} {toolName : String} {payload : Dict String PyValue}
    (hidle : s.phase i = .idle) (hopen : s.client.cb.isOpen s.now = false)
    (hretries : 0 < s.client.maxRetries) :
    Took s (.call i toolName payload)
      (s.startAttempt i (s.client.requestBody toolName payload) 0)
  | decided {i : ℕ} {outcome : PostOutcome} {decision : Bool} (hi : (s.phase i).Posting)
    (h : outcome.response = .ok decision) :
    Took s (.reply i outcome) (s.recordSuccess.setPhase i (.ended (some decision)))
  | failed {i : ℕ} {outcome : PostOutcome} {body : Json} {attempt : ℕ} {exc : PyExc}
    (hi : s.phase i = .posting body attempt) (h : outcome.response = .error exc) :
    Took s (.reply i outcome) (s.failed i (.ok body) attempt exc)
  | wake {i : ℕ} {body : Except PyExc Json} {attempt : ℕ} {since : ℚ}
    (hi : s.phase i = .sleeping body attempt since)
    (hover : s.client.retryBackoff.isAbove (s.now - since) = false) :
    Took s (.wake i) (s.startAttempt i body (attempt + 1))
  | cancel {i : ℕ} : Took s (.cancel i) (s.setPhase i (.ended none))

theorem took_of_step {s s' : State} {e : Event} (h : step s e = some s') : Took s e s' := by
  cases e with
  | tick d =>
    obtain ⟨hd, h⟩ := Option.ite_none_right_eq_some.mp h
    exact Option.some.inj h ▸ .tick hd
  | call i toolName payload =>
    simp only [step] at h
    split at h
    · next hidle =>
      split at h
      · next hopen => exact Option.some.inj h ▸ .refused (Or.inl hopen)
      · next hopen =>
        split at h
        · next hretries =>
          exact Option.some.inj h ▸ .attempt hidle (eq_false_of_ne_true hopen) hretries
        · next hretries => exact Option.some.inj h ▸ .refused (Or.inr (not_lt.mp hretries))
    · cases h
  | reply i outcome =>
    simp only [step] at h
    split at h
    · next body attempt hi =>
      split at h
      · next decision hr => exact Option.some.inj h ▸ .decided ⟨body, attempt, hi⟩ hr
      · next exc hr => exact Option.some.inj h ▸ .failed hi hr
    · cases h
  | wake i =>
    simp only [step] at h
    split at h
    · next body attempt since hi =>
      split at h
      · cases h
      · next hover => exact Option.some.inj h ▸ .wake hi (eq_false_of_ne_true hover)
    · cases h
  | cancel i =>
    simp only [step] at h
    split at h
    · exact Option.some.inj h ▸ .cancel
    · exact Option.some.inj h ▸ .cancel
    · cases h

/-! ## A call that nothing disturbs

The calls go through the loop that `OpaClient.authorize` is: where nothing else
happens, a call ends with its decision and leaves its breaker behind. -/

/-- A call has ended as `authorize` says, with the same decision and the same
breaker. -/
def EndsAs (s : State) (i : ℕ) (a : Authorization) : Prop :=
  ∃ decision, s.phase i = .ended (some decision) ∧ a.result = some (.ok decision)
    ∧ s.client.cb = a.cb

/-- What is not an HTTP error is tried again, unless it was the last attempt. -/
theorem State.failed_of_retried {exc : PyExc} (hne : ∀ status, exc ≠ .httpStatusError status)
    (s : State) (i : ℕ) (body : Except PyExc Json) (attempt : ℕ) :
    s.failed i body attempt exc
      = if (attempt : ℤ) < s.client.maxRetries - 1 then
          s.recordFailure.setPhase i (.sleeping body attempt s.now)
        else s.recordFailure.setPhase i (.ended (some false)) := by
  cases exc with
  | httpStatusError status => exact absurd rfl (hne status)
  | _ => rfl

section Alone

variable {net : ℕ → PostOutcome} {clock : ℕ → ℚ} {i : ℕ} {body : Json}

/-- The reply to an attempt that is not retried ends the call. -/
theorem step_reply_of_not_retried {n k : ℕ} {s : State} (hphase : s.phase i = .posting body k)
    (hnow : s.now = clock k) (hretried : ¬ (net k).Retried) :
    ∃ s', step s (.reply i (net k)) = some s'
      ∧ EndsAs s' i (OpaClient.authorizeLoop s.client.retryBackoff (.ok body) net clock (n + 1) k
        s.client.cb) := by
  cases hr : (net k).response with
  | ok decision =>
    refine ⟨s.recordSuccess.setPhase i (.ended (some decision)), by simp [step, hphase, hr], ?_⟩
    rw [OpaClient.authorizeLoop_of_decided _ net clock hr]
    exact ⟨decision, State.phase_setPhase_self _ _ _, rfl, rfl⟩
  | error exc =>
    have hstatus : ∃ status, exc = .httpStatusError status := by
      by_contra hno
      exact hretried (PostOutcome.retried_iff.mpr ⟨exc, hr, fun status h => hno ⟨status, h⟩⟩)
    obtain ⟨status, rfl⟩ := hstatus
    refine ⟨s.recordFailure.setPhase i (.ended (some false)),
      by simp [step, hphase, hr, State.failed], ?_⟩
    rw [OpaClient.authorizeLoop_of_status _ net clock hr, ← hnow]
    exact ⟨false, State.phase_setPhase_self _ _ _, rfl, rfl⟩

/-- **From the POST of an attempt on.** By induction on the attempts that are
left. -/
theorem run_posting (n : ℕ) {k : ℕ} {s : State} (hphase : s.phase i = .posting body k)
    (hleft : s.client.maxRetries = k + 1 + n) (hnow : s.now = clock k)
    (hlater : ∀ j, clock j ≤ clock (j + 1))
    (hbackoff : ∀ j, s.client.retryBackoff.isAbove (clock (j + 1) - clock j) = false) :
    ∃ es s', machine.run s es = some s'
      ∧ EndsAs s' i (OpaClient.authorizeLoop s.client.retryBackoff (.ok body) net clock (n + 1) k
        s.client.cb) := by
  induction n generalizing k s with
  | zero =>
    by_cases hretried : (net k).Retried
    · obtain ⟨exc, hr, hne⟩ := PostOutcome.retried_iff.mp hretried
      have hlast : ¬ (k : ℤ) < s.client.maxRetries - 1 := by omega
      have hstep : step s (.reply i (net k))
          = some (s.recordFailure.setPhase i (.ended (some false))) := by
        simp only [step, hphase, hr, State.failed_of_retried hne, if_neg hlast]
      refine ⟨[.reply i (net k)], _, machine.run_singleton hstep, false,
        State.phase_setPhase_self _ _ _, ?_⟩
      rw [OpaClient.authorizeLoop_of_retried _ net clock (.inl rfl) hretried, ← hnow]
      exact ⟨rfl, rfl⟩
    · obtain ⟨s', hstep, hends⟩ := step_reply_of_not_retried (n := 0) hphase hnow hretried
      exact ⟨[.reply i (net k)], s', machine.run_singleton hstep, hends⟩
  | succ n ih =>
    by_cases hretried : (net k).Retried
    · obtain ⟨exc, hr, hne⟩ := PostOutcome.retried_iff.mp hretried
      have hmore : (k : ℤ) < s.client.maxRetries - 1 := by omega
      have hfinite : s.client.retryBackoff ≠ .inf := fun hinf => by
        have hslept := hbackoff k
        rw [hinf] at hslept
        cases hslept
      -- the failure is recorded, the backoff passes, and the next POST starts
      let asleep := s.recordFailure.setPhase i (.sleeping (.ok body) k s.now)
      let later : State := { asleep with now := asleep.now + (clock (k + 1) - clock k) }
      let awake := later.setPhase i (.posting body (k + 1))
      have hfails : step s (.reply i (net k)) = some asleep := by
        simp only [step, hphase, hr, State.failed_of_retried hne, if_pos hmore]
        rfl
      have htick : step asleep (.tick (clock (k + 1) - clock k)) = some later :=
        if_pos (sub_nonneg.mpr (hlater k))
      have hwakes : step later (.wake i) = some awake := by
        have hsleeping : later.phase i = .sleeping (.ok body) k s.now :=
          State.phase_setPhase_self _ _ _
        have hover : later.client.retryBackoff.isAbove (later.now - s.now) = false := by
          have hslept : later.now - s.now = clock (k + 1) - clock k := add_sub_cancel_left _ _
          rw [hslept]
          exact hbackoff k
        simp only [step, hsleeping, hover, Bool.false_eq_true, if_false]
        rfl
      have hclock : awake.now = clock (k + 1) := by
        show s.now + (clock (k + 1) - clock k) = clock (k + 1)
        rw [hnow, add_sub_cancel]
      have hleft' : awake.client.maxRetries = (k + 1 : ℕ) + 1 + n := by
        show s.client.maxRetries = _
        omega
      obtain ⟨es, s', hrun, hends⟩ :=
        ih (s := awake) (State.phase_setPhase_self _ _ _) hleft' hclock hbackoff
      refine ⟨.reply i (net k) :: .tick (clock (k + 1) - clock k) :: .wake i :: es, s', ?_, ?_⟩
      · rw [machine.run_cons_of_step hfails, machine.run_cons_of_step htick,
          machine.run_cons_of_step hwakes, hrun]
      · obtain ⟨decision, hp, hresult, hcb⟩ := hends
        refine ⟨decision, hp, ?_⟩
        rw [OpaClient.authorizeLoop_of_retried _ net clock (.inr hfinite) hretried, ← hnow]
        exact ⟨hresult, hcb⟩
    · obtain ⟨s', hstep, hends⟩ := step_reply_of_not_retried (n := n + 1) hphase hnow hretried
      exact ⟨[.reply i (net k)], s', machine.run_singleton hstep, hends⟩

/-- **A call that nothing disturbs is `authorize`**, with a payload that
encodes. -/
theorem run_call {s : State} (hidle : s.phase i = .idle) {toolName : String}
    {payload : Dict String PyValue} (hbody : s.client.requestBody toolName payload = .ok body)
    (hfirst : s.now ≤ clock 0) (hlater : ∀ j, clock j ≤ clock (j + 1))
    (hbackoff : ∀ j, s.client.retryBackoff.isAbove (clock (j + 1) - clock j) = false) :
    ∃ es s', machine.run s (.call i toolName payload :: es) = some s'
      ∧ EndsAs s' i (s.client.authorize toolName payload net s.now clock) := by
  by_cases hopen : s.client.cb.isOpen s.now = true
  · have hstep : step s (.call i toolName payload)
        = some (s.setPhase i (.ended (some false))) := by
      simp only [step, hidle, hopen, if_true]
    refine ⟨[], _, machine.run_singleton hstep, false, State.phase_setPhase_self _ _ _, ?_⟩
    rw [OpaClient.authorize, if_pos hopen]
    exact ⟨rfl, rfl⟩
  · rw [OpaClient.authorize, if_neg hopen, hbody]
    by_cases hretries : 0 < s.client.maxRetries
    · obtain ⟨n, hn⟩ : ∃ n : ℕ, s.client.maxRetries.toNat = n + 1 :=
        ⟨s.client.maxRetries.toNat - 1, by omega⟩
      let posted := s.setPhase i (.posting body 0)
      let later : State := { posted with now := posted.now + (clock 0 - s.now) }
      have hstep : step s (.call i toolName payload) = some posted := by
        simp only [step, hidle, eq_false_of_ne_true hopen, hretries, Bool.false_eq_true, if_false,
          if_true, hbody]
        rfl
      have htick : step posted (.tick (clock 0 - s.now)) = some later :=
        if_pos (sub_nonneg.mpr hfirst)
      have hclock : later.now = clock 0 := add_sub_cancel _ _
      have hleft : later.client.maxRetries = (0 : ℕ) + 1 + n := by
        show s.client.maxRetries = _
        omega
      obtain ⟨es, s', hrun, hends⟩ :=
        run_posting (s := later) n (State.phase_setPhase_self _ _ _) hleft hclock hlater hbackoff
      refine ⟨.tick (clock 0 - s.now) :: es, s', ?_, ?_⟩
      · rw [machine.run_cons_of_step hstep, machine.run_cons_of_step htick, hrun]
      · rw [hn]
        exact hends
    · have hstep : step s (.call i toolName payload)
          = some (s.setPhase i (.ended (some false))) := by
        simp only [step, hidle, eq_false_of_ne_true hopen, hretries, Bool.false_eq_true, if_false]
      have hnone : s.client.maxRetries.toNat = 0 := by omega
      refine ⟨[], _, machine.run_singleton hstep, false, State.phase_setPhase_self _ _ _, ?_⟩
      rw [hnone]
      exact ⟨rfl, rfl⟩

end Alone

/-! ## A retry does not ask the breaker -/

/-- A `POST` is started: some call waits for one that did not before the step.
-/
def StartsPost (s s' : State) : Prop := ∃ i, (s'.phase i).Posting ∧ ¬ (s.phase i).Posting

/-- **The step fails fast**: it starts no POST while the circuit is open. -/
def FailsFast (s : State) (e : Event) : Prop :=
  ∀ s', step s e = some s' → StartsPost s s' → s.client.cb.isOpen s.now = false

/-- **No call comes back from its backoff while the circuit is open**, to send
its request again. -/
def WakesClosed (s : State) : Event → Prop
  | .wake i => ∀ body attempt since, s.phase i = .sleeping (.ok body) attempt since →
      s.client.retryBackoff.isAbove (s.now - since) = false → s.client.cb.isOpen s.now = false
  | _ => True

/-- Who moves to something else than a POST starts none. -/
theorem not_startsPost_of_forall {s s' : State} {i : ℕ} (hi : ¬ (s'.phase i).Posting)
    (hne : ∀ j, j ≠ i → s'.phase j = s.phase j) : ¬ StartsPost s s' := by
  rintro ⟨j, hj, hnj⟩
  by_cases h : j = i
  · exact hi (h ▸ hj)
  · exact hnj (hne j h ▸ hj)

theorem not_startsPost_setPhase (s : State) (i : ℕ) (decision : Option Bool) :
    ¬ StartsPost s (s.setPhase i (.ended decision)) := by
  refine not_startsPost_of_forall (i := i) ?_ fun j hj => s.phase_setPhase_of_ne i _ hj
  rw [State.phase_setPhase_self]
  exact fun ⟨_, _, h⟩ => nomatch h

/-- An attempt is a POST exactly when its body encodes. -/
theorem startsPost_startAttempt_iff {s : State} {i : ℕ} (hi : ¬ (s.phase i).Posting)
    (body : Except PyExc Json) (attempt : ℕ) :
    StartsPost s (s.startAttempt i body attempt) ↔ ∃ b, body = .ok b := by
  rw [← s.posting_startAttempt_iff i body attempt]
  constructor
  · rintro ⟨j, hj, hnj⟩
    by_cases h : j = i
    · exact h ▸ hj
    · exact absurd (s.phase_startAttempt_of_ne i h body attempt ▸ hj) hnj
  · exact fun h => ⟨i, h, hi⟩

/-- **A step fails fast exactly when it wakes no call into an open circuit.** -/
theorem failsFast_iff_wakesClosed (s : State) (e : Event) : FailsFast s e ↔ WakesClosed s e := by
  constructor
  · intro h
    cases e with
    | wake i =>
      intro body attempt since hi hover
      have hstep : step s (.wake i) = some (s.startAttempt i (.ok body) (attempt + 1)) := by
        simp [step, hi, hover]
      have hidle : ¬ (s.phase i).Posting := by rw [hi]; exact fun ⟨_, _, h⟩ => nomatch h
      exact h _ hstep ((startsPost_startAttempt_iff hidle _ _).mpr ⟨body, rfl⟩)
    | _ => exact trivial
  · intro h s' hs' hpost
    cases took_of_step hs' with
    | tick hd => obtain ⟨i, hi, hni⟩ := hpost; exact absurd hi hni
    | refused _ => exact absurd hpost (not_startsPost_setPhase s _ _)
    | attempt hidle hopen _ => exact hopen
    | decided _ _ => exact absurd hpost (not_startsPost_setPhase s.recordSuccess _ _)
    | failed hi _ =>
      exact absurd hpost (not_startsPost_of_forall (s.not_posting_failed _ _ _ _)
        (fun j hj => s.phase_failed_of_ne _ hj _ _ _))
    | wake hi hover =>
      obtain ⟨b, rfl⟩ := (startsPost_startAttempt_iff
        (by rw [hi]; exact fun ⟨_, _, h⟩ => nomatch h) _ _).mp hpost
      exact h b _ _ hi hover
    | cancel => exact absurd hpost (not_startsPost_setPhase s _ _)

/-- **When the circuit keeps its callers from the network.** In every run of
the calls of a client, every step fails fast if and only if no call comes back
from its backoff while the circuit is open. -/
theorem along_failsFast_iff (config : MCPConfig) (now : ℚ) (es : List Event) :
    machine.Along FailsFast (start config now) es
      ↔ machine.Along WakesClosed (start config now) es :=
  ⟨machine.along_mono fun s e => (failsFast_iff_wakesClosed s e).mp,
    machine.along_mono fun s e => (failsFast_iff_wakesClosed s e).mpr⟩

/-- Only one attempt is made, and nobody sleeps, so that no call wakes up to an
open circuit. -/
def OneAttempt (s : State) : Prop :=
  s.client.maxRetries ≤ 1 ∧ ∀ i body attempt since, s.phase i ≠ .sleeping body attempt since

theorem oneAttempt_setPhase {s : State} (hs : OneAttempt s) (i : ℕ) {p : Phase}
    (hp : ∀ body attempt since, p ≠ .sleeping body attempt since) :
    OneAttempt (s.setPhase i p) := by
  refine ⟨hs.1, fun j => ?_⟩
  by_cases hj : j = i
  · rw [hj, State.phase_setPhase_self]
    exact hp
  · rw [s.phase_setPhase_of_ne i p hj]
    exact hs.2 j

theorem oneAttempt_failed {s : State} (hs : OneAttempt s) (i : ℕ) (body : Except PyExc Json)
    (attempt : ℕ) (exc : PyExc) : OneAttempt (s.failed i body attempt exc) := by
  have hs' : OneAttempt s.recordFailure := hs
  have hlast : ¬ (attempt : ℤ) < s.client.maxRetries - 1 := by
    have := hs.1
    omega
  unfold State.failed
  split
  · exact oneAttempt_setPhase hs' i (fun _ _ _ => nofun)
  · rw [if_neg hlast]
    exact oneAttempt_setPhase hs' i (fun _ _ _ => nofun)

theorem oneAttempt_startAttempt {s : State} (hs : OneAttempt s) (i : ℕ)
    (body : Except PyExc Json) (attempt : ℕ) : OneAttempt (s.startAttempt i body attempt) := by
  cases body with
  | ok b => exact oneAttempt_setPhase hs i (fun _ _ _ => nofun)
  | error exc => exact oneAttempt_failed hs i _ attempt exc

theorem oneAttempt_of_step {s s' : State} {e : Event} (hs : OneAttempt s)
    (hstep : step s e = some s') : OneAttempt s' := by
  cases took_of_step hstep with
  | tick hd => exact hs
  | refused _ => exact oneAttempt_setPhase hs _ (fun _ _ _ => nofun)
  | attempt _ _ _ => exact oneAttempt_startAttempt hs _ _ _
  | decided _ _ =>
    exact oneAttempt_setPhase (s := s.recordSuccess) hs _ (fun _ _ _ => nofun)
  | failed _ _ => exact oneAttempt_failed hs _ _ _ _
  | wake _ _ => exact oneAttempt_startAttempt hs _ _ _
  | cancel => exact oneAttempt_setPhase hs _ (fun _ _ _ => nofun)

/-- **A client that never retries fails fast**, however its calls
interleave. -/
theorem along_failsFast_of_maxRetries_le_one {config : MCPConfig} (h : config.opaMaxRetries ≤ 1)
    (now : ℚ) (es : List Event) : machine.Along FailsFast (start config now) es := by
  have hstart : OneAttempt (start config now) := ⟨h, fun _ _ _ _ => nofun⟩
  refine machine.along_mono (fun s e => (failsFast_iff_wakesClosed s e).mpr) ?_
  refine machine.along_of_invariant (I := OneAttempt) (C := fun _ _ => True)
    (fun s e s' hs _ hstep => oneAttempt_of_step hs hstep) (fun s e hs _ => ?_) hstart
    (machine.along_of_forall (fun _ _ _ => trivial) _)
  cases e with
  | wake i => exact fun body attempt since hi _ => absurd hi (hs.2 i _ _ _)
  | _ => exact trivial

/-- A client whose circuit opens at the first failure. -/
def touchy : MCPConfig := { environment := .dev, cbFailureThreshold := 1 }

/-- **A retry goes to the network while the circuit is open**: the call's own
first attempt has timed out and opened it. -/
theorem not_along_failsFast :
    ¬ machine.Along FailsFast (start touchy 0)
      ([.call 0 "t" [], .reply 0 (.raised .timeoutException), .tick 1] ++ [.wake 0]) := by
  have hend : (machine.run (start touchy 0)
      [.call 0 "t" [], .reply 0 (.raised .timeoutException), .tick 1]).map
        (fun s => (s.client.cb.isOpen s.now, decide (s.phase 0).Posting,
          (step s (.wake 0)).map (fun s' => decide (s'.phase 0).Posting)))
      = some (true, false, some true) := by
    decide +kernel
  obtain ⟨s, hrun, hvalues⟩ := Option.map_eq_some_iff.mp hend
  simp only [Prod.mk.injEq, decide_eq_false_iff_not] at hvalues
  obtain ⟨hopen, hidle, hwake⟩ := hvalues
  obtain ⟨s', hstep, hposting⟩ := Option.map_eq_some_iff.mp hwake
  refine machine.not_along_concat hrun fun h => ?_
  exact absurd (h s' hstep ⟨0, of_decide_eq_true hposting, hidle⟩) (by rw [hopen]; decide)

/-! ## A payload is not the engine's failure -/

/-- The breaker has moved towards refusing calls: a failure has been counted,
or the circuit has opened. -/
def Charged (s s' : State) : Prop :=
  s.client.cb.failures < s'.client.cb.failures
    ∨ s.client.cb.isOpen s.now = false ∧ s'.client.cb.isOpen s'.now = true

/-- **The step counts what the network did**: if the breaker is charged, a POST
that was sent has failed. -/
def CountsReplies (s : State) (e : Event) : Prop :=
  ∀ s', step s e = some s' → Charged s s' →
    ∃ i outcome exc, e = .reply i outcome ∧ (s.phase i).Posting ∧ outcome.response = .error exc

/-- **A call that gets past the breaker has a payload that encodes.** -/
def Encodes (s : State) : Event → Prop
  | .call i toolName payload => s.phase i = .idle → s.client.cb.isOpen s.now = false →
      0 < s.client.maxRetries → ∃ b, s.client.requestBody toolName payload = .ok b
  | _ => True

/-- No call under way has a payload that does not encode. -/
def Encoded (s : State) : Prop := ∀ i, ¬ (s.phase i).Doomed

/-- A breaker left alone is not charged, so a step of a call by itself counts
nothing. -/
theorem not_charged_setPhase (s : State) (i : ℕ) (p : Phase) : ¬ Charged s (s.setPhase i p) := by
  rintro (h | ⟨h, h'⟩)
  · exact absurd h (lt_irrefl _)
  · rw [State.client_setPhase, State.now_setPhase, h] at h'
    cases h'

theorem encoded_setPhase {s : State} (hs : Encoded s) {i : ℕ} {p : Phase} (hp : ¬ p.Doomed) :
    Encoded (s.setPhase i p) := by
  intro j
  by_cases hj : j = i
  · rw [hj, State.phase_setPhase_self]
    exact hp
  · rw [s.phase_setPhase_of_ne i p hj]
    exact hs j

theorem not_doomed_ended (decision : Option Bool) : ¬ (Phase.ended decision).Doomed :=
  fun ⟨_, _, _, h⟩ => nomatch h

/-- What fails after it was sent had a body. -/
theorem encoded_failed {s : State} (hs : Encoded s) (i : ℕ) (body : Json) (attempt : ℕ)
    (exc : PyExc) : Encoded (s.failed i (.ok body) attempt exc) := by
  have hs' : Encoded s.recordFailure := hs
  rcases s.failed_cases i (.ok body) attempt exc with h | h <;> rw [h]
  · exact encoded_setPhase hs' (not_doomed_ended _)
  · exact encoded_setPhase hs' fun ⟨_, _, _, h⟩ => nomatch h

/-- **Payloads that encode stay the only ones under way.** -/
theorem encoded_of_step {s s' : State} {e : Event} (hs : Encoded s) (he : Encodes s e)
    (hstep : step s e = some s') : Encoded s' := by
  cases took_of_step hstep with
  | tick hd => exact hs
  | refused _ => exact encoded_setPhase hs (not_doomed_ended _)
  | attempt hidle hopen hretries =>
    obtain ⟨b, hb⟩ := he hidle hopen hretries
    rw [hb]
    exact encoded_setPhase hs fun ⟨_, _, _, h⟩ => nomatch h
  | decided _ _ => exact encoded_setPhase (s := s.recordSuccess) hs (not_doomed_ended _)
  | failed hi _ => exact encoded_failed hs _ _ _ _
  | @wake i body attempt since hi hover =>
    cases body with
    | ok b => exact encoded_setPhase hs fun ⟨_, _, _, h⟩ => nomatch h
    | error exc => exact absurd ⟨exc, attempt, since, hi⟩ (hs i)
  | cancel => exact encoded_setPhase hs (not_doomed_ended _)

/-- A payload that does not encode is charged to the engine. -/
theorem encodes_of_countsReplies {s : State} {e : Event} (h : CountsReplies s e) :
    Encodes s e := by
  cases e with
  | call i toolName payload =>
    intro hidle hopen hretries
    cases hbody : s.client.requestBody toolName payload with
    | ok b => exact ⟨b, rfl⟩
    | error exc =>
      have hstep : step s (.call i toolName payload) = some (s.failed i (.error exc) 0 exc) := by
        simp [step, hidle, hopen, hretries, hbody, State.startAttempt]
      have hcharged : Charged s (s.failed i (.error exc) 0 exc) :=
        Or.inl (by rw [State.failures_failed]; exact Nat.lt_succ_self _)
      obtain ⟨j, outcome, exc', he, -⟩ := h _ hstep hcharged
      cases he
  | _ => exact trivial

/-- **Where payloads encode, the breaker counts replies only**: what is charged
is a `POST` that was sent and came to nothing. -/
theorem countsReplies_of_encodes {s : State} (hs : Encoded s) {e : Event} (he : Encodes s e) :
    CountsReplies s e := by
  intro s' hstep hcharged
  cases took_of_step hstep with
  | tick hd =>
    rcases hcharged with h | ⟨h, h'⟩
    · exact absurd h (lt_irrefl _)
    · have hle : s.now ≤ s.now + _ := le_add_of_nonneg_right hd
      exact absurd (h.symm.trans (CircuitBreaker.isOpen_of_le hle h')) Bool.false_ne_true
  | refused _ => exact absurd hcharged (not_charged_setPhase s _ _)
  | attempt hidle hopen hretries =>
    obtain ⟨b, hb⟩ := he hidle hopen hretries
    rw [hb] at hcharged
    exact absurd hcharged (not_charged_setPhase s _ _)
  | decided _ _ =>
    rcases hcharged with h | ⟨h, h'⟩
    · exact absurd h (Nat.not_lt_zero _)
    · exact absurd (h.symm.trans (CircuitBreaker.isOpen_of_recordSuccess h')) Bool.false_ne_true
  | @failed i outcome body attempt exc hi hr =>
    exact ⟨i, outcome, exc, rfl, ⟨body, attempt, hi⟩, hr⟩
  | @wake i body attempt since hi hover =>
    cases body with
    | ok b => exact absurd hcharged (not_charged_setPhase s _ _)
    | error exc => exact absurd ⟨exc, attempt, since, hi⟩ (hs i)
  | cancel => exact absurd hcharged (not_charged_setPhase s _ _)

/-- **When the breaker counts what the network did, and nothing else.** In
every run of the calls of a client, it is charged only for a POST that was sent
and failed, if and only if every call that gets past it has a payload that
encodes. -/
theorem along_countsReplies_iff (config : MCPConfig) (now : ℚ) (es : List Event) :
    machine.Along CountsReplies (start config now) es
      ↔ machine.Along Encodes (start config now) es := by
  refine ⟨machine.along_mono fun s e => encodes_of_countsReplies, ?_⟩
  have hstart : Encoded (start config now) := fun i ⟨_, _, _, h⟩ => nomatch h
  exact machine.along_of_invariant (I := Encoded)
    (fun s e s' hs he hstep => encoded_of_step hs he hstep)
    (fun s e hs he => countsReplies_of_encodes hs he) hstart

/-- A payload with a date in it, which `json.dumps` refuses to write. -/
def datedPayload : Dict String PyValue :=
  [("on", .leaf (.unencodable (.typeError "Object of type date is not JSON serializable")))]

/-- **A payload opens the circuit** without anything having been sent. -/
theorem not_along_countsReplies :
    ¬ machine.Along CountsReplies (start touchy 0) ([] ++ [.call 0 "t" datedPayload]) := by
  have hend : (step (start touchy 0) (.call 0 "t" datedPayload)).map
      (fun s => (s.client.cb.failures, s.client.cb.isOpen s.now)) = some (1, true) := by
    decide +kernel
  obtain ⟨s', hstep, hvalues⟩ := Option.map_eq_some_iff.mp hend
  rw [Prod.mk.injEq] at hvalues
  refine machine.not_along_concat rfl fun h => ?_
  obtain ⟨i, outcome, exc, he, -⟩ := h s' hstep (Or.inl (by rw [hvalues.1]; exact Nat.one_pos))
  cases he

end PolicyCalls
