import PlatformSdk.Resilience
import PlatformSdk.Run

/-!
# The callers of a circuit breaker

The clients with a breaker all use it the same way. A caller reads `is_open`,
makes its call only if the circuit is not open, and records how the call
ended. Several callers do so at once, and nothing but the breaker is between
them.

After an outage a single call should go through as a probe. The breaker keeps
no half-open state, though: once the recovery time has passed, `is_open` is
false for everyone until an outcome is recorded. So there is a single probe
exactly in the runs where the callers, or luck, see to it
(`along_singleProbe_iff`).
-/

namespace BreakerProtocol

/-- **A breaker and its callers**, each of which has at most one guarded call in
flight. -/
structure State where
  cb : CircuitBreaker
  now : ℚ
  /-- Whether each caller has its guarded call in flight. -/
  calling : ℕ → Bool := fun _ => false

/-- **What can happen**: time passes, a caller tries, and one that is in flight
records an outcome or ends without. -/
inductive Event where
  | tick (d : ℚ)
  /-- A caller reads `is_open`, and makes its call if that is false. -/
  | attempt (i : ℕ)
  /-- A caller records the outcome of its call. -/
  | record (i : ℕ) (ok : Bool)
  /-- A caller ends without recording anything. -/
  | leave (i : ℕ)

namespace State

/-- The call of a caller begins or is over. -/
def setCalling (s : State) (i : ℕ) (b : Bool) : State :=
  { s with calling := Function.update s.calling i b }

/-- A caller records an outcome, and is in flight no longer. -/
def recorded (s : State) (ok : Bool) : State :=
  { s with cb := if ok then s.cb.recordSuccess else s.cb.recordFailure s.now }

end State

/-- **One step of the callers**, where the event can happen: nobody is let
through an open circuit, and nobody records without a call. -/
def step (s : State) : Event → Option State
  | .tick d => if 0 ≤ d then some { s with now := s.now + d } else none
  | .attempt i =>
    if s.calling i then none
    else if s.cb.isOpen s.now then some s
    else some (s.setCalling i true)
  | .record i ok => if s.calling i then some ((s.recorded ok).setCalling i false) else none
  | .leave i => if s.calling i then some (s.setCalling i false) else none

/-- **The machine of the callers** of one breaker. -/
abbrev machine : Machine State Event := ⟨step⟩

namespace State

/-- **The circuit is half-open**: it has opened, and the recovery time has
passed. -/
def HalfOpen (s : State) : Prop :=
  0 < s.cb.failures ∧ s.cb.failureThreshold ≤ s.cb.failures ∧ s.cb.openUntil.reachedBy s.now = true

/-- At most one guarded call is in flight, besides the one of a caller that is
left out. -/
def AtMostOne (s : State) (P : ℕ → Prop) : Prop :=
  ∀ i j, P i → P j → s.calling i = true → s.calling j = true → i = j

/-- **There is a single probe**: while the circuit is half-open at most one
guarded call is in flight. -/
def SingleProbe (s : State) : Prop := s.HalfOpen → s.AtMostOne fun _ => True

/-- **Someone sees to it in this step**: no caller is let through a half-open
circuit past another call, and the circuit gets half-open – by the time that
passes, or at once – with at most one call left in flight. -/
def OneAtATime (s : State) : Event → Prop
  | .tick d => 0 ≤ d → ¬ s.HalfOpen → { s with now := s.now + d }.HalfOpen →
      s.AtMostOne fun _ => True
  | .attempt i => s.calling i = false → s.HalfOpen → ∀ j, s.calling j = false
  | .record i false => s.calling i = true → (s.recorded false).HalfOpen → s.AtMostOne (· ≠ i)
  | .record _ true => True
  | .leave _ => True

end State

/-! ## One step -/

variable {s s' : State}

theorem step_attempt {i : ℕ} (hi : s.calling i = false) (hopen : s.cb.isOpen s.now = false) :
    step s (.attempt i) = some (s.setCalling i true) := by
  simp [step, hi, hopen]

theorem step_record {i : ℕ} (hi : s.calling i = true) (ok : Bool) :
    step s (.record i ok) = some ((s.recorded ok).setCalling i false) := by
  simp [step, hi]

theorem step_leave {i : ℕ} (hi : s.calling i = true) :
    step s (.leave i) = some (s.setCalling i false) := by
  simp [step, hi]

/-- A caller that stays where it is changes nothing. -/
theorem setCalling_eq_self {i : ℕ} {b : Bool} (h : s.calling i = b) : s.setCalling i b = s := by
  show { s with calling := Function.update s.calling i b } = s
  rw [← h, Function.update_eq_self]

/-- A half-open circuit lets callers through, all of them: `is_open` only
compares the time and leaves no mark of who has asked. -/
theorem isOpen_of_halfOpen (h : s.HalfOpen) : s.cb.isOpen s.now = false := by
  rw [CircuitBreaker.isOpen, if_neg (not_lt.mpr h.2.1)]
  exact if_pos h.2.2

/-- After a success the circuit is not half-open. -/
theorem not_halfOpen_recorded_true : ¬ (s.recorded true).HalfOpen := fun h => absurd h.1 (by
  simp [State.recorded])

theorem calling_setCalling (i j : ℕ) (b : Bool) :
    (s.setCalling i b).calling j = if j = i then b else s.calling j := by
  show Function.update s.calling i b j = _
  exact Function.update_apply s.calling i b j

/-- **A caller lets another call begin** while at most one is in flight, if and
only if none is. -/
theorem atMostOne_setCalling_true {i : ℕ} (hi : s.calling i = false) :
    ((s.setCalling i true).AtMostOne fun _ => True) ↔ ∀ j, s.calling j = false := by
  constructor
  · intro h j
    by_cases hj : j = i
    · rw [hj]
      exact hi
    · cases hc : s.calling j with
      | false => rfl
      | true =>
        refine absurd (h j i trivial trivial ?_ ?_) hj
        · rw [calling_setCalling, if_neg hj, hc]
        · rw [calling_setCalling, if_pos rfl]
  · intro h j k _ _ hj hk
    rw [calling_setCalling] at hj hk
    split at hj
    · next hji =>
      split at hk
      · next hki => rw [hji, hki]
      · rw [h k] at hk
        cases hk
    · rw [h j] at hj
      cases hj

/-- When a call is over, at most one is left if at most one other was there. -/
theorem atMostOne_setCalling_false {i : ℕ} :
    ((s.setCalling i false).AtMostOne fun _ => True) ↔ s.AtMostOne (· ≠ i) := by
  have hcalling : ∀ j, (s.setCalling i false).calling j = true ↔ j ≠ i ∧ s.calling j = true := by
    intro j
    rw [calling_setCalling]
    by_cases hj : j = i <;> simp [hj]
  unfold State.AtMostOne
  simp only [hcalling]
  exact ⟨fun h j k hj hk hcj hck => h j k trivial trivial ⟨hj, hcj⟩ ⟨hk, hck⟩,
    fun h j k _ _ hj hk => h j k hj.1 hk.1 hj.2 hk.2⟩

/-- **One step keeps the single probe** exactly if someone sees to it. -/
theorem oneAtATime_iff (hs : s.SingleProbe) (a : Event) :
    s.OneAtATime a ↔ ∀ s', step s a = some s' → s'.SingleProbe := by
  cases a with
  | tick d =>
    by_cases hd : 0 ≤ d
    · simp only [step, if_pos hd, Option.some.injEq, forall_eq', State.OneAtATime]
      refine ⟨fun h hhalf => ?_, fun h _ _ hhalf => h hhalf⟩
      by_cases hbefore : s.HalfOpen
      · exact hs hbefore
      · exact h hd hbefore hhalf
    · simp [step, State.OneAtATime, hd]
  | attempt i =>
    cases hi : s.calling i with
    | true => simp [step, State.OneAtATime, hi]
    | false =>
      cases hopen : s.cb.isOpen s.now with
      | true =>
        have hnot : ¬ s.HalfOpen := fun h => by simp [isOpen_of_halfOpen h] at hopen
        simp [step, State.OneAtATime, hi, hopen, hnot, hs]
      | false =>
        simp only [step, hi, hopen, Bool.false_eq_true, if_false, Option.some.injEq, forall_eq',
          State.OneAtATime, forall_const]
        exact forall_congr' fun _ => (atMostOne_setCalling_true hi).symm
  | record i ok =>
    cases hi : s.calling i with
    | false => cases ok <;> simp [step, State.OneAtATime, hi]
    | true =>
      simp only [step, hi, if_true, Option.some.injEq, forall_eq']
      cases ok with
      | true => exact iff_of_true trivial fun h => absurd h not_halfOpen_recorded_true
      | false =>
        simp only [State.OneAtATime, hi, forall_const]
        exact forall_congr' fun _ => atMostOne_setCalling_false.symm
  | leave i =>
    refine iff_of_true trivial fun s' hstep hhalf => ?_
    simp only [step] at hstep
    split at hstep
    · obtain rfl := Option.some.inj hstep
      exact atMostOne_setCalling_false.mpr fun j k _ _ => hs hhalf j k trivial trivial
    · cases hstep

/-! ## Whole runs -/

/-- **When there is a single probe in every state a run reaches**: exactly when
someone sees to it in each of its steps. The breaker itself does not: `is_open`
is a read, and from the end of the recovery time on lets everybody through until
somebody reports. -/
theorem along_singleProbe_iff (cb : CircuitBreaker) (now : ℚ) (as : List Event) :
    machine.Along (fun s a => ∀ s', step s a = some s' → s'.SingleProbe)
        { cb := cb, now := now } as
      ↔ machine.Along State.OneAtATime { cb := cb, now := now } as := by
  have hstart : State.SingleProbe { cb := cb, now := now } := fun _ _ _ _ _ hi => by cases hi
  constructor
  · refine machine.along_of_invariant (I := State.SingleProbe) ?_ ?_ hstart
    · exact fun s a s' _ h hstep => h s' hstep
    · exact fun s a hs h => (oneAtATime_iff hs a).mpr h
  · refine machine.along_of_invariant (I := State.SingleProbe) ?_ ?_ hstart
    · exact fun s a s' hs h hstep => (oneAtATime_iff hs a).mp h s' hstep
    · exact fun s a hs h => (oneAtATime_iff hs a).mp h

/-- Five calls that fail one after the other, the recovery time, and a probe. -/
def probeEvents : List Event :=
  [0, 1, 2, 3, 4].flatMap (fun i => [.attempt i, .record i false]) ++ [.tick 30, .attempt 5]

/-- **A second caller gets through beside the probe**, the circuit being
half-open until the first one reports. -/
theorem not_along_singleProbe :
    ¬ machine.Along (fun s a => ∀ s', step s a = some s' → s'.SingleProbe)
      { cb := { name := "registry" }, now := 0 } (probeEvents ++ [.attempt 6]) := by
  intro h
  have hend : ((machine.run { cb := { name := "registry" }, now := 0 } probeEvents).bind
      (fun s => step s (.attempt 6))).map
        (fun s => (s.cb.failures, s.cb.failureThreshold, s.cb.openUntil.reachedBy s.now,
          s.calling 5, s.calling 6)) = some (5, 5, true, true, true) := by
    decide +kernel
  obtain ⟨s', hs', hvalues⟩ := Option.map_eq_some_iff.mp hend
  obtain ⟨s, hrun, hstep⟩ := Option.bind_eq_some_iff.mp hs'
  simp only [Prod.mk.injEq] at hvalues
  obtain ⟨hfailures, hthreshold, hreached, hfive, hsix⟩ := hvalues
  have hprobe : s'.SingleProbe := ((machine.along_append hrun).mp h).2.1 s' hstep
  have hhalf : s'.HalfOpen := ⟨by omega, by omega, hreached⟩
  exact absurd (hprobe hhalf 5 6 trivial trivial hfive hsix) (by decide)

end BreakerProtocol
