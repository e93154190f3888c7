import PlatformSdk.BridgeLoop

/-!
# How long a loop pauses between attempts

An attempt to connect that fails is counted, and the count is set back when a
handshake succeeds. The loop then pauses for two to the power of the count, at
most a minute, in slices of a second, and tries again. The docstrings give the
pauses as 1, 2, 4, 8, 16, 32, 60 seconds; the count has been raised by then,
so the first pause is one of two seconds and each pause before the cap is the
next of the documented ones (`sleptIn_of_failsAttempt`). From the seventh
failure on both are the cap, and only there does the code do what it documents
(`backsOff_iff`).

A stop that is requested in a pause is seen at the end of the slice, in every
pause.
-/

namespace BridgeLoop

/-- The handshake of a loop succeeds. -/
def Event.initializes (k : ℕ) : Event → Bool
  | .initialized j => j = k
  | _ => false

/-- **An event in which an attempt of a loop fails**: the `except Exception`
clause runs, because the stream could not be opened or because the exit stack
let an exception through. -/
def failsAttempt (k : ℕ) (s : State) : Event → Bool
  | .interrupted j r => j = k && r = .exception && (s.loop j).phase = .opening
  | .closed j r => j = k && r = some .exception
  | _ => false

/-- The consecutive failed attempts of a loop after one more event. -/
def countFailure (k n : ℕ) (s : State) (a : Event) : ℕ :=
  if a.initializes k then 0 else if failsAttempt k s a then n + 1 else n

/-- **The consecutive failed attempts of a loop** in a run, since its last
handshake. -/
def failedAttempts (k : ℕ) (n : ℕ) (s : State) : List Event → ℕ
  | [] => n
  | a :: as =>
    match step s a with
    | some s' => failedAttempts k (countFailure k n s a) s' as
    | none => n

/-- The seconds an event has slept for a loop. -/
def sliceOf (k : ℕ) (s : State) : Event → ℚ
  | .slept j =>
    match (s.loop j).phase with
    | .pausing delay elapsed _ => if j = k then min 1 ((delay : ℚ) - elapsed) else 0
    | _ => 0
  | _ => 0

/-- **The seconds a loop has slept in a run.** -/
def sleptIn (k : ℕ) (s : State) : List Event → ℚ
  | [] => 0
  | a :: as =>
    match step s a with
    | some s' => sliceOf k s a + sleptIn k s' as
    | none => 0

/-- The loop is in a pause. -/
def Pausing (k : ℕ) (s : State) (_ : Event) : Prop :=
  ∃ delay elapsed since, (s.loop k).phase = .pausing delay elapsed since

/-- **Events of a pause**, from one state to another. -/
def Pauses (k : ℕ) (s : State) (cs : List Event) (t : State) : Prop :=
  machine.run s cs = some t ∧ machine.Along (Pausing k) s cs

/-- **A stop requested in a pause is seen when the slice is over**: from then
on, the loop is over or still in that slice, and it is over when the slice is,
a second after it began. A new `connect`, which replaces the stop event, is not
among the events. -/
def StopsPromptly (k : ℕ) (s : State) : Prop :=
  ∀ cs u delay elapsed since, Pauses k s cs u → (u.loop k).phase = .pausing delay elapsed since →
    u.stopping = true → ∀ ds v, (∀ d ∈ ds, ∀ timeout, d ≠ .connect timeout) →
      machine.run u ds = some v →
        (∃ raises, (v.loop k).phase = .done raises)
          ∨ (v.loop k).phase = .pausing delay elapsed since
            ∧ (since + 1 ≤ v.now →
                ∃ w, step v (.slept k) = some w ∧ (w.loop k).phase = .done false)

/-- **The pause after a failed attempt is the documented one**: with no stop
it has lasted `2 ^ (n - 1)` seconds, at most a minute, when the next attempt
begins, and a stop ends it. -/
def BacksOff (k n : ℕ) (s : State) : Prop :=
  (∀ cs t, Pauses k s cs t → (t.loop k).phase = .opening →
      sleptIn k s cs = min (2 ^ (n - 1)) 60)
    ∧ StopsPromptly k s

/-! ## What the operations leave of the count -/

namespace State

variable (s : State) (k j : ℕ)

@[simp] theorem failures_setPhase (p : Phase) :
    ((s.setPhase k p).loop j).failures = (s.loop j).failures := by
  by_cases h : j = k
  · subst h
    simp [setPhase]
  · exact congrArg Loop.failures (s.loop_setPhase_of_ne k h p)

@[simp] theorem failures_setFailures_self (n : ℕ) :
    ((s.setFailures k n).loop k).failures = n := by
  simp [setFailures]

@[simp] theorem failures_enterLoop : ((s.enterLoop k).loop j).failures = (s.loop j).failures := by
  unfold enterLoop
  split <;> exact s.failures_setPhase k j _

@[simp] theorem failures_pause : ((s.pause k).loop j).failures = (s.loop j).failures := by
  unfold pause
  split <;> exact s.failures_setPhase k j _

/-- The end of an attempt counts an `Exception`, and neither a cancellation nor
another `BaseException`. -/
theorem failures_afterTry (r : Option Interrupt) :
    ((s.afterTry k r).loop k).failures
      = if r = some .exception then (s.loop k).failures + 1 else (s.loop k).failures := by
  rcases r with _ | _ | _ | _
  · exact failures_pause _ k k
  · refine (failures_pause _ k k).trans ?_
    exact failures_setFailures_self _ k _
  · exact failures_setPhase _ k k _
  · exact failures_setPhase _ k k _

/-- A handshake that succeeds sets the count back, whether or not a stop is
requested by then. -/
theorem failures_handshakeDone : ((s.handshakeDone k).loop k).failures = 0 := by
  unfold handshakeDone
  split
  · dsimp only
    split <;> exact (failures_setPhase _ k k _).trans (failures_setFailures_self s k 0)
  · exact (failures_setPhase _ k k _).trans (failures_setFailures_self s k 0)

end State

/-- A run keeps the state sound, since each of its steps does. -/
theorem sound_run {s t : State} {es : List Event} (hs : s.Sound)
    (hrun : machine.run s es = some t) : t.Sound :=
  machine.run_invariant (fun _ _ _ hs h => sound_of_step hs h) hs hrun

/-- A loop there has been a `connect` for. -/
theorem lt_connects {s : State} {k : ℕ} (hs : s.Sound) (h : (s.loop k).phase ≠ .absent) :
    k < s.connects := not_le.mp fun hk => h (hs.fresh k hk)

theorem connects_stop (s : State) (j : ℕ) : (s.stop j).connects = s.connects := by
  have hconnects : s.requestStop.connects = s.connects := by
    unfold State.requestStop
    split <;> rfl
  rcases s.stop_cases j with ⟨-, h⟩ | ⟨t, -, h⟩ <;> rw [h] <;> exact hconnects

/-- **What a step that is not the loop's does to it**: nothing, or it is the
`connect` that makes it. -/
theorem loop_of_step_of_ne {s s' : State} {a : Event} {k : ℕ} (hs : s.Sound)
    (ha : a.loop? ≠ some k) (h : step s a = some s') :
    s'.loop k = s.loop k ∧ s.connects ≤ s'.connects
      ∨ s.connects = k ∧ s'.loop k = { phase := .pending } ∧ s'.connects = k + 1 := by
  cases a with
  | tick d =>
    obtain ⟨-, h⟩ := Option.ite_none_right_eq_some.mp h
    exact Option.some.inj h ▸ Or.inl ⟨rfl, le_rfl⟩
  | connect timeout =>
    obtain rfl := Option.some.inj h
    by_cases hk : k = s.connects
    · subst hk
      exact Or.inr ⟨rfl, Function.update_self _ _ _, rfl⟩
    · exact Or.inl ⟨loop_spawn_of_ne s timeout hk, Nat.le_succ _⟩
  | connectReturns i =>
    simp only [step] at h
    split at h
    · obtain ⟨-, h⟩ := Option.ite_none_right_eq_some.mp h
      exact Option.some.inj h ▸ Or.inl ⟨rfl, le_rfl⟩
    · cases h
  | disconnect j =>
    obtain ⟨-, h⟩ := Option.ite_none_right_eq_some.mp h
    exact Option.some.inj h ▸ Or.inl ⟨congrFun (loop_stop s j) k, (connects_stop s j).ge⟩
  | disconnectResumes j =>
    simp only [step] at h
    split at h
    · split at h
      · exact Option.some.inj h ▸ Or.inl ⟨rfl, le_rfl⟩
      · exact Option.some.inj h ▸ Or.inl ⟨rfl, le_rfl⟩
      · cases h
    · cases h
  | invoke => exact Option.some.inj h ▸ Or.inl ⟨rfl, le_rfl⟩
  | begins i | opened i | entered i | initialized i | stopSeen i | interrupted i r | closed i r
  | slept i =>
    have hm : s.Moves i s' := moves_of_step hs.session rfl h
    exact Or.inl ⟨hm.loop_eq k fun hki => ha (congrArg some hki.symm), hm.connects_eq.ge⟩

/-- A loop that has been made is moved by its own steps only. -/
theorem loop_of_step_of_made {s s' : State} {a : Event} {k : ℕ} (hs : s.Sound)
    (hk : (s.loop k).phase ≠ .absent) (ha : a.loop? ≠ some k) (h : step s a = some s') :
    s'.loop k = s.loop k := by
  rcases loop_of_step_of_ne hs ha h with ⟨hloop, -⟩ | ⟨hnew, -, -⟩
  · exact hloop
  · exact absurd hnew (lt_connects hs hk).ne'

/-- A loop that is over stays so; a later `connect` makes a loop of another
number. -/
theorem done_of_step {s s' : State} {a : Event} {k : ℕ} {raises : Bool} (hs : s.Sound)
    (hp : (s.loop k).phase = .done raises) (h : step s a = some s') :
    (s'.loop k).phase = .done raises := by
  by_cases ha : a.loop? = some k
  · have halive : (s.loop k).phase.alive = true := (moves_of_step hs.session ha h).was_alive
    rw [hp] at halive
    cases halive
  · rw [loop_of_step_of_made hs (by rw [hp]; nofun) ha h]
    exact hp

/-! ## The count of a loop is that of its failed attempts -/

/-- A step that is not the loop's counts nothing. -/
theorem countFailure_of_ne {k n : ℕ} {s : State} {a : Event} (ha : a.loop? ≠ some k) :
    countFailure k n s a = n := by
  cases a with
  | tick | connect | connectReturns | disconnect | disconnectResumes | invoke | begins | opened
  | entered | stopSeen | slept => rfl
  | initialized j =>
    have hj : j ≠ k := fun h => ha (congrArg some h)
    simp [countFailure, Event.initializes, failsAttempt, hj]
  | interrupted j r | closed j r =>
    have hj : j ≠ k := fun h => ha (congrArg some h)
    simp [countFailure, Event.initializes, failsAttempt, hj]

/-- **A step of a loop counts its failed attempt.** -/
theorem failures_of_step {s s' : State} {a : Event} {k : ℕ} (ha : a.loop? = some k)
    (h : step s a = some s') :
    (s'.loop k).failures = countFailure k (s.loop k).failures s a := by
  cases a with
  | tick | connect | connectReturns | disconnect | disconnectResumes | invoke => cases ha
  | begins i =>
    obtain rfl := Option.some.inj ha
    obtain ⟨-, h⟩ := Option.ite_none_right_eq_some.mp h
    exact Option.some.inj h ▸ s.failures_enterLoop i i
  | opened i =>
    obtain rfl := Option.some.inj ha
    obtain ⟨-, h⟩ := Option.ite_none_right_eq_some.mp h
    exact Option.some.inj h ▸ s.failures_setPhase i i _
  | entered i =>
    obtain rfl := Option.some.inj ha
    obtain ⟨-, h⟩ := Option.ite_none_right_eq_some.mp h
    exact Option.some.inj h ▸ State.failures_setPhase _ i i _
  | initialized i =>
    obtain rfl := Option.some.inj ha
    obtain ⟨-, h⟩ := Option.ite_none_right_eq_some.mp h
    rw [← Option.some.inj h, s.failures_handshakeDone i]
    simp [countFailure, Event.initializes]
  | stopSeen i =>
    obtain rfl := Option.some.inj ha
    simp only [step] at h
    split at h
    · obtain ⟨-, h⟩ := Option.ite_none_right_eq_some.mp h
      exact Option.some.inj h ▸ s.failures_setPhase i i _
    · cases h
  | interrupted i r =>
    obtain rfl := Option.some.inj ha
    have hcount : countFailure i (s.loop i).failures s (.interrupted i r)
        = if r = .exception ∧ (s.loop i).phase = .opening then (s.loop i).failures + 1
          else (s.loop i).failures := by
      simp [countFailure, Event.initializes, failsAttempt]
    rw [hcount]
    simp only [step] at h
    split at h
    case h_2 hp =>
      rw [← Option.some.inj h, s.failures_afterTry i]
      simp [hp]
    case h_8 => cases h
    all_goals
      next hp =>
      rw [← Option.some.inj h, s.failures_setPhase i i, if_neg (by simp [hp])]
  | closed i r =>
    obtain rfl := Option.some.inj ha
    obtain ⟨-, h⟩ := Option.ite_none_right_eq_some.mp h
    rw [← Option.some.inj h, s.failures_afterTry i]
    simp [countFailure, Event.initializes, failsAttempt]
  | slept i =>
    obtain rfl := Option.some.inj ha
    simp only [step] at h
    split at h
    · obtain ⟨-, h⟩ := Option.ite_none_right_eq_some.mp h
      split at h
      · exact Option.some.inj h ▸ s.failures_setPhase i i _
      · exact Option.some.inj h ▸ s.failures_enterLoop i i
    · cases h

/-- **The loop has counted so many failures**: none when there is no such
loop yet. -/
def Counted (k n : ℕ) (s : State) : Prop :=
  (s.loop k).failures = n ∧ (s.connects ≤ k → n = 0)

/-- A step keeps count: it is one of the loop's own steps, which count as
`countFailure` does, or it is not and counts nothing. -/
theorem counted_of_step {s s' : State} {a : Event} {k n : ℕ} (hs : s.Sound)
    (hn : Counted k n s) (h : step s a = some s') : Counted k (countFailure k n s a) s' := by
  by_cases ha : a.loop? = some k
  · have hm : s.Moves k s' := moves_of_step hs.session ha h
    refine ⟨hn.1 ▸ failures_of_step ha h, fun hk => absurd hk (not_le.mpr ?_)⟩
    rw [hm.connects_eq]
    refine lt_connects hs fun hp => ?_
    have halive : (s.loop k).phase.alive = true := hm.was_alive
    rw [hp] at halive
    cases halive
  · rw [countFailure_of_ne ha]
    rcases loop_of_step_of_ne hs ha h with ⟨hloop, hle⟩ | ⟨hk, hloop, hconnects⟩
    · exact ⟨(congrArg Loop.failures hloop).trans hn.1, fun hk => hn.2 (hle.trans hk)⟩
    · refine ⟨?_, fun hk' => absurd hk' (by omega)⟩
      rw [hloop]
      exact (hn.2 hk.le).symm

/-- **The count of a loop is the number of its consecutive failed attempts**,
in every run. -/
theorem failures_run {now : ℚ} {es : List Event} {t : State} (k : ℕ)
    (hrun : machine.run (start now) es = some t) :
    (t.loop k).failures = failedAttempts k 0 (start now) es := by
  have hcount : ∀ es n s, s.Sound → Counted k n s → machine.run s es = some t →
      (t.loop k).failures = failedAttempts k n s es := by
    intro es
    induction es with
    | nil =>
      intro n s _ hn h
      exact Option.some.inj h ▸ hn.1
    | cons a as ih =>
      intro n s hs hn h
      obtain ⟨s', h₁, h₂⟩ := machine.run_cons_eq_some.mp h
      have hstep : step s a = some s' := h₁
      rw [failedAttempts, hstep]
      exact ih _ s' (sound_of_step hs hstep) (counted_of_step hs hn hstep) h₂
  exact hcount es 0 (start now) (sound_start now) ⟨rfl, fun _ => rfl⟩ hrun

/-! ## A stop stays requested -/

namespace State

variable (s : State) (k : ℕ)

@[simp] theorem stopping_enterLoop : (s.enterLoop k).stopping = s.stopping := by
  unfold enterLoop
  split <;> rfl

@[simp] theorem stopping_pause : (s.pause k).stopping = s.stopping := by
  unfold pause
  split <;> rfl

@[simp] theorem stopping_afterTry (r : Option Interrupt) :
    (s.afterTry k r).stopping = s.stopping := by
  rcases r with _ | _ | _ | _
  · exact stopping_pause _ k
  · exact stopping_pause _ k
  · rfl
  · rfl

@[simp] theorem stopping_handshakeDone : (s.handshakeDone k).stopping = s.stopping := by
  unfold handshakeDone
  split
  · dsimp only
    split <;> rfl
  · rfl

/-- `disconnect` asks for a stop, and withdraws none. -/
theorem stopping_stop (j : ℕ) (h : s.stopping = true) : (s.stop j).stopping = true := by
  have hstop : s.requestStop.stopping = true := by
    cases he : s.currentEvent with
    | none =>
      rw [stopping, he] at h
      cases h
    | some e =>
      have hreq : s.requestStop = { s with stopSet := Function.update s.stopSet e true } := by
        rw [requestStop, he]
      have hcurrent : s.requestStop.currentEvent = some e := by
        rw [hreq]
        exact he
      rw [stopping, hcurrent, hreq]
      exact Function.update_self _ _ _
  rcases s.stop_cases j with ⟨-, h⟩ | ⟨t, -, h⟩ <;> rw [h] <;> exact hstop

end State

/-- **Only `connect` withdraws a stop.** It makes a new stop event, which is not
set; every other step leaves the event that is set on the bridge. -/
theorem stopping_of_step {s s' : State} {a : Event} (ha : ∀ timeout, a ≠ .connect timeout)
    (hstop : s.stopping = true) (h : step s a = some s') : s'.stopping = true := by
  cases a with
  | tick d =>
    obtain ⟨-, h⟩ := Option.ite_none_right_eq_some.mp h
    exact Option.some.inj h ▸ hstop
  | connect timeout => exact absurd rfl (ha timeout)
  | connectReturns i =>
    simp only [step] at h
    split at h
    · obtain ⟨-, h⟩ := Option.ite_none_right_eq_some.mp h
      exact Option.some.inj h ▸ hstop
    · cases h
  | disconnect j =>
    obtain ⟨-, h⟩ := Option.ite_none_right_eq_some.mp h
    exact Option.some.inj h ▸ s.stopping_stop j hstop
  | disconnectResumes j =>
    simp only [step] at h
    split at h
    · split at h
      · exact Option.some.inj h ▸ hstop
      · exact Option.some.inj h ▸ hstop
      · cases h
    · cases h
  | invoke => exact Option.some.inj h ▸ hstop
  | begins i =>
    obtain ⟨-, h⟩ := Option.ite_none_right_eq_some.mp h
    rw [← Option.some.inj h, s.stopping_enterLoop]
    exact hstop
  | opened i | entered i =>
    obtain ⟨-, h⟩ := Option.ite_none_right_eq_some.mp h
    exact Option.some.inj h ▸ hstop
  | initialized i =>
    obtain ⟨-, h⟩ := Option.ite_none_right_eq_some.mp h
    rw [← Option.some.inj h, s.stopping_handshakeDone]
    exact hstop
  | stopSeen i =>
    simp only [step] at h
    split at h
    · obtain ⟨-, h⟩ := Option.ite_none_right_eq_some.mp h
      exact Option.some.inj h ▸ hstop
    · cases h
  | interrupted i r =>
    simp only [step] at h
    split at h
    case h_2 =>
      rw [← Option.some.inj h, s.stopping_afterTry]
      exact hstop
    case h_8 => cases h
    all_goals exact Option.some.inj h ▸ hstop
  | closed i r =>
    obtain ⟨-, h⟩ := Option.ite_none_right_eq_some.mp h
    rw [← Option.some.inj h, s.stopping_afterTry]
    exact hstop
  | slept i =>
    simp only [step] at h
    split at h
    · obtain ⟨-, h⟩ := Option.ite_none_right_eq_some.mp h
      split at h
      · exact Option.some.inj h ▸ hstop
      · rw [← Option.some.inj h, s.stopping_enterLoop]
        exact hstop
    · cases h

/-! ## The slices of a pause -/

/-- The loop after a slice: another one, or the head of the loop. -/
def sliceOver (s : State) (k delay elapsed : ℕ) : State :=
  if elapsed + 1 < delay ∧ s.stopping = false then
    s.setPhase k (.pausing delay (elapsed + 1) s.now)
  else s.enterLoop k

theorem step_slept {s : State} {k delay elapsed : ℕ} {since : ℚ}
    (hp : (s.loop k).phase = .pausing delay elapsed since) :
    step s (.slept k) = if since + min 1 ((delay : ℚ) - elapsed) ≤ s.now then
      some (sliceOver s k delay elapsed) else none := by
  simp only [step, hp, sliceOver]
  split
  · split <;> rfl
  · rfl

/-- **What can happen to a loop in a pause**: nothing, its slice is over, or it
is interrupted. -/
theorem pausing_step {s s' : State} {a : Event} {k delay elapsed : ℕ} {since : ℚ} (hs : s.Sound)
    (hp : (s.loop k).phase = .pausing delay elapsed since) (h : step s a = some s') :
    (s'.loop k).phase = .pausing delay elapsed since ∧ sliceOf k s a = 0
      ∨ a = .slept k ∧ since + min 1 ((delay : ℚ) - elapsed) ≤ s.now
        ∧ s' = sliceOver s k delay elapsed
      ∨ (s'.loop k).phase = .done true := by
  by_cases ha : a.loop? = some k
  · cases a with
    | tick | connect | connectReturns | disconnect | disconnectResumes | invoke => cases ha
    | begins i | opened i | entered i | initialized i | closed i r =>
      obtain rfl := Option.some.inj ha
      obtain ⟨hp', -⟩ := Option.ite_none_right_eq_some.mp h
      rw [hp] at hp'
      cases hp'
    | stopSeen i =>
      obtain rfl := Option.some.inj ha
      simp [step, hp] at h
    | interrupted i r =>
      obtain rfl := Option.some.inj ha
      cases r with
      | exception => simp [step, hp] at h
      | cancelled | escaped =>
        simp only [step, hp] at h
        exact Or.inr (Or.inr (Option.some.inj h ▸ s.phase_setPhase_self i _))
    | slept i =>
      obtain rfl := Option.some.inj ha
      rw [step_slept hp] at h
      obtain ⟨htime, h⟩ := Option.ite_none_right_eq_some.mp h
      exact Or.inr (Or.inl ⟨rfl, htime, (Option.some.inj h).symm⟩)
  · refine Or.inl ⟨?_, ?_⟩
    · rw [loop_of_step_of_made hs (by simp [hp]) ha h]
      exact hp
    · cases a with
      | slept j =>
        have hj : j ≠ k := fun hjk => ha (congrArg some hjk)
        simp only [sliceOf, if_neg hj]
        split <;> rfl
      | _ => rfl

/-- A slice is a second, as long as there is one left. -/
theorem slice_eq_one {delay elapsed : ℕ} (h : elapsed < delay) :
    min 1 ((delay : ℚ) - elapsed) = 1 := by
  refine min_eq_left (le_sub_iff_add_le'.mpr ?_)
  exact_mod_cast h

/-- A slice is a second at most, so it is over by the time a second has passed.
-/
theorem slice_le {delay elapsed : ℕ} {since now : ℚ} (h : since + 1 ≤ now) :
    since + min 1 ((delay : ℚ) - elapsed) ≤ now :=
  (add_le_add le_rfl (min_le_left _ _)).trans h

theorem sliceOf_slept {s : State} {k delay elapsed : ℕ} {since : ℚ}
    (hp : (s.loop k).phase = .pausing delay elapsed since) (h : elapsed < delay) :
    sliceOf k s (.slept k) = 1 := by
  simp only [sliceOf, hp, if_true]
  exact slice_eq_one h

/-- What comes after a slice with no stop requested. -/
theorem sliceOver_of_not_stopping {s : State} (k delay elapsed : ℕ) (h : s.stopping = false) :
    sliceOver s k delay elapsed
      = s.setPhase k (if elapsed + 1 < delay then .pausing delay (elapsed + 1) s.now
          else .opening) := by
  simp only [sliceOver, h, and_true, State.enterLoop, Bool.false_eq_true, if_false]
  split <;> rfl

/-- What comes after a slice with a stop requested: nothing. -/
theorem sliceOver_of_stopping {s : State} (k delay elapsed : ℕ) (h : s.stopping = true) :
    sliceOver s k delay elapsed = s.setPhase k (.done false) := by
  simp [sliceOver, h, State.enterLoop]

/-- A pause that is over has no further events. -/
theorem pauses_eq_of_not_pausing {k : ℕ} {s t : State} {cs : List Event} (h : Pauses k s cs t)
    (hs : ∀ delay elapsed since, (s.loop k).phase ≠ .pausing delay elapsed since) :
    cs = [] ∧ s = t := by
  obtain ⟨hrun, hC⟩ := h
  cases cs with
  | nil => exact ⟨rfl, Option.some.inj hrun⟩
  | cons a as =>
    obtain ⟨delay, elapsed, since, hp⟩ := hC.1
    exact absurd hp (hs delay elapsed since)

/-- A loop that is over makes no attempt in it. -/
theorem not_opening_of_done {k : ℕ} {s t : State} {cs : List Event} {raises : Bool}
    (hdone : (s.loop k).phase = .done raises) (h : Pauses k s cs t) :
    (t.loop k).phase ≠ .opening := by
  obtain ⟨-, rfl⟩ := pauses_eq_of_not_pausing h (by rw [hdone]; nofun)
  rw [hdone]
  nofun

/-- **A pause that ends with an attempt has lasted its whole delay.** -/
theorem sleptIn_of_opening {k delay : ℕ} {t : State} (ht : (t.loop k).phase = .opening)
    (cs : List Event) :
    ∀ s elapsed since, s.Sound → (s.loop k).phase = .pausing delay elapsed since →
      elapsed < delay → Pauses k s cs t → (elapsed : ℚ) + sleptIn k s cs = delay := by
  induction cs with
  | nil =>
    intro s elapsed since _ hp _ h
    rw [Option.some.inj h.1, ht] at hp
    cases hp
  | cons a as ih =>
    intro s elapsed since hs hp hlt ⟨hrun, hC⟩
    obtain ⟨s', h₁, h₂⟩ := machine.run_cons_eq_some.mp hrun
    have hstep : step s a = some s' := h₁
    have hs' : s'.Sound := sound_of_step hs hstep
    have hrest : Pauses k s' as t := ⟨h₂, hC.2 s' h₁⟩
    have hslept : sleptIn k s (a :: as) = sliceOf k s a + sleptIn k s' as := by
      rw [sleptIn, hstep]
    rw [hslept]
    rcases pausing_step hs hp hstep with ⟨hp', hslice⟩ | ⟨rfl, -, rfl⟩ | hdone
    · rw [hslice, zero_add]
      exact ih s' elapsed since hs' hp' hlt hrest
    · rw [sliceOf_slept hp hlt, ← add_assoc]
      cases hstop : s.stopping with
      | true =>
        rw [sliceOver_of_stopping k delay elapsed hstop] at hrest
        exact absurd ht (not_opening_of_done (s.phase_setPhase_self k _) hrest)
      | false =>
        rw [sliceOver_of_not_stopping k delay elapsed hstop] at hrest hs' ⊢
        by_cases hnext : elapsed + 1 < delay
        · rw [if_pos hnext] at hrest hs' ⊢
          have := ih _ (elapsed + 1) s.now hs' (s.phase_setPhase_self k _) hnext hrest
          rwa [Nat.cast_succ] at this
        · rw [if_neg hnext] at hrest ⊢
          obtain ⟨rfl, -⟩ := pauses_eq_of_not_pausing hrest (by simp)
          have hdelay : elapsed + 1 = delay := by omega
          rw [sleptIn, add_zero, ← hdelay, Nat.cast_succ]
    · exact absurd ht (not_opening_of_done hdone hrest)

/-- A slice is over once enough time has passed. -/
theorem exists_slice {s : State} {k delay elapsed : ℕ} {since : ℚ}
    (hp : (s.loop k).phase = .pausing delay elapsed since) :
    ∃ cs u, u.stopping = s.stopping ∧ Pauses k s cs (sliceOver u k delay elapsed) := by
  set d : ℚ := max 0 (since + 1 - s.now)
  have htick : step s (.tick d) = some { s with now := s.now + d } := if_pos (le_max_left _ _)
  have htime : since + min 1 ((delay : ℚ) - elapsed) ≤ s.now + d :=
    slice_le (sub_le_iff_le_add'.mp (le_max_right _ _))
  have hslept : step { s with now := s.now + d } (.slept k)
      = some (sliceOver { s with now := s.now + d } k delay elapsed) := by
    rw [step_slept (s := { s with now := s.now + d }) hp]
    exact if_pos htime
  refine ⟨[.tick d, .slept k], { s with now := s.now + d }, rfl, ?_,
    ⟨delay, elapsed, since, hp⟩, ?_⟩
  · exact (machine.run_cons_of_step htick _).trans (machine.run_singleton hslept)
  · intro s' hs'
    obtain rfl := Option.some.inj (htick.symm.trans hs')
    exact ⟨⟨delay, elapsed, since, hp⟩, fun _ _ => trivial⟩

theorem pauses_append {k : ℕ} {s t u : State} {as bs : List Event} (h₁ : Pauses k s as t)
    (h₂ : Pauses k t bs u) : Pauses k s (as ++ bs) u :=
  ⟨by rw [machine.run_append, h₁.1]; exact h₂.1, (machine.along_append h₁.1).mpr ⟨h₁.2, h₂.2⟩⟩

/-- **With no stop requested a pause does end with an attempt.** -/
theorem exists_pauses_opening {k delay : ℕ} (m : ℕ) :
    ∀ s elapsed since, (s.loop k).phase = .pausing delay elapsed since → s.stopping = false →
      elapsed + m + 1 = delay → ∃ cs t, Pauses k s cs t ∧ (t.loop k).phase = .opening := by
  induction m with
  | zero =>
    intro s elapsed since hp hstop hdelay
    obtain ⟨cs, u, hu, hpauses⟩ := exists_slice hp
    rw [sliceOver_of_not_stopping k delay elapsed (hu.trans hstop),
      if_neg (by omega)] at hpauses
    exact ⟨_, _, hpauses, u.phase_setPhase_self k _⟩
  | succ m ih =>
    intro s elapsed since hp hstop hdelay
    obtain ⟨cs, u, hu, hpauses⟩ := exists_slice hp
    rw [sliceOver_of_not_stopping k delay elapsed (hu.trans hstop),
      if_pos (by omega)] at hpauses
    obtain ⟨ds, t, hds, ht⟩ := ih _ (elapsed + 1) u.now (u.phase_setPhase_self k _)
      (hu.trans hstop) (by omega)
    exact ⟨cs ++ ds, t, pauses_append hpauses hds, ht⟩

/-- **Every pause is left promptly when a stop is requested.** -/
theorem stopsPromptly {k : ℕ} {s : State} (hs : s.Sound) : StopsPromptly k s := by
  intro cs u delay elapsed since hcs hu hstop ds v hds hv
  have hu' : u.Sound := sound_run hs hcs.1
  have hinv : ∀ r a r', (r.Sound ∧ r.stopping = true ∧ ((∃ raises, (r.loop k).phase = .done raises)
        ∨ (r.loop k).phase = .pausing delay elapsed since)) →
      (∀ timeout, a ≠ .connect timeout) → step r a = some r' →
        r'.Sound ∧ r'.stopping = true ∧ ((∃ raises, (r'.loop k).phase = .done raises)
          ∨ (r'.loop k).phase = .pausing delay elapsed since) := by
    rintro r a r' ⟨hr, hstop, hphase⟩ ha hstep
    refine ⟨sound_of_step hr hstep, stopping_of_step ha hstop hstep, ?_⟩
    rcases hphase with ⟨raises, hdone⟩ | hp
    · exact Or.inl ⟨raises, done_of_step hr hdone hstep⟩
    · rcases pausing_step hr hp hstep with ⟨hp', -⟩ | ⟨rfl, -, rfl⟩ | hdone
      · exact Or.inr hp'
      · rw [sliceOver_of_stopping k delay elapsed hstop]
        exact Or.inl ⟨false, r.phase_setPhase_self k _⟩
      · exact Or.inl ⟨true, hdone⟩
  obtain ⟨-, hstop', hphase⟩ :=
    machine.run_invariant_of_forall hinv ⟨hu', hstop, Or.inr hu⟩ hds hv
  refine hphase.imp_right fun hp => ⟨hp, fun htime => ?_⟩
  refine ⟨v.setPhase k (.done false), ?_, v.phase_setPhase_self k _⟩
  rw [step_slept hp, if_pos (slice_le htime), sliceOver_of_stopping k delay elapsed hstop']

/-! ## The pause after a failed attempt -/

/-- **What a failed attempt leaves**: a count raised by one, and a pause of two
to the power of the new count, unless the loop is to stop. -/
theorem after_failsAttempt {s s' : State} {a : Event} {k : ℕ} (ha : failsAttempt k s a = true)
    (h : step s a = some s') :
    (s'.loop k).failures = (s.loop k).failures + 1 ∧ s'.stopping = s.stopping
      ∧ (s'.loop k).phase = if s.stopping then .done false
          else .pausing (min (2 ^ ((s.loop k).failures + 1)) 60) 0 s.now := by
  have hafter : s' = s.afterTry k (some .exception) := by
    cases a with
    | tick | connect | connectReturns | disconnect | disconnectResumes | invoke | begins | opened
    | entered | initialized | stopSeen | slept => cases ha
    | interrupted j r =>
      simp only [failsAttempt, Bool.and_eq_true, decide_eq_true_eq] at ha
      obtain ⟨⟨rfl, rfl⟩, hp⟩ := ha
      simp only [step, hp] at h
      exact (Option.some.inj h).symm
    | closed j r =>
      simp only [failsAttempt, Bool.and_eq_true, decide_eq_true_eq] at ha
      obtain ⟨rfl, rfl⟩ := ha
      obtain ⟨-, h⟩ := Option.ite_none_right_eq_some.mp h
      exact (Option.some.inj h).symm
  subst hafter
  refine ⟨by rw [s.failures_afterTry, if_pos rfl], s.stopping_afterTry k _, ?_⟩
  simp only [State.afterTry, State.pause, State.failures_setFailures_self]
  show (State.loop (if s.stopping = true then _ else _) k).phase = _
  split <;> exact State.phase_setPhase_self _ k _

/-- Two to the power of a count that has been raised is the documented pause
from the seventh failure on. -/
theorem delay_eq_iff {n : ℕ} (hn : 0 < n) :
    ((min (2 ^ n) 60 : ℕ) : ℚ) = min (2 ^ (n - 1)) 60 ↔ 7 ≤ n := by
  obtain ⟨m, rfl⟩ := Nat.exists_eq_succ_of_ne_zero hn.ne'
  have hcast : (min (2 ^ (m + 1 - 1)) 60 : ℚ) = ((min (2 ^ m) 60 : ℕ) : ℚ) := by
    rw [Nat.add_sub_cancel]
    push_cast
    rfl
  rw [hcast, Nat.cast_inj, Nat.pow_succ]
  by_cases hm : 6 ≤ m
  · have hpow : 2 ^ 6 ≤ 2 ^ m := Nat.pow_le_pow_right two_pos hm
    exact iff_of_true (by omega) (by omega)
  · have hpow : 2 ^ m ≤ 2 ^ 5 := Nat.pow_le_pow_right two_pos (by omega)
    have hpos : 0 < 2 ^ m := Nat.two_pow_pos m
    exact iff_of_false (by omega) (by omega)

/-- **The pause after a failed attempt is `2 ^ n` seconds**, at most a minute,
when no stop is requested. -/
theorem sleptIn_of_failsAttempt {now : ℚ} {k : ℕ} {bs cs : List Event} {a : Event}
    {s s' t : State} (hrun : machine.run (start now) bs = some s)
    (ha : failsAttempt k s a = true) (h : step s a = some s') (hcs : Pauses k s' cs t)
    (ht : (t.loop k).phase = .opening) :
    sleptIn k s' cs = (min (2 ^ failedAttempts k 0 (start now) (bs ++ [a])) 60 : ℕ) := by
  have hrun' : machine.run (start now) (bs ++ [a]) = some s' :=
    machine.run_concat_eq_some.mpr ⟨s, hrun, h⟩
  have hs' : s'.Sound := sound_run (sound_start now) hrun'
  obtain ⟨hfailures, -, hphase⟩ := after_failsAttempt ha h
  rw [← failures_run k hrun', hfailures]
  cases hstop : s.stopping with
  | true =>
    rw [hstop, if_pos rfl] at hphase
    exact absurd ht (not_opening_of_done hphase hcs)
  | false =>
    rw [hstop, if_neg Bool.false_ne_true] at hphase
    have hpos : 0 < min (2 ^ ((s.loop k).failures + 1)) 60 :=
      lt_min (Nat.two_pow_pos _) (by decide)
    have := sleptIn_of_opening ht cs s' 0 s.now hs' hphase hpos hcs
    rwa [Nat.cast_zero, zero_add] at this

/-- **The documented pauses are those from the seventh failure on.** In every
run of a bridge, and after every failed attempt of a loop in it, the loop backs
off as documented if and only if a stop is requested already, so that there is
no pause, or the attempt is at least the seventh to fail in a row. -/
theorem backsOff_iff {now : ℚ} {k : ℕ} {bs : List Event} {a : Event} {s s' : State}
    (hrun : machine.run (start now) bs = some s) (ha : failsAttempt k s a = true)
    (h : step s a = some s') :
    BacksOff k (failedAttempts k 0 (start now) (bs ++ [a])) s'
      ↔ s.stopping = true ∨ 7 ≤ failedAttempts k 0 (start now) (bs ++ [a]) := by
  have hrun' : machine.run (start now) (bs ++ [a]) = some s' :=
    machine.run_concat_eq_some.mpr ⟨s, hrun, h⟩
  have hs' : s'.Sound := sound_run (sound_start now) hrun'
  obtain ⟨hfailures, hstopping, hphase⟩ := after_failsAttempt ha h
  have hpos : 0 < failedAttempts k 0 (start now) (bs ++ [a]) := by
    rw [← failures_run k hrun', hfailures]
    exact Nat.succ_pos _
  rw [BacksOff, and_iff_left (stopsPromptly hs')]
  constructor
  · intro hpause
    refine or_iff_not_imp_left.mpr fun hstop => ?_
    rw [Bool.not_eq_true] at hstop
    rw [hstop, if_neg Bool.false_ne_true] at hphase
    have hdelay : 0 < min (2 ^ ((s.loop k).failures + 1)) 60 :=
      lt_min (Nat.two_pow_pos _) (by decide)
    -- some run does get through the pause
    obtain ⟨cs, t, hcs, ht⟩ := exists_pauses_opening (min (2 ^ ((s.loop k).failures + 1)) 60 - 1)
      s' 0 s.now hphase (hstopping.trans hstop) (by omega)
    rw [← delay_eq_iff hpos, ← sleptIn_of_failsAttempt hrun ha h hcs ht]
    exact hpause cs t hcs ht
  · rintro (hstop | hseven) cs t hcs ht
    · rw [hstop, if_pos rfl] at hphase
      exact absurd ht (not_opening_of_done hphase hcs)
    · rw [sleptIn_of_failsAttempt hrun ha h hcs ht]
      exact (delay_eq_iff hpos).mpr hseven

/-- The stream cannot be opened: the attempt fails with an `Exception`. -/
def refused : Event := .interrupted 0 .exception

/-- A bridge whose loop opens its first stream. -/
def firstTry : List Event := [.connect (.finite 60), .begins 0]

/-- A pause of so many seconds, slept through. -/
def wholePause (seconds : ℕ) : List Event :=
  (List.replicate seconds [Event.tick 1, .slept 0]).flatten

/-- Six attempts that fail, one after another, and the pauses between them. -/
def sixFailures : List Event :=
  firstTry ++ [2, 4, 8, 16, 32, 60].flatMap fun seconds => refused :: wholePause seconds

/-- The seventh attempt in a row fails: the pause is a minute, as documented. -/
theorem backsOff_seventh :
    ∃ s s', machine.run (start 0) sixFailures = some s ∧ step s refused = some s'
      ∧ s.stopping = false ∧ (s'.loop 0).phase = .pausing 60 0 122
      ∧ BacksOff 0 (failedAttempts 0 0 (start 0) (sixFailures ++ [refused])) s' := by
  have hend : (machine.run (start 0) sixFailures).map
      (fun s => (s.stopping, (s.loop 0).phase, (s.loop 0).failures, s.now))
        = some (false, .opening, 6, 122) := by
    decide +kernel
  obtain ⟨s, hrun, hvalues⟩ := Option.map_eq_some_iff.mp hend
  obtain ⟨hstop, hvalues⟩ := Prod.mk.inj hvalues
  obtain ⟨hphase, hvalues⟩ := Prod.mk.inj hvalues
  obtain ⟨hfailures, hnow⟩ := Prod.mk.inj hvalues
  have hstep : step s refused = some (s.afterTry 0 (some .exception)) := by
    simp only [refused, step, hphase]
  have hfails : failsAttempt 0 s refused = true := by
    simp only [refused, failsAttempt, hphase, decide_true, Bool.and_self]
  obtain ⟨hcount, -, hpause⟩ := after_failsAttempt hfails hstep
  have hseven : failedAttempts 0 0 (start 0) (sixFailures ++ [refused]) = 7 := by
    rw [← failures_run 0 (machine.run_concat_eq_some.mpr ⟨s, hrun, hstep⟩), hcount, hfailures]
  refine ⟨s, _, hrun, hstep, hstop, ?_, (backsOff_iff hrun hfails hstep).mpr (Or.inr hseven.ge)⟩
  rw [hpause, hstop, hfailures, hnow]
  rfl

/-- **The first pause is one of two seconds**, where one is documented. -/
theorem not_backsOff_first :
    ∃ s s' cs t, machine.run (start 0) firstTry = some s ∧ step s refused = some s'
      ∧ failedAttempts 0 0 (start 0) (firstTry ++ [refused]) = 1
      ∧ Pauses 0 s' cs t ∧ (t.loop 0).phase = .opening ∧ sleptIn 0 s' cs = 2
      ∧ ¬ BacksOff 0 1 s' := by
  obtain ⟨s, s', hrun, hstep, hcount, hrefused, hp, hstop⟩ :
      ∃ s s', machine.run (start 0) firstTry = some s ∧ step s refused = some s'
        ∧ failedAttempts 0 0 (start 0) (firstTry ++ [refused]) = 1
        ∧ machine.run (start 0) (firstTry ++ [refused]) = some s'
        ∧ (s'.loop 0).phase = .pausing 2 0 0 ∧ s'.stopping = false :=
    ⟨_, _, rfl, rfl, rfl, rfl, rfl, rfl⟩
  have hs' : s'.Sound := sound_run (sound_start 0) hrefused
  obtain ⟨cs, t, hcs, ht⟩ := exists_pauses_opening 1 s' 0 0 hp hstop rfl
  have hslept : sleptIn 0 s' cs = 2 := by
    rw [← zero_add (sleptIn 0 s' cs)]
    exact sleptIn_of_opening ht cs s' 0 0 hs' hp two_pos hcs
  refine ⟨s, s', cs, t, hrun, hstep, hcount, hcs, ht, hslept, fun h => ?_⟩
  have hone : sleptIn 0 s' cs = min (2 ^ (1 - 1)) 60 := h.1 cs t hcs ht
  rw [hslept] at hone
  exact absurd hone (by decide +kernel)

end BridgeLoop
