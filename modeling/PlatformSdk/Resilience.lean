import Mathlib.Data.List.Induction
import PlatformSdk.Python

/-!
# The circuit breaker

`CircuitBreaker` counts consecutive failures. Once the count reaches the
threshold every further failure pushes the instant until which the circuit
is open to `recovery_timeout` past the failure; a success resets the count
and leaves that instant alone, since below the threshold nothing reads it.

Time is what `time.monotonic()` returned, passed in as an argument by
whoever reads the clock; it is finite. The recovery time comes from a
configuration file and need not be: an infinite one keeps the circuit open
for good, and so does `nan`, which no instant reaches.
-/

/-- **A circuit breaker**: its parameters and its two internal fields. -/
structure CircuitBreaker where
  /-- The name it logs under. -/
  name : String
  /-- How many consecutive failures open the circuit. -/
  failureThreshold : ℤ := 5
  /-- For how many seconds a failure at the threshold keeps it open. -/
  recoveryTimeout : FloatValue := .finite 30
  /-- `_failures`, the consecutive failures so far. -/
  failures : ℕ := 0
  /-- `_open_until`, the instant the circuit stops being open. -/
  openUntil : FloatValue := .finite 0
  deriving DecidableEq

namespace CircuitBreaker

/-- Whether the circuit is open at an instant. -/
def isOpen (cb : CircuitBreaker) (now : ℚ) : Bool :=
  if (cb.failures : ℤ) < cb.failureThreshold then false
  else if cb.openUntil.reachedBy now then false
  else true

/-- `consecutive_failures`. -/
def consecutiveFailures (cb : CircuitBreaker) : ℕ := cb.failures

/-- A successful call resets the count. -/
def recordSuccess (cb : CircuitBreaker) : CircuitBreaker := { cb with failures := 0 }

/-- A failed call is counted, and opens the circuit at the threshold. -/
def recordFailure (cb : CircuitBreaker) (now : ℚ) : CircuitBreaker :=
  if ((cb.failures + 1 : ℕ) : ℤ) ≥ cb.failureThreshold then
    { cb with failures := cb.failures + 1, openUntil := cb.recoveryTimeout.addTo now }
  else { cb with failures := cb.failures + 1 }

/-- The circuit is open from the threshold on, until its instant. -/
theorem isOpen_iff (cb : CircuitBreaker) (now : ℚ) :
    cb.isOpen now = true
      ↔ cb.failureThreshold ≤ cb.failures ∧ cb.openUntil.reachedBy now = false := by
  rw [isOpen]
  split
  · next h => simpa using fun h' => absurd h (not_lt.mpr h')
  · next h =>
    split
    · next h' => simp [h']
    · next h' => simpa using ⟨not_lt.mp h, by simpa using h'⟩

@[simp] theorem failures_recordSuccess (cb : CircuitBreaker) :
    cb.recordSuccess.failures = 0 := rfl

@[simp] theorem failures_recordFailure (cb : CircuitBreaker) (now : ℚ) :
    (cb.recordFailure now).failures = cb.failures + 1 := by
  unfold recordFailure
  split <;> rfl

/-- The threshold is a parameter and stays. -/
@[simp] theorem failureThreshold_recordFailure (cb : CircuitBreaker) (now : ℚ) :
    (cb.recordFailure now).failureThreshold = cb.failureThreshold := by
  unfold recordFailure
  split <;> rfl

/-- **After a success the circuit is closed** whenever the threshold is
positive, at every instant. -/
theorem isOpen_recordSuccess {cb : CircuitBreaker} (h : 0 < cb.failureThreshold) (now : ℚ) :
    cb.recordSuccess.isOpen now = false := by
  rw [isOpen]
  exact if_pos h

/-- **A failure that reaches the threshold opens the circuit** until the
recovery time has passed. -/
theorem isOpen_recordFailure (cb : CircuitBreaker) (now t : ℚ)
    (h : cb.failureThreshold ≤ cb.failures + 1) :
    (cb.recordFailure now).isOpen t = true
      ↔ (cb.recoveryTimeout.addTo now).reachedBy t = false := by
  have hge : ((cb.failures + 1 : ℕ) : ℤ) ≥ cb.failureThreshold := by push_cast; exact h
  rw [isOpen_iff, recordFailure, if_pos hge]
  exact ⟨And.right, fun ht => ⟨hge, ht⟩⟩

/-- A success opens nothing: a circuit that is open behind it was open before.
-/
theorem isOpen_of_recordSuccess {cb : CircuitBreaker} {now : ℚ}
    (h : cb.recordSuccess.isOpen now = true) : cb.isOpen now = true := by
  rw [isOpen_iff] at h ⊢
  have hle : cb.failureThreshold ≤ 0 := h.1
  exact ⟨hle.trans (Int.natCast_nonneg _), h.2⟩

/-- Nor does time, which can only bring the end of the recovery time nearer. -/
theorem isOpen_of_le {cb : CircuitBreaker} {now later : ℚ} (hle : now ≤ later)
    (h : cb.isOpen later = true) : cb.isOpen now = true := by
  rw [isOpen_iff] at h ⊢
  refine ⟨h.1, ?_⟩
  cases hu : cb.openUntil with
  | finite q =>
    rw [hu, FloatValue.reachedBy, decide_eq_false_iff_not, not_le] at h
    rw [FloatValue.reachedBy, decide_eq_false_iff_not, not_le]
    exact hle.trans_lt h.2
  | negInf => rw [hu] at h; exact h.2
  | inf => rfl
  | nan => rfl

/-! ## Traces -/

/-- **What a breaker is told** about a call that ended. -/
inductive Report where
  | success
  | failure
  deriving DecidableEq

/-- One report, at the time it comes. -/
def record (cb : CircuitBreaker) (r : ℚ × Report) : CircuitBreaker :=
  match r.2 with
  | .success => cb.recordSuccess
  | .failure => cb.recordFailure r.1

/-- The breaker after a list of reports. -/
def after (cb : CircuitBreaker) (trace : List (ℚ × Report)) : CircuitBreaker :=
  trace.foldl record cb

/-- How many failures a trace ends with. -/
def failuresSinceSuccess (trace : List (ℚ × Report)) : ℕ :=
  (trace.reverse.takeWhile (fun r => r.2 = .failure)).length

/-- When the last failure of a trace was. -/
def lastFailure? (trace : List (ℚ × Report)) : Option ℚ :=
  (trace.reverse.find? (fun r => r.2 = .failure)).map Prod.fst

theorem after_concat (cb : CircuitBreaker) (trace : List (ℚ × Report)) (r : ℚ × Report) :
    cb.after (trace ++ [r]) = (cb.after trace).record r := by
  rw [after, after, List.foldl_append, List.foldl_cons, List.foldl_nil]

theorem failuresSinceSuccess_success (trace : List (ℚ × Report)) (t : ℚ) :
    failuresSinceSuccess (trace ++ [(t, .success)]) = 0 := by
  rw [failuresSinceSuccess, List.reverse_append]
  rfl

theorem failuresSinceSuccess_failure (trace : List (ℚ × Report)) (t : ℚ) :
    failuresSinceSuccess (trace ++ [(t, .failure)]) = failuresSinceSuccess trace + 1 := by
  rw [failuresSinceSuccess, List.reverse_append]
  rfl

theorem lastFailure?_failure (trace : List (ℚ × Report)) (t : ℚ) :
    lastFailure? (trace ++ [(t, .failure)]) = some t := by
  rw [lastFailure?, List.reverse_append]
  rfl

/-- **What the two fields of a breaker say about its trace.** The count is
that of the failures since the last success; the instant is read only from the
threshold on, and there the last failure has set it. -/
structure Describes (cb : CircuitBreaker) (name : String) (threshold : ℤ) (recovery : FloatValue)
    (trace : List (ℚ × Report)) : Prop where
  name_eq : cb.name = name
  threshold_eq : cb.failureThreshold = threshold
  recovery_eq : cb.recoveryTimeout = recovery
  failures_eq : cb.failures = failuresSinceSuccess trace
  openUntil_eq : threshold ≤ cb.failures →
    ∃ f, lastFailure? trace = some f ∧ cb.openUntil = recovery.addTo f

/-- One report more: a success starts the count over, and a failure is one more,
with its own time. -/
theorem Describes.record {cb : CircuitBreaker} {name : String} {threshold : ℤ}
    {recovery : FloatValue} {trace : List (ℚ × Report)} (hpos : 1 ≤ threshold)
    (h : cb.Describes name threshold recovery trace) (r : ℚ × Report) :
    (cb.record r).Describes name threshold recovery (trace ++ [r]) := by
  obtain ⟨t, _ | _⟩ := r
  · refine ⟨h.name_eq, h.threshold_eq, h.recovery_eq, ?_, fun hle => ?_⟩
    · rw [failuresSinceSuccess_success]
      rfl
    · exact absurd (hpos.trans hle) (show ¬ (1 : ℤ) ≤ 0 by decide)
  · have hfailures : cb.failures + 1 = failuresSinceSuccess (trace ++ [(t, .failure)]) := by
      rw [failuresSinceSuccess_failure, h.failures_eq]
    show (cb.recordFailure t).Describes _ _ _ _
    rw [recordFailure]
    by_cases hge : ((cb.failures + 1 : ℕ) : ℤ) ≥ cb.failureThreshold
    · rw [if_pos hge]
      refine ⟨h.name_eq, h.threshold_eq, h.recovery_eq, hfailures, fun _ => ?_⟩
      exact ⟨t, lastFailure?_failure trace t, congrArg (FloatValue.addTo t) h.recovery_eq⟩
    · rw [if_neg hge]
      refine ⟨h.name_eq, h.threshold_eq, h.recovery_eq, hfailures, fun hle => ?_⟩
      exact absurd (h.threshold_eq ▸ hle) hge

/-- A new breaker, told about a list of calls. -/
theorem describes_after {threshold : ℤ} (hpos : 1 ≤ threshold) (name : String)
    (recovery : FloatValue) (trace : List (ℚ × Report)) :
    (CircuitBreaker.after ⟨name, threshold, recovery, 0, .finite 0⟩ trace).Describes name threshold
      recovery trace := by
  induction trace using List.reverseRecOn with
  | nil =>
    refine ⟨rfl, rfl, rfl, rfl, fun hle => absurd (hpos.trans hle) ?_⟩
    show ¬ (1 : ℤ) ≤ 0
    decide
  | append_singleton trace r ih =>
    rw [after_concat]
    exact ih.record hpos r

/-- Nothing reaches `nan`; any other instant is reached when it is not ahead. -/
theorem reachedBy_addTo_eq_false_iff (x : FloatValue) (f t : ℚ) :
    (x.addTo f).reachedBy t = false ↔ x = .nan ∨ (x.addTo f).isAbove t = true := by
  cases x <;> simp [FloatValue.addTo, FloatValue.reachedBy, FloatValue.isAbove]

/-- **When a circuit is open**: at least as many calls as the threshold says
have failed since the last success, and the recovery time counted from the
most recent failure is not over. A recovery time of `nan` is never over. -/
theorem isOpen_after_iff {threshold : ℤ} (hpos : 1 ≤ threshold) (name : String)
    (recovery : FloatValue) (trace : List (ℚ × Report)) (t : ℚ) :
    (CircuitBreaker.after ⟨name, threshold, recovery, 0, .finite 0⟩ trace).isOpen t = true
      ↔ threshold ≤ failuresSinceSuccess trace
        ∧ ∃ f, lastFailure? trace = some f
          ∧ (recovery = .nan ∨ (recovery.addTo f).isAbove t = true) := by
  have h := describes_after hpos name recovery trace
  rw [isOpen_iff, h.threshold_eq, ← h.failures_eq]
  refine and_congr_right fun hle => ?_
  obtain ⟨f, hf, huntil⟩ := h.openUntil_eq hle
  rw [huntil, reachedBy_addTo_eq_false_iff, hf]
  simp

theorem isOpen_after_two_failures :
    (CircuitBreaker.after ⟨"opa", 2, .finite 30, 0, .finite 0⟩
      [(0, .failure), (5, .failure)]).isOpen 34 = true :=
  (isOpen_after_iff (by decide) "opa" (.finite 30) [(0, .failure), (5, .failure)] 34).mpr
    ⟨by decide, 5, rfl, Or.inr (by decide +kernel)⟩

/-- With a recovery time of `nan` the circuit is open at instants that are not
before the end of it. -/
theorem isOpen_after_nan :
    ¬ ((CircuitBreaker.after ⟨"opa", 1, .nan, 0, .finite 0⟩ [(0, .failure)]).isOpen 100 = true
      ↔ 1 ≤ failuresSinceSuccess [(0, .failure)]
        ∧ ∃ f, lastFailure? [(0, .failure)] = some f
          ∧ (FloatValue.nan.addTo f).isAbove 100 = true) := by
  rintro h
  obtain ⟨-, f, -, habove⟩ := h.mp rfl
  cases habove

end CircuitBreaker
