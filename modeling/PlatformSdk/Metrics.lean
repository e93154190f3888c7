import Mathlib.Algebra.Order.BigOperators.Group.List
import PlatformSdk.Dict
import PlatformSdk.Python

/-!
# Gauges that are counters

The state of a circuit breaker and the number of failures in a row are values
that come and go, and `metrics.py` documents them as gauges: `0=closed,
1=open`, and the current count. What `_get_or_create` creates for a gauge is an
up-down counter, though, and the functions call `add` with the current value,
so that what is exported is the sum of all values so far.

`exported_afterCalls` is that sum, whatever else was recorded in between, and
`showsLatest_iff` says when it is the latest value: when the values before it
sum up to zero. For the breakers this is to say that none was ever open before
(`sum_eq_zero_iff_of_breaker`).
-/

/-- What `_get_or_create` is asked for, by its `kind`: gauges among them, which
are not created as such. -/
inductive MetricKind where
  | counter
  | histogram
  | gauge
  deriving DecidableEq

/-- What OpenTelemetry creates: for a gauge, too, an up-down counter. -/
inductive InstrumentKind where
  | counter
  | histogram
  | upDownCounter
  deriving DecidableEq

/-- The instrument for a kind: there is no gauge among them. -/
def MetricKind.instrument : MetricKind → InstrumentKind
  | .counter => .counter
  | .histogram => .histogram
  | .gauge => .upDownCounter

/-- The attributes of a measurement, which tell its time series from others. -/
abbrev Attributes := Dict String String

/-- **A measurement**: what was passed to `add` or `record` of an
instrument. -/
structure Measurement where
  name : String
  attributes : Attributes
  amount : ℚ
  deriving DecidableEq

/-- **What OpenTelemetry does here**: whether it is installed, and which
instruments it creates without an error. -/
structure OtelEnv where
  installed : Bool
  creates : String → Bool

/-- The instruments that can be had: the package is there, and the meter makes
them. -/
def OtelEnv.provides (env : OtelEnv) (name : String) : Bool := env.installed && env.creates name

/-- The instruments there are, and what they were given. -/
structure MetricsState where
  instruments : Dict String InstrumentKind := []
  measurements : List Measurement := []

namespace MetricsState

variable (env : OtelEnv)

/-- **`_get_or_create`**, which makes an instrument once and keeps it under its
name. -/
def getOrCreate (s : MetricsState) (name : String) (kind : MetricKind) :
    Option InstrumentKind × MetricsState :=
  match s.instruments.get? name with
  | some inst => (some inst, s)
  | none =>
    if env.provides name then
      (some kind.instrument, { s with instruments := s.instruments.set name kind.instrument })
    else (none, s)

/-- Get or create an instrument, and give it a measurement if there is one. -/
def measure (s : MetricsState) (kind : MetricKind) (m : Measurement) : MetricsState :=
  match s.getOrCreate env m.name kind with
  | (some _, s') => { s' with measurements := s'.measurements ++ [m] }
  | (none, s') => s'

/-- `1 if circuit_open else 0`, the value of the gauges of a breaker. -/
def breakerValue (circuitOpen : Bool) : ℚ := if circuitOpen then 1 else 0

/-- `record_cache_state`: the state of the breaker, and the failures it counts.
-/
def recordCacheState (s : MetricsState) (circuitOpen : Bool) (consecutiveFailures : ℤ) :
    MetricsState :=
  let s := s.measure env .gauge
    ⟨"cache.circuit_breaker.state", [("component", "redis_cache")], breakerValue circuitOpen⟩
  s.measure env .gauge
    ⟨"cache.consecutive_failures", [("component", "redis_cache")], consecutiveFailures⟩

/-- `record_cache_transition`: one more transition from a state to another. -/
def recordCacheTransition (s : MetricsState) (fromState toState : String) : MetricsState :=
  s.measure env .counter
    ⟨"cache.circuit_breaker.transitions", [("from_state", fromState), ("to_state", toState)], 1⟩

/-- `record_opa_decision`: one more decision on a tool, and how long it took. -/
def recordOpaDecision (s : MetricsState) (tool : String) (allowed : Bool) (latency : ℚ) :
    MetricsState :=
  let s := s.measure env .counter
    ⟨"opa.decisions.total",
      [("tool", tool), ("decision", if allowed then "allow" else "deny")], 1⟩
  s.measure env .histogram ⟨"opa.latency.seconds", [("tool", tool)], latency⟩

/-- `record_opa_circuit_state`: the state of the breaker. The count is not
recorded. -/
def recordOpaCircuitState (s : MetricsState) (circuitOpen : Bool) (_consecutiveFailures : ℤ) :
    MetricsState :=
  s.measure env .gauge
    ⟨"opa.circuit_breaker.state", [("component", "opa")], breakerValue circuitOpen⟩

/-- `record_mcp_tool_call`: one more call of a tool, and how long it took. -/
def recordMcpToolCall (s : MetricsState) (tool outcome : String) (latency : ℚ)
    (bridgeUrl : Option String) : MetricsState :=
  let bridge := match bridgeUrl with
    | none | some "" => []
    | some url => [("bridge", url)]
  let s := s.measure env .counter
    ⟨"mcp.tool_calls.total", [("tool", tool), ("outcome", outcome)] ++ bridge, 1⟩
  s.measure env .histogram
    ⟨"mcp.tool_latency.seconds", [("tool", tool), ("outcome", outcome)], latency⟩

/-- What an instrument was given under a set of attributes, in order. -/
def points (s : MetricsState) (name : String) (attributes : Attributes) : List ℚ :=
  (s.measurements.filter (fun m => m.name == name && m.attributes == attributes)).map
    Measurement.amount

/-- **The value exported** for a counter and a set of attributes: the sum of
what was added, and none as long as nothing was. -/
def exported (s : MetricsState) (name : String) (attributes : Attributes) : Option ℚ :=
  match s.instruments.get? name with
  | some .counter | some .upDownCounter =>
    match s.points name attributes with
    | [] => none
    | amounts => some amounts.sum
  | some .histogram | none => none

end MetricsState

/-! ## The calls -/

/-- **A call of one of the functions**, with everything it is given. -/
inductive MetricsCall where
  | cacheState (circuitOpen : Bool) (consecutiveFailures : ℤ)
  | cacheTransition (fromState toState : String)
  | opaDecision (tool : String) (allowed : Bool) (latency : ℚ)
  | opaCircuitState (circuitOpen : Bool) (consecutiveFailures : ℤ)
  | mcpToolCall (tool outcome : String) (latency : ℚ) (bridgeUrl : Option String)

/-- What a call leaves: its measurements, and the instruments it had to create.
-/
def MetricsState.call (env : OtelEnv) (s : MetricsState) : MetricsCall → MetricsState
  | .cacheState circuitOpen failures => s.recordCacheState env circuitOpen failures
  | .cacheTransition fromState toState => s.recordCacheTransition env fromState toState
  | .opaDecision tool allowed latency => s.recordOpaDecision env tool allowed latency
  | .opaCircuitState circuitOpen failures => s.recordOpaCircuitState env circuitOpen failures
  | .mcpToolCall tool outcome latency bridgeUrl =>
    s.recordMcpToolCall env tool outcome latency bridgeUrl

/-- What a sequence of calls leaves of a process that has just started. -/
def MetricsState.afterCalls (env : OtelEnv) (calls : List MetricsCall) : MetricsState :=
  calls.foldl (MetricsState.call env) {}

/-- **The three values documented as gauges**, each of which is to show what was
set last. -/
inductive Gauge where
  | cacheBreaker
  | cacheFailures
  | opaBreaker
  deriving DecidableEq

namespace Gauge

/-- The name of the instrument, under which a reader finds it. -/
def name : Gauge → String
  | .cacheBreaker => "cache.circuit_breaker.state"
  | .cacheFailures => "cache.consecutive_failures"
  | .opaBreaker => "opa.circuit_breaker.state"

/-- The attributes it is given, which tell the cache from the policy engine. -/
def attributes : Gauge → Attributes
  | .cacheBreaker | .cacheFailures => [("component", "redis_cache")]
  | .opaBreaker => [("component", "opa")]

/-- The value a call reports, if it reports one. -/
def reported (g : Gauge) : MetricsCall → Option ℚ
  | .cacheState circuitOpen failures =>
    match g with
    | .cacheBreaker => some (MetricsState.breakerValue circuitOpen)
    | .cacheFailures => some failures
    | .opaBreaker => none
  | .opaCircuitState circuitOpen _ =>
    match g with
    | .opaBreaker => some (MetricsState.breakerValue circuitOpen)
    | .cacheBreaker | .cacheFailures => none
  | _ => none

/-- The values the calls report, the latest last, whatever instrument shows
them. -/
def history (g : Gauge) (calls : List MetricsCall) : List ℚ := calls.filterMap g.reported

end Gauge

/-- **What a gauge is to show**: of each instrument that can be had, the value
exported is the latest one. -/
def ShowsLatest (env : OtelEnv) (calls : List MetricsCall) : Prop :=
  ∀ g : Gauge, env.provides g.name = true →
    (MetricsState.afterCalls env calls).exported g.name g.attributes = (g.history calls).getLast?

/-- **When a sum is the latest value**: the values before it sum up to zero. -/
def SumsToZeroBefore (env : OtelEnv) (calls : List MetricsCall) : Prop :=
  ∀ g : Gauge, env.provides g.name = true → (g.history calls).dropLast.sum = 0

/-! ## What an instrument has been given -/

namespace MetricsState

/-- **What has been recorded of a gauge**: the values it was given, and an
up-down counter as soon as there is one. -/
structure Holds (g : Gauge) (s : MetricsState) (vs : List ℚ) : Prop where
  points : s.points g.name g.attributes = vs
  instrument : s.instruments.get? g.name = if vs = [] then none else some .upDownCounter

variable {env : OtelEnv} {g : Gauge} {s : MetricsState} {vs : List ℚ}

theorem holds_fresh (g : Gauge) : Holds g {} [] := ⟨rfl, rfl⟩

/-- What is read behind one more measurement is what was read before it, and the
measurement where it is one of these. -/
theorem points_concat (s : MetricsState) (m : Measurement) (name : String)
    (attributes : Attributes) (instruments : Dict String InstrumentKind) :
    points ⟨instruments, s.measurements ++ [m]⟩ name attributes
      = s.points name attributes
        ++ if m.name = name ∧ m.attributes = attributes then [m.amount] else [] := by
  rw [points, List.filter_append, List.map_append, points]
  refine congrArg _ ?_
  by_cases h : m.name = name ∧ m.attributes = attributes
  · rw [if_pos h, List.filter_cons_of_pos (by simp [h])]
    rfl
  · rw [if_neg h, List.filter_cons_of_neg (by simpa using h)]
    rfl

/-- A measurement of an instrument of another name changes nothing. -/
theorem holds_measure_of_ne {name : String} (hne : name ≠ g.name) (h : Holds g s vs)
    (kind : MetricKind) (attributes : Attributes) (amount : ℚ) :
    Holds g (s.measure env kind ⟨name, attributes, amount⟩) vs := by
  have hpoints : ∀ instruments,
      points ⟨instruments, s.measurements ++ [⟨name, attributes, amount⟩]⟩ g.name g.attributes
        = vs := fun instruments => by
    rw [points_concat, if_neg (fun hand => hne hand.1), List.append_nil, h.points]
  rw [measure, getOrCreate]
  cases s.instruments.get? name with
  | some inst => exact ⟨hpoints _, h.instrument⟩
  | none =>
    cases env.provides name with
    | true => exact ⟨hpoints _, (Dict.get?_set_of_ne _ _ (Ne.symm hne)).trans h.instrument⟩
    | false => exact ⟨h.points, h.instrument⟩

/-- **A measurement of the gauge is added to it.** -/
theorem holds_measure_self (hprov : env.provides g.name = true) (h : Holds g s vs) (v : ℚ) :
    Holds g (s.measure env .gauge ⟨g.name, g.attributes, v⟩) (vs ++ [v]) := by
  have hpoints : ∀ instruments,
      points ⟨instruments, s.measurements ++ [⟨g.name, g.attributes, v⟩]⟩ g.name g.attributes
        = vs ++ [v] := fun instruments => by
    rw [points_concat, if_pos ⟨rfl, rfl⟩, h.points]
  have hsome : (if vs ++ [v] = [] then none else some InstrumentKind.upDownCounter)
      = some .upDownCounter := if_neg (by simp)
  rw [measure, getOrCreate]
  by_cases hvs : vs = []
  · rw [h.instrument, if_pos hvs]
    simp only [hprov, if_true]
    exact ⟨hpoints _, (Dict.get?_set_self _ _ _).trans hsome.symm⟩
  · rw [h.instrument, if_neg hvs]
    exact ⟨hpoints _, h.instrument.trans ((if_neg hvs).trans hsome.symm)⟩

theorem Holds.append_none (h : Holds g s vs) {v : Option ℚ} (hv : v = none) :
    Holds g s (vs ++ v.toList) := by
  rw [hv, Option.toList_none, List.append_nil]
  exact h

/-- **A call adds what it reports, and nothing besides.** -/
theorem holds_call (hprov : env.provides g.name = true) (h : Holds g s vs) (c : MetricsCall) :
    Holds g (s.call env c) (vs ++ (g.reported c).toList) := by
  have hother : ∀ {s : MetricsState} {name : String} (kind : MetricKind) (attributes : Attributes)
      (amount : ℚ),
      name ∉ [Gauge.cacheBreaker.name, Gauge.cacheFailures.name, Gauge.opaBreaker.name] →
        Holds g s vs → Holds g (s.measure env kind ⟨name, attributes, amount⟩) vs :=
    fun kind attributes amount hname h => holds_measure_of_ne
      (fun heq => hname (by rw [heq]; cases g <;> simp)) h kind attributes amount
  cases c with
  | cacheState circuitOpen failures =>
    cases g with
    | cacheBreaker => exact holds_measure_of_ne (by decide) (holds_measure_self hprov h _) _ _ _
    | cacheFailures => exact holds_measure_self hprov (holds_measure_of_ne (by decide) h _ _ _) _
    | opaBreaker =>
      refine Holds.append_none ?_ rfl
      exact holds_measure_of_ne (by decide) (holds_measure_of_ne (by decide) h _ _ _) _ _ _
  | opaCircuitState circuitOpen failures =>
    cases g with
    | opaBreaker => exact holds_measure_self hprov h _
    | cacheBreaker => exact (holds_measure_of_ne (by decide) h _ _ _).append_none rfl
    | cacheFailures => exact (holds_measure_of_ne (by decide) h _ _ _).append_none rfl
  | cacheTransition fromState toState => exact (hother _ _ _ (by decide) h).append_none rfl
  | opaDecision tool allowed latency =>
    refine Holds.append_none ?_ rfl
    exact hother _ _ _ (by decide) (hother _ _ _ (by decide) h)
  | mcpToolCall tool outcome latency bridgeUrl =>
    refine Holds.append_none ?_ rfl
    exact hother _ _ _ (by decide) (hother _ _ _ (by decide) h)

/-- **After any sequence of calls a gauge has been given its history.** -/
theorem holds_afterCalls (hprov : env.provides g.name = true) (calls : List MetricsCall) :
    Holds g (afterCalls env calls) (g.history calls) := by
  induction calls using List.reverseRecOn with
  | nil => exact holds_fresh g
  | append_singleton calls c ih =>
    have hhistory : g.history (calls ++ [c]) = g.history calls ++ (g.reported c).toList := by
      rw [Gauge.history, List.filterMap_append]
      refine congrArg _ ?_
      cases hc : g.reported c with
      | none => exact List.filterMap_cons_none hc
      | some v => exact List.filterMap_cons_some hc
    have hstate : afterCalls env (calls ++ [c]) = (afterCalls env calls).call env c :=
      List.foldl_concat _ _ _ _
    rw [hhistory, hstate]
    exact holds_call hprov ih c

/-- **What is exported of a gauge is the sum of its history.** -/
theorem exported_afterCalls (hprov : env.provides g.name = true) (calls : List MetricsCall) :
    (afterCalls env calls).exported g.name g.attributes
      = if g.history calls = [] then none else some (g.history calls).sum := by
  obtain ⟨hpoints, hinstrument⟩ := holds_afterCalls hprov calls
  rw [exported, hinstrument, hpoints]
  cases g.history calls with
  | nil => rfl
  | cons v vs => rfl

end MetricsState

/-! ## The latest value -/

/-- A sum is the last value where the others sum up to zero. -/
theorem sum_eq_getLast?_iff (vs : List ℚ) :
    (if vs = [] then none else some vs.sum) = vs.getLast? ↔ vs.dropLast.sum = 0 := by
  induction vs using List.reverseRecOn with
  | nil => exact iff_of_true rfl rfl
  | append_singleton vs v _ =>
    rw [if_neg (by simp), List.getLast?_concat, Option.some_inj, List.dropLast_concat,
      List.sum_append, List.sum_singleton]
    exact add_eq_right

/-- **When the gauges show the latest values**: exactly when, of each that can
be had, the values before the latest sum up to zero. What is made for a gauge is
an up-down counter, and every call adds its value to what has been added before.
-/
theorem showsLatest_iff (env : OtelEnv) (calls : List MetricsCall) :
    ShowsLatest env calls ↔ SumsToZeroBefore env calls := by
  unfold ShowsLatest SumsToZeroBefore
  refine forall_congr' fun g => forall_congr' fun hprov => ?_
  rw [MetricsState.exported_afterCalls hprov, sum_eq_getLast?_iff]

/-- Of values that are not negative, the sum is zero where each of them is. -/
theorem sum_eq_zero_iff_of_nonneg {vs : List ℚ} (h : ∀ v ∈ vs, 0 ≤ v) :
    vs.sum = 0 ↔ ∀ v ∈ vs, v = 0 := by
  constructor
  · exact List.all_zero_of_le_zero_le_of_sum_eq_zero h
  · exact List.sum_eq_zero

/-- **A breaker is shown as it is as long as it was never open before.** -/
theorem sum_eq_zero_iff_of_breaker {g : Gauge} (hg : g ≠ .cacheFailures)
    (calls : List MetricsCall) :
    (g.history calls).dropLast.sum = 0 ↔ ∀ v ∈ (g.history calls).dropLast, v = 0 := by
  refine sum_eq_zero_iff_of_nonneg (fun v hv => ?_)
  obtain ⟨c, -, hc⟩ := List.mem_filterMap.mp (List.dropLast_subset _ hv)
  have hvalue : ∀ b, 0 ≤ MetricsState.breakerValue b := by decide +kernel
  cases c with
  | cacheState circuitOpen failures =>
    cases g with
    | cacheBreaker => exact Option.some.inj hc ▸ hvalue circuitOpen
    | cacheFailures => exact absurd rfl hg
    | opaBreaker => cases hc
  | opaCircuitState circuitOpen failures =>
    cases g with
    | opaBreaker => exact Option.some.inj hc ▸ hvalue circuitOpen
    | cacheBreaker => cases hc
    | cacheFailures => cases hc
  | cacheTransition fromState toState => cases hc
  | opaDecision tool allowed latency => cases hc
  | mcpToolCall tool outcome latency bridgeUrl => cases hc

/-- OpenTelemetry is there, and creates what it is asked for. -/
def fullOtel : OtelEnv := ⟨true, fun _ => true⟩

/-- **A breaker that opened, stayed open and is closed again** is shown as
`2`. -/
theorem not_showsLatest_closedAgain :
    ¬ ShowsLatest fullOtel [.cacheState true 3, .cacheState true 4, .cacheState false 0]
      ∧ (MetricsState.afterCalls fullOtel
          [.cacheState true 3, .cacheState true 4, .cacheState false 0]).exported
        "cache.circuit_breaker.state" [("component", "redis_cache")] = some 2 := by
  refine ⟨fun h => ?_, by decide +kernel⟩
  have hshown := h .cacheBreaker rfl
  revert hshown
  decide +kernel
