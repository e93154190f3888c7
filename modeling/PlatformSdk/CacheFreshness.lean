import Mathlib.Tactic.NormNum
import PlatformSdk.AuthorizedTool
import PlatformSdk.McpService
import PlatformSdk.TimedStore

/-!
# How old a cached result can be

`cache_ttl_seconds` is how a service says for how long its results may be
served from the cache. What decides it is the `_ttl` of the cache, with which
every `SETEX` is sent; the lifespan creates the cache with
`ToolResultCache.from_config(self.mcp_config)`, which names no TTL and so gets
the default of 300 seconds, whatever the class declares.

Here the tool may answer every call differently, Redis has a clock, and each
moment at which it stores a result is recorded. `fresh_iff` compares the two
numbers: what a call is answered with is fresh by what the class declares, in
every run, if and only if it declares 300 seconds or more.
-/

/-- The call is past its tool, so that its value has been computed. -/
def Phase.isPastTool : Phase → Bool
  | .setting _ | .returned _ | .raised _ => true
  | _ => false

/-! ## The cache a lifespan creates -/

/-- **A `ToolResultCache` with its `_ttl`**, the lifetime it gives to what it
stores. -/
structure TimedCache extends ToolResultCache where
  ttl : ℤ

/-- **`ToolResultCache.from_config`**, which takes the lifetime from its caller,
and 300 seconds without one. -/
def TimedCache.fromConfig (config : MCPConfig) (redisInstalled : Bool) (ttlSeconds : ℤ := 300) :
    Option TimedCache :=
  if config.redisHost = "" then none
  else if redisInstalled then some { redis := true, ttl := ttlSeconds }
  else none

/-- **A subclass of `McpService`**: what its lifespan reads, and the class
attribute `cache_ttl_seconds`. -/
structure McpServiceClass where
  setup : ServiceSetup
  cacheTtlSeconds : ℤ := 300

/-- The cache of the service after the way into its lifespan. -/
def McpServiceClass.lifespanCache (cls : McpServiceClass) (injected : Option TimedCache) :
    Option TimedCache :=
  match injected with
  | some cache => some cache
  | none =>
    if cls.setup.config.enableToolCache then
      -- `cache_ttl_seconds` is not handed on
      TimedCache.fromConfig cls.setup.config cls.setup.redisInstalled
    else none

/-- A service has this cache exactly where the lifespan machine creates one, so
that the two models agree on when calls are cached. -/
theorem McpServiceClass.isSome_lifespanCache (cls : McpServiceClass) :
    (cls.lifespanCache none).isSome
      = (cls.setup.wants .cache && (cls.setup.creates .cache 0).isSome) := by
  show (if cls.setup.config.enableToolCache then
      TimedCache.fromConfig cls.setup.config cls.setup.redisInstalled else none).isSome = _
  simp only [ServiceSetup.wants, ServiceSetup.creates, TimedCache.fromConfig]
  cases cls.setup.config.enableToolCache with
  | false => rfl
  | true =>
    by_cases hhost : cls.setup.config.redisHost = ""
    · simp [hhost]
    · cases cls.setup.redisInstalled with
      | false => simp [hhost]
      | true => simp [hhost]

/-- **A lifespan creates its cache with the default TTL.** -/
theorem McpServiceClass.lifespanCache_eq_some {cls : McpServiceClass} {cache : TimedCache}
    (h : cls.lifespanCache none = some cache) : cache = { redis := true, ttl := 300 } := by
  obtain ⟨-, h⟩ := Option.ite_none_right_eq_some.mp h
  obtain ⟨-, h⟩ := Option.ite_none_left_eq_some.mp h
  obtain ⟨-, h⟩ := Option.ite_none_right_eq_some.mp h
  exact (Option.some.inj h).symm

/-! ## The machine -/

/-- **A call**: its arguments and the moment it was made. -/
structure TimedCall where
  kwargs : Kwargs
  madeAt : ℚ

/-- **The state of the calls on one cache**, with the clock that Redis goes
by. -/
structure TimedCacheState where
  cache : TimedCache
  now : ℚ
  redis : TimedStore ℕ String String := {}
  calls : ℕ → Option TimedCall := fun _ => none
  /-- Where each call stands. -/
  phase : ℕ → Phase := fun _ => .idle
  /-- What the tool returned in each call. -/
  computed : ℕ → Option String := fun _ => none
  /-- The calls whose results Redis has stored, and when. -/
  stores : List (ℕ × ℚ) := []

/-- **What can happen** to the calls of one tool, to Redis and to the time. -/
inductive TimedCacheEvent where
  | tick (d : ℚ)
  | start (i : ℕ) (kwargs : Kwargs)
  | serveGet (i : ℕ)
  | resumeGet (i : ℕ) (ok : Bool)
  | finish (i : ℕ) (outcome : Except PyExc String)
  | applySet (i : ℕ)
  | resumeSet (i : ℕ) (ok : Bool)

namespace TimedCacheState

/-- A call moves on, and Redis stays as it is. -/
def goto (s : TimedCacheState) (i : ℕ) (p : Phase) : TimedCacheState :=
  { s with phase := Function.update s.phase i p }

/-- The client's call on Redis succeeded, and its breaker is told. -/
def recordSuccess (s : TimedCacheState) : TimedCacheState :=
  { s with cache := { s.cache with cb := s.cache.cb.recordSuccess } }

/-- The client's call on Redis raised, and its breaker is told when. -/
def recordFailure (s : TimedCacheState) : TimedCacheState :=
  { s with cache := { s.cache with cb := s.cache.cb.recordFailure s.now } }

/-- The tool has returned a value, which is noted for the call. -/
def compute (s : TimedCacheState) (i : ℕ) (value : String) : TimedCacheState :=
  { s with computed := Function.update s.computed i (some value) }

section Step

variable (fnName : String) (sha256 : List UInt8 → List UInt8) (loads : String → Except PyExc Json)

/-- Where a call starts: at its end where it has no key. -/
def firstPhase (s : TimedCacheState) (kwargs : Kwargs) : Phase :=
  match makeCacheKey sha256 fnName kwargs with
  | .error exc => .raised exc
  | .ok _ => if s.cache.isBypassed s.now then .running else .getting none

/-- A call is made, at the present time, and goes to its first phase. -/
def start (s : TimedCacheState) (i : ℕ) (kwargs : Kwargs) : TimedCacheState :=
  { s with
    calls := Function.update s.calls i (some ⟨kwargs, s.now⟩)
    phase := Function.update s.phase i (s.firstPhase fnName sha256 kwargs) }

/-- What the wrapper does with the result of the tool. -/
def finish (s : TimedCacheState) (i : ℕ) (c : TimedCall) (result : String) : TimedCacheState :=
  match isErrorResponse loads result with
  | .error exc => s.goto i (.raised exc)
  | .ok true => s.goto i (.returned result)
  | .ok false =>
    if s.cache.isBypassed s.now then s.goto i (.returned result)
    else
      { s.goto i (.setting result) with
        redis := s.redis.send ⟨i, cacheKey sha256 fnName c.kwargs, result, s.cache.ttl⟩ }

/-- **One step of the calls**, where the event can happen in the state. -/
def step (s : TimedCacheState) : TimedCacheEvent → Option TimedCacheState
  | .tick d => if 0 ≤ d then some { s with now := s.now + d } else none
  | .start i kwargs =>
    match s.calls i with
    | some _ => none
    | none => some (s.start fnName sha256 i kwargs)
  | .serveGet i =>
    match s.calls i, s.phase i with
    | some c, .getting none =>
      let entry := s.redis.get? s.now (cacheKey sha256 fnName c.kwargs)
      some (s.goto i (.getting (some (entry.map TimedEntry.value))))
    | _, _ => none
  | .resumeGet i ok =>
    match ok, s.phase i with
    | true, .getting (some (some value)) => some (s.recordSuccess.goto i (.returned value))
    | true, .getting (some none) => some (s.recordSuccess.goto i .running)
    | false, .getting _ => some (s.recordFailure.goto i .running)
    | _, _ => none
  | .finish i outcome =>
    match s.calls i, s.phase i with
    | some c, .running =>
      match outcome with
      | .error exc => some (s.goto i (.raised exc))
      | .ok result => some ((s.compute i result).finish fnName sha256 loads i c result)
    | _, _ => none
  | .applySet i =>
    (s.redis.apply s.now i).map fun redis =>
      { s with redis := redis, stores := s.stores ++ [(i, s.now)] }
  | .resumeSet i ok =>
    match ok, s.phase i with
    | true, .setting result =>
      if s.redis.isPending i then none
      else some (s.recordSuccess.goto i (.returned result))
    | false, .setting result => some (s.recordFailure.goto i (.returned result))
    | _, _ => none

/-- **The machine of the calls** of one tool over a Redis with a clock. -/
def machine : Machine TimedCacheState TimedCacheEvent := ⟨step fnName sha256 loads⟩

/-! ## Freshness -/

/-- Keys do not collide: calls with one key have the same arguments. -/
def KeysDistinct (s : TimedCacheState) : Prop :=
  ∀ i j c c', s.calls i = some c → s.calls j = some c' →
    cacheKey sha256 fnName c.kwargs = cacheKey sha256 fnName c'.kwargs →
    c.kwargs.Same c'.kwargs

/-- **Fresh for `n` seconds**: what a call made at `t` returns was computed in
that call, or for the same arguments by a call whose result was stored no
earlier than `t - n`. -/
def FreshFor (n : ℤ) (s : TimedCacheState) : Prop :=
  ∀ i c v, s.calls i = some c → s.phase i = .returned v →
    s.computed i = some v
      ∨ ∃ j c' a, s.calls j = some c' ∧ c'.kwargs.Same c.kwargs ∧ s.computed j = some v
        ∧ (j, a) ∈ s.stores ∧ c.madeAt - n ≤ a

/-- **Keys do not collide** where the digest does not and no argument is named
`fn`. -/
theorem keysDistinct_of_injective (hsha : Function.Injective sha256) {s : TimedCacheState}
    (hplain : ∀ i c, s.calls i = some c → "fn" ∉ c.kwargs.names) :
    s.KeysDistinct fnName sha256 :=
  fun i j c c' hi hj h =>
    ((cacheKey_eq_iff hsha (hplain i c hi) (hplain j c' hj)).mp h).2

/-- A call with this key computed the value, and is named as the one that did.
-/
def Produced (s : TimedCacheState) (key : String) (j : ℕ) (v : String) : Prop :=
  ∃ c, s.calls j = some c ∧ cacheKey sha256 fnName c.kwargs = key ∧ s.computed j = some v

/-- The value is fresh for the call, by its key. -/
def Served (n : ℤ) (s : TimedCacheState) (i : ℕ) (c : TimedCall) (v : String) : Prop :=
  s.computed i = some v
    ∨ ∃ j a, s.Produced fnName sha256 (cacheKey sha256 fnName c.kwargs) j v
      ∧ (j, a) ∈ s.stores ∧ c.madeAt - n ≤ a

/-- **The invariant.** What Redis holds, or is to hold, was computed by its
writer and is kept for `n` seconds at most, from a recorded moment; and what
a call has in hand is fresh. -/
structure Inv (n : ℤ) (s : TimedCacheState) : Prop where
  ttl : s.cache.ttl ≤ n
  clock : ∀ i c, s.calls i = some c → c.madeAt ≤ s.now
  computed : ∀ i v, s.computed i = some v →
    s.calls i ≠ none ∧ (s.phase i).isPastTool = true
  redis : s.redis.Every
    (fun key e => s.Produced fnName sha256 key e.writer e.value
      ∧ (e.writer, e.storedAt) ∈ s.stores ∧ e.expiresAt ≤ e.storedAt + n)
    (fun w => s.Produced fnName sha256 w.key w.writer w.value ∧ w.ttl ≤ n)
  phase : ∀ i c v, s.calls i = some c → (s.phase i).value? = some v →
    s.Served fnName sha256 n i c v

end Step

/-- **A later state** knows of every call, every result and every store. -/
structure Extends (s s' : TimedCacheState) : Prop where
  calls : ∀ i c, s.calls i = some c → s'.calls i = some c
  computed : ∀ i v, s.computed i = some v → s'.computed i = some v
  stores : ∀ e ∈ s.stores, e ∈ s'.stores

section Invariant

variable {fnName : String} {sha256 : List UInt8 → List UInt8} {n : ℤ} {s s' : TimedCacheState}

theorem Produced.mono {key v : String} {j : ℕ} (h : s.Produced fnName sha256 key j v)
    (hs : Extends s s') : s'.Produced fnName sha256 key j v := by
  obtain ⟨c, hj, hkey, hv⟩ := h
  exact ⟨c, hs.calls j c hj, hkey, hs.computed j v hv⟩

theorem Served.mono {i : ℕ} {c : TimedCall} {v : String} (h : s.Served fnName sha256 n i c v)
    (hs : Extends s s') : s'.Served fnName sha256 n i c v := by
  rcases h with h | ⟨j, a, hj, hstored, ha⟩
  · exact .inl (hs.computed i v h)
  · exact .inr ⟨j, a, hj.mono hs, hs.stores _ hstored, ha⟩

/-- What is said of Redis stays true in a later state. -/
theorem Inv.redis_mono (h : Inv fnName sha256 n s) (hs : Extends s s') :
    s.redis.Every
      (fun key e => s'.Produced fnName sha256 key e.writer e.value
        ∧ (e.writer, e.storedAt) ∈ s'.stores ∧ e.expiresAt ≤ e.storedAt + n)
      (fun w => s'.Produced fnName sha256 w.key w.writer w.value ∧ w.ttl ≤ n) :=
  h.redis.mono (fun _ _ he => ⟨he.1.mono hs, hs.stores _ he.2.1, he.2.2⟩)
    fun _ hw => ⟨hw.1.mono hs, hw.2⟩

/-- A call before or in its tool has no result. -/
theorem Inv.computed_eq_none (h : Inv fnName sha256 n s) {i : ℕ}
    (hi : (s.phase i).isPastTool = false) : s.computed i = none := by
  refine Option.eq_none_iff_forall_ne_some.mpr fun v hv => ?_
  rw [(h.computed i v hv).2] at hi
  cases hi

/-- A call moves on, with what is fresh for it. -/
theorem Inv.goto (h : Inv fnName sha256 n s) {i : ℕ} {p : Phase}
    (hp : ∀ c v, s.calls i = some c → p.value? = some v → s.Served fnName sha256 n i c v)
    (hpast : (s.phase i).isPastTool = true → p.isPastTool = true) :
    Inv fnName sha256 n (s.goto i p) := by
  have hcomputed : ∀ j v, s.computed j = some v →
      s.calls j ≠ none ∧ (Function.update s.phase i p j).isPastTool = true :=
    (Function.forall_update_iff s.phase fun j q => ∀ v, s.computed j = some v →
      s.calls j ≠ none ∧ q.isPastTool = true).mpr
      ⟨fun v hv => (h.computed i v hv).imp_right hpast, fun j _ => h.computed j⟩
  have hphase : ∀ j c v, s.calls j = some c → (Function.update s.phase i p j).value? = some v →
      s.Served fnName sha256 n j c v :=
    (Function.forall_update_iff s.phase fun j q => ∀ c v, s.calls j = some c →
      q.value? = some v → s.Served fnName sha256 n j c v).mpr ⟨hp, fun j _ => h.phase j⟩
  exact ⟨h.ttl, h.clock, hcomputed, h.redis, hphase⟩

/-- A call moves on, with what it has in hand or with nothing. -/
theorem Inv.goto_of_value? (h : Inv fnName sha256 n s) {i : ℕ} {p : Phase}
    (hp : ∀ v, p.value? = some v → (s.phase i).value? = some v)
    (hpast : (s.phase i).isPastTool = true → p.isPastTool = true) :
    Inv fnName sha256 n (s.goto i p) :=
  h.goto (fun c v hc hv => h.phase i c v hc (hp v hv)) hpast

/-- A call returns what it has in hand, which the invariant already says is
fresh. -/
theorem Inv.goto_returned (h : Inv fnName sha256 n s) {i : ℕ} {v : String}
    (hi : (s.phase i).value? = some v) : Inv fnName sha256 n (s.goto i (.returned v)) :=
  h.goto_of_value? (fun _ hv => hi.trans hv) fun _ => rfl

/-- A call whose tool has not returned yet goes on to run it, and has no result
that could be stale. -/
theorem Inv.goto_running (h : Inv fnName sha256 n s) {i : ℕ}
    (hi : (s.phase i).isPastTool = false) : Inv fnName sha256 n (s.goto i .running) := by
  refine h.goto_of_value? (fun v hv => by cases hv) fun hpast => ?_
  rw [hi] at hpast
  cases hpast

/-- The breaker has no part in the invariant, which speaks of values and times.
-/
theorem Inv.recordSuccess (h : Inv fnName sha256 n s) : Inv fnName sha256 n s.recordSuccess :=
  ⟨h.ttl, h.clock, h.computed, h.redis, h.phase⟩

theorem Inv.recordFailure (h : Inv fnName sha256 n s) : Inv fnName sha256 n s.recordFailure :=
  ⟨h.ttl, h.clock, h.computed, h.redis, h.phase⟩

/-- Time goes by: the results at hand grow older, and those that Redis holds
expire with their lifetime. -/
theorem Inv.tick (h : Inv fnName sha256 n s) {d : ℚ} (hd : 0 ≤ d) :
    Inv fnName sha256 n { s with now := s.now + d } :=
  ⟨h.ttl, fun i c hi => (h.clock i c hi).trans (le_add_of_nonneg_right hd), h.computed, h.redis,
    h.phase⟩

/-- A call starts with nothing in its hands: it asks, runs its tool or raises.
-/
theorem value?_firstPhase (s : TimedCacheState) (kwargs : Kwargs) :
    (s.firstPhase fnName sha256 kwargs).value? = none := by
  unfold firstPhase
  split
  · rfl
  · split <;> rfl

/-- A call is made: nothing is known of it yet. -/
theorem Inv.start (h : Inv fnName sha256 n s) {i : ℕ} (hi : s.calls i = none) (kwargs : Kwargs) :
    Inv fnName sha256 n (s.start fnName sha256 i kwargs) := by
  have hcalls : ∀ j c, s.calls j = some c → (s.start fnName sha256 i kwargs).calls j = some c := by
    intro j c hj
    have hne : j ≠ i := by
      rintro rfl
      rw [hi] at hj
      cases hj
    exact (Function.update_of_ne hne ..).trans hj
  have hext : Extends s (s.start fnName sha256 i kwargs) := ⟨hcalls, fun _ _ h => h, fun _ h => h⟩
  refine ⟨h.ttl, fun j c hj => ?_, fun j v hv => ?_, h.redis_mono hext, fun j c v hj hv => ?_⟩
  · have hj' : Function.update s.calls i (some ⟨kwargs, s.now⟩) j = some c := hj
    by_cases hji : j = i
    · subst hji
      rw [Function.update_self] at hj'
      exact Option.some.inj hj' ▸ le_refl s.now
    · rw [Function.update_of_ne hji] at hj'
      exact h.clock j c hj'
  · obtain ⟨hj, hpast⟩ := h.computed j v hv
    obtain ⟨c, hc⟩ := Option.ne_none_iff_exists'.mp hj
    have hne : j ≠ i := by
      rintro rfl
      exact hj hi
    refine ⟨?_, ?_⟩
    · rw [hcalls j c hc]
      exact Option.some_ne_none c
    · show (Function.update s.phase i _ j).isPastTool = true
      rw [Function.update_of_ne hne]
      exact hpast
  · have hv' : (Function.update s.phase i
        (s.firstPhase fnName sha256 kwargs) j).value? = some v := hv
    by_cases hji : j = i
    · subst hji
      rw [Function.update_self, value?_firstPhase] at hv'
      cases hv'
    · rw [Function.update_of_ne hji] at hv'
      have hj' : Function.update s.calls i (some ⟨kwargs, s.now⟩) j = some c := hj
      rw [Function.update_of_ne hji] at hj'
      exact (h.phase j c v hj' hv').mono hext

/-- **What Redis replies is fresh**: an entry that has not expired was stored
less than `n` seconds ago. -/
theorem Inv.served_get? (h : Inv fnName sha256 n s) {i : ℕ} {c : TimedCall}
    (hi : s.calls i = some c) {e : TimedEntry ℕ String}
    (he : s.redis.get? s.now (cacheKey sha256 fnName c.kwargs) = some e) :
    s.Served fnName sha256 n i c e.value := by
  obtain ⟨hentry, hnow⟩ := TimedStore.get?_eq_some.mp he
  obtain ⟨hproduced, hstored, hexpires⟩ := h.redis.entry _ _ hentry
  refine .inr ⟨e.writer, e.storedAt, hproduced, hstored, ?_⟩
  have hmade : c.madeAt ≤ s.now := h.clock i c hi
  exact sub_le_iff_le_add.mpr (hmade.trans (hnow.le.trans hexpires))

/-- The result of a tool is recorded, and nothing else changes. -/
theorem Inv.extends_compute (h : Inv fnName sha256 n s) {i : ℕ} (hi : s.phase i = .running)
    (result : String) (p : Phase) : Extends s ((s.compute i result).goto i p) := by
  have hnone : s.computed i = none := h.computed_eq_none (by rw [hi]; rfl)
  refine ⟨fun _ _ h => h, fun j v hv => ?_, fun _ h => h⟩
  have hne : j ≠ i := by
    rintro rfl
    rw [hnone] at hv
    cases hv
  exact (Function.update_of_ne hne ..).trans hv

/-- The tool has returned, and the call moves on with its result. -/
theorem Inv.compute (h : Inv fnName sha256 n s) {i : ℕ} {c : TimedCall}
    (hc : s.calls i = some c) (hi : s.phase i = .running) {result : String} {p : Phase}
    (hpast : p.isPastTool = true) (hp : ∀ v, p.value? = some v → v = result) :
    Inv fnName sha256 n ((s.compute i result).goto i p) := by
  have hext := h.extends_compute hi result p
  refine ⟨h.ttl, h.clock, fun j v hv => ?_, h.redis_mono hext, fun j c' v hj hv => ?_⟩
  · show s.calls j ≠ none ∧ (Function.update s.phase i p j).isPastTool = true
    by_cases hji : j = i
    · subst hji
      rw [Function.update_self, hc]
      exact ⟨Option.some_ne_none c, hpast⟩
    · rw [Function.update_of_ne hji]
      have hv' : Function.update s.computed i (some result) j = some v := hv
      rw [Function.update_of_ne hji] at hv'
      exact h.computed j v hv'
  · have hv' : (Function.update s.phase i p j).value? = some v := hv
    by_cases hji : j = i
    · subst hji
      rw [Function.update_self] at hv'
      obtain rfl := hp v hv'
      exact .inl (Function.update_self ..)
    · rw [Function.update_of_ne hji] at hv'
      exact (h.phase j c' v hj hv').mono hext

/-- What the wrapper does with the result keeps the invariant. -/
theorem Inv.finish (h : Inv fnName sha256 n s) {i : ℕ} {c : TimedCall}
    (hc : s.calls i = some c) (hi : s.phase i = .running) (loads : String → Except PyExc Json)
    (result : String) :
    Inv fnName sha256 n ((s.compute i result).finish fnName sha256 loads i c result) := by
  have hreturned := h.compute hc hi (p := .returned result) rfl
    fun v hv => (Option.some.inj hv).symm
  unfold TimedCacheState.finish
  split
  · exact h.compute hc hi rfl fun v hv => by cases hv
  · exact hreturned
  · split
    · exact hreturned
    · have hset := h.compute hc hi (p := .setting result) rfl
        fun v hv => (Option.some.inj hv).symm
      have hproduced : ((s.compute i result).goto i (.setting result)).Produced fnName sha256
          (cacheKey sha256 fnName c.kwargs) i result :=
        ⟨c, hc, rfl, Function.update_self ..⟩
      exact ⟨hset.ttl, hset.clock, hset.computed,
        hset.redis.send ⟨hproduced, Int.cast_le.mpr h.ttl⟩, hset.phase⟩

/-- Redis stores a result that was on its way, however long it took to arrive:
its lifetime begins only now. -/
theorem Inv.applySet (h : Inv fnName sha256 n s) {i : ℕ} {redis : TimedStore ℕ String String}
    (happly : s.redis.apply s.now i = some redis) :
    Inv fnName sha256 n { s with redis := redis, stores := s.stores ++ [(i, s.now)] } := by
  have hext : Extends s { s with redis := redis, stores := s.stores ++ [(i, s.now)] } :=
    ⟨fun _ _ h => h, fun _ _ h => h, fun _ h => List.mem_append_left _ h⟩
  refine ⟨h.ttl, h.clock, h.computed, ?_, fun j c v hj hv => (h.phase j c v hj hv).mono hext⟩
  refine (h.redis_mono hext).apply happly fun w hw hwriter => ⟨hw.1, ?_, ?_⟩
  · subst hwriter
    exact List.mem_append_right _ (List.mem_singleton_self _)
  · exact add_le_add_right hw.2 s.now

/-- **Every step keeps the invariant.** Two kinds of step hand out a value, a
served `GET` and the return of the tool, and both leave a value that is fresh.
-/
theorem inv_step {loads : String → Except PyExc Json} {a : TimedCacheEvent}
    (h : Inv fnName sha256 n s) (hstep : step fnName sha256 loads s a = some s') :
    Inv fnName sha256 n s' := by
  cases a with
  | tick d =>
    obtain ⟨hd, hstep⟩ := Option.ite_none_right_eq_some.mp hstep
    exact Option.some.inj hstep ▸ h.tick hd
  | start i kwargs =>
    simp only [step] at hstep
    split at hstep
    · cases hstep
    · next hi => exact Option.some.inj hstep ▸ h.start hi kwargs
  | serveGet i =>
    simp only [step] at hstep
    split at hstep
    · next hc hi =>
      obtain rfl := Option.some.inj hstep
      refine h.goto (fun c' v hc' hv => ?_) fun hpast => by rw [hi] at hpast; cases hpast
      obtain ⟨e, he, rfl⟩ := Option.map_eq_some_iff.mp hv
      rw [hc] at hc'
      exact Option.some.inj hc' ▸ h.served_get? hc he
    · cases hstep
  | resumeGet i ok =>
    simp only [step] at hstep
    split at hstep
    · next hi =>
      have hvalue := congrArg Phase.value? hi
      exact Option.some.inj hstep ▸ h.recordSuccess.goto_returned hvalue
    · next hi =>
      have hearly := congrArg Phase.isPastTool hi
      exact Option.some.inj hstep ▸ h.recordSuccess.goto_running hearly
    · next hi =>
      have hearly := congrArg Phase.isPastTool hi
      exact Option.some.inj hstep ▸ h.recordFailure.goto_running hearly
    · cases hstep
  | finish i outcome =>
    simp only [step] at hstep
    split at hstep
    · next hc hi =>
      split at hstep
      · obtain rfl := Option.some.inj hstep
        exact h.goto_of_value? (fun v hv => by cases hv) fun _ => rfl
      · exact Option.some.inj hstep ▸ h.finish hc hi loads _
    · cases hstep
  | applySet i =>
    obtain ⟨redis, hredis, rfl⟩ := Option.map_eq_some_iff.mp hstep
    exact h.applySet hredis
  | resumeSet i ok =>
    simp only [step] at hstep
    split at hstep
    · next hi =>
      obtain ⟨-, hstep⟩ := Option.ite_none_left_eq_some.mp hstep
      have hvalue := congrArg Phase.value? hi
      exact Option.some.inj hstep ▸ h.recordSuccess.goto_returned hvalue
    · next hi =>
      have hvalue := congrArg Phase.value? hi
      exact Option.some.inj hstep ▸ h.recordFailure.goto_returned hvalue
    · cases hstep

/-- **The TTL of the cache bounds the age** of what every run serves. -/
theorem freshFor_of_run {loads : String → Except PyExc Json} {cache : TimedCache} {now : ℚ}
    (hn : cache.ttl ≤ n) {as : List TimedCacheEvent} {t : TimedCacheState}
    (hrun : (machine fnName sha256 loads).run { cache := cache, now := now } as = some t)
    (hkeys : t.KeysDistinct fnName sha256) : t.FreshFor n := by
  have hinit : Inv fnName sha256 n ({ cache := cache, now := now } : TimedCacheState) :=
    { ttl := hn
      clock := fun _ _ h => by cases h
      computed := fun _ _ h => by cases h
      redis := TimedStore.every_empty
      phase := fun _ _ _ h => by cases h }
  have hinv : Inv fnName sha256 n t :=
    (machine fnName sha256 loads).run_invariant (fun _ _ _ h hstep => inv_step h hstep) hinit hrun
  intro i c v hc hv
  have hvalue : (t.phase i).value? = some v := by rw [hv]; rfl
  rcases hinv.phase i c v hc hvalue with hown | ⟨j, a, ⟨c', hc', hkey, hj⟩, hstored, ha⟩
  · exact .inl hown
  · exact .inr ⟨j, c', a, hc', hkeys j i c' c hc' hc hkey, hj, hstored, ha⟩

end Invariant

/-! ## A cache that outlives the declaration -/

/-- A call without arguments, made at some time, which has the key of every
other one. -/
def bareCall (madeAt : ℚ) : TimedCall := ⟨⟨[], List.nodup_nil⟩, madeAt⟩

/-- One call stores its result at 0, and another one is made for the same
arguments at 299.5. -/
def storeThenAsk (v : String) : List TimedCacheEvent :=
  [.start 0 (bareCall 0).kwargs, .serveGet 0, .resumeGet 0 true, .finish 0 (.ok v),
    .applySet 0, .resumeSet 0 true, .tick (599 / 2),
    .start 1 (bareCall 0).kwargs, .serveGet 1, .resumeGet 1 true]

/-- With a TTL of 300 seconds the second call is answered with what was stored
for the first. -/
theorem run_storeThenAsk (fnName : String) (sha256 : List UInt8 → List UInt8)
    {loads : String → Except PyExc Json} {v : String}
    (hv : isErrorResponse loads v = .ok false) :
    ∃ t, (machine fnName sha256 loads).run { cache := { redis := true, ttl := 300 }, now := 0 }
        (storeThenAsk v) = some t
      ∧ t.calls = Function.update (Function.update (fun _ => none) 0 (some (bareCall 0)))
          1 (some (bareCall (599 / 2)))
      ∧ t.phase 1 = .returned v ∧ t.computed 1 = none ∧ t.stores = [(0, 0)] := by
  have hclosed : ∀ now : ℚ, CircuitBreaker.isOpen { name := "redis_cache" } now = false :=
    CacheState.isOpen_of_no_failures rfl rfl
  have hfirst : ∀ (s : TimedCacheState) (h : ([] : List String).Nodup),
      s.firstPhase fnName sha256 ⟨[], h⟩
        = if s.cache.isBypassed s.now then .running else .getting none := fun _ _ => rfl
  norm_num [storeThenAsk, machine, step, start, goto, compute, finish, recordSuccess, bareCall,
    hfirst, ToolResultCache.isBypassed, hclosed, hv, TimedStore.get?, TimedStore.send,
    TimedStore.apply, TimedStore.isPending, TimedWrite.applied, Dict.set, Dict.get?,
    Option.filter, CircuitBreaker.recordSuccess]

/-- Two calls without arguments have the same arguments, so no two keys clash.
-/
theorem keysDistinct_of_bareCalls {fnName : String} {sha256 : List UInt8 → List UInt8}
    {t : TimedCacheState} {a b : ℚ}
    (hcalls : t.calls = Function.update (Function.update (fun _ => none) 0 (some (bareCall a)))
      1 (some (bareCall b))) : t.KeysDistinct fnName sha256 := by
  have hkwargs : ∀ i c, t.calls i = some c → c.kwargs = (bareCall 0).kwargs := by
    intro i c hi
    rw [hcalls] at hi
    by_cases h₁ : i = 1
    · rw [h₁, Function.update_self] at hi
      exact Option.some.inj hi ▸ rfl
    · rw [Function.update_of_ne h₁] at hi
      by_cases h₀ : i = 0
      · rw [h₀, Function.update_self] at hi
        exact Option.some.inj hi ▸ rfl
      · rw [Function.update_of_ne h₀] at hi
        cases hi
  intro i j c c' hi hj _
  rw [hkwargs i c hi, hkwargs j c' hj]
  exact Kwargs.Same.refl _

/-- **A cache that outlives the declaration**: 300 seconds are too long for
every class that declares less. -/
theorem not_freshFor_storeThenAsk (fnName : String) (sha256 : List UInt8 → List UInt8)
    {loads : String → Except PyExc Json} {v : String}
    (hv : isErrorResponse loads v = .ok false) {n : ℤ} (hn : n < 300) :
    ∃ t, (machine fnName sha256 loads).run { cache := { redis := true, ttl := 300 }, now := 0 }
        (storeThenAsk v) = some t
      ∧ t.KeysDistinct fnName sha256 ∧ ¬ t.FreshFor n := by
  obtain ⟨t, hrun, hcalls, hphase, hcomputed, hstores⟩ := run_storeThenAsk fnName sha256 hv
  refine ⟨t, hrun, keysDistinct_of_bareCalls hcalls, fun hfresh => ?_⟩
  have hcall : t.calls 1 = some (bareCall (599 / 2)) := by rw [hcalls, Function.update_self]
  rcases hfresh 1 _ v hcall hphase with hown | ⟨j, c', a, -, -, -, hstored, ha⟩
  · rw [hcomputed] at hown
    cases hown
  · rw [hstores, List.mem_singleton] at hstored
    obtain rfl : a = 0 := congrArg Prod.snd hstored
    -- the entry is half a second older than any whole number below 300
    have hn' : (n : ℚ) ≤ 299 := by exact_mod_cast Int.le_sub_one_of_lt hn
    have hage : (599 / 2 : ℚ) ≤ n := sub_nonpos.mp ha
    exact absurd (hage.trans hn') (by norm_num)

end TimedCacheState

/-- **What a service declares holds if and only if it declares no less than the
default**: over the cache its lifespan creates, every run serves only what is
fresh for `cache_ttl_seconds` exactly when that is 300 or more. -/
theorem McpServiceClass.freshFor_iff (cls : McpServiceClass) {cache : TimedCache}
    (hcache : cls.lifespanCache none = some cache) (fnName : String)
    (sha256 : List UInt8 → List UInt8) {loads : String → Except PyExc Json}
    (hloads : ReadsTexts loads) :
    (∀ now as t,
      (TimedCacheState.machine fnName sha256 loads).run { cache := cache, now := now } as = some t →
      t.KeysDistinct fnName sha256 → t.FreshFor cls.cacheTtlSeconds)
      ↔ 300 ≤ cls.cacheTtlSeconds := by
  obtain rfl := McpServiceClass.lifespanCache_eq_some hcache
  refine ⟨fun h => ?_, fun hn _ _ _ hrun => TimedCacheState.freshFor_of_run hn hrun⟩
  by_contra hlt
  -- the empty object is a result that is no error
  have hread : loads "\x7b\x7d" = .ok (.map []) := hloads [] List.nodup_nil
  have hv : isErrorResponse loads "\x7b\x7d" = .ok false := by
    rw [isErrorResponse, hread]
    rfl
  obtain ⟨t, hrun, hkeys, hstale⟩ :=
    TimedCacheState.not_freshFor_storeThenAsk fnName sha256 hv (not_le.mp hlt)
  exact hstale (h 0 _ t hrun hkeys)

/-- A service with a Redis, which declares a lifetime. -/
def cachingService (cacheTtlSeconds : ℤ) : McpServiceClass where
  setup :=
    { config := { environment := .dev, redisHost := "redis" }
      requiresDatabase := false
      redisInstalled := true }
  cacheTtlSeconds := cacheTtlSeconds

/-- For a service that declares an hour the same calls are fresh. -/
theorem freshFor_iff_hour :
    ∃ t, (TimedCacheState.machine "get_inventory" id loadsDumped).run
        { cache := { redis := true, ttl := 300 }, now := 0 }
        (TimedCacheState.storeThenAsk (Json.dumps (Json.int 3))) = some t
      ∧ t.phase 1 = .returned (Json.dumps (Json.int 3)) ∧ t.FreshFor 3600 := by
  have hv : isErrorResponse loadsDumped (Json.dumps (Json.int 3)) = .ok false := by
    rw [isErrorResponse, loadsDumped_dumps]
    rfl
  have hhour : (300 : ℤ) ≤ (cachingService 3600).cacheTtlSeconds := by decide
  have hfresh := ((cachingService 3600).freshFor_iff rfl "get_inventory" id
    readsTexts_loadsDumped).mpr hhour
  obtain ⟨t, hrun, hcalls, hphase, -⟩ :=
    TimedCacheState.run_storeThenAsk "get_inventory" id hv
  exact ⟨t, hrun, hphase, hfresh 0 _ t hrun (TimedCacheState.keysDistinct_of_bareCalls hcalls)⟩

/-- **A minute is**: the result of one call answers another one 299.5 seconds
later. -/
theorem not_freshFor_minute :
    ∃ cache t, (cachingService 60).lifespanCache none = some cache
      ∧ (TimedCacheState.machine "get_inventory" id CacheState.findsNoJson).run
          { cache := cache, now := 0 } (TimedCacheState.storeThenAsk "3 in stock") = some t
      ∧ t.KeysDistinct "get_inventory" id
      ∧ ¬ t.FreshFor (cachingService 60).cacheTtlSeconds := by
  have hv : isErrorResponse CacheState.findsNoJson "3 in stock" = .ok false := by decide
  have hn : (cachingService 60).cacheTtlSeconds < 300 := by decide
  obtain ⟨t, hrun, hkeys, hstale⟩ :=
    TimedCacheState.not_freshFor_storeThenAsk "get_inventory" id hv hn
  exact ⟨_, t, rfl, hrun, hkeys, hstale⟩
