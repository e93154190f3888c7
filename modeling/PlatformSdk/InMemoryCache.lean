import PlatformSdk.Cache

/-!
# The cache in memory

Tests wrap their tools with an `InMemoryCache`, a dict. Its `get` and `set`
wait for nothing: a call that finds its key returns in the moment it starts,
and a result is in the dict in the moment the tool returns. Behind a
`ToolResultCache` the same calls wait for Redis twice, and between a request,
its service and its reply the other calls move.

What the calls can come to is nevertheless the same
(`InMemoryCache.reaches_iff`): where Redis answers every request and loses
nothing, the outcomes it leaves once no call waits for it are exactly the
outcomes on the dict. From the dict to Redis every event is a few events of
the cache in a row. In the other direction the order is that of Redis
(`CacheState.committed`): a call begins on the dict when its `GET` is served,
and it ends there when its `SETEX` is applied – not when it sends the one or
hears of the other.
-/

namespace Phase

/-- Where a call stands with the reply to its `GET`. -/
def ofReply : Option String → Phase
  | some value => .returned value
  | none => .running

/-- Whether a call waits for Redis. -/
def isWaiting : Phase → Bool
  | .getting _ => true
  | .setting _ => true
  | _ => false

/-- Whether the `GET` of a call has not been served. -/
def isAsking : Phase → Bool
  | .getting none => true
  | _ => false

/-- Where a call stands for Redis: not started before its `GET` is served, and
at its tool as long as its `SETEX` is on its way. -/
def committed (pending : Bool) : Phase → Phase
  | .getting none => .idle
  | .getting (some reply) => .ofReply reply
  | .setting result => if pending then .running else .returned result
  | p => p

theorem isWaiting_ofReply (reply : Option String) : (ofReply reply).isWaiting = false := by
  cases reply <;> rfl

/-- Redis sees a call that does not wait for it as it is. -/
theorem committed_of_not_waiting {p : Phase} (h : p.isWaiting = false) (pending : Bool) :
    p.committed pending = p := by
  cases p with
  | getting _ => cases h
  | setting _ => cases h
  | _ => rfl

theorem isAsking_of_not_waiting {p : Phase} (h : p.isWaiting = false) : p.isAsking = false := by
  cases p with
  | getting _ => cases h
  | _ => rfl

end Phase

/-! ## The calls on the dict -/

/-- **`InMemoryCache`**: a `dict` of texts, which answers at once and forgets
nothing. -/
structure InMemoryCache where
  /-- `_store`. -/
  store : Dict String String := []

namespace InMemoryCache

/-- `get`. -/
def get (cache : InMemoryCache) (key : String) : Option String := cache.store.get? key

/-- `set`. -/
def set (cache : InMemoryCache) (key value : String) : InMemoryCache :=
  { cache with store := cache.store.set key value }

/-- **The calls of the tools that `cached_tool` wraps with it.** -/
@[ext] structure Calls (τ ι : Type) where
  /-- The cache. -/
  cache : InMemoryCache := {}
  /-- The calls that have been started. -/
  requests : ℕ → Option (Request τ ι) := fun _ => none
  /-- Where each call stands. -/
  phase : ℕ → Phase := fun _ => .idle

/-- **What can happen**: the wrapper waits for the tool alone. -/
inductive Event (τ ι : Type) where
  | start (i : ℕ) (r : Request τ ι)
  | finish (i : ℕ)

namespace Calls

variable {τ ι : Type}

/-- A call moves on, and the `dict` stays as it is. -/
def goto (s : Calls τ ι) (i : ℕ) (p : Phase) : Calls τ ι :=
  { s with phase := Function.update s.phase i p }

/-- Where a call starts: it returns what it finds, or runs its tool, if it has a
key. -/
def firstPhase (tools : Tools τ ι) (sha256 : List UInt8 → List UInt8) (s : Calls τ ι)
    (r : Request τ ι) : Phase :=
  match tools.makeKey sha256 r with
  | .error exc => .raised exc
  | .ok key => .ofReply (s.cache.get key)

/-- A call starts, and finds its key in the `dict` or not in the same step. -/
def start (tools : Tools τ ι) (sha256 : List UInt8 → List UInt8) (s : Calls τ ι) (i : ℕ)
    (r : Request τ ι) : Calls τ ι :=
  { s with
    requests := Function.update s.requests i (some r)
    phase := Function.update s.phase i (s.firstPhase tools sha256 r) }

/-- What the wrapper does with the result of the tool. -/
def finish (tools : Tools τ ι) (sha256 : List UInt8 → List UInt8)
    (loads : String → Except PyExc Json) (s : Calls τ ι) (i : ℕ) (r : Request τ ι) :
    Calls τ ι :=
  match isErrorResponse loads (tools.result r) with
  | .error exc => s.goto i (.raised exc)
  | .ok true => s.goto i (.returned (tools.result r))
  | .ok false =>
    { s.goto i (.returned (tools.result r)) with
      cache := s.cache.set (tools.key sha256 r) (tools.result r) }

/-- **One step of the calls on the dict.** -/
def step (tools : Tools τ ι) (sha256 : List UInt8 → List UInt8)
    (loads : String → Except PyExc Json) (s : Calls τ ι) : Event τ ι → Option (Calls τ ι)
  | .start i r =>
    match s.requests i with
    | some _ => none
    | none => some (s.start tools sha256 i r)
  | .finish i =>
    match s.requests i, s.phase i with
    | some r, .running => some (s.finish tools sha256 loads i r)
    | _, _ => none

/-- **The machine of the calls on the dict.** -/
def machine (tools : Tools τ ι) (sha256 : List UInt8 → List UInt8)
    (loads : String → Except PyExc Json) : Machine (Calls τ ι) (Event τ ι) :=
  ⟨step tools sha256 loads⟩

variable {tools : Tools τ ι} {sha256 : List UInt8 → List UInt8}
  {loads : String → Except PyExc Json} {s : Calls τ ι} {i : ℕ} {r : Request τ ι}

/-- A call that has not been started can be. -/
theorem step_start (hi : s.requests i = none) (r : Request τ ι) :
    step tools sha256 loads s (.start i r) = some (s.start tools sha256 i r) := by
  rw [step, hi]

/-- A tool that runs can return at any time, its result being a function of its
request. -/
theorem step_finish (hr : s.requests i = some r) (hp : s.phase i = .running) :
    step tools sha256 loads s (.finish i) = some (s.finish tools sha256 loads i r) := by
  rw [step, hr, hp]

theorem start_eq_of_step {s' : Calls τ ι}
    (h : step tools sha256 loads s (.start i r) = some s') :
    s.requests i = none ∧ s' = s.start tools sha256 i r := by
  rw [step] at h
  split at h
  · cases h
  · next hi => exact ⟨hi, (Option.some.inj h).symm⟩

theorem finish_eq_of_step {s' : Calls τ ι} (h : step tools sha256 loads s (.finish i) = some s') :
    ∃ r, s.requests i = some r ∧ s.phase i = .running
      ∧ s' = s.finish tools sha256 loads i r := by
  rw [step] at h
  split at h
  · next r hr hp => exact ⟨r, hr, hp, (Option.some.inj h).symm⟩
  · cases h

end Calls

end InMemoryCache

/-! ## Redis, answering -/

/-- **Redis answers and loses nothing**: no entry expires, no request fails. -/
def CacheEvent.Answered {τ ι : Type} : CacheEvent τ ι → Prop
  | .expire _ => False
  | .resumeGet _ ok => ok = true
  | .resumeSet _ ok => ok = true
  | _ => True

namespace CacheState

variable {τ ι : Type} {tools : Tools τ ι} {sha256 : List UInt8 → List UInt8}
  {loads : String → Except PyExc Json} {s : CacheState τ ι} {i : ℕ} {r : Request τ ι}

/-- **What a step can be while Redis answers.** -/
inductive Served (tools : Tools τ ι) (sha256 : List UInt8 → List UInt8)
    (loads : String → Except PyExc Json) (s : CacheState τ ι) :
    CacheEvent τ ι → CacheState τ ι → Prop
  | tick (d : ℚ) : Served tools sha256 loads s (.tick d) { s with now := s.now + d }
  | start {i : ℕ} {r : Request τ ι} (hi : s.requests i = none) :
    Served tools sha256 loads s (.start i r) (s.start tools sha256 i r)
  | serveGet {i : ℕ} {r : Request τ ι} (hr : s.requests i = some r)
    (hp : s.phase i = .getting none) :
    Served tools sha256 loads s (.serveGet i)
      (s.goto i (.getting (some (s.redis.get? (tools.key sha256 r)))))
  | resumeGet {i : ℕ} {reply : Option String} (hp : s.phase i = .getting (some reply)) :
    Served tools sha256 loads s (.resumeGet i true) (s.recordSuccess.goto i (.ofReply reply))
  | finish {i : ℕ} {r : Request τ ι} (hr : s.requests i = some r) (hp : s.phase i = .running) :
    Served tools sha256 loads s (.finish i) (s.finish tools sha256 loads i r)
  | applySet {i : ℕ} {redis : DelayedStore ℕ String String} (h : s.redis.apply i = some redis) :
    Served tools sha256 loads s (.applySet i) { s with redis := redis }
  | resumeSet {i : ℕ} {result : String} (hp : s.phase i = .setting result)
    (happlied : s.redis.isPending i = false) :
    Served tools sha256 loads s (.resumeSet i true) (s.recordSuccess.goto i (.returned result))

theorem served_of_step {s' : CacheState τ ι} {a : CacheEvent τ ι} (ha : a.Answered)
    (h : step tools sha256 loads s a = some s') : Served tools sha256 loads s a s' := by
  cases a with
  | tick d =>
    obtain ⟨-, h⟩ := Option.ite_none_right_eq_some.mp h
    exact Option.some.inj h ▸ .tick d
  | expire key => exact ha.elim
  | start i r =>
    simp only [step] at h
    split at h
    · cases h
    · next hi => exact Option.some.inj h ▸ .start hi
  | serveGet i =>
    simp only [step] at h
    split at h
    · next hr hp => exact Option.some.inj h ▸ .serveGet hr hp
    · cases h
  | resumeGet i ok =>
    obtain rfl : ok = true := ha
    simp only [step] at h
    split at h
    · next hp => exact Option.some.inj h ▸ .resumeGet hp
    · next hp => exact Option.some.inj h ▸ .resumeGet hp
    · next hok _ => cases hok
    · cases h
  | finish i =>
    simp only [step] at h
    split at h
    · next hr hp => exact Option.some.inj h ▸ .finish hr hp
    · cases h
  | applySet i =>
    obtain ⟨redis, hredis, rfl⟩ := Option.map_eq_some_iff.mp h
    exact .applySet hredis
  | resumeSet i ok =>
    obtain rfl : ok = true := ha
    simp only [step] at h
    split at h
    · next hp =>
      obtain ⟨happlied, h⟩ := Option.ite_none_left_eq_some.mp h
      exact Option.some.inj h ▸ .resumeSet hp (Bool.eq_false_iff.mpr happlied)
    · next hok _ => cases hok
    · cases h

/-! ### The calls as Redis has seen them -/

/-- **The calls as Redis has seen them**: a call has started when its `GET`
has been served, and has stored its result when its `SETEX` has been
applied. -/
def committed (s : CacheState τ ι) : InMemoryCache.Calls τ ι where
  cache := ⟨s.redis.entries⟩
  requests := fun i => if (s.phase i).isAsking then none else s.requests i
  phase := fun i => (s.phase i).committed (s.redis.isPending i)

/-- A call whose `GET` has been served has started. -/
theorem committed_requests (h : (s.phase i).isAsking = false) :
    s.committed.requests i = s.requests i := by
  show (if (s.phase i).isAsking then none else s.requests i) = s.requests i
  rw [h, if_neg Bool.false_ne_true]

/-- A call that moves on moves on for Redis. -/
theorem committed_goto (s : CacheState τ ι) (i : ℕ) {p : Phase} (hp : p.isAsking = false) :
    (s.goto i p).committed =
      { cache := ⟨s.redis.entries⟩
        requests := Function.update s.committed.requests i (s.requests i)
        phase := Function.update s.committed.phase i (p.committed (s.redis.isPending i)) } := by
  refine InMemoryCache.Calls.ext rfl (funext fun j => ?_) (funext fun j => ?_)
  · show (if ((s.goto i p).phase j).isAsking then none else s.requests j)
      = Function.update s.committed.requests i (s.requests i) j
    by_cases hj : j = i
    · subst hj
      rw [goto_phase_self, hp, Function.update_self, if_neg Bool.false_ne_true]
    · rw [goto_phase_of_ne s p hj, Function.update_of_ne hj]
      rfl
  · show ((s.goto i p).phase j).committed (s.redis.isPending j)
      = Function.update s.committed.phase i (p.committed (s.redis.isPending i)) j
    by_cases hj : j = i
    · subst hj
      rw [goto_phase_self, Function.update_self]
    · rw [goto_phase_of_ne s p hj, Function.update_of_ne hj]
      rfl

/-- **A call that hears from Redis** is where Redis has it already. -/
theorem committed_goto_eq_self {p : Phase} (hp : p.isAsking = false)
    (hi : (s.phase i).isAsking = false)
    (hsame : p.committed (s.redis.isPending i) = (s.phase i).committed (s.redis.isPending i)) :
    (s.goto i p).committed = s.committed := by
  have hphase : s.committed.phase i = p.committed (s.redis.isPending i) := hsame.symm
  rw [committed_goto s i hp, ← committed_requests hi, ← hphase, Function.update_eq_self,
    Function.update_eq_self]
  rfl

/-- **Serving a `GET`** starts the call on the dict. -/
theorem committed_serveGet (hr : s.requests i = some r)
    (hkey : tools.makeKey sha256 r = .ok (tools.key sha256 r)) :
    (s.goto i (.getting (some (s.redis.get? (tools.key sha256 r))))).committed
      = s.committed.start tools sha256 i r := by
  rw [committed_goto s i rfl, hr, InMemoryCache.Calls.start, InMemoryCache.Calls.firstPhase, hkey]
  rfl

theorem committed_resumeGet {reply : Option String} (hp : s.phase i = .getting (some reply)) :
    (s.recordSuccess.goto i (.ofReply reply)).committed = s.committed := by
  refine committed_goto_eq_self (s := s.recordSuccess)
    (Phase.isAsking_of_not_waiting (Phase.isWaiting_ofReply reply)) ?_ ?_
  · rw [recordSuccess_phase, hp]
    rfl
  · rw [recordSuccess_phase, hp, Phase.committed_of_not_waiting (Phase.isWaiting_ofReply reply)]
    rfl

theorem committed_resumeSet {result : String} (hp : s.phase i = .setting result)
    (happlied : s.redis.isPending i = false) :
    (s.recordSuccess.goto i (.returned result)).committed = s.committed := by
  refine committed_goto_eq_self (s := s.recordSuccess) rfl ?_ ?_
  · rw [recordSuccess_phase, hp]
    rfl
  · rw [recordSuccess_phase, hp]
    show _ = if s.redis.isPending i then Phase.running else .returned result
    rw [happlied]
    rfl

/-- A tool that returns without a write returns on the dict. -/
theorem committed_goto_of_running (hp : s.phase i = .running) {p : Phase}
    (hw : p.isWaiting = false) : (s.goto i p).committed = s.committed.goto i p := by
  have hasking : (s.phase i).isAsking = false := by rw [hp]; rfl
  rw [committed_goto s i (Phase.isAsking_of_not_waiting hw), ← committed_requests hasking,
    Function.update_eq_self, Phase.committed_of_not_waiting hw]
  rfl

/-- **A `SETEX` on its way is not there yet**: its call still runs. -/
theorem committed_sendSet (hp : s.phase i = .running) (key result : String) :
    (s.sendSet i key result).committed = s.committed := by
  refine InMemoryCache.Calls.ext rfl (funext fun j => ?_) (funext fun j => ?_)
  · show (if (Function.update s.phase i (.setting result) j).isAsking then none
      else s.requests j) = if (s.phase j).isAsking then none else s.requests j
    by_cases hj : j = i
    · subst hj
      rw [Function.update_self, hp]
      rfl
    · rw [Function.update_of_ne hj]
  · show (Function.update s.phase i (.setting result) j).committed
      ((s.redis.send i key result).isPending j) = (s.phase j).committed (s.redis.isPending j)
    rw [DelayedStore.isPending_send]
    by_cases hj : j = i
    · subst hj
      rw [Function.update_self, hp, decide_eq_true rfl, Bool.or_true]
      rfl
    · rw [Function.update_of_ne hj, decide_eq_false (Ne.symm hj), Bool.or_false]

/-! ### What holds while Redis answers -/

/-- The cache has a Redis client that has not failed since its last success. -/
def IsUp (cache : ToolResultCache) : Prop :=
  cache.redis = true ∧ cache.cb.failures = 0 ∧ cache.cb.failureThreshold = 5

theorem IsUp.isBypassed {cache : ToolResultCache} (h : IsUp cache) (now : ℚ) :
    cache.isBypassed now = false := by
  rw [ToolResultCache.isBypassed, h.1, isOpen_of_no_failures h.2.1 h.2.2]
  rfl

/-- **The write is that of a call which waits for it**, with its key and its
result. -/
def Sent (tools : Tools τ ι) (sha256 : List UInt8 → List UInt8)
    (loads : String → Except PyExc Json) (s : CacheState τ ι) (w : ℕ × String × String) : Prop :=
  ∃ r, s.requests w.1 = some r ∧ s.phase w.1 = .setting (tools.result r)
    ∧ w.2 = (tools.key sha256 r, tools.result r)
    ∧ isErrorResponse loads (tools.result r) = .ok false

/-- **The invariant while Redis answers.** The circuit is closed, the writes on
their way are those of the calls that wait, one of each, and a call that asks
has a key to ask for. -/
structure Sound (tools : Tools τ ι) (sha256 : List UInt8 → List UInt8)
    (loads : String → Except PyExc Json) (s : CacheState τ ι) : Prop where
  cache : ∃ cache, s.cache = some cache ∧ IsUp cache
  idle : ∀ i, s.requests i = none → s.phase i = .idle
  once : s.redis.senders.Nodup
  sent : ∀ w ∈ s.redis.inFlight, Sent tools sha256 loads s w
  keyed : ∀ i r, s.requests i = some r → (s.phase i).isAsking = true →
    tools.makeKey sha256 r = .ok (tools.key sha256 r)

/-- A call that starts with its `GET` has a key. -/
theorem makeKey_of_isAsking (h : (s.firstPhase tools sha256 r).isAsking = true) :
    tools.makeKey sha256 r = .ok (tools.key sha256 r) := by
  cases hkey : tools.makeKey sha256 r with
  | error exc =>
    unfold firstPhase at h
    rw [hkey] at h
    split at h <;> cases h
  | ok key => rw [Tools.key_of_makeKey hkey]

namespace Sound

/-- The invariant holds before any call, of a cache on which nothing has been
asked. -/
theorem init (now : ℚ) :
    Sound tools sha256 loads ({ cache := some freshCache, now := now } : CacheState τ ι) where
  cache := ⟨freshCache, rfl, rfl, rfl, rfl⟩
  idle := fun _ _ => rfl
  once := List.nodup_nil
  sent := fun _ h => absurd h List.not_mem_nil
  keyed := fun _ _ h => by cases h

variable (h : Sound tools sha256 loads s)
include h

/-- A call that does not wait for its `SETEX` has none on its way. -/
theorem isPending_eq_false {p : Phase} (hp : s.phase i = p)
    (hset : ∀ result, p ≠ .setting result) : s.redis.isPending i = false := by
  refine Bool.eq_false_iff.mpr fun hpending => ?_
  obtain ⟨w, hw, rfl⟩ := List.mem_map.mp (DelayedStore.isPending_iff.mp hpending)
  obtain ⟨r, -, hsetting, -⟩ := h.sent w hw
  exact hset _ (hp.symm.trans hsetting)

/-- A call without a write on its way may move on. -/
theorem goto (hr : s.requests i = some r) (hi : s.redis.isPending i = false) {p : Phase}
    (hp : p.isAsking = false) : Sound tools sha256 loads (s.goto i p) where
  cache := h.cache
  idle := fun j hj => by
    have hji : j ≠ i := by
      rintro rfl
      exact Option.some_ne_none r (hr.symm.trans hj)
    rw [goto_phase_of_ne s p hji]
    exact h.idle j hj
  once := h.once
  sent := fun w hw => by
    obtain ⟨r', hr', hset, hrest⟩ := h.sent w hw
    have hwi : w.1 ≠ i := by
      rintro rfl
      exact Bool.false_ne_true
        (hi.symm.trans (DelayedStore.isPending_iff.mpr (List.mem_map_of_mem hw)))
    exact ⟨r', hr', (goto_phase_of_ne s p hwi).trans hset, hrest⟩
  keyed := forall_calls_goto
    (P := fun r p => p.isAsking = true → tools.makeKey sha256 r = .ok (tools.key sha256 r))
    h.keyed fun r _ hasking => absurd hasking (Bool.eq_false_iff.mp hp)

/-- The breaker keeps count of nothing while Redis answers, so a success leaves
it as it is. -/
theorem recordSuccess : Sound tools sha256 loads s.recordSuccess := by
  obtain ⟨cache, hcache, hup⟩ := h.cache
  refine ⟨⟨{ cache with cb := cache.cb.recordSuccess }, ?_, hup.1, rfl, hup.2.2⟩, h.idle, h.once,
    h.sent, h.keyed⟩
  rw [CacheState.recordSuccess, hcache]
  rfl

/-- A call with a key starts with its `GET`. -/
theorem firstPhase_of_ok {key : String} (hkey : tools.makeKey sha256 r = .ok key) :
    s.firstPhase tools sha256 r = .getting none := by
  obtain ⟨cache, hcache, hup⟩ := h.cache
  rw [firstPhase, hcache, hkey]
  exact if_neg (Bool.eq_false_iff.mp (hup.isBypassed s.now))

/-- A call whose arguments have no key raises, in front of either cache. -/
theorem firstPhase_of_error {exc : PyExc} (hkey : tools.makeKey sha256 r = .error exc) :
    s.firstPhase tools sha256 r = .raised exc := by
  obtain ⟨cache, hcache, -⟩ := h.cache
  rw [firstPhase, hcache, hkey]

theorem start (hi : s.requests i = none) (r : Request τ ι) :
    Sound tools sha256 loads (s.start tools sha256 i r) where
  cache := h.cache
  idle := fun j hj => by
    have hji : j ≠ i := by
      rintro rfl
      rw [start_requests_self] at hj
      cases hj
    rw [start_requests_of_ne tools sha256 s r hji] at hj
    rw [start_phase_of_ne tools sha256 s r hji]
    exact h.idle j hj
  once := h.once
  sent := fun w hw => by
    obtain ⟨r', hr', hset, hrest⟩ := h.sent w hw
    have hwi : w.1 ≠ i := by
      rintro rfl
      exact Option.some_ne_none r' (hr'.symm.trans hi)
    exact ⟨r', (start_requests_of_ne tools sha256 s r hwi).trans hr',
      (start_phase_of_ne tools sha256 s r hwi).trans hset, hrest⟩
  keyed := forall_calls_start
    (P := fun r p => p.isAsking = true → tools.makeKey sha256 r = .ok (tools.key sha256 r))
    h.keyed makeKey_of_isAsking

/-- A call that sends its `GET` has not started for Redis. -/
theorem committed_start (hi : s.requests i = none)
    (hkey : tools.makeKey sha256 r = .ok (tools.key sha256 r)) :
    (s.start tools sha256 i r).committed = s.committed := by
  have hidle : s.phase i = .idle := h.idle i hi
  refine InMemoryCache.Calls.ext rfl (funext fun j => ?_) (funext fun j => ?_)
  · show (if ((s.start tools sha256 i r).phase j).isAsking then none
      else (s.start tools sha256 i r).requests j) = if (s.phase j).isAsking then none
      else s.requests j
    by_cases hj : j = i
    · subst hj
      rw [start_phase_self, h.firstPhase_of_ok hkey, hidle, hi]
      rfl
    · rw [start_phase_of_ne tools sha256 s r hj, start_requests_of_ne tools sha256 s r hj]
  · show ((s.start tools sha256 i r).phase j).committed (s.redis.isPending j)
      = (s.phase j).committed (s.redis.isPending j)
    by_cases hj : j = i
    · subst hj
      rw [start_phase_self, h.firstPhase_of_ok hkey, hidle]
      rfl
    · rw [start_phase_of_ne tools sha256 s r hj]

/-- **A call that has not been made** has not been made for Redis. -/
theorem committed_requests_eq_none (hi : s.requests i = none) : s.committed.requests i = none := by
  have hasking : (s.phase i).isAsking = false := congrArg Phase.isAsking (h.idle i hi)
  exact (committed_requests hasking).trans hi

/-- **A call without a key** raises for Redis as it does on the dict. -/
theorem committed_start_of_error {exc : PyExc} (hkey : tools.makeKey sha256 r = .error exc) :
    (s.start tools sha256 i r).committed = s.committed.start tools sha256 i r := by
  have hfirst := h.firstPhase_of_error hkey
  have hdict : s.committed.firstPhase tools sha256 r = .raised exc := by
    rw [InMemoryCache.Calls.firstPhase, hkey]
  refine InMemoryCache.Calls.ext rfl (funext fun j => ?_) (funext fun j => ?_)
  · show (if ((s.start tools sha256 i r).phase j).isAsking then none
      else (s.start tools sha256 i r).requests j)
      = Function.update s.committed.requests i (some r) j
    by_cases hj : j = i
    · subst hj
      rw [start_phase_self, hfirst, start_requests_self, Function.update_self]
      rfl
    · rw [start_phase_of_ne tools sha256 s r hj, start_requests_of_ne tools sha256 s r hj,
        Function.update_of_ne hj]
      rfl
  · show ((s.start tools sha256 i r).phase j).committed (s.redis.isPending j)
      = Function.update s.committed.phase i (s.committed.firstPhase tools sha256 r) j
    rw [hdict]
    by_cases hj : j = i
    · subst hj
      rw [start_phase_self, hfirst, Function.update_self]
      rfl
    · rw [start_phase_of_ne tools sha256 s r hj, Function.update_of_ne hj]
      rfl

/-- **The tool returns**: the call is through at once, as on the dict, or sends
its `SETEX`. -/
theorem finish_cases (i : ℕ) (r : Request τ ι) :
    (∃ p, p.isWaiting = false ∧ s.finish tools sha256 loads i r = s.goto i p
      ∧ ∀ u : InMemoryCache.Calls τ ι, u.finish tools sha256 loads i r = u.goto i p)
    ∨ isErrorResponse loads (tools.result r) = .ok false
      ∧ s.finish tools sha256 loads i r
        = s.sendSet i (tools.key sha256 r) (tools.result r) := by
  obtain ⟨cache, hcache, hup⟩ := h.cache
  cases hres : isErrorResponse loads (tools.result r) with
  | error exc =>
    exact .inl ⟨.raised exc, rfl, by simp only [CacheState.finish, hcache, hres],
      fun u => by simp only [InMemoryCache.Calls.finish, hres]⟩
  | ok isError =>
    cases isError with
    | true =>
      exact .inl ⟨.returned (tools.result r), rfl, by simp only [CacheState.finish, hcache, hres],
        fun u => by simp only [InMemoryCache.Calls.finish, hres]⟩
    | false =>
      refine .inr ⟨rfl, ?_⟩
      simp only [CacheState.finish, hcache, hres]
      exact if_neg (Bool.eq_false_iff.mp (hup.isBypassed s.now))

/-- A call that runs may send its result. -/
theorem sendSet (hr : s.requests i = some r) (hp : s.phase i = .running)
    (hok : isErrorResponse loads (tools.result r) = .ok false) :
    Sound tools sha256 loads (s.sendSet i (tools.key sha256 r) (tools.result r)) := by
  have hi : s.redis.isPending i = false := h.isPending_eq_false hp fun _ => Phase.noConfusion
  have hgoto := h.goto hr hi (p := .setting (tools.result r)) rfl
  refine ⟨h.cache, hgoto.idle, ?_, fun w hw => ?_, hgoto.keyed⟩
  · show (s.redis.send i _ _).senders.Nodup
    rw [DelayedStore.senders_send]
    refine List.nodup_append.mpr ⟨h.once, List.nodup_singleton i, fun j hj k hk => ?_⟩
    rintro rfl
    rw [List.mem_singleton.mp hk] at hj
    exact Bool.false_ne_true (hi.symm.trans (DelayedStore.isPending_iff.mpr hj))
  · rcases List.mem_append.mp hw with hw | hw
    · exact hgoto.sent w hw
    · obtain rfl := List.mem_singleton.mp hw
      exact ⟨r, hr, Function.update_self .., rfl, hok⟩

/-- **Applying a `SETEX`** finishes its call on the dict. -/
theorem apply {redis : DelayedStore ℕ String String} (happly : s.redis.apply i = some redis) :
    Sound tools sha256 loads { s with redis := redis } ∧
    ∃ r, s.committed.requests i = some r ∧ s.committed.phase i = .running
      ∧ ({ s with redis := redis } : CacheState τ ι).committed
        = s.committed.finish tools sha256 loads i r := by
  obtain ⟨key, result, hmem, hentries, hsenders, hsub⟩ := DelayedStore.exists_of_apply happly
  obtain ⟨r, hr, hp, hw, hok⟩ := h.sent _ hmem
  obtain ⟨rfl, rfl⟩ := Prod.mk.inj hw
  have hpending : ∀ j, redis.isPending j = true ↔ j ≠ i ∧ s.redis.isPending j = true := by
    intro j
    rw [DelayedStore.isPending_iff, DelayedStore.isPending_iff, hsenders]
    exact h.once.mem_erase_iff
  have hsent : s.redis.isPending i = true :=
    DelayedStore.isPending_iff.mpr (List.mem_map_of_mem hmem)
  refine ⟨⟨h.cache, h.idle, hsenders ▸ h.once.erase i, fun w hw => h.sent w (hsub w hw), h.keyed⟩,
    r, ?_, ?_, ?_⟩
  · exact (committed_requests (by rw [hp]; rfl)).trans hr
  · show (s.phase i).committed (s.redis.isPending i) = .running
    rw [hp, hsent]
    rfl
  · simp only [InMemoryCache.Calls.finish, hok]
    refine InMemoryCache.Calls.ext ?_ rfl (funext fun j => ?_)
    · show InMemoryCache.mk redis.entries = _
      rw [hentries]
      rfl
    · show (s.phase j).committed (redis.isPending j)
        = Function.update s.committed.phase i (.returned (tools.result r)) j
      by_cases hj : j = i
      · subst hj
        have hnot : redis.isPending j = false :=
          Bool.eq_false_iff.mpr fun htrue => ((hpending j).mp htrue).1 rfl
        rw [Function.update_self, hp, hnot]
        rfl
      · have hsame : redis.isPending j = s.redis.isPending j :=
          Bool.eq_iff_iff.mpr ((hpending j).trans (and_iff_right hj))
        rw [Function.update_of_ne hj, hsame]
        rfl

end Sound

/-! ### From Redis to the dict -/

/-- **Every step keeps the invariant**, and it is a step on the dict or none. -/
theorem Sound.served (h : Sound tools sha256 loads s) {a : CacheEvent τ ι}
    {s' : CacheState τ ι} (hs : Served tools sha256 loads s a s') :
    Sound tools sha256 loads s' ∧ (s'.committed = s.committed
      ∨ ∃ e, InMemoryCache.Calls.step tools sha256 loads s.committed e = some s'.committed) := by
  have started : ∀ {i : ℕ} {p : Phase}, s.phase i = p → p ≠ .idle →
      ∃ r, s.requests i = some r := fun {i p} hp hidle =>
    Option.ne_none_iff_exists'.mp fun hnone => hidle (hp.symm.trans (h.idle i hnone))
  cases hs with
  | tick d => exact ⟨⟨h.cache, h.idle, h.once, h.sent, h.keyed⟩, .inl rfl⟩
  | @start i r hi =>
    refine ⟨h.start hi r, ?_⟩
    cases hkey : tools.makeKey sha256 r with
    | error exc =>
      refine .inr ⟨.start i r, ?_⟩
      rw [InMemoryCache.Calls.step_start (h.committed_requests_eq_none hi),
        h.committed_start_of_error hkey]
    | ok key => exact .inl (h.committed_start hi (Tools.key_of_makeKey hkey ▸ hkey))
  | @serveGet i r hr hp =>
    have hpending := h.isPending_eq_false hp fun _ => Phase.noConfusion
    have hnone : s.committed.requests i = none := by
      show (if (s.phase i).isAsking then none else s.requests i) = none
      rw [hp]
      rfl
    have hkey := h.keyed i r hr (congrArg Phase.isAsking hp)
    refine ⟨h.goto hr hpending rfl, .inr ⟨.start i r, ?_⟩⟩
    rw [InMemoryCache.Calls.step_start hnone, committed_serveGet hr hkey]
  | @resumeGet i reply hp =>
    have hpending := h.isPending_eq_false hp fun _ => Phase.noConfusion
    obtain ⟨r, hr⟩ := started hp Phase.noConfusion
    exact ⟨h.recordSuccess.goto hr hpending
      (Phase.isAsking_of_not_waiting (Phase.isWaiting_ofReply reply)),
      .inl (committed_resumeGet hp)⟩
  | @finish i r hr hp =>
    rcases h.finish_cases i r with ⟨p, hw, hfinish, hdict⟩ | ⟨hok, hfinish⟩
    · have hpending := h.isPending_eq_false hp fun _ => Phase.noConfusion
      have hasking : (s.phase i).isAsking = false := congrArg Phase.isAsking hp
      have hrunning : s.committed.phase i = .running :=
        congrArg (Phase.committed (s.redis.isPending i)) hp
      rw [hfinish]
      refine ⟨h.goto hr hpending (Phase.isAsking_of_not_waiting hw), .inr ⟨.finish i, ?_⟩⟩
      rw [InMemoryCache.Calls.step_finish ((committed_requests hasking).trans hr) hrunning, hdict,
        committed_goto_of_running hp hw]
    · rw [hfinish]
      exact ⟨h.sendSet hr hp hok, .inl (committed_sendSet hp _ _)⟩
  | @applySet i redis happly =>
    obtain ⟨hsound, r, hr, hrunning, hcommitted⟩ := h.apply happly
    refine ⟨hsound, .inr ⟨.finish i, ?_⟩⟩
    rw [InMemoryCache.Calls.step_finish hr hrunning, hcommitted]
  | @resumeSet i result hp happlied =>
    obtain ⟨r, hr⟩ := started hp Phase.noConfusion
    exact ⟨h.recordSuccess.goto hr happlied rfl, .inl (committed_resumeSet hp happlied)⟩

/-! ### From the dict to Redis -/

/-- **No call waits for Redis**, so that what is there to see is the same on
both sides. -/
structure Settled (s : CacheState τ ι) : Prop where
  sent : s.redis.inFlight = []
  phase : ∀ i, (s.phase i).isWaiting = false

/-- Then Redis has seen the calls as they are. -/
theorem Settled.committed (hq : s.Settled) :
    s.committed = ⟨⟨s.redis.entries⟩, s.requests, s.phase⟩ :=
  InMemoryCache.Calls.ext rfl
    (funext fun i => committed_requests (Phase.isAsking_of_not_waiting (hq.phase i)))
    (funext fun i => Phase.committed_of_not_waiting (hq.phase i) _)

/-- A call that comes through leaves no call waiting. -/
theorem Settled.of_call (hq : s.Settled) {t : CacheState τ ι} (hsent : t.redis.inFlight = [])
    (hi : (t.phase i).isWaiting = false) (hne : ∀ j, j ≠ i → t.phase j = s.phase j) :
    t.Settled := by
  refine ⟨hsent, fun j => ?_⟩
  by_cases hj : j = i
  · exact hj ▸ hi
  · rw [hne j hj]
    exact hq.phase j

variable (h : Sound tools sha256 loads s) (hq : s.Settled)
include h hq

/-- **A call starts on Redis** as it does on the dict: it raises, or its `GET` is
served and answered before anything else happens. -/
theorem exists_run_start (hi : s.requests i = none) (r : Request τ ι) :
    ∃ bs t, (∀ b ∈ bs, b.Answered) ∧ (machine tools sha256 loads).run s bs = some t
      ∧ Sound tools sha256 loads t ∧ t.Settled
      ∧ t.committed = s.committed.start tools sha256 i r := by
  obtain ⟨s₁, hs₁⟩ : ∃ s₁, s₁ = s.start tools sha256 i r := ⟨_, rfl⟩
  have hr : s₁.requests i = some r := hs₁ ▸ start_requests_self tools sha256 s i r
  have hp : s₁.phase i = s.firstPhase tools sha256 r := hs₁ ▸ start_phase_self tools sha256 s i r
  have hne : ∀ j, j ≠ i → s₁.phase j = s.phase j :=
    fun j hj => hs₁ ▸ start_phase_of_ne tools sha256 s r hj
  have h₁ : Sound tools sha256 loads s₁ := hs₁ ▸ h.start hi r
  have hstep : step tools sha256 loads s (.start i r) = some s₁ := by
    simp only [step, hi, hs₁]
  cases hkey : tools.makeKey sha256 r with
  | error exc =>
    refine ⟨[.start i r], s₁, ?_, Machine.run_singleton _ hstep, h₁,
      hq.of_call (i := i) (hs₁ ▸ hq.sent) ?_ hne, ?_⟩
    · simp [CacheEvent.Answered]
    · rw [hp, h.firstPhase_of_error hkey]
      rfl
    · rw [hs₁, h.committed_start_of_error hkey]
  | ok key =>
  obtain rfl := Tools.key_of_makeKey hkey
  obtain ⟨reply, hreply⟩ : ∃ reply, reply = s₁.redis.get? (tools.key sha256 r) := ⟨_, rfl⟩
  obtain ⟨s₂, hs₂⟩ : ∃ s₂, s₂ = s₁.goto i (.getting (some reply)) := ⟨_, rfl⟩
  have hr₂ : s₂.requests i = some r := by
    rw [hs₂]
    exact hr
  have hp₁ : s₁.phase i = .getting none := hp.trans (h.firstPhase_of_ok hkey)
  have hp₂ : s₂.phase i = .getting (some reply) := hs₂ ▸ goto_phase_self ..
  have h₂ : Sound tools sha256 loads s₂ :=
    hs₂ ▸ h₁.goto hr (h₁.isPending_eq_false hp₁ fun _ => Phase.noConfusion) rfl
  have hstep₁ : step tools sha256 loads s₁ (.serveGet i) = some s₂ := by
    simp only [step, hr, hp₁, hs₂, hreply]
  have hstep₂ : step tools sha256 loads s₂ (.resumeGet i true)
      = some (s₂.recordSuccess.goto i (.ofReply reply)) := by
    cases reply <;> simp only [step, hp₂, Phase.ofReply]
  refine ⟨[.start i r, .serveGet i, .resumeGet i true],
    s₂.recordSuccess.goto i (.ofReply reply), ?_, ?_, ?_, ?_, ?_⟩
  · simp [CacheEvent.Answered]
  · rw [Machine.run_cons_of_step _ hstep, Machine.run_cons_of_step _ hstep₁,
      Machine.run_singleton _ hstep₂]
  · exact h₂.recordSuccess.goto hr₂
      (h₂.isPending_eq_false hp₂ fun _ => Phase.noConfusion)
      (Phase.isAsking_of_not_waiting (Phase.isWaiting_ofReply reply))
  · refine hq.of_call (i := i) (hs₂ ▸ hs₁ ▸ hq.sent) ?_ fun j hj => ?_
    · rw [goto_phase_self]
      exact Phase.isWaiting_ofReply reply
    · rw [goto_phase_of_ne _ _ hj, recordSuccess_phase, hs₂, goto_phase_of_ne _ _ hj, hne j hj]
  · rw [committed_resumeGet hp₂, hs₂, hreply, committed_serveGet hr hkey, hs₁,
      h.committed_start hi hkey]

/-- **A tool returns on Redis** as it does on the dict: its `SETEX` is applied
and acknowledged before anything else happens. -/
theorem exists_run_finish (hr : s.requests i = some r) (hp : s.phase i = .running) :
    ∃ bs t, (∀ b ∈ bs, b.Answered) ∧ (machine tools sha256 loads).run s bs = some t
      ∧ Sound tools sha256 loads t ∧ t.Settled
      ∧ t.committed = s.committed.finish tools sha256 loads i r := by
  have hpending := h.isPending_eq_false hp fun _ => Phase.noConfusion
  have hstep : step tools sha256 loads s (.finish i)
      = some (s.finish tools sha256 loads i r) := by
    simp only [step, hr, hp]
  rcases h.finish_cases i r with ⟨p, hw, hfinish, hdict⟩ | ⟨hok, hfinish⟩
  · rw [hfinish] at hstep
    refine ⟨[.finish i], s.goto i p, ?_, Machine.run_singleton _ hstep,
      h.goto hr hpending (Phase.isAsking_of_not_waiting hw),
      hq.of_call (i := i) hq.sent ?_ fun j hj => goto_phase_of_ne s p hj, ?_⟩
    · simp [CacheEvent.Answered]
    · rw [goto_phase_self]
      exact hw
    · rw [hdict, committed_goto_of_running hp hw]
  · obtain ⟨s₁, hs₁⟩ : ∃ s₁, s₁ = s.sendSet i (tools.key sha256 r) (tools.result r) := ⟨_, rfl⟩
    rw [hfinish, ← hs₁] at hstep
    have hr₁ : s₁.requests i = some r := hs₁ ▸ hr
    have hp₁ : s₁.phase i = .setting (tools.result r) := hs₁ ▸ Function.update_self ..
    have h₁ : Sound tools sha256 loads s₁ := hs₁ ▸ h.sendSet hr hp hok
    have hsame : s₁.committed = s.committed := hs₁ ▸ committed_sendSet hp _ _
    have happly : s₁.redis.apply i
        = some { entries := s.redis.entries.set (tools.key sha256 r) (tools.result r) } :=
      hs₁ ▸ DelayedStore.apply_send hq.sent i _ _
    obtain ⟨h₂, r', hr', -, hcommitted⟩ := h₁.apply happly
    have hasking : (s.phase i).isAsking = false := congrArg Phase.isAsking hp
    obtain rfl : r' = r := by
      rw [hsame, committed_requests hasking, hr] at hr'
      exact (Option.some.inj hr').symm
    generalize hs₂ : ({ s₁ with redis := _ } : CacheState τ ι) = s₂ at h₂ hcommitted
    have hr₂ : s₂.requests i = some r' := by
      rw [← hs₂]
      exact hr₁
    have hp₂ : s₂.phase i = .setting (tools.result r') := hs₂ ▸ hp₁
    have happlied : s₂.redis.isPending i = false := hs₂ ▸ rfl
    have hstep₁ : step tools sha256 loads s₁ (.applySet i) = some s₂ := by
      simp only [step, happly, Option.map_some, hs₂]
    have hstep₂ : step tools sha256 loads s₂ (.resumeSet i true)
        = some (s₂.recordSuccess.goto i (.returned (tools.result r'))) := by
      simp only [step, hp₂, happlied, Bool.false_eq_true, if_false]
    refine ⟨[.finish i, .applySet i, .resumeSet i true],
      s₂.recordSuccess.goto i (.returned (tools.result r')), ?_, ?_, ?_, ?_, ?_⟩
    · simp [CacheEvent.Answered]
    · rw [Machine.run_cons_of_step _ hstep, Machine.run_cons_of_step _ hstep₁,
        Machine.run_singleton _ hstep₂]
    · exact h₂.recordSuccess.goto hr₂ happlied rfl
    · refine hq.of_call (i := i) (hs₂ ▸ rfl) ?_ fun j hj => ?_
      · rw [goto_phase_self]
        rfl
      · rw [goto_phase_of_ne _ _ hj, recordSuccess_phase, ← hs₂, hs₁]
        exact Function.update_of_ne hj ..
    · rw [committed_resumeSet hp₂ happlied, hcommitted, hsame]

/-- **A step on the dict is a few steps on Redis.** -/
theorem exists_run_of_step {e : InMemoryCache.Event τ ι} {t : InMemoryCache.Calls τ ι}
    (hstep : InMemoryCache.Calls.step tools sha256 loads s.committed e = some t) :
    ∃ bs u, (∀ b ∈ bs, b.Answered) ∧ (machine tools sha256 loads).run s bs = some u
      ∧ Sound tools sha256 loads u ∧ u.Settled ∧ u.committed = t := by
  cases e with
  | start i r =>
    obtain ⟨hi, rfl⟩ := InMemoryCache.Calls.start_eq_of_step hstep
    rw [hq.committed] at hi
    exact exists_run_start h hq hi r
  | finish i =>
    obtain ⟨r, hr, hp, rfl⟩ := InMemoryCache.Calls.finish_eq_of_step hstep
    rw [hq.committed] at hr hp
    exact exists_run_finish h hq hr hp

end CacheState

/-- **The dict and a Redis that answers have the same outcomes.** What the
calls of the wrapped tools can come to on an `InMemoryCache` – what is stored,
which calls were made, and where each one stands – is exactly what they can
come to behind a `ToolResultCache`, whatever the order in which Redis serves
and acknowledges their requests, once no call waits for it. -/
theorem InMemoryCache.reaches_iff {τ ι : Type} (tools : Tools τ ι)
    (sha256 : List UInt8 → List UInt8) (loads : String → Except PyExc Json) (now : ℚ)
    (t : Calls τ ι) :
    (∃ as, (Calls.machine tools sha256 loads).run {} as = some t) ↔
      ∃ bs u, (∀ b ∈ bs, CacheEvent.Answered b)
        ∧ (CacheState.machine tools sha256 loads).run
            { cache := some CacheState.freshCache, now := now } bs = some u
        ∧ u.Settled ∧ t = ⟨⟨u.redis.entries⟩, u.requests, u.phase⟩ := by
  constructor
  · rintro ⟨as, hrun⟩
    obtain ⟨bs, u, hbs, hrun', -, hq, rfl⟩ :=
      (Calls.machine tools sha256 loads).run_simulated_of_forall
        (CacheState.machine tools sha256 loads) (C := fun _ => True)
        (D := CacheEvent.Answered)
        (R := fun t u => CacheState.Sound tools sha256 loads u ∧ u.Settled ∧ u.committed = t)
        (fun t u e t' h _ hstep => by
          obtain ⟨h, hq, rfl⟩ := h
          exact CacheState.exists_run_of_step h hq hstep)
        (u := { cache := some CacheState.freshCache, now := now })
        ⟨CacheState.Sound.init now, ⟨rfl, fun _ => rfl⟩, rfl⟩ (fun _ _ => trivial) hrun
    exact ⟨bs, u, hbs, hrun', hq, hq.committed⟩
  · rintro ⟨bs, u, hbs, hrun, hq, rfl⟩
    obtain ⟨as, t, -, hrun', -, rfl⟩ :=
      (CacheState.machine tools sha256 loads).run_simulated_of_forall
        (Calls.machine tools sha256 loads) (C := CacheEvent.Answered) (D := fun _ => True)
        (R := fun u t => CacheState.Sound tools sha256 loads u ∧ u.committed = t)
        (fun s t a s' h ha hstep => by
          obtain ⟨h, rfl⟩ := h
          obtain ⟨h', hsame | ⟨e, he⟩⟩ := h.served (CacheState.served_of_step ha hstep)
          · exact ⟨[], _, fun _ hb => absurd hb List.not_mem_nil, rfl, h', hsame⟩
          · exact ⟨[e], _, fun _ _ => trivial, Machine.run_singleton _ he, h', rfl⟩)
        ⟨CacheState.Sound.init now, rfl⟩ hbs hrun
    exact ⟨as, hq.committed ▸ hrun'⟩
