import PlatformSdk.DelayedStore
import PlatformSdk.Resilience
import PlatformSdk.Run

/-!
# The cache of tool results

`cached_tool` puts a Redis lookup before a tool and a Redis write after it.
A call that finds its key is answered from the cache; every other call runs
the tool, and unless the result is an error response it is written under the
key of the call. A Redis that fails, or that the circuit breaker keeps away
from, is as good as an empty one.

What a caller gets therefore rests on the key alone. `makeCacheKey` hashes
the JSON of `{"fn": fn_name, **kwargs}`, so a keyword argument named `fn`
takes the place of the name of the tool (`cacheKey_of_fn`), and apart
from those calls the key separates every two tools and every two mappings of
arguments (`cacheKey_eq_iff`). It is the first thing a call computes, outside
of any `try`: arguments without a text, those that hold an integer of more
than 4300 digits, raise in the call.

The calls on one cache are a machine. Every `await` is a place where other
calls move: a Redis `GET` is served and later resumes its caller, a `SETEX`
is applied at some moment or never, the tool runs. `Attributed` is what its
states keep: a value under a key was produced by some call whose tool and
arguments have that key. What the callers may conclude from it is in
`CacheTransparency` and `CacheIdentity`.
-/

/-! ## The key -/

/-- **Keyword arguments**: a mapping with distinct names. -/
structure Kwargs where
  /-- The arguments, in the order they were passed. -/
  entries : Dict String Json
  /-- No argument is passed twice. -/
  nodup : entries.keys.Nodup
  deriving DecidableEq

namespace Kwargs

/-- The names of the arguments, each of which is there once. -/
def names (k : Kwargs) : List String := k.entries.keys

/-- **The same arguments**: equal up to the order of keys, here and in every
value. -/
def Same (k₁ k₂ : Kwargs) : Prop :=
  Json.sortKeys (.map k₁.entries) = Json.sortKeys (.map k₂.entries)

instance (k₁ k₂ : Kwargs) : Decidable (k₁.Same k₂) :=
  inferInstanceAs (Decidable (Json.sortKeys _ = Json.sortKeys _))

theorem Same.refl (k : Kwargs) : k.Same k := rfl

theorem Same.symm {k₁ k₂ : Kwargs} (h : k₁.Same k₂) : k₂.Same k₁ := Eq.symm h

end Kwargs

/-- `_KEY_PREFIX`. -/
def keyPrefix : String := "tool_cache:"

/-- What `make_cache_key` hashes: the arguments are written after the name, and
over it where one is named `fn`. -/
def keyPayload (fnName : String) (kwargs : Kwargs) : Json :=
  .map (Dict.update [("fn", Json.str fnName)] kwargs.entries)

/-- The key of a payload that has a text, over the digest `sha256`. -/
def cacheKey (sha256 : List UInt8 → List UInt8) (fnName : String) (kwargs : Kwargs) : String :=
  let payload := Json.dumpsSorted (keyPayload fnName kwargs)
  keyPrefix ++ String.ofList (hexdigest (sha256 (encodeUtf8 payload)))

/-- The `ValueError` of an integer that is too long to be written. -/
def PyExc.tooManyDigits : PyExc :=
  .valueError ("Exceeds the limit (4300 digits) for integer string conversion; "
    ++ "use sys.set_int_max_str_digits() to increase the limit")

/-- **`make_cache_key`**: `json.dumps` raises where an argument holds an integer
of too many digits. -/
def makeCacheKey (sha256 : List UInt8 → List UInt8) (fnName : String) (kwargs : Kwargs) :
    Except PyExc String :=
  if (keyPayload fnName kwargs).isTooLong then .error .tooManyDigits
  else .ok (cacheKey sha256 fnName kwargs)

variable {sha256 : List UInt8 → List UInt8}

/-- **An argument named `fn` takes the place of the name**: the key of a call
that passes one does not depend on the tool. -/
theorem cacheKey_of_fn {kwargs : Kwargs} (h : "fn" ∈ kwargs.names) (f₁ f₂ : String) :
    cacheKey sha256 f₁ kwargs = cacheKey sha256 f₂ kwargs := by
  suffices hupd : ∀ (e : Dict String Json) (x₁ x₂ : Json) (d : Dict String Json),
      "fn" ∈ e.keys → Dict.update (("fn", x₁) :: d) e = Dict.update (("fn", x₂) :: d) e by
    unfold cacheKey keyPayload
    rw [hupd kwargs.entries (Json.str f₁) (Json.str f₂) [] h]
  intro e
  induction e with
  | nil => exact fun _ _ _ h => absurd h List.not_mem_nil
  | cons a e ih =>
    obtain ⟨k, v⟩ := a
    intro x₁ x₂ d h
    rw [Dict.update, Dict.update]
    by_cases hk : "fn" = k
    · -- this entry is written over both names
      rw [Dict.set, Dict.set, if_pos hk, if_pos hk]
    · rw [Dict.set, Dict.set, if_neg hk, if_neg hk]
      exact ih x₁ x₂ _ ((List.mem_cons.mp h).resolve_left hk)

/-- The payload of a call without an argument named `fn` has the name in front
of the arguments. -/
theorem update_fn_of_notMem {kwargs : Kwargs} (h : "fn" ∉ kwargs.names) (f : String) :
    Dict.update [("fn", Json.str f)] kwargs.entries = ("fn", Json.str f) :: kwargs.entries := by
  refine Dict.update_of_disjoint _ _ kwargs.nodup (fun k hk hmem => ?_)
  rw [Dict.keys_cons, Dict.keys_nil, List.mem_singleton] at hmem
  exact h (hmem ▸ hk)

/-- **A call has a key** if no argument of it holds an integer of too many
digits: the name of the tool is a text. -/
theorem makeCacheKey_eq_ok {kwargs : Kwargs} (hfn : "fn" ∉ kwargs.names)
    (hlong : Json.isTooLong (.map kwargs.entries) = false) (f : String) :
    makeCacheKey sha256 f kwargs = .ok (cacheKey sha256 f kwargs) := by
  have hpayload : (keyPayload f kwargs).isTooLong = false := by
    rw [keyPayload, update_fn_of_notMem hfn]
    exact hlong
  rw [makeCacheKey, hpayload]
  exact if_neg Bool.false_ne_true

/-- **The key separates tools and arguments**, among the calls that pass no
argument named `fn`. -/
theorem cacheKey_eq_iff (hsha : Function.Injective sha256) {f₁ f₂ : String}
    {k₁ k₂ : Kwargs} (h₁ : "fn" ∉ k₁.names) (h₂ : "fn" ∉ k₂.names) :
    cacheKey sha256 f₁ k₁ = cacheKey sha256 f₂ k₂ ↔ f₁ = f₂ ∧ k₁.Same k₂ := by
  have hkeys : ∀ (f : String) (k : Kwargs), "fn" ∉ k.names →
      (Dict.keys (("fn", Json.str f) :: k.entries)).Nodup :=
    fun f k h => List.nodup_cons.mpr ⟨h, k.nodup⟩
  have hpayload : cacheKey sha256 f₁ k₁ = cacheKey sha256 f₂ k₂
      ↔ Json.sortKeys (.map (("fn", Json.str f₁) :: k₁.entries))
        = Json.sortKeys (.map (("fn", Json.str f₂) :: k₂.entries)) := by
    unfold cacheKey keyPayload
    rw [update_fn_of_notMem h₁, update_fn_of_notMem h₂, String.append_right_inj,
      String.ofList_inj, hexdigest_injective.eq_iff, hsha.eq_iff,
      encodeUtf8_injective.eq_iff, Json.dumpsSorted_eq_iff]
  rw [hpayload, Json.sortKeys_map_eq_iff (hkeys f₁ k₁ h₁), Json.sortKeysMap, Json.sortKeysMap,
    Kwargs.Same, Json.sortKeys_map_eq_iff k₁.nodup]
  constructor
  · intro h
    -- the name is the only entry at `fn`
    have hmem : ("fn", Json.sortKeys (Json.str f₁))
        ∈ ("fn", Json.sortKeys (Json.str f₂)) :: Json.sortKeysMap k₂.entries :=
      h.mem_iff.mp List.mem_cons_self
    rcases List.mem_cons.mp hmem with heq | hin
    · have hf : f₁ = f₂ := by
        simpa [Json.sortKeys] using heq
      subst hf
      exact ⟨rfl, (List.perm_cons _).mp h⟩
    · have hfn : "fn" ∈ Dict.keys (Json.sortKeysMap k₂.entries) :=
        List.mem_map_of_mem (f := Prod.fst) hin
      rw [Json.keys_sortKeysMap] at hfn
      exact absurd hfn h₂
  · rintro ⟨rfl, h⟩
    exact h.cons _

/-! ## Error responses -/

/-- **`is_error_response`**, over `json.loads`. Only a `JSONDecodeError` or a
`TypeError` of the parser is caught: a `ValueError` of its own – as for an
integer with too many digits – goes through. -/
def isErrorResponse (loads : String → Except PyExc Json) (response : String) :
    Except PyExc Bool :=
  if "ERROR:".toList.isPrefixOf response.toList then .ok true
  else
    match loads response with
    | .ok (.map data) => .ok (decide ("error" ∈ Dict.keys data))
    | .ok _ => .ok false
    | .error .jsonDecodeError => .ok false
    | .error (.typeError _) => .ok false
    | .error exc => .error exc

/-! ## The machine -/

/-- **The tools of a server**, under distinct names. The type `ι` is what
`get_agent_context` returns; a tool that does not ask for it has the one
identity of `Unit`. A tool is a function of its arguments, so it does not see
the order in which they come. -/
structure Tools (τ ι : Type) where
  /-- `fn.__name__`. -/
  name : τ → String
  /-- The unwrapped tool. -/
  fn : τ → ι → Kwargs → String
  /-- No two tools have one name. -/
  name_injective : Function.Injective name
  /-- A tool does not see the order of keys. -/
  fn_congr : ∀ t a k₁ k₂, Kwargs.Same k₁ k₂ → fn t a k₁ = fn t a k₂

/-- **A call of a wrapped tool**, with what the tool can read of its caller. -/
structure Request (τ ι : Type) where
  tool : τ
  identity : ι
  kwargs : Kwargs

/-- The key of a call that has one; of the others it says nothing. -/
def Tools.key {τ ι : Type} (tools : Tools τ ι) (sha256 : List UInt8 → List UInt8)
    (r : Request τ ι) : String :=
  cacheKey sha256 (tools.name r.tool) r.kwargs

/-- What the wrapper computes first: the key, or an exception. -/
def Tools.makeKey {τ ι : Type} (tools : Tools τ ι) (sha256 : List UInt8 → List UInt8)
    (r : Request τ ι) : Except PyExc String :=
  makeCacheKey sha256 (tools.name r.tool) r.kwargs

/-- A key that is computed is the key, so the machine can speak of one. -/
theorem Tools.key_of_makeKey {τ ι : Type} {tools : Tools τ ι} {r : Request τ ι} {key : String}
    (h : tools.makeKey sha256 r = .ok key) : tools.key sha256 r = key := by
  rw [Tools.makeKey, makeCacheKey] at h
  split at h
  · cases h
  · exact Except.ok.inj h

/-- What the unwrapped tool returns for a call, which is what the wrapped one
should. -/
def Tools.result {τ ι : Type} (tools : Tools τ ι) (r : Request τ ι) : String :=
  tools.fn r.tool r.identity r.kwargs

/-- Where a call of the wrapper stands, by the `await` it is in. -/
inductive Phase where
  /-- Not started. -/
  | idle
  /-- Waiting for the reply to its `GET`; the reply, once Redis has served
  it. -/
  | getting (reply : Option (Option String))
  /-- Running the tool. -/
  | running
  /-- Waiting for the reply to its `SETEX`, with the result in hand. -/
  | setting (result : String)
  | returned (value : String)
  | raised (exc : PyExc)
  deriving DecidableEq

/-- The value a call has received or computed, from when it has one. -/
def Phase.value? : Phase → Option String
  | .getting (some reply) => reply
  | .setting result => some result
  | .returned value => some value
  | _ => none

/-- **A `ToolResultCache`**: whether it has a Redis client, and its breaker. -/
structure ToolResultCache where
  redis : Bool
  cb : CircuitBreaker := { name := "redis_cache" }

/-- Whether `get` and `set` return at once: there is no Redis, or the circuit
is open. -/
def ToolResultCache.isBypassed (cache : ToolResultCache) (now : ℚ) : Bool :=
  !cache.redis || cache.cb.isOpen now

/-- **The state of the calls on one cache.** The texts stand for their UTF-8
encodings, which `get` decodes. -/
structure CacheState (τ ι : Type) where
  /-- The cache the tools are wrapped with, if there is one. -/
  cache : Option ToolResultCache
  /-- What `time.monotonic` says. -/
  now : ℚ
  /-- Redis. -/
  redis : DelayedStore ℕ String String := {}
  /-- The calls that have been started. -/
  requests : ℕ → Option (Request τ ι) := fun _ => none
  /-- Where each call stands. -/
  phase : ℕ → Phase := fun _ => .idle

/-- **What can happen.** A call that resumes does so with the reply of Redis,
`ok`, or with whatever the client raised. -/
inductive CacheEvent (τ ι : Type) where
  | tick (d : ℚ)
  | expire (key : String)
  | start (i : ℕ) (r : Request τ ι)
  | serveGet (i : ℕ)
  | resumeGet (i : ℕ) (ok : Bool)
  | finish (i : ℕ)
  | applySet (i : ℕ)
  | resumeSet (i : ℕ) (ok : Bool)

namespace CacheState

variable {τ ι : Type}

/-- A call moves on, and the cache stays as it is. -/
def goto (s : CacheState τ ι) (i : ℕ) (p : Phase) : CacheState τ ι :=
  { s with phase := Function.update s.phase i p }

/-- The client's call on Redis succeeded, and its breaker is told. -/
def recordSuccess (s : CacheState τ ι) : CacheState τ ι :=
  { s with cache := s.cache.map fun c => { c with cb := c.cb.recordSuccess } }

/-- The client's call on Redis raised, and its breaker is told when. -/
def recordFailure (s : CacheState τ ι) : CacheState τ ι :=
  { s with cache := s.cache.map fun c => { c with cb := c.cb.recordFailure s.now } }

/-- Where a call starts: at the tool where there is no cache to ask, and at its
end where it has no key. -/
def firstPhase (tools : Tools τ ι) (sha256 : List UInt8 → List UInt8) (s : CacheState τ ι)
    (r : Request τ ι) : Phase :=
  match s.cache with
  | none => .running
  | some cache =>
    match tools.makeKey sha256 r with
    | .error exc => .raised exc
    | .ok _ => if cache.isBypassed s.now then .running else .getting none

/-- A call starts: its request is noted, and it goes to its first phase. -/
def start (tools : Tools τ ι) (sha256 : List UInt8 → List UInt8) (s : CacheState τ ι) (i : ℕ)
    (r : Request τ ι) : CacheState τ ι :=
  { s with
    requests := Function.update s.requests i (some r)
    phase := Function.update s.phase i (s.firstPhase tools sha256 r) }

/-- A call sends its `SETEX`, which Redis applies at some later point, or never.
-/
def sendSet (s : CacheState τ ι) (i : ℕ) (key result : String) : CacheState τ ι :=
  { s with
    redis := s.redis.send i key result
    phase := Function.update s.phase i (.setting result) }

/-- What the wrapper does with the result of the tool. -/
def finish (tools : Tools τ ι) (sha256 : List UInt8 → List UInt8)
    (loads : String → Except PyExc Json) (s : CacheState τ ι) (i : ℕ) (r : Request τ ι) :
    CacheState τ ι :=
  match s.cache with
  | none => s.goto i (.returned (tools.result r))
  | some cache =>
    match isErrorResponse loads (tools.result r) with
    | .error exc => s.goto i (.raised exc)
    | .ok true => s.goto i (.returned (tools.result r))
    | .ok false =>
      if cache.isBypassed s.now then s.goto i (.returned (tools.result r))
      else s.sendSet i (tools.key sha256 r) (tools.result r)

/-- **One step of the calls on a cache**, where the event can happen at that
moment. -/
def step (tools : Tools τ ι) (sha256 : List UInt8 → List UInt8)
    (loads : String → Except PyExc Json) (s : CacheState τ ι) :
    CacheEvent τ ι → Option (CacheState τ ι)
  | .tick d => if 0 ≤ d then some { s with now := s.now + d } else none
  | .expire key => some { s with redis := s.redis.expire key }
  | .start i r =>
    match s.requests i with
    | some _ => none
    | none => some (s.start tools sha256 i r)
  | .serveGet i =>
    match s.requests i, s.phase i with
    | some r, .getting none =>
      some (s.goto i (.getting (some (s.redis.get? (tools.key sha256 r)))))
    | _, _ => none
  | .resumeGet i ok =>
    match ok, s.phase i with
    | true, .getting (some (some value)) => some (s.recordSuccess.goto i (.returned value))
    | true, .getting (some none) => some (s.recordSuccess.goto i .running)
    | false, .getting _ => some (s.recordFailure.goto i .running)
    | _, _ => none
  | .finish i =>
    match s.requests i, s.phase i with
    | some r, .running => some (s.finish tools sha256 loads i r)
    | _, _ => none
  | .applySet i => (s.redis.apply i).map fun redis => { s with redis := redis }
  | .resumeSet i ok =>
    match ok, s.phase i with
    | true, .setting result =>
      -- an `OK` comes back only for a write that has been applied
      if s.redis.isPending i then none
      else some (s.recordSuccess.goto i (.returned result))
    | false, .setting result => some (s.recordFailure.goto i (.returned result))
    | _, _ => none

/-- **The machine of the calls on a cache**, in any order and with any failure
of Redis. -/
def machine (tools : Tools τ ι) (sha256 : List UInt8 → List UInt8)
    (loads : String → Except PyExc Json) : Machine (CacheState τ ι) (CacheEvent τ ι) :=
  ⟨step tools sha256 loads⟩

@[simp] theorem goto_phase_self (s : CacheState τ ι) (i : ℕ) (p : Phase) :
    (s.goto i p).phase i = p := Function.update_self ..

theorem goto_phase_of_ne (s : CacheState τ ι) {i j : ℕ} (p : Phase) (h : j ≠ i) :
    (s.goto i p).phase j = s.phase j := Function.update_of_ne h ..

section Start

variable (tools : Tools τ ι) (sha256 : List UInt8 → List UInt8) (s : CacheState τ ι)

@[simp] theorem start_requests_self (i : ℕ) (r : Request τ ι) :
    (s.start tools sha256 i r).requests i = some r := Function.update_self ..

theorem start_requests_of_ne {i j : ℕ} (r : Request τ ι) (h : j ≠ i) :
    (s.start tools sha256 i r).requests j = s.requests j := Function.update_of_ne h ..

@[simp] theorem start_phase_self (i : ℕ) (r : Request τ ι) :
    (s.start tools sha256 i r).phase i = s.firstPhase tools sha256 r := Function.update_self ..

theorem start_phase_of_ne {i j : ℕ} (r : Request τ ι) (h : j ≠ i) :
    (s.start tools sha256 i r).phase j = s.phase j := Function.update_of_ne h ..

/-- A call that has a key starts with its `GET`, or at the tool. -/
theorem firstPhase_of_key {r : Request τ ι} {key : String} (h : tools.makeKey sha256 r = .ok key) :
    s.firstPhase tools sha256 r = .running ∨ s.firstPhase tools sha256 r = .getting none := by
  unfold firstPhase
  rw [h]
  split
  · exact .inl rfl
  · show (if _ then _ else _) = _ ∨ (if _ then _ else _) = _
    split
    · exact .inl rfl
    · exact .inr rfl

end Start

/-- **What holds of every call holds of every call when one moves on**, if it
holds of that one in its new phase. -/
theorem forall_calls_goto {P : Request τ ι → Phase → Prop} {s : CacheState τ ι}
    (h : ∀ j r, s.requests j = some r → P r (s.phase j)) {i : ℕ} {p : Phase}
    (hp : ∀ r, s.requests i = some r → P r p) (j : ℕ) (r : Request τ ι)
    (hr : (s.goto i p).requests j = some r) : P r ((s.goto i p).phase j) := by
  by_cases hj : j = i
  · subst hj
    rw [goto_phase_self]
    exact hp r hr
  · rw [goto_phase_of_ne s p hj]
    exact h j r hr

/-- The same when another call starts: it is the new call the property is to be
shown of, the others being where they were. -/
theorem forall_calls_start {P : Request τ ι → Phase → Prop} {s : CacheState τ ι}
    (h : ∀ j r, s.requests j = some r → P r (s.phase j)) {tools : Tools τ ι}
    {sha256 : List UInt8 → List UInt8} {i : ℕ} {r : Request τ ι}
    (hr : P r (s.firstPhase tools sha256 r)) (j : ℕ) (r' : Request τ ι)
    (hr' : (s.start tools sha256 i r).requests j = some r') :
    P r' ((s.start tools sha256 i r).phase j) := by
  by_cases hj : j = i
  · subst hj
    rw [start_requests_self] at hr'
    rw [start_phase_self, ← Option.some.inj hr']
    exact hr
  · rw [start_requests_of_ne tools sha256 s r hj] at hr'
    rw [start_phase_of_ne tools sha256 s r hj]
    exact h j r' hr'

@[simp] theorem recordSuccess_phase (s : CacheState τ ι) :
    s.recordSuccess.phase = s.phase := rfl

@[simp] theorem recordFailure_phase (s : CacheState τ ι) :
    s.recordFailure.phase = s.phase := rfl

/-- A call starts with nothing in its hands: it asks, runs its tool or raises.
-/
theorem value?_firstPhase (tools : Tools τ ι) (sha256 : List UInt8 → List UInt8)
    (s : CacheState τ ι) (r : Request τ ι) : (s.firstPhase tools sha256 r).value? = none := by
  cases hkey : tools.makeKey sha256 r with
  | error exc =>
    unfold firstPhase
    rw [hkey]
    split <;> rfl
  | ok key =>
    rcases firstPhase_of_key tools sha256 s hkey with h | h <;> rw [h] <;> rfl

/-- **What a step can be.** Each constructor is one kind of step, with what
the event finds and what it leaves. -/
inductive Moves (tools : Tools τ ι) (sha256 : List UInt8 → List UInt8)
    (loads : String → Except PyExc Json) (s : CacheState τ ι) :
    CacheEvent τ ι → CacheState τ ι → Prop
  | tick (d : ℚ) : Moves tools sha256 loads s (.tick d) { s with now := s.now + d }
  | expire (key : String) :
    Moves tools sha256 loads s (.expire key) { s with redis := s.redis.expire key }
  | start {i : ℕ} {r : Request τ ι} (hi : s.requests i = none) :
    Moves tools sha256 loads s (.start i r) (s.start tools sha256 i r)
  | serveGet {i : ℕ} {r : Request τ ι} (hr : s.requests i = some r) :
    Moves tools sha256 loads s (.serveGet i)
      (s.goto i (.getting (some (s.redis.get? (tools.key sha256 r)))))
  | hit {i : ℕ} {value : String} (hp : s.phase i = .getting (some (some value))) :
    Moves tools sha256 loads s (.resumeGet i true) (s.recordSuccess.goto i (.returned value))
  | miss {i : ℕ} :
    Moves tools sha256 loads s (.resumeGet i true) (s.recordSuccess.goto i .running)
  | getFailed {i : ℕ} :
    Moves tools sha256 loads s (.resumeGet i false) (s.recordFailure.goto i .running)
  | finish {i : ℕ} {r : Request τ ι} (hr : s.requests i = some r) :
    Moves tools sha256 loads s (.finish i) (s.finish tools sha256 loads i r)
  | applySet {i : ℕ} {redis : DelayedStore ℕ String String} (h : s.redis.apply i = some redis) :
    Moves tools sha256 loads s (.applySet i) { s with redis := redis }
  | stored {i : ℕ} {result : String} (hp : s.phase i = .setting result) :
    Moves tools sha256 loads s (.resumeSet i true) (s.recordSuccess.goto i (.returned result))
  | setFailed {i : ℕ} {result : String} (hp : s.phase i = .setting result) :
    Moves tools sha256 loads s (.resumeSet i false) (s.recordFailure.goto i (.returned result))

/-- Every step is of one of these kinds, so that what they all keep is shown
once for each kind and not for each branch of the step. -/
theorem moves_of_step {tools : Tools τ ι} {sha256 : List UInt8 → List UInt8}
    {loads : String → Except PyExc Json} {s s' : CacheState τ ι} {a : CacheEvent τ ι}
    (h : step tools sha256 loads s a = some s') : Moves tools sha256 loads s a s' := by
  cases a with
  | tick d =>
    obtain ⟨-, h⟩ := Option.ite_none_right_eq_some.mp h
    exact Option.some.inj h ▸ .tick d
  | expire key => exact Option.some.inj h ▸ .expire key
  | start i r =>
    simp only [step] at h
    split at h
    · cases h
    · next hi => exact Option.some.inj h ▸ .start hi
  | serveGet i =>
    simp only [step] at h
    split at h
    · next hr _ => exact Option.some.inj h ▸ .serveGet hr
    · cases h
  | resumeGet i ok =>
    simp only [step] at h
    split at h
    · next hp => exact Option.some.inj h ▸ .hit hp
    · exact Option.some.inj h ▸ .miss
    · exact Option.some.inj h ▸ .getFailed
    · cases h
  | finish i =>
    simp only [step] at h
    split at h
    · next hr _ => exact Option.some.inj h ▸ .finish hr
    · cases h
  | applySet i =>
    obtain ⟨redis, hredis, rfl⟩ := Option.map_eq_some_iff.mp h
    exact .applySet hredis
  | resumeSet i ok =>
    simp only [step] at h
    split at h
    · next hp =>
      obtain ⟨-, h⟩ := Option.ite_none_left_eq_some.mp h
      exact Option.some.inj h ▸ .stored hp
    · next hp => exact Option.some.inj h ▸ .setFailed hp
    · cases h

/-! ## Where a value comes from -/

section Attribution

variable (tools : Tools τ ι) (sha256 : List UInt8 → List UInt8)

/-- **The value was produced for this tool and these arguments**: by a call
that was started, under its own identity. -/
def Produced (requests : ℕ → Option (Request τ ι)) (t : τ) (k : Kwargs) (v : String) : Prop :=
  ∃ j r, requests j = some r ∧ r.tool = t ∧ r.kwargs.Same k ∧ v = tools.fn t r.identity k

/-- **The value belongs under the key**: it was produced for every tool and
arguments with that key. -/
def Attributed (requests : ℕ → Option (Request τ ι)) (key v : String) : Prop :=
  ∀ t k, "fn" ∉ k.names → cacheKey sha256 (tools.name t) k = key →
    Produced tools requests t k v

/-- **The invariant.** No call passes an argument named `fn`, and every value
– in Redis, on its way there, or in the hands of a call – belongs under its
key. -/
structure Inv (s : CacheState τ ι) : Prop where
  plain : ∀ i r, s.requests i = some r → "fn" ∉ r.kwargs.names
  redis : s.redis.Every (Attributed tools sha256 s.requests)
  phase : ∀ i r v, s.requests i = some r → (s.phase i).value? = some v →
    Attributed tools sha256 s.requests (tools.key sha256 r) v

variable {tools} {sha256} {s : CacheState τ ι}

/-- What was produced once stays produced when another call starts. -/
theorem Attributed.update {requests : ℕ → Option (Request τ ι)} {i : ℕ}
    (hi : requests i = none) (r : Request τ ι) {key v : String}
    (h : Attributed tools sha256 requests key v) :
    Attributed tools sha256 (Function.update requests i (some r)) key v := by
  intro t k hk hkey
  obtain ⟨j, r', hj, hrest⟩ := h t k hk hkey
  have hji : j ≠ i := by
    rintro rfl
    rw [hi] at hj
    cases hj
  refine ⟨j, r', ?_, hrest⟩
  rw [Function.update_of_ne hji]
  exact hj

/-- **What a call computes belongs under its key**, since the key tells its
tool and its arguments. -/
theorem attributed_result (hsha : Function.Injective sha256)
    {requests : ℕ → Option (Request τ ι)} {i : ℕ} {r : Request τ ι}
    (hi : requests i = some r) (hr : "fn" ∉ r.kwargs.names) :
    Attributed tools sha256 requests (tools.key sha256 r) (tools.result r) := by
  intro t k hk hkey
  obtain ⟨hname, hsame⟩ := (cacheKey_eq_iff hsha hk hr).mp hkey
  obtain rfl := tools.name_injective hname
  exact ⟨i, r, hi, rfl, hsame.symm, tools.fn_congr _ _ _ _ hsame.symm⟩

/-- A value a call holds was produced for its tool and its arguments. -/
theorem Inv.produced (h : Inv tools sha256 s) {i : ℕ} {r : Request τ ι} {v : String}
    (hr : s.requests i = some r) (hv : (s.phase i).value? = some v) :
    Produced tools s.requests r.tool r.kwargs v :=
  h.phase i r v hr hv r.tool r.kwargs (h.plain i r hr) rfl

/-- A call that moves on keeps the invariant if what it then holds belongs
under its key. -/
theorem Inv.goto (h : Inv tools sha256 s) {i : ℕ} {p : Phase}
    (hp : ∀ r v, s.requests i = some r → p.value? = some v →
      Attributed tools sha256 s.requests (tools.key sha256 r) v) :
    Inv tools sha256 (s.goto i p) := by
  have hphase := forall_calls_goto
    (P := fun r p => ∀ v, p.value? = some v →
      Attributed tools sha256 s.requests (tools.key sha256 r) v)
    (fun j r hr v => h.phase j r v hr) fun r hr v => hp r v hr
  exact ⟨h.plain, h.redis, fun j r v hr => hphase j r hr v⟩

/-- A call may move on with what it holds, or with nothing. -/
theorem Inv.goto_of_value? (h : Inv tools sha256 s) {i : ℕ} {p : Phase}
    (hp : ∀ v, p.value? = some v → (s.phase i).value? = some v) :
    Inv tools sha256 (s.goto i p) :=
  h.goto fun r v hr hv => h.phase i r v hr (hp v hv)

/-- The breaker has no part in the invariant, which speaks of values alone. -/
theorem Inv.recordSuccess (h : Inv tools sha256 s) : Inv tools sha256 s.recordSuccess :=
  ⟨h.plain, h.redis, h.phase⟩

theorem Inv.recordFailure (h : Inv tools sha256 s) : Inv tools sha256 s.recordFailure :=
  ⟨h.plain, h.redis, h.phase⟩

/-- A new call without an argument named `fn` keeps the invariant. -/
theorem Inv.start (h : Inv tools sha256 s) {i : ℕ} (hi : s.requests i = none)
    {r : Request τ ι} (hr : "fn" ∉ r.kwargs.names) :
    Inv tools sha256 (s.start tools sha256 i r) := by
  have hfirst : ∀ v, (s.firstPhase tools sha256 r).value? = some v →
      Attributed tools sha256 (s.start tools sha256 i r).requests (tools.key sha256 r) v := by
    intro v hv
    rw [value?_firstPhase] at hv
    cases hv
  have hphase := forall_calls_start (i := i)
    (P := fun r' p => ∀ v, p.value? = some v →
      Attributed tools sha256 (s.start tools sha256 i r).requests (tools.key sha256 r') v)
    (fun j r' hj v hv => (h.phase j r' v hj hv).update hi r) hfirst
  exact
    { plain := forall_calls_start (P := fun r' _ => "fn" ∉ r'.kwargs.names) h.plain hr
      redis := h.redis.mono fun _ _ => Attributed.update hi r
      phase := fun j r' v hj => hphase j r' hj v }

/-- The result of the tool belongs under the key of the call. -/
theorem Inv.finish (hsha : Function.Injective sha256) (h : Inv tools sha256 s) {i : ℕ}
    {r : Request τ ι} (hi : s.requests i = some r) (loads : String → Except PyExc Json) :
    Inv tools sha256 (s.finish tools sha256 loads i r) := by
  have hown : Attributed tools sha256 s.requests (tools.key sha256 r) (tools.result r) :=
    attributed_result hsha hi (h.plain i r hi)
  have hgoto : ∀ p : Phase, (∀ v, p.value? = some v → v = tools.result r) →
      Inv tools sha256 (s.goto i p) := by
    refine fun p hp => h.goto fun r' v hr' hv => ?_
    rw [hi] at hr'
    rw [hp v hv, ← Option.some.inj hr']
    exact hown
  have hreturned := hgoto (.returned (tools.result r)) fun v hv => (Option.some.inj hv).symm
  unfold CacheState.finish
  split
  · exact hreturned
  · split
    · exact hgoto (.raised _) fun v hv => by cases hv
    · exact hreturned
    · split
      · exact hreturned
      · have hset := hgoto (.setting (tools.result r)) fun v hv => (Option.some.inj hv).symm
        exact ⟨hset.plain, h.redis.send i hown, hset.phase⟩

/-- **Every step keeps the invariant**, if a call that starts passes no
argument named `fn`. -/
theorem inv_step (hsha : Function.Injective sha256) {loads : String → Except PyExc Json}
    {s' : CacheState τ ι} {a : CacheEvent τ ι} (h : Inv tools sha256 s)
    (ha : ∀ i r, a = .start i r → "fn" ∉ r.kwargs.names)
    (hstep : step tools sha256 loads s a = some s') : Inv tools sha256 s' := by
  cases moves_of_step hstep with
  | tick d => exact ⟨h.plain, h.redis, h.phase⟩
  | expire key => exact ⟨h.plain, h.redis.expire key, h.phase⟩
  | start hi => exact h.start hi (ha _ _ rfl)
  | serveGet hr =>
    refine h.goto fun r' v hr' hv => ?_
    rw [hr] at hr'
    exact Option.some.inj hr' ▸ h.redis.1 _ _ hv
  | hit hp =>
    refine h.recordSuccess.goto_of_value? fun v hv => ?_
    rw [recordSuccess_phase, hp]
    exact hv
  | miss => exact h.recordSuccess.goto_of_value? fun v hv => by cases hv
  | getFailed => exact h.recordFailure.goto_of_value? fun v hv => by cases hv
  | finish hr => exact h.finish hsha hr loads
  | applySet hredis => exact ⟨h.plain, h.redis.apply hredis, h.phase⟩
  | stored hp =>
    refine h.recordSuccess.goto_of_value? fun v hv => ?_
    rw [recordSuccess_phase, hp]
    exact hv
  | setFailed hp =>
    refine h.recordFailure.goto_of_value? fun v hv => ?_
    rw [recordFailure_phase, hp]
    exact hv

/-- **Calls on an empty cache keep the invariant**, as long as none passes an
argument named `fn`. -/
theorem inv_run (hsha : Function.Injective sha256) {loads : String → Except PyExc Json}
    {cache : Option ToolResultCache} {now : ℚ} {as : List (CacheEvent τ ι)}
    (has : ∀ i r, .start i r ∈ as → "fn" ∉ r.kwargs.names) {t : CacheState τ ι}
    (hrun : (machine tools sha256 loads).run { cache := cache, now := now } as = some t) :
    Inv tools sha256 t := by
  have hinit : Inv tools sha256 ({ cache := cache, now := now } : CacheState τ ι) :=
    { plain := fun _ _ h => by cases h
      redis := DelayedStore.every_empty
      phase := fun _ _ _ h => by cases h }
  exact (machine tools sha256 loads).run_invariant_of_forall
    (fun _ _ _ h ha hstep => inv_step hsha h ha hstep) hinit
    (fun _ ha i r hstart => has i r (hstart ▸ ha)) hrun

end Attribution

/-! ## A value served to another call -/

/-- A parser that finds no JSON in a text, as the real one does in plain
prose. -/
def findsNoJson : String → Except PyExc Json := fun _ => .error .jsonDecodeError

/-- A cache with a Redis client and a closed circuit. -/
def freshCache : ToolResultCache := { redis := true }

/-- One call misses, runs its tool and stores the result; another one then
asks. -/
def missThenAsk (r₁ r₂ : Request τ ι) : List (CacheEvent τ ι) :=
  [.start 0 r₁, .serveGet 0, .resumeGet 0 true, .finish 0, .applySet 0, .resumeSet 0 true,
    .start 1 r₂, .serveGet 1, .resumeGet 1 true]

theorem isOpen_of_no_failures {cb : CircuitBreaker} (h₀ : cb.failures = 0)
    (h₅ : cb.failureThreshold = 5) (now : ℚ) : cb.isOpen now = false := by
  rw [CircuitBreaker.isOpen, h₀, h₅]
  exact if_pos (by decide)

/-- **Two calls with one key share one value**: the second one is answered
with the result of the first. -/
theorem run_missThenAsk {tools : Tools τ ι} (sha256 : List UInt8 → List UInt8)
    {loads : String → Except PyExc Json} {r₁ r₂ : Request τ ι}
    (hkey₁ : tools.makeKey sha256 r₁ = .ok (tools.key sha256 r₁))
    (hkey₂ : tools.makeKey sha256 r₂ = .ok (tools.key sha256 r₁))
    (hok : isErrorResponse loads (tools.result r₁) = .ok false) :
    ∃ t, (machine tools sha256 loads).run { cache := some freshCache, now := 0 }
        (missThenAsk r₁ r₂) = some t
      ∧ t.requests 1 = some r₂ ∧ t.phase 1 = .returned (tools.result r₁) := by
  have hkey : tools.key sha256 r₂ = tools.key sha256 r₁ := Tools.key_of_makeKey hkey₂
  simp [missThenAsk, machine, step, start, goto, firstPhase, finish, sendSet, recordSuccess,
    ToolResultCache.isBypassed, freshCache, isOpen_of_no_failures, hok, hkey₁, hkey₂, hkey,
    DelayedStore.get?, DelayedStore.send, DelayedStore.apply, DelayedStore.isPending, Dict.set,
    Dict.get?, CircuitBreaker.recordSuccess]

/-- One call alone: it misses, runs its tool and stores the result. -/
def askAlone (r : Request τ ι) : List (CacheEvent τ ι) :=
  [.start 1 r, .serveGet 1, .resumeGet 1 true, .finish 1, .applySet 1, .resumeSet 1 true]

/-- A call alone is answered with its own result. -/
theorem run_askAlone {tools : Tools τ ι} (sha256 : List UInt8 → List UInt8)
    {loads : String → Except PyExc Json} {r : Request τ ι}
    (hkey : tools.makeKey sha256 r = .ok (tools.key sha256 r))
    (hok : isErrorResponse loads (tools.result r) = .ok false) :
    ∃ t, (machine tools sha256 loads).run { cache := some freshCache, now := 0 } (askAlone r)
        = some t
      ∧ t.requests = Function.update (fun _ => none) 1 (some r)
      ∧ t.phase 1 = .returned (tools.result r) := by
  simp [askAlone, machine, step, start, goto, firstPhase, finish, sendSet, recordSuccess,
    ToolResultCache.isBypassed, freshCache, isOpen_of_no_failures, hkey, hok, DelayedStore.get?,
    DelayedStore.send, DelayedStore.apply, DelayedStore.isPending, Dict.get?,
    CircuitBreaker.recordSuccess]

/-- A call by itself, and then another one, which finds what the first has
stored. -/
def askInTurn (r₀ r₁ : Request τ ι) : List (CacheEvent τ ι) :=
  [.start 0 r₀, .serveGet 0, .resumeGet 0 true, .finish 0, .applySet 0, .resumeSet 0 true]
    ++ askAlone r₁

/-- **Two calls with keys of their own share nothing**: each is answered with
its own result. -/
theorem run_askInTurn {tools : Tools τ ι} (sha256 : List UInt8 → List UInt8)
    {loads : String → Except PyExc Json} {r₀ r₁ : Request τ ι}
    (hkey₀ : tools.makeKey sha256 r₀ = .ok (tools.key sha256 r₀))
    (hkey₁ : tools.makeKey sha256 r₁ = .ok (tools.key sha256 r₁))
    (hne : tools.key sha256 r₀ ≠ tools.key sha256 r₁)
    (hok₀ : isErrorResponse loads (tools.result r₀) = .ok false)
    (hok₁ : isErrorResponse loads (tools.result r₁) = .ok false) :
    ∃ t, (machine tools sha256 loads).run { cache := some freshCache, now := 0 }
        (askInTurn r₀ r₁) = some t
      ∧ t.requests = Function.update (Function.update (fun _ => none) 0 (some r₀)) 1 (some r₁)
      ∧ t.phase 0 = .returned (tools.result r₀) ∧ t.phase 1 = .returned (tools.result r₁) := by
  simp [askInTurn, askAlone, machine, step, start, goto, firstPhase, finish, sendSet,
    recordSuccess, ToolResultCache.isBypassed, freshCache, isOpen_of_no_failures, hkey₀, hkey₁,
    hne, hok₀, hok₁, DelayedStore.get?, DelayedStore.send, DelayedStore.apply,
    DelayedStore.isPending, Dict.set, Dict.get?, CircuitBreaker.recordSuccess]

end CacheState
