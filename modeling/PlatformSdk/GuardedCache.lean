import PlatformSdk.AuthorizedTool
import PlatformSdk.CacheTransparency

/-!
# A cache in front of the policy engine

`cached_tool(cache)(authorized_tool(…)(fn))` asks the cache before it asks the
policy engine, so what the cache holds has to be fit for everyone who gets it:
a result of the tool, for arguments that were allowed in that very call, and
no error response. And since the key is computed, and the cache asked, before
the input is checked, invalid input is answered with an error response only
if it gets that far (`Contract`).

Every `await` is a place where other calls move: the replies of Redis, the
decision of the policy engine and the tool itself are events, and each of them
may come out in any way. What happens to a call inside `authorized_tool` is
its history, which keeps to the events of the run (`Recorded`). The invariant
reads the history off the place where the call stands: a call with a result in
hand has a history of two steps, allowed and returned, and nothing is ever
added to it, so that a value in Redis still has the history it was stored
with.

Two things keep invalid input from its error response (`Undisturbed`). The key
of arguments with an integer of more than 4300 digits raises; and a call can
share its key with another one that is valid. `contract_iff_along` says that
the contract holds in every state a run comes through exactly when neither
occurs, and `not_contract_fn` is a run in which the second does.
-/

/-- **What happens to a call** inside `authorized_tool`, in the order in which
it happens. -/
inductive Happening where
  | notInitialised
  | invalidInput
  | denied (args : Kwargs)
  | allowed (args : Kwargs)
  | fnReturned (args : Kwargs) (value : String)
  | fnRaised (args : Kwargs) (exc : PyExc)

/-- **The call is to be answered with an error response.** -/
def Happening.isFailure : Happening → Bool
  | .notInitialised | .invalidInput | .denied _ | .fnRaised _ _ => true
  | .allowed _ | .fnReturned _ _ => false

/-- Where a call stands, in the cache's decorator or in the guard's below it. -/
inductive GuardedStage where
  /-- Not started. -/
  | idle
  /-- Waiting for the reply to its `GET`. -/
  | getting (reply : Option (Option String))
  /-- About to enter `authorized_tool`. -/
  | entering
  /-- Waiting for the policy engine. -/
  | authorizing (args : Kwargs)
  /-- Running the tool. -/
  | running (args : Kwargs)
  /-- Waiting for the reply to its `SETEX`. -/
  | setting (result : String)
  | returned (value : String)
  | raised (exc : PyExc)
  | cancelled

/-- **The state of the calls on one cache.** A value in Redis is kept with the
call that stored it. -/
structure GuardedState where
  cache : Option ToolResultCache
  now : ℚ
  redis : DelayedStore ℕ String (ℕ × String) := {}
  kwargs : ℕ → Kwargs := fun _ => ⟨[], List.nodup_nil⟩
  stage : ℕ → GuardedStage := fun _ => .idle
  history : ℕ → List Happening := fun _ => []

/-- **What can happen** to the calls of a guarded and cached tool, to Redis and
to the time. -/
inductive GuardedEvent where
  | tick (d : ℚ)
  | expire (key : String)
  | start (i : ℕ) (kwargs : Kwargs)
  | serveGet (i : ℕ)
  | resumeGet (i : ℕ) (ok : Bool)
  /-- `opa_ref()` returns a client, or `None`. -/
  | enter (i : ℕ) (ready : Bool)
  | resumeAuthorize (i : ℕ) (decision : Except PyExc Bool)
  | resumeFn (i : ℕ) (outcome : Except PyExc String)
  | applySet (i : ℕ)
  | resumeSet (i : ℕ) (ok : Bool)
  /-- The task of the call is cancelled at its `await`. -/
  | cancel (i : ℕ)

/-- **The call an event fails**: its policy client is not there, it is denied, or
its tool raises. -/
def GuardedEvent.fails : GuardedEvent → Option ℕ
  | .enter i false => some i
  | .resumeAuthorize i (.ok false) => some i
  | .resumeFn i (.error _) => some i
  | _ => none

/-- What makes this happen to the call: each happening is the trace of one
event. -/
def Happening.cause (i : ℕ) : Happening → GuardedEvent
  | .notInitialised => .enter i false
  | .invalidInput => .enter i true
  | .denied _ => .resumeAuthorize i (.ok false)
  | .allowed _ => .resumeAuthorize i (.ok true)
  | .fnReturned _ value => .resumeFn i (.ok value)
  | .fnRaised _ exc => .resumeFn i (.error exc)

namespace GuardedState

/-- A call moves on, with what happened to it. -/
def advance (s : GuardedState) (i : ℕ) (hs : List Happening) (p : GuardedStage) : GuardedState :=
  { s with
    stage := Function.update s.stage i p
    history := Function.update s.history i (s.history i ++ hs) }

/-- The client's call on Redis succeeded, and its breaker is told. -/
def recordSuccess (s : GuardedState) : GuardedState :=
  { s with cache := s.cache.map fun c => { c with cb := c.cb.recordSuccess } }

/-- The client's call on Redis raised, and its breaker is told when. -/
def recordFailure (s : GuardedState) : GuardedState :=
  { s with cache := s.cache.map fun c => { c with cb := c.cb.recordFailure s.now } }

section Step

variable (tool : AuthorizedTool) (isPrintable : Char → Bool) (sha256 : List UInt8 → List UInt8)
  (loads : String → Except PyExc Json)

/-- Where a call starts: at `authorized_tool` where there is no cache to ask, and
at its end where it has no key. -/
def firstStage (s : GuardedState) (kwargs : Kwargs) : GuardedStage :=
  match s.cache with
  | none => .entering
  | some cache =>
    match makeCacheKey sha256 tool.fnName kwargs with
    | .error exc => .raised exc
    | .ok _ => if cache.isBypassed s.now then .entering else .getting none

/-- A call starts: its arguments are noted, and it asks the cache where there is
one and the arguments have a key. -/
def start (s : GuardedState) (i : ℕ) (kwargs : Kwargs) : GuardedState :=
  { s with
    kwargs := Function.update s.kwargs i kwargs
    stage := Function.update s.stage i (s.firstStage tool sha256 kwargs) }

/-- The key of a call that has one, computed from its own arguments. -/
def keyOf (s : GuardedState) (i : ℕ) : String := cacheKey sha256 tool.fnName (s.kwargs i)

/-- What `cached_tool` does with what `authorized_tool` returns: an error
response is returned and not stored. -/
def finish (s : GuardedState) (i : ℕ) (hs : List Happening) (result : String) : GuardedState :=
  match s.cache with
  | none => s.advance i hs (.returned result)
  | some cache =>
    match isErrorResponse loads result with
    | .error exc => s.advance i hs (.raised exc)
    | .ok true => s.advance i hs (.returned result)
    | .ok false =>
      if cache.isBypassed s.now then s.advance i hs (.returned result)
      else
        { s.advance i hs (.setting result) with
          redis := s.redis.send i (s.keyOf tool sha256 i) (i, result) }

/-- **One step of the calls**, where the event can happen. What is decided is
noted in the history of the call. -/
def step (s : GuardedState) : GuardedEvent → Option GuardedState
  | .tick d => if 0 ≤ d then some { s with now := s.now + d } else none
  | .expire key => some { s with redis := s.redis.expire key }
  | .start i kwargs =>
    match s.stage i with
    | .idle => some (s.start tool sha256 i kwargs)
    | _ => none
  | .serveGet i =>
    match s.stage i with
    | .getting none =>
      some (s.advance i [] (.getting (some ((s.redis.get? (s.keyOf tool sha256 i)).map Prod.snd))))
    | _ => none
  | .resumeGet i ok =>
    match ok, s.stage i with
    | true, .getting (some (some value)) => some (s.recordSuccess.advance i [] (.returned value))
    | true, .getting (some none) => some (s.recordSuccess.advance i [] .entering)
    | false, .getting _ => some (s.recordFailure.advance i [] .entering)
    | _, _ => none
  | .enter i ready =>
    match s.stage i with
    | .entering =>
      if ready then
        match tool.validate isPrintable (s.kwargs i) with
        | .error exc => some (s.advance i [] (.raised exc))
        | .ok (.error response) =>
          some (s.finish tool sha256 loads i [.invalidInput] response)
        | .ok (.ok args) => some (s.advance i [] (.authorizing args))
      else
        some (s.finish tool sha256 loads i [.notInitialised] AuthorizedTool.notInitialised)
    | _ => none
  | .resumeAuthorize i decision =>
    match s.stage i with
    | .authorizing args =>
      match decision with
      | .error exc => some (s.advance i [] (.raised exc))
      | .ok false =>
        some (s.finish tool sha256 loads i [.denied args] AuthorizedTool.unauthorized)
      | .ok true => some (s.advance i [.allowed args] (.running args))
    | _ => none
  | .resumeFn i outcome =>
    match s.stage i with
    | .running args =>
      match outcome with
      | .error exc =>
        some (s.finish tool sha256 loads i [.fnRaised args exc] AuthorizedTool.databaseError)
      | .ok value => some (s.finish tool sha256 loads i [.fnReturned args value] value)
    | _ => none
  | .applySet i => (s.redis.apply i).map fun redis => { s with redis := redis }
  | .resumeSet i ok =>
    match ok, s.stage i with
    | true, .setting result =>
      if s.redis.isPending i then none
      else some (s.recordSuccess.advance i [] (.returned result))
    | false, .setting result => some (s.recordFailure.advance i [] (.returned result))
    | _, _ => none
  | .cancel i =>
    match s.stage i with
    | .getting _ | .authorizing _ | .running _ | .setting _ => some (s.advance i [] .cancelled)
    | _ => none

/-- **The machine of the calls** of one guarded and cached tool. -/
def machine : Machine GuardedState GuardedEvent := ⟨step tool isPrintable sha256 loads⟩

/-- **What a step can be**, with what the event finds and what it leaves. -/
inductive Moves (s : GuardedState) : GuardedEvent → GuardedState → Prop
  | tick (d : ℚ) : Moves s (.tick d) { s with now := s.now + d }
  | expire (key : String) : Moves s (.expire key) { s with redis := s.redis.expire key }
  | start {i : ℕ} (kwargs : Kwargs) (hi : s.stage i = .idle) :
    Moves s (.start i kwargs) (s.start tool sha256 i kwargs)
  | served {i : ℕ} (hi : s.stage i = .getting none) :
    Moves s (.serveGet i)
      (s.advance i [] (.getting (some ((s.redis.get? (s.keyOf tool sha256 i)).map Prod.snd))))
  | hit {i : ℕ} {v : String} (hi : s.stage i = .getting (some (some v))) :
    Moves s (.resumeGet i true) (s.recordSuccess.advance i [] (.returned v))
  | miss {i : ℕ} (hi : s.stage i = .getting (some none)) :
    Moves s (.resumeGet i true) (s.recordSuccess.advance i [] .entering)
  | getFailed {i : ℕ} {reply : Option (Option String)} (hi : s.stage i = .getting reply) :
    Moves s (.resumeGet i false) (s.recordFailure.advance i [] .entering)
  | notReady {i : ℕ} (hi : s.stage i = .entering) :
    Moves s (.enter i false)
      (s.finish tool sha256 loads i [.notInitialised] AuthorizedTool.notInitialised)
  | unreadable {i : ℕ} {exc : PyExc} (hi : s.stage i = .entering)
    (hexc : tool.validate isPrintable (s.kwargs i) = .error exc) :
    Moves s (.enter i true) (s.advance i [] (.raised exc))
  | refused {i : ℕ} {response : String} (hi : s.stage i = .entering)
    (hresponse : tool.validate isPrintable (s.kwargs i) = .ok (.error response)) :
    Moves s (.enter i true) (s.finish tool sha256 loads i [.invalidInput] response)
  | asks {i : ℕ} {args : Kwargs} (hi : s.stage i = .entering)
    (hargs : tool.validate isPrintable (s.kwargs i) = .ok (.ok args)) :
    Moves s (.enter i true) (s.advance i [] (.authorizing args))
  | authorizeRaised {i : ℕ} {args : Kwargs} {exc : PyExc} (hi : s.stage i = .authorizing args) :
    Moves s (.resumeAuthorize i (.error exc)) (s.advance i [] (.raised exc))
  | denied {i : ℕ} {args : Kwargs} (hi : s.stage i = .authorizing args) :
    Moves s (.resumeAuthorize i (.ok false))
      (s.finish tool sha256 loads i [.denied args] AuthorizedTool.unauthorized)
  | allowed {i : ℕ} {args : Kwargs} (hi : s.stage i = .authorizing args) :
    Moves s (.resumeAuthorize i (.ok true)) (s.advance i [.allowed args] (.running args))
  | fnRaised {i : ℕ} {args : Kwargs} {exc : PyExc} (hi : s.stage i = .running args) :
    Moves s (.resumeFn i (.error exc))
      (s.finish tool sha256 loads i [.fnRaised args exc] AuthorizedTool.databaseError)
  | fnReturned {i : ℕ} {args : Kwargs} {value : String} (hi : s.stage i = .running args) :
    Moves s (.resumeFn i (.ok value))
      (s.finish tool sha256 loads i [.fnReturned args value] value)
  | applied {i : ℕ} {redis : DelayedStore ℕ String (ℕ × String)}
    (hredis : s.redis.apply i = some redis) : Moves s (.applySet i) { s with redis := redis }
  | stored {i : ℕ} {result : String} (hi : s.stage i = .setting result) :
    Moves s (.resumeSet i true) (s.recordSuccess.advance i [] (.returned result))
  | setFailed {i : ℕ} {result : String} (hi : s.stage i = .setting result) :
    Moves s (.resumeSet i false) (s.recordFailure.advance i [] (.returned result))
  | cancelled {i : ℕ} (hi : s.stage i ≠ .idle) (hreturned : ∀ v, s.stage i ≠ .returned v) :
    Moves s (.cancel i) (s.advance i [] .cancelled)

variable {tool} {isPrintable} {sha256} {loads}

/-- Every step is of one of these kinds, so that what they all keep is shown
once for each kind and not for each branch of the step. -/
theorem moves_of_step {s s' : GuardedState} {a : GuardedEvent}
    (h : step tool isPrintable sha256 loads s a = some s') :
    Moves tool isPrintable sha256 loads s a s' := by
  cases a with
  | tick d =>
    obtain ⟨-, h⟩ := Option.ite_none_right_eq_some.mp h
    exact Option.some.inj h ▸ .tick d
  | expire key => exact Option.some.inj h ▸ .expire key
  | start i kwargs =>
    simp only [step] at h
    split at h
    · next hi => exact Option.some.inj h ▸ .start kwargs hi
    · cases h
  | serveGet i =>
    simp only [step] at h
    split at h
    · next hi => exact Option.some.inj h ▸ .served hi
    · cases h
  | resumeGet i ok =>
    simp only [step] at h
    split at h
    · next hi => exact Option.some.inj h ▸ .hit hi
    · next hi => exact Option.some.inj h ▸ .miss hi
    · next hi => exact Option.some.inj h ▸ .getFailed hi
    · cases h
  | enter i ready =>
    simp only [step] at h
    split at h
    · next hi =>
      split at h
      · next hready =>
        subst hready
        split at h
        · next hexc => exact Option.some.inj h ▸ .unreadable hi hexc
        · next hresponse => exact Option.some.inj h ▸ .refused hi hresponse
        · next hargs => exact Option.some.inj h ▸ .asks hi hargs
      · next hready =>
        obtain rfl := Bool.eq_false_iff.mpr hready
        exact Option.some.inj h ▸ .notReady hi
    · cases h
  | resumeAuthorize i decision =>
    simp only [step] at h
    split at h
    · next hi =>
      split at h
      · exact Option.some.inj h ▸ .authorizeRaised hi
      · exact Option.some.inj h ▸ .denied hi
      · exact Option.some.inj h ▸ .allowed hi
    · cases h
  | resumeFn i outcome =>
    simp only [step] at h
    split at h
    · next hi =>
      split at h
      · exact Option.some.inj h ▸ .fnRaised hi
      · exact Option.some.inj h ▸ .fnReturned hi
    · cases h
  | applySet i =>
    obtain ⟨redis, hredis, rfl⟩ := Option.map_eq_some_iff.mp h
    exact .applied hredis
  | resumeSet i ok =>
    simp only [step] at h
    split at h
    · next hi =>
      obtain ⟨-, h⟩ := Option.ite_none_left_eq_some.mp h
      exact Option.some.inj h ▸ .stored hi
    · next hi => exact Option.some.inj h ▸ .setFailed hi
    · cases h
  | cancel i =>
    simp only [step] at h
    split at h
    · next hi => exact Option.some.inj h ▸ .cancelled (by simp [hi]) (by simp [hi])
    · next hi => exact Option.some.inj h ▸ .cancelled (by simp [hi]) (by simp [hi])
    · next hi => exact Option.some.inj h ▸ .cancelled (by simp [hi]) (by simp [hi])
    · next hi => exact Option.some.inj h ▸ .cancelled (by simp [hi]) (by simp [hi])
    · cases h

end Step

/-! ## The contract -/

section Contract

variable (tool : AuthorizedTool) (isPrintable : Char → Bool) (loads : String → Except PyExc Json)

/-- **A value the tool earned**: it was returned by the tool for arguments that
had just been allowed in that call, these are what its own arguments come to,
and it is no error response. -/
def Earned (kwargs : Kwargs) (h : List Happening) (v : String) : Prop :=
  (∃ args, tool.validate isPrintable kwargs = .ok (.ok args)
      ∧ h = [.allowed args, .fnReturned args v])
    ∧ isErrorResponse loads v = .ok false

/-- **What the cache promises its callers**, over the arguments of each call and
what happened to it. -/
structure Contract (s : GuardedState) : Prop where
  /-- Every value, in Redis or on its way there, was earned by the call that
  stored it. -/
  held : s.redis.Every fun _ w => Earned tool isPrintable loads (s.kwargs w.1) (s.history w.1) w.2
  /-- A call that failed is answered with an error response. -/
  answered : ∀ i, ∀ o ∈ s.history i, o.isFailure →
    ∃ v, s.stage i = .returned v ∧ isErrorResponse loads v = .ok true
  /-- A call with invalid input does not raise, and is answered with nothing
  else. -/
  invalid : ∀ i, tool.Refuses isPrintable (s.kwargs i) →
    (∀ exc, s.stage i ≠ .raised exc)
      ∧ ∀ v, s.stage i = .returned v → isErrorResponse loads v = .ok true
  /-- Neither of them has stored anything. -/
  notStored : ∀ i, tool.Refuses isPrintable (s.kwargs i) ∨ (∃ o ∈ s.history i, o.isFailure) →
    s.redis.Every fun _ w => w.1 ≠ i

/-- **The steps that do a call with invalid input no wrong.** One that starts
in front of a cache can be given a key, since its arguments hold no integer of
more than 4300 digits, and none finds a value under its key. -/
def Undisturbed (s : GuardedState) : GuardedEvent → Prop
  | .start _ kwargs =>
    tool.Refuses isPrintable kwargs →
      s.cache = none ∨ (keyPayload tool.fnName kwargs).isTooLong = false
  | .resumeGet i true =>
    tool.Refuses isPrintable (s.kwargs i) → ∀ v, s.stage i ≠ .getting (some (some v))
  | _ => True

/-- What has happened to a call, by where it stands. -/
def StageInv (kwargs : Kwargs) (h : List Happening) : GuardedStage → Prop
  | .idle | .entering => h = []
  | .getting reply => h = [] ∧ ∀ v, reply = some (some v) → isErrorResponse loads v = .ok false
  | .authorizing args => h = [] ∧ tool.validate isPrintable kwargs = .ok (.ok args)
  | .running args => h = [.allowed args] ∧ tool.validate isPrintable kwargs = .ok (.ok args)
  | .setting v => Earned tool isPrintable loads kwargs h v
  | .returned v =>
    (∃ o ∈ h, o.isFailure) ∨ tool.Refuses isPrintable kwargs → isErrorResponse loads v = .ok true
  | .raised _ => (∀ o ∈ h, ¬ o.isFailure) ∧ ¬ tool.Refuses isPrintable kwargs
  | .cancelled => ∀ o ∈ h, ¬ o.isFailure

/-- **The invariant**: each call stands where its history says, and every value
in Redis or on its way there was earned. -/
structure Inv (s : GuardedState) : Prop where
  call : ∀ i, StageInv tool isPrintable loads (s.kwargs i) (s.history i) (s.stage i)
  held : s.redis.Every fun _ w => Earned tool isPrintable loads (s.kwargs w.1) (s.history w.1) w.2

end Contract

variable {tool : AuthorizedTool} {isPrintable : Char → Bool} {sha256 : List UInt8 → List UInt8}
  {loads : String → Except PyExc Json} {s s' : GuardedState} {kwargs : Kwargs}

/-- Input that comes to arguments is valid, since the check answers invalid
input. -/
theorem not_refuses_of_validate {args : Kwargs}
    (h : tool.validate isPrintable kwargs = .ok (.ok args)) :
    ¬ tool.Refuses isPrintable kwargs := by
  intro hrefuses
  obtain ⟨response, hresponse⟩ := AuthorizedTool.refuses_iff.mp hrefuses
  rw [h] at hresponse
  cases hresponse

namespace Earned

variable {h : List Happening} {v : String} (hv : Earned tool isPrintable loads kwargs h v)
include hv

/-- Neither step of an earned history is a failure. -/
theorem not_isFailure : ∀ o ∈ h, ¬ o.isFailure := by
  obtain ⟨⟨args, -, rfl⟩, -⟩ := hv
  intro o ho
  rcases List.mem_pair.mp ho with rfl | rfl
  · exact Bool.false_ne_true
  · exact Bool.false_ne_true

/-- What was earned was earned with valid input, so the call is not one of those
to be refused. -/
theorem not_refuses : ¬ tool.Refuses isPrintable kwargs := by
  obtain ⟨⟨args, hargs, -⟩, -⟩ := hv
  exact not_refuses_of_validate hargs

theorem length_eq : h.length = 2 := by
  obtain ⟨⟨args, -, rfl⟩, -⟩ := hv
  rfl

/-- A call may return what it has earned, since that is no error response and
its input was valid. -/
theorem stageInv_returned : StageInv tool isPrintable loads kwargs h (.returned v) := by
  rintro (⟨o, ho, hfail⟩ | hrefuses)
  · exact absurd hfail (hv.not_isFailure o ho)
  · exact absurd hrefuses hv.not_refuses

end Earned

/-- **Only a call that has returned may have failed.** -/
theorem StageInv.not_isFailure {h : List Happening} {p : GuardedStage}
    (hp : StageInv tool isPrintable loads kwargs h p) (hne : ∀ v, p ≠ .returned v) :
    ∀ o ∈ h, ¬ o.isFailure := by
  have hnil : h = [] → ∀ o ∈ h, ¬ o.isFailure := by
    rintro rfl o ho
    exact absurd ho List.not_mem_nil
  cases p with
  | idle | entering => exact hnil hp
  | getting _ | authorizing _ => exact hnil hp.1
  | running args =>
    rw [show h = [.allowed args] from hp.1]
    intro o ho
    rw [List.mem_singleton.mp ho]
    exact Bool.false_ne_true
  | setting v => exact Earned.not_isFailure hp
  | returned v => exact absurd rfl (hne v)
  | raised _ => exact hp.1
  | cancelled => exact hp

/-- **The invariant is the contract**, and says besides where each call that is
under way stands. -/
theorem Inv.contract (h : Inv tool isPrintable loads s) : Contract tool isPrintable loads s := by
  refine ⟨h.held, fun i o ho hfail => ?_, fun i hi => ⟨fun exc hexc => ?_, fun v hv => ?_⟩,
    fun i hi => ?_⟩
  · have hcall := h.call i
    by_cases hreturned : ∃ v, s.stage i = .returned v
    · obtain ⟨v, hv⟩ := hreturned
      rw [hv] at hcall
      exact ⟨v, hv, hcall (.inl ⟨o, ho, hfail⟩)⟩
    · exact absurd hfail (hcall.not_isFailure (not_exists.mp hreturned) o ho)
  · have hcall := h.call i
    rw [hexc] at hcall
    exact hcall.2 hi
  · have hcall := h.call i
    rw [hv] at hcall
    exact hcall (.inr hi)
  · refine h.held.mono fun _ w hw hwi => ?_
    subst hwi
    rcases hi with hi | ⟨o, ho, hfail⟩
    · exact hw.not_refuses hi
    · exact hw.not_isFailure o ho hfail

/-! ## Every step keeps it -/

/-- **A call moves on**: into a stage its history allows, and with nothing new
in its history where it has a result already. -/
theorem Inv.advance (h : Inv tool isPrintable loads s) {i : ℕ} {hs : List Happening}
    {p : GuardedStage} (hshort : hs ≠ [] → (s.history i).length < 2)
    (hp : StageInv tool isPrintable loads (s.kwargs i) (s.history i ++ hs) p) :
    Inv tool isPrintable loads (s.advance i hs p) := by
  refine ⟨fun j => ?_, h.held.mono fun _ w hw => ?_⟩
  · show StageInv tool isPrintable loads (s.kwargs j) (Function.update s.history i _ j)
      (Function.update s.stage i p j)
    by_cases hj : j = i
    · subst hj
      rw [Function.update_self, Function.update_self]
      exact hp
    · rw [Function.update_of_ne hj, Function.update_of_ne hj]
      exact h.call j
  · show Earned tool isPrintable loads (s.kwargs w.1) (Function.update s.history i _ w.1) w.2
    by_cases hj : w.1 = i
    · subst hj
      by_cases hnil : hs = []
      · rw [Function.update_self, hnil, List.append_nil]
        exact hw
      · -- what is in Redis has its two steps behind it
        exact absurd hw.length_eq (hshort hnil).ne
    · rw [Function.update_of_ne hj]
      exact hw

/-- A call moves on to a stage its history allows, and nothing happens to it. -/
theorem Inv.goto (h : Inv tool isPrintable loads s) {i : ℕ} {p : GuardedStage}
    (hp : StageInv tool isPrintable loads (s.kwargs i) (s.history i) p) :
    Inv tool isPrintable loads (s.advance i [] p) :=
  h.advance (fun hnil => absurd rfl hnil) (by rwa [List.append_nil])

/-- A call to which nothing has happened yet moves on. -/
theorem Inv.goto_of_nil (h : Inv tool isPrintable loads s) {i : ℕ} {p : GuardedStage}
    (hnil : s.history i = []) (hp : StageInv tool isPrintable loads (s.kwargs i) [] p) :
    Inv tool isPrintable loads (s.advance i [] p) :=
  h.goto (by rwa [hnil])

/-- The breaker has no part in the invariant, which speaks of the calls and of
Redis. -/
theorem Inv.recordSuccess (h : Inv tool isPrintable loads s) :
    Inv tool isPrintable loads s.recordSuccess := ⟨h.call, h.held⟩

theorem Inv.recordFailure (h : Inv tool isPrintable loads s) :
    Inv tool isPrintable loads s.recordFailure := ⟨h.call, h.held⟩

/-- What is known of a call that stands at `p`. -/
theorem Inv.at_stage (h : Inv tool isPrintable loads s) {i : ℕ} {p : GuardedStage}
    (hp : s.stage i = p) : StageInv tool isPrintable loads (s.kwargs i) (s.history i) p :=
  hp ▸ h.call i

theorem firstStage_ne_idle (s : GuardedState) (kwargs : Kwargs) :
    s.firstStage tool sha256 kwargs ≠ .idle := by
  unfold firstStage
  split
  · exact GuardedStage.noConfusion
  · split
    · exact GuardedStage.noConfusion
    · split
      · exact GuardedStage.noConfusion
      · exact GuardedStage.noConfusion

/-- A call whose input is valid, or has a key, starts with nothing behind it. -/
theorem stageInv_firstStage (s : GuardedState)
    (hkey : tool.Refuses isPrintable kwargs →
      s.cache = none ∨ (keyPayload tool.fnName kwargs).isTooLong = false) :
    StageInv tool isPrintable loads kwargs [] (s.firstStage tool sha256 kwargs) := by
  unfold firstStage
  split
  · rfl
  · next cache hcache =>
    split
    · next exc hexc =>
      refine ⟨fun _ ho => absurd ho List.not_mem_nil, fun hrefuses => ?_⟩
      rcases hkey hrefuses with hnone | hshort
      · rw [hcache] at hnone
        cases hnone
      · rw [makeCacheKey, hshort, if_neg Bool.false_ne_true] at hexc
        cases hexc
    · split
      · rfl
      · exact ⟨rfl, fun v hv => by cases hv⟩

/-- A call starts. Where its input is invalid there is no cache in front of it,
or it can be given a key, so that it does not raise. -/
theorem Inv.start (h : Inv tool isPrintable loads s) {i : ℕ} (hi : s.stage i = .idle)
    (hkey : tool.Refuses isPrintable kwargs →
      s.cache = none ∨ (keyPayload tool.fnName kwargs).isTooLong = false) :
    Inv tool isPrintable loads (s.start tool sha256 i kwargs) := by
  have hnil : s.history i = [] := h.at_stage hi
  refine ⟨fun j => ?_, h.held.mono fun _ w hw => ?_⟩
  · show StageInv tool isPrintable loads (Function.update s.kwargs i kwargs j) (s.history j)
      (Function.update s.stage i (s.firstStage tool sha256 kwargs) j)
    by_cases hj : j = i
    · subst hj
      rw [Function.update_self, Function.update_self, hnil]
      exact stageInv_firstStage s hkey
    · rw [Function.update_of_ne hj, Function.update_of_ne hj]
      exact h.call j
  · show Earned tool isPrintable loads (Function.update s.kwargs i kwargs w.1) (s.history w.1) w.2
    have hwi : w.1 ≠ i := by
      intro hwi
      have hlength := hw.length_eq
      rw [hwi, hnil] at hlength
      cases hlength
    rw [Function.update_of_ne hwi]
    exact hw

/-- What Redis replies is no error response, as it was earned by the call that
stored it. -/
theorem Inv.reply (h : Inv tool isPrintable loads s) {key v : String}
    (hv : (s.redis.get? key).map Prod.snd = some v) : isErrorResponse loads v = .ok false := by
  obtain ⟨w, hw, rfl⟩ := Option.map_eq_some_iff.mp hv
  exact (h.held.1 key w hw).2

/-- **An error response is returned and not stored**, be it the guard's own or
what the tool returned. -/
theorem finish_of_isErrorResponse {result : String}
    (hresult : isErrorResponse loads result = .ok true) (i : ℕ) (hs : List Happening) :
    s.finish tool sha256 loads i hs result = s.advance i hs (.returned result) := by
  unfold finish
  rw [hresult]
  split
  · rfl
  · rfl

/-- A call that fails before its tool has returned. -/
theorem Inv.finish_failure (h : Inv tool isPrintable loads s) {i : ℕ}
    (hshort : (s.history i).length < 2) {o : Happening} {result : String}
    (hresult : isErrorResponse loads result = .ok true) :
    Inv tool isPrintable loads (s.finish tool sha256 loads i [o] result) := by
  rw [finish_of_isErrorResponse hresult]
  exact h.advance (fun _ => hshort) fun _ => hresult

/-- The tool returns, and the call goes on to store the value unless it is an
error response. -/
theorem Inv.finish_fn (h : Inv tool isPrintable loads s) {i : ℕ} {args : Kwargs} {value : String}
    (hi : s.stage i = .running args) :
    Inv tool isPrintable loads (s.finish tool sha256 loads i [.fnReturned args value] value) := by
  obtain ⟨hold, hargs⟩ := h.at_stage hi
  have hnew :
      s.history i ++ [.fnReturned args value] = [.allowed args, .fnReturned args value] := by
    rw [hold]
    rfl
  have hvalid : ¬ tool.Refuses isPrintable (s.kwargs i) := not_refuses_of_validate hargs
  have hok : ∀ o ∈ s.history i ++ [.fnReturned args value], ¬ o.isFailure := by
    rw [hnew]
    intro o ho
    rcases List.mem_pair.mp ho with rfl | rfl
    · exact Bool.false_ne_true
    · exact Bool.false_ne_true
  have hadvance : ∀ {p}, StageInv tool isPrintable loads (s.kwargs i)
      (s.history i ++ [.fnReturned args value]) p →
      Inv tool isPrintable loads (s.advance i [.fnReturned args value] p) :=
    fun hp => h.advance (fun _ => by rw [hold]; exact Nat.lt_add_one 1) hp
  have hreturned :
      Inv tool isPrintable loads (s.advance i [.fnReturned args value] (.returned value)) := by
    refine hadvance fun hfail => ?_
    rcases hfail with ⟨o, ho, hfail⟩ | hrefuses
    · exact absurd hfail (hok o ho)
    · exact absurd hrefuses hvalid
  unfold finish
  split
  · exact hreturned
  · split
    · exact hadvance ⟨hok, hvalid⟩
    · exact hreturned
    · next hvalue =>
      split
      · exact hreturned
      · have hearned : Earned tool isPrintable loads (s.kwargs i)
            (s.history i ++ [.fnReturned args value]) value :=
          ⟨⟨args, hargs, hnew⟩, hvalue⟩
        have hset := hadvance (p := .setting value) hearned
        refine ⟨hset.call, hset.held.send i ?_⟩
        show Earned tool isPrintable loads (s.kwargs i) (Function.update s.history i _ i) value
        rw [Function.update_self]
        exact hearned

/-- **Every undisturbed step keeps the invariant.** A value is stored by the
step behind the tool's return only, and a call with invalid input is answered by
the guard, since no hit comes before it. -/
theorem inv_step (hloads : ReadsTexts loads) {a : GuardedEvent}
    (h : Inv tool isPrintable loads s) (ha : Undisturbed tool isPrintable s a)
    (hstep : step tool isPrintable sha256 loads s a = some s') :
    Inv tool isPrintable loads s' := by
  have herror : ∀ code message, isErrorResponse loads (makeError code message) = .ok true :=
    isErrorResponse_makeError hloads
  have hshort : ∀ {i}, s.history i = [] → (s.history i).length < 2 := by
    intro i hnil
    rw [hnil]
    exact Nat.zero_lt_two
  cases moves_of_step hstep with
  | tick d => exact ⟨h.call, h.held⟩
  | expire key => exact ⟨h.call, h.held.expire key⟩
  | start kwargs hi => exact h.start hi ha
  | served hi =>
    exact h.goto_of_nil (h.at_stage hi).1 ⟨rfl, fun v hv => h.reply (Option.some.inj hv)⟩
  | hit hi =>
    refine h.recordSuccess.goto fun hfail => ?_
    rcases hfail with ⟨o, ho, hfail⟩ | hrefuses
    · have hnil : s.history _ = [] := (h.at_stage hi).1
      exact absurd (hnil ▸ ho) List.not_mem_nil
    · exact absurd hi (ha hrefuses _)
  | miss hi => exact h.recordSuccess.goto_of_nil (h.at_stage hi).1 rfl
  | getFailed hi => exact h.recordFailure.goto_of_nil (h.at_stage hi).1 rfl
  | notReady hi => exact h.finish_failure (hshort (h.at_stage hi)) (herror _ _)
  | unreadable hi hexc =>
    refine h.goto_of_nil (h.at_stage hi) ⟨fun _ ho => absurd ho List.not_mem_nil, ?_⟩
    intro hrefuses
    obtain ⟨response, hresponse⟩ := AuthorizedTool.refuses_iff.mp hrefuses
    rw [hexc] at hresponse
    cases hresponse
  | refused hi hresponse =>
    obtain ⟨field, rfl⟩ := AuthorizedTool.validate_eq_error hresponse
    exact h.finish_failure (hshort (h.at_stage hi)) (herror _ _)
  | asks hi hargs => exact h.goto_of_nil (h.at_stage hi) ⟨rfl, hargs⟩
  | authorizeRaised hi =>
    obtain ⟨hnil, hargs⟩ := h.at_stage hi
    exact h.goto_of_nil hnil
      ⟨fun _ ho => absurd ho List.not_mem_nil, not_refuses_of_validate hargs⟩
  | denied hi => exact h.finish_failure (hshort (h.at_stage hi).1) (herror _ _)
  | allowed hi =>
    obtain ⟨hnil, hargs⟩ := h.at_stage hi
    refine h.advance (fun _ => hshort hnil) ⟨?_, hargs⟩
    rw [hnil]
    rfl
  | fnRaised hi =>
    refine h.finish_failure ?_ (herror _ _)
    rw [(h.at_stage hi).1]
    exact Nat.lt_add_one 1
  | fnReturned hi => exact h.finish_fn hi
  | applied hredis => exact ⟨h.call, h.held.apply hredis⟩
  | stored hi =>
    have hearned : Earned tool isPrintable loads (s.kwargs _) (s.history _) _ := h.at_stage hi
    exact h.recordSuccess.goto hearned.stageInv_returned
  | setFailed hi =>
    have hearned : Earned tool isPrintable loads (s.kwargs _) (s.history _) _ := h.at_stage hi
    exact h.recordFailure.goto hearned.stageInv_returned
  | cancelled _ hreturned => exact h.goto ((h.call _).not_isFailure hreturned)

/-- **Any other step breaks the contract**: the call with invalid input raises,
or is answered with a value. -/
theorem undisturbed_of_contract {a : GuardedEvent} (h : Inv tool isPrintable loads s)
    (hstep : step tool isPrintable sha256 loads s a = some s')
    (hs' : Contract tool isPrintable loads s') : Undisturbed tool isPrintable s a := by
  cases moves_of_step hstep with
  | @start i kwargs hi =>
    intro hrefuses
    cases hcache : s.cache with
    | none => exact .inl rfl
    | some cache =>
      right
      cases hlong : (keyPayload tool.fnName kwargs).isTooLong with
      | false => rfl
      | true =>
        have hkey : makeCacheKey sha256 tool.fnName kwargs = .error .tooManyDigits := by
          rw [makeCacheKey, hlong]
          exact if_pos rfl
        have hraised : (s.start tool sha256 i kwargs).stage i = .raised .tooManyDigits := by
          show Function.update s.stage i (s.firstStage tool sha256 kwargs) i = _
          rw [Function.update_self, firstStage, hcache, hkey]
        have hkwargs : (s.start tool sha256 i kwargs).kwargs i = kwargs := Function.update_self ..
        exact absurd hraised ((hs'.invalid i (hkwargs.symm ▸ hrefuses)).1 _)
  | @hit i v hi =>
    intro hrefuses w hw
    obtain rfl : v = w := by
      rw [hi] at hw
      exact Option.some.inj (Option.some.inj (GuardedStage.getting.inj hw))
    have hvalue : isErrorResponse loads v = .ok false := (h.at_stage hi).2 v rfl
    have herror := (hs'.invalid i hrefuses).2 v (Function.update_self ..)
    rw [hvalue] at herror
    cases herror
  | miss hi =>
    intro _ v hv
    rw [hi] at hv
    cases hv
  | _ => trivial

/-! ## The record of the run -/

/-- **The state keeps to the run**: the arguments of a call are those it was
made with, what has happened to it was caused by events of its own, and an
event that fails it has left a failure behind. -/
structure Recorded (as : List GuardedEvent) (s : GuardedState) : Prop where
  begun : ∀ i kwargs, .start i kwargs ∈ as → s.kwargs i = kwargs ∧ s.stage i ≠ .idle
  caused : ∀ i, ∀ o ∈ s.history i, o.cause i ∈ as
  failed : ∀ a ∈ as, ∀ i, a.fails = some i → ∃ o ∈ s.history i, o.isFailure

/-- **A step that starts no call** moves one call at most, and writes down what
it causes. -/
def Writes (a : GuardedEvent) (s s' : GuardedState) : Prop :=
  s'.kwargs = s.kwargs
    ∧ (s'.stage = s.stage ∧ s'.history = s.history ∧ a.fails = none
      ∨ ∃ i hs p, p ≠ .idle ∧ s'.stage = Function.update s.stage i p
        ∧ s'.history = Function.update s.history i (s.history i ++ hs)
        ∧ (∀ o ∈ hs, o.cause i = a)
        ∧ ∀ j, a.fails = some j → j = i ∧ ∃ o ∈ hs, o.isFailure)

/-- A call moves on, and nothing happens to it. -/
theorem writes_advance_nil (s : GuardedState) (i : ℕ) {p : GuardedStage} {a : GuardedEvent}
    (hp : p ≠ .idle) (ha : a.fails = none) : Writes a s (s.advance i [] p) := by
  refine ⟨rfl, .inr ⟨i, [], p, hp, rfl, rfl, fun _ h => absurd h List.not_mem_nil, ?_⟩⟩
  intro j hj
  rw [ha] at hj
  cases hj

/-- A call moves on, and this happens to it. -/
theorem writes_of_history {i : ℕ} {o : Happening} {p : GuardedStage}
    (hkwargs : s'.kwargs = s.kwargs) (hp : p ≠ .idle)
    (hstage : s'.stage = Function.update s.stage i p)
    (hhistory : s'.history = Function.update s.history i (s.history i ++ [o]))
    (ho : ∀ j, (o.cause i).fails = some j → j = i ∧ o.isFailure) : Writes (o.cause i) s s' := by
  refine ⟨hkwargs, .inr ⟨i, [o], p, hp, hstage, hhistory, ?_, fun j hj => ?_⟩⟩
  · intro o' ho'
    rw [List.mem_singleton.mp ho']
  · exact ⟨(ho j hj).1, o, List.mem_singleton_self o, (ho j hj).2⟩

/-- What `cached_tool` does at the end of a call moves that call only, and
writes down what has happened to it. -/
theorem writes_finish (s : GuardedState) (i : ℕ) (o : Happening) (result : String)
    (ho : ∀ j, (o.cause i).fails = some j → j = i ∧ o.isFailure) :
    Writes (o.cause i) s (s.finish tool sha256 loads i [o] result) := by
  unfold finish
  split
  · exact writes_of_history rfl GuardedStage.noConfusion rfl rfl ho
  · split
    · exact writes_of_history rfl GuardedStage.noConfusion rfl rfl ho
    · exact writes_of_history rfl GuardedStage.noConfusion rfl rfl ho
    · split
      · exact writes_of_history rfl GuardedStage.noConfusion rfl rfl ho
      · exact writes_of_history rfl GuardedStage.noConfusion rfl rfl ho

theorem writes_of_step {a : GuardedEvent} (ha : ∀ i kwargs, a ≠ .start i kwargs)
    (hstep : step tool isPrintable sha256 loads s a = some s') : Writes a s s' := by
  have hself : ∀ {i : ℕ} (j : ℕ), some i = some j → j = i ∧ true = true :=
    fun j hj => ⟨(Option.some.inj hj).symm, rfl⟩
  cases moves_of_step hstep with
  | tick d => exact ⟨rfl, .inl ⟨rfl, rfl, rfl⟩⟩
  | expire key => exact ⟨rfl, .inl ⟨rfl, rfl, rfl⟩⟩
  | start kwargs hi => exact absurd rfl (ha _ kwargs)
  | applied hredis => exact ⟨rfl, .inl ⟨rfl, rfl, rfl⟩⟩
  | hit hi => exact writes_advance_nil s.recordSuccess _ GuardedStage.noConfusion rfl
  | miss hi => exact writes_advance_nil s.recordSuccess _ GuardedStage.noConfusion rfl
  | stored hi => exact writes_advance_nil s.recordSuccess _ GuardedStage.noConfusion rfl
  | getFailed hi => exact writes_advance_nil s.recordFailure _ GuardedStage.noConfusion rfl
  | setFailed hi => exact writes_advance_nil s.recordFailure _ GuardedStage.noConfusion rfl
  | served hi => exact writes_advance_nil s _ GuardedStage.noConfusion rfl
  | unreadable hi hexc => exact writes_advance_nil s _ GuardedStage.noConfusion rfl
  | asks hi hargs => exact writes_advance_nil s _ GuardedStage.noConfusion rfl
  | authorizeRaised hi => exact writes_advance_nil s _ GuardedStage.noConfusion rfl
  | cancelled hi hreturned => exact writes_advance_nil s _ GuardedStage.noConfusion rfl
  | @notReady i hi => exact writes_finish s i .notInitialised _ hself
  | @denied i args hi => exact writes_finish s i (.denied args) _ hself
  | @fnRaised i args exc hi => exact writes_finish s i (.fnRaised args exc) _ hself
  | @refused i response hi hresponse =>
    exact writes_finish s i .invalidInput response fun j hj => by cases hj
  | @fnReturned i args value hi =>
    exact writes_finish s i (.fnReturned args value) value fun j hj => by cases hj
  | @allowed i args hi =>
    exact writes_of_history (o := .allowed args) rfl GuardedStage.noConfusion rfl rfl
      fun j hj => by cases hj

/-- **Every step is recorded**: the arguments of a call are those of its start,
and each of its happenings is an event of the run. -/
theorem recorded_step {as : List GuardedEvent} {a : GuardedEvent} (h : Recorded as s)
    (hstep : step tool isPrintable sha256 loads s a = some s') : Recorded (as ++ [a]) s' := by
  by_cases ha : ∃ i kwargs, a = .start i kwargs
  · obtain ⟨i, kwargs, rfl⟩ := ha
    cases moves_of_step hstep with
    | start _ hi =>
      refine ⟨fun j kwargs' hj => ?_, fun j o ho => List.mem_append_left _ (h.caused j o ho),
        fun b hb j hj => ?_⟩
      · show Function.update s.kwargs i kwargs j = kwargs' ∧ Function.update s.stage i _ j ≠ _
        rcases List.mem_append.mp hj with hj | hj
        · have hold := h.begun j kwargs' hj
          have hne : j ≠ i := by
            rintro rfl
            exact hold.2 hi
          rw [Function.update_of_ne hne, Function.update_of_ne hne]
          exact hold
        · obtain ⟨rfl, rfl⟩ := GuardedEvent.start.inj (List.mem_singleton.mp hj)
          rw [Function.update_self, Function.update_self]
          exact ⟨rfl, firstStage_ne_idle s _⟩
      · rcases List.mem_append.mp hb with hb | hb
        · exact h.failed b hb j hj
        · rw [List.mem_singleton.mp hb] at hj
          cases hj
  · have hne : ∀ i kwargs, a ≠ .start i kwargs := fun i kwargs heq => ha ⟨i, kwargs, heq⟩
    obtain ⟨hkwargs, hwrites⟩ := writes_of_step hne hstep
    have hold : ∀ {b : GuardedEvent} {j kwargs}, b = .start j kwargs → b ∈ as ++ [a] → b ∈ as := by
      rintro b j kwargs rfl hb
      refine (List.mem_append.mp hb).resolve_right fun hb => ?_
      exact hne j kwargs (List.mem_singleton.mp hb).symm
    rcases hwrites with ⟨hstage, hhistory, hfails⟩
      | ⟨i, hs, p, hp, hstage, hhistory, hcause, hfails⟩
    · refine ⟨fun j kwargs hj => ?_, fun j o ho => ?_, fun b hb j hj => ?_⟩
      · rw [hkwargs, hstage]
        exact h.begun j kwargs (hold rfl hj)
      · rw [hhistory] at ho
        exact List.mem_append_left _ (h.caused j o ho)
      · rw [hhistory]
        rcases List.mem_append.mp hb with hb | hb
        · exact h.failed b hb j hj
        · rw [List.mem_singleton.mp hb, hfails] at hj
          cases hj
    · refine ⟨fun j kwargs hj => ?_, fun j o ho => ?_, fun b hb j hj => ?_⟩
      · obtain ⟨hkw, hidle⟩ := h.begun j kwargs (hold rfl hj)
        refine ⟨hkwargs ▸ hkw, ?_⟩
        rw [hstage]
        by_cases hji : j = i
        · rw [hji, Function.update_self]
          exact hp
        · rw [Function.update_of_ne hji]
          exact hidle
      · rw [hhistory] at ho
        by_cases hji : j = i
        · subst hji
          rw [Function.update_self] at ho
          rcases List.mem_append.mp ho with ho | ho
          · exact List.mem_append_left _ (h.caused j o ho)
          · rw [hcause o ho]
            exact List.mem_concat_self
        · rw [Function.update_of_ne hji] at ho
          exact List.mem_append_left _ (h.caused j o ho)
      · rw [hhistory]
        rcases List.mem_append.mp hb with hb | hb
        · obtain ⟨o, ho, hfail⟩ := h.failed b hb j hj
          refine ⟨o, ?_, hfail⟩
          by_cases hji : j = i
          · subst hji
            rw [Function.update_self]
            exact List.mem_append_left _ ho
          · rwa [Function.update_of_ne hji]
        · rw [List.mem_singleton.mp hb] at hj
          obtain ⟨rfl, o, ho, hfail⟩ := hfails j hj
          refine ⟨o, ?_, hfail⟩
          rw [Function.update_self]
          exact List.mem_append_right _ ho

/-- **Every run is recorded**, so that the happenings the contract speaks of are
no invention of the state. -/
theorem recorded_run {cache : Option ToolResultCache} {now : ℚ} {as : List GuardedEvent}
    {t : GuardedState}
    (hrun : (machine tool isPrintable sha256 loads).run { cache := cache, now := now } as
      = some t) : Recorded as t :=
  (machine tool isPrintable sha256 loads).run_history
    ⟨fun _ _ h => absurd h List.not_mem_nil, fun _ _ h => absurd h List.not_mem_nil,
      fun _ h => absurd h List.not_mem_nil⟩
    (fun _ _ _ _ _ h hstep => recorded_step h hstep) hrun

/-! ## Every run -/

/-- **What runs of calls promise, and when.** The state keeps to the events of
the run, and the contract holds in every state the run comes through if and
only if no call with invalid input starts in front of a cache without a key,
and none finds a value under its key. -/
theorem contract_iff_along (hloads : ReadsTexts loads) {cache : Option ToolResultCache} {now : ℚ}
    {as : List GuardedEvent} {t : GuardedState}
    (hrun : (machine tool isPrintable sha256 loads).run { cache := cache, now := now } as
      = some t) :
    Recorded as t
      ∧ ((∀ bs u, bs <+: as →
          (machine tool isPrintable sha256 loads).run { cache := cache, now := now } bs = some u →
          Contract tool isPrintable loads u)
        ↔ (machine tool isPrintable sha256 loads).Along (Undisturbed tool isPrintable)
            { cache := cache, now := now } as) := by
  have hinit : Inv tool isPrintable loads ({ cache := cache, now := now } : GuardedState) :=
    ⟨fun _ => rfl, DelayedStore.every_empty⟩
  refine ⟨recorded_run hrun, ?_⟩
  exact (machine tool isPrintable sha256 loads).forall_prefix_iff_along_of
    (J := Inv tool isPrintable loads)
    (fun s a s' h _ hstep => ⟨undisturbed_of_contract h hstep,
      fun ha => (inv_step hloads h ha hstep).contract⟩)
    (fun s a s' h ha hstep => inv_step hloads h ha hstep) hinit hinit.contract hrun

/-- One call is allowed and answered, its result is stored, and the next one
asks the cache. -/
def answerThenAsk (k₀ k₁ : Kwargs) : List GuardedEvent :=
  [.start 0 k₀, .serveGet 0, .resumeGet 0 true, .enter 0 true, .resumeAuthorize 0 (.ok true),
    .resumeFn 0 (.ok "3"), .applySet 0, .resumeSet 0 true, .start 1 k₁, .serveGet 1,
    .resumeGet 1 true]

section Runs

variable {k₀ k₁ : Kwargs} (h₀ : tool.validate isPrintable k₀ = .ok (.ok k₀))
  (hok : isErrorResponse loads "3" = .ok false)
  (hs₀ : (keyPayload tool.fnName k₀).isTooLong = false)
  (hs₁ : (keyPayload tool.fnName k₁).isTooLong = false)
include h₀ hok hs₀ hs₁

/-- **A call with the key of another one gets its result**, whatever its own
arguments are. -/
theorem run_answerThenAsk
    (hkey : cacheKey sha256 tool.fnName k₀ = cacheKey sha256 tool.fnName k₁) :
    ∃ t, (machine tool isPrintable sha256 loads).run
        { cache := some CacheState.freshCache, now := 0 } (answerThenAsk k₀ k₁) = some t
      ∧ t.kwargs 1 = k₁ ∧ t.stage 1 = .returned "3" := by
  simp [answerThenAsk, machine, step, start, advance, finish, recordSuccess, firstStage, keyOf,
    makeCacheKey, hs₀, hs₁, h₀, hok, hkey, ToolResultCache.isBypassed, CacheState.freshCache,
    CacheState.isOpen_of_no_failures, CircuitBreaker.recordSuccess, DelayedStore.get?,
    DelayedStore.apply_send, DelayedStore.isPending, Dict.get?, Dict.set]

/-- A call that misses the cache and is refused for its input is disturbed by
no step of the run. -/
theorem run_answerThenRefuse {response : String}
    (hkey : cacheKey sha256 tool.fnName k₀ ≠ cacheKey sha256 tool.fnName k₁)
    (h₁ : tool.validate isPrintable k₁ = .ok (.error response))
    (hresponse : isErrorResponse loads response = .ok true) :
    ∃ t, (machine tool isPrintable sha256 loads).run
        { cache := some CacheState.freshCache, now := 0 }
        (answerThenAsk k₀ k₁ ++ [.enter 1 true]) = some t
      ∧ t.redis.entries.map (fun e => e.2) = [(0, "3")] ∧ t.history 1 = [.invalidInput]
      ∧ (machine tool isPrintable sha256 loads).Along (Undisturbed tool isPrintable)
        { cache := some CacheState.freshCache, now := 0 }
        (answerThenAsk k₀ k₁ ++ [.enter 1 true]) := by
  simp [answerThenAsk, machine, Machine.Along, Undisturbed, step, start, advance, finish,
    recordSuccess, firstStage, keyOf, makeCacheKey, hs₀, hs₁, h₀, h₁, hok, hresponse, hkey,
    ToolResultCache.isBypassed, CacheState.freshCache, CacheState.isOpen_of_no_failures,
    CircuitBreaker.recordSuccess, DelayedStore.get?, DelayedStore.apply_send,
    DelayedStore.isPending, Dict.get?, Dict.set]

end Runs

open CacheState (oneArgument)

/-- A tool that requires an argument of this name. -/
def requiring (name : String) : AuthorizedTool where
  toolName := "get_payment_summary"
  requireInput := some name
  fnName := "get_payment_summary"

/-- The tool has answered with the text of a number. -/
theorem isErrorResponse_three : isErrorResponse loadsDumped "3" = .ok false := by
  have hread : loadsDumped "3" = .ok (Json.int 3) := loadsDumped_dumps (Json.int 3)
  rw [isErrorResponse, hread]
  rfl

/-- The contract holds where one call is answered and another one is refused
for a blank input. -/
theorem contract_iff_along_answerThenRefuse :
    ∃ t, (machine (requiring "client_name") (fun _ => true) id loadsDumped).run
        { cache := some CacheState.freshCache, now := 0 }
        (answerThenAsk (oneArgument "client_name" "Acme") (oneArgument "client_name" " ")
          ++ [.enter 1 true]) = some t
      ∧ t.redis.entries.map (fun e => e.2) = [(0, "3")] ∧ t.history 1 = [.invalidInput]
      ∧ Recorded (answerThenAsk (oneArgument "client_name" "Acme") (oneArgument "client_name" " ")
          ++ [.enter 1 true]) t
      ∧ Contract (requiring "client_name") (fun _ => true) loadsDumped t := by
  have hacme : (requiring "client_name").validate (fun _ => true) (oneArgument "client_name" "Acme")
      = .ok (.ok (oneArgument "client_name" "Acme")) := by decide +kernel
  have hblank : (requiring "client_name").validate (fun _ => true) (oneArgument "client_name" " ")
      = .ok (.error (AuthorizedTool.invalidInput "client_name")) := by decide +kernel
  have hshort : ∀ text ∈ ["Acme", " "],
      (keyPayload "get_payment_summary" (oneArgument "client_name" text)).isTooLong = false := by
    decide +kernel
  have hkey : cacheKey id "get_payment_summary" (oneArgument "client_name" "Acme")
      ≠ cacheKey id "get_payment_summary" (oneArgument "client_name" " ") := by decide +kernel
  obtain ⟨t, hrun, hheld, hinvalid, halong⟩ :=
    run_answerThenRefuse hacme isErrorResponse_three (hshort "Acme" (by decide))
      (hshort " " (by decide)) hkey hblank (isErrorResponse_makeError readsTexts_loadsDumped _ _)
  obtain ⟨hrecorded, hiff⟩ := contract_iff_along readsTexts_loadsDumped hrun
  exact ⟨t, hrun, hheld, hinvalid, hrecorded, hiff.mpr halong _ t List.prefix_rfl hrun⟩

/-- **Invalid input served from the cache**: the tool requires an argument named
`fn`, which takes the place of the name of the tool in the key, and the call
that passes none is answered with what was stored for the call that passes
that name. -/
theorem not_contract_fn :
    ∃ t, (machine (requiring "fn") (fun _ => true) id loadsDumped).run
        { cache := some CacheState.freshCache, now := 0 }
        (answerThenAsk (oneArgument "fn" "get_payment_summary") ⟨[], List.nodup_nil⟩) = some t
      ∧ t.stage 1 = .returned "3"
      ∧ (requiring "fn").Refuses (fun _ => true) (t.kwargs 1)
      ∧ ¬ Contract (requiring "fn") (fun _ => true) loadsDumped t := by
  have hnamed : (requiring "fn").validate (fun _ => true) (oneArgument "fn" "get_payment_summary")
      = .ok (.ok (oneArgument "fn" "get_payment_summary")) := by decide +kernel
  have hkey : cacheKey id "get_payment_summary" (oneArgument "fn" "get_payment_summary")
      = cacheKey id "get_payment_summary" ⟨[], List.nodup_nil⟩ := rfl
  have hshort : (keyPayload "get_payment_summary" ⟨[], List.nodup_nil⟩).isTooLong = false := by
    decide +kernel
  obtain ⟨t, hrun, hkwargs, hstage⟩ :=
    run_answerThenAsk hnamed isErrorResponse_three hshort hshort hkey
  have hmissing : (requiring "fn").validate (fun _ => true) ⟨[], List.nodup_nil⟩
      = .ok (.error (AuthorizedTool.invalidInput "fn")) := by decide +kernel
  have hrefuses : (requiring "fn").Refuses (fun _ => true) (t.kwargs 1) :=
    hkwargs.symm ▸ AuthorizedTool.refuses_iff.mpr ⟨_, hmissing⟩
  refine ⟨t, hrun, hstage, hrefuses, fun hcontract => ?_⟩
  have herror := (hcontract.invalid 1 hrefuses).2 "3" hstage
  rw [isErrorResponse_three] at herror
  cases herror

end GuardedState
