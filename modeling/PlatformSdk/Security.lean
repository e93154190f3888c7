import PlatformSdk.ConfigModels
import PlatformSdk.Resilience

/-!
# The policy client

`OpaClient.authorize` asks the policy engine whether a tool may run. It is
meant to fail closed: a timeout, an HTTP error, an exception, exhausted
retries and an open circuit all deny, and it grants only on an explicit
`{"result": true}`.

The call is a loop over at most `opa_max_retries` attempts. The outcome of
the `i`-th POST is an argument, `net i`, as is the clock: a call is then a
function of what the network answers. An attempt runs the body of the `try`,
and the three `except` clauses decide whether to go on: `HTTPStatusError`
denies at once, `TimeoutException` and every other exception try again, after a
sleep of `opa_retry_backoff` seconds if an attempt is left.

The decision is `bool(response.json().get("result", False))`, the truth value
of whatever the engine put there, so an object, a non-empty list, a non-empty
string or a non-zero number grants too. And the backoff is any float, so that a
call with an infinite one sleeps for ever before its second attempt.
`authorize_failsClosed_iff` says that these are the only ways in which a call
does not fail closed, and that it never raises.
-/

/-! ## What is sent -/

/-- A scalar of a payload: a JSON scalar, or a value the encoder raises on. -/
inductive PyScalar where
  | json (a : JsonScalar)
  | unencodable (exc : PyExc)
  deriving DecidableEq

/-- A value of a payload, which need not be one of JSON. -/
abbrev PyValue := DocTree String PyScalar

mutual

/-- The JSON value the encoder makes of a payload value. -/
def toJson : PyValue → Except PyExc Json
  | .leaf (.json a) => .ok (.leaf a)
  | .leaf (.unencodable exc) => .error exc
  | .list xs => (toJsonList xs).map DocTree.list
  | .map d => (toJsonMap d).map DocTree.map

/-- The members of a list. -/
def toJsonList : List PyValue → Except PyExc (List Json)
  | [] => .ok []
  | x :: xs =>
    match toJson x, toJsonList xs with
    | .ok y, .ok ys => .ok (y :: ys)
    | .error exc, _ => .error exc
    | _, .error exc => .error exc

/-- The values of a mapping. -/
def toJsonMap : List (String × PyValue) → Except PyExc (List (String × Json))
  | [] => .ok []
  | (k, x) :: d =>
    match toJson x, toJsonMap d with
    | .ok y, .ok ys => .ok ((k, y) :: ys)
    | .error exc, _ => .error exc
    | _, .error exc => .error exc

end

/-- A string of a payload. -/
abbrev PyValue.str (s : String) : PyValue := .leaf (.json (.str s))

/-! ## What comes back -/

/-- **The outcome of a POST**: an exception, or a response with a status and
its JSON, if it is JSON. -/
inductive PostOutcome where
  | raised (exc : PyExc)
  | answered (status : ℕ) (body : Option Json)

namespace PostOutcome

/-- A response with a status of the 200s. -/
def isSuccess (status : ℕ) : Bool := 200 ≤ status && status ≤ 299

/-- `bool(response.json().get("result", False))`, past
`raise_for_status`. -/
def response : PostOutcome → Except PyExc Bool
  | .raised exc => .error exc
  | .answered status body =>
    if isSuccess status then
      match body with
      | none => .error .jsonDecodeError
      | some (.map d) => .ok (Json.truthy ((Dict.get? d "result").getD (Json.bool false)))
      | some _ => .error (.attributeError "object has no attribute 'get'")
    else .error (.httpStatusError status)

/-- **An explicit grant**: a response in the 200s with an object whose
`result` is `true`. -/
def Grants : PostOutcome → Prop
  | .answered status (some (.map d)) =>
    isSuccess status = true ∧ Dict.get? d "result" = some (Json.bool true)
  | _ => False

/-- A response in the 200s with an object whose `result` counts as true and
is something else. -/
def Lenient : PostOutcome → Prop
  | .answered status (some (.map d)) =>
    isSuccess status = true
      ∧ ∃ v, Dict.get? d "result" = some v ∧ Json.truthy v = true ∧ v ≠ Json.bool true
  | _ => False

/-- An outcome the loop tries again on: an exception other than
`HTTPStatusError`, or a response in the 200s with no JSON object. -/
def Retried : PostOutcome → Prop
  | .raised (.httpStatusError _) => False
  | .raised _ => True
  | .answered _ (some (.map _)) => False
  | .answered status _ => isSuccess status = true

end PostOutcome

/-! ## The client -/

/-- **The client's settings and its breaker.** -/
structure OpaClient where
  url : String
  environment : String
  agentRole : String
  maxRetries : ℤ
  retryBackoff : FloatValue
  cb : CircuitBreaker

/-- What a call of `authorize` comes to: its result, the requests it sent
with their outcomes, and the breaker it leaves. There is no result where the
call never returns. -/
structure Authorization where
  result : Option (Except PyExc Bool)
  posts : List (Json × PostOutcome)
  cb : CircuitBreaker

namespace OpaClient

/-- `__init__`. -/
def ofConfig (config : MCPConfig) : OpaClient where
  url := config.opaUrl
  environment := config.environment.toString
  agentRole := config.agentRole
  maxRetries := config.opaMaxRetries
  retryBackoff := config.opaRetryBackoff
  cb :=
    { name := "opa"
      failureThreshold := config.cbFailureThreshold
      recoveryTimeout := config.cbRecoveryTimeout }

/-- `input_data`: the payload, with three entries overwritten. -/
def inputData (c : OpaClient) (toolName : String) (payload : Dict String PyValue) :
    Dict String PyValue :=
  ((payload.set "tool" (PyValue.str toolName)).set "environment"
    (PyValue.str c.environment)).set "agent_role" (PyValue.str c.agentRole)

/-- The body of the request: the payload as the input, with the name of the tool
and the entries of the client written over it. -/
def requestBody (c : OpaClient) (toolName : String) (payload : Dict String PyValue) :
    Except PyExc Json :=
  toJson (.map [("input", .map (c.inputData toolName payload))])

/-- The body of the `try`, and the request if one was sent. -/
def attempt (body : Except PyExc Json) (outcome : PostOutcome) :
    Except PyExc Bool × List (Json × PostOutcome) :=
  match body with
  | .error exc => (.error exc, [])
  | .ok b => (outcome.response, [(b, outcome)])

/-- **`await asyncio.sleep(self._retry_backoff)` comes back**: there is an end
to every sleep but an infinite one, a negative one or that of a `nan` being over
at once. -/
def sleepReturns (backoff : FloatValue) : Bool := backoff ≠ .inf

/-- **The retry loop**: `remaining` attempts are left, `i` have been made. -/
def authorizeLoop (backoff : FloatValue) (body : Except PyExc Json) (net : ℕ → PostOutcome)
    (clock : ℕ → ℚ) : ℕ → ℕ → CircuitBreaker → Authorization
  | 0, _, cb => ⟨some (.ok false), [], cb⟩
  | remaining + 1, i, cb =>
    match attempt body (net i) with
    | (.ok decision, posts) => ⟨some (.ok decision), posts, cb.recordSuccess⟩
    | (.error (.httpStatusError _), posts) =>
      ⟨some (.ok false), posts, cb.recordFailure (clock i)⟩
    -- `TimeoutException` and `Exception` log differently and do the same
    | (.error _, posts) =>
      if remaining = 0 ∨ sleepReturns backoff = true then
        let rest :=
          authorizeLoop backoff body net clock remaining (i + 1) (cb.recordFailure (clock i))
        { rest with posts := posts ++ rest.posts }
      else ⟨none, posts, cb.recordFailure (clock i)⟩

/-- **`authorize`**, called at `now`; the `i`-th failure is recorded at
`clock i`. -/
def authorize (c : OpaClient) (toolName : String) (payload : Dict String PyValue)
    (net : ℕ → PostOutcome) (now : ℚ) (clock : ℕ → ℚ) : Authorization :=
  if c.cb.isOpen now then ⟨some (.ok false), [], c.cb⟩
  else
    authorizeLoop c.retryBackoff (c.requestBody toolName payload) net clock c.maxRetries.toNat 0
      c.cb

end OpaClient

namespace PostOutcome

theorem Grants.response_eq {o : PostOutcome} (h : o.Grants) : o.response = .ok true := by
  match o, h with
  | .answered status (some (.map d)), h =>
    obtain ⟨hs, hd⟩ := h
    rw [response, if_pos hs, hd]
    rfl

/-- What counts as true is an explicit grant or a lenient one. -/
theorem response_eq_true_iff {o : PostOutcome} :
    o.response = .ok true ↔ o.Grants ∨ o.Lenient := by
  match o with
  | .raised exc => simp [response, Grants, Lenient]
  | .answered status none => simp only [response, Grants, Lenient]; split <;> simp
  | .answered status (some (.leaf a)) => simp only [response, Grants, Lenient]; split <;> simp
  | .answered status (some (.list xs)) => simp only [response, Grants, Lenient]; split <;> simp
  | .answered status (some (.map d)) =>
    simp only [response, Grants, Lenient]
    by_cases hs : isSuccess status = true
    · rw [if_pos hs]
      simp only [Except.ok.injEq, hs, true_and]
      cases hd : Dict.get? d "result" with
      | none => simp [Json.truthy]
      | some v =>
        by_cases hv : v = Json.bool true
        · simp [hv, Json.truthy]
        · simp [hv]
    · simp [hs]

/-- A grant is not lenient: what counts as true in it is the literal `true`. -/
theorem Grants.not_lenient {o : PostOutcome} (h : o.Grants) : ¬ o.Lenient := by
  match o, h with
  | .answered status (some (.map d)), h =>
    rintro ⟨-, v, hv, -, hne⟩
    rw [h.2, Option.some.injEq] at hv
    exact hne hv.symm

/-- An outcome is tried again on exactly when it raises something other than
`HTTPStatusError`. -/
theorem retried_iff {o : PostOutcome} :
    o.Retried ↔ ∃ exc, o.response = .error exc ∧ ∀ status, exc ≠ .httpStatusError status := by
  match o with
  | .raised exc => cases exc <;> simp [response, Retried]
  | .answered status none => by_cases hs : isSuccess status = true <;> simp [response, Retried, hs]
  | .answered status (some (.leaf a)) =>
    by_cases hs : isSuccess status = true <;> simp [response, Retried, hs]
  | .answered status (some (.list xs)) =>
    by_cases hs : isSuccess status = true <;> simp [response, Retried, hs]
  | .answered status (some (.map d)) =>
    by_cases hs : isSuccess status = true <;> simp [response, Retried, hs]

end PostOutcome

/-! ## Failing closed -/

/-- **A call fails closed**: it returns a decision, and it returns `True` only
if one of the requests it sent was answered with an explicit grant. -/
structure Authorization.FailsClosed (r : Authorization) : Prop where
  /-- A decision is returned. -/
  total : ∃ decision, r.result = some (.ok decision)
  /-- A grant is explicit. -/
  explicit : r.result = some (.ok true) → ∃ p ∈ r.posts, p.2.Grants

/-- **The network answers leniently** within `n` attempts from the `i`-th on:
the first outcome that is not tried again on is a lenient one. -/
def AnswersLeniently (net : ℕ → PostOutcome) (i n : ℕ) : Prop :=
  ∃ k < n, (∀ j < k, (net (i + j)).Retried) ∧ (net (i + k)).Lenient

/-- An attempt is left, or the first outcome is retried and the rest answer
leniently. -/
theorem answersLeniently_succ (net : ℕ → PostOutcome) (i n : ℕ) :
    AnswersLeniently net i (n + 1)
      ↔ (net i).Lenient ∨ (net i).Retried ∧ AnswersLeniently net (i + 1) n := by
  constructor
  · rintro ⟨k, hk, hbefore, hlenient⟩
    cases k with
    | zero => exact .inl hlenient
    | succ k =>
      refine .inr ⟨hbefore 0 (Nat.succ_pos k), k, Nat.lt_of_succ_lt_succ hk, fun j hj => ?_, ?_⟩
      · rw [Nat.add_right_comm]
        exact hbefore (j + 1) (Nat.succ_lt_succ hj)
      · rw [Nat.add_right_comm]
        exact hlenient
  · rintro (hlenient | ⟨hretried, k, hk, hbefore, hlenient⟩)
    · exact ⟨0, Nat.succ_pos n, fun j hj => absurd hj (Nat.not_lt_zero j), hlenient⟩
    · refine ⟨k + 1, Nat.succ_lt_succ hk, fun j hj => ?_, ?_⟩
      · cases j with
        | zero => exact hretried
        | succ j =>
          have := hbefore j (Nat.lt_of_succ_lt_succ hj)
          rwa [Nat.add_right_comm] at this
      · rwa [Nat.add_right_comm] at hlenient

/-- **An attempt is tried again on**: its body does not encode, or its outcome is
one that the loop retries. -/
def TriedAgain (body : Except PyExc Json) (outcome : PostOutcome) : Prop :=
  match body with
  | .error exc => ∀ status, exc ≠ .httpStatusError status
  | .ok _ => outcome.Retried

/-- **A call sleeps for ever** behind the `i`-th attempt: the backoff is infinite,
there are more than that one of the `n` attempts left, and it is tried again
on. -/
def SleepsForEver (backoff : FloatValue) (body : Except PyExc Json) (net : ℕ → PostOutcome)
    (i n : ℕ) : Prop :=
  backoff = .inf ∧ 1 < n ∧ TriedAgain body (net i)

namespace OpaClient

theorem sleepReturns_eq_true_iff {backoff : FloatValue} :
    sleepReturns backoff = true ↔ backoff ≠ .inf := decide_eq_true_iff

variable (backoff : FloatValue) (net : ℕ → PostOutcome) (clock : ℕ → ℚ)

/-- A payload that cannot be encoded is denied, after as many attempts as there
are, unless the call sleeps for ever. -/
theorem authorizeLoop_error {exc : PyExc} {n i : ℕ}
    (h : ¬ SleepsForEver backoff (.error exc) net i n) (cb : CircuitBreaker) :
    (authorizeLoop backoff (.error exc) net clock n i cb).result = some (.ok false) := by
  induction n generalizing i cb with
  | zero => rfl
  | succ n ih =>
    rw [authorizeLoop, attempt]
    split
    · next heq => exact absurd (Prod.mk.inj heq).1 (by simp)
    · rfl
    · next exc' posts hne heq =>
      obtain rfl := Except.error.inj (Prod.mk.inj heq).1
      have hagain : ∀ status, exc ≠ .httpStatusError status :=
        fun status hs => hne status (hs ▸ rfl)
      have hsleep : n = 0 ∨ backoff ≠ .inf := by
        by_contra hno
        obtain ⟨hpos, hinf⟩ := not_or.mp hno
        exact h ⟨not_not.mp hinf, by omega, hagain⟩
      rw [if_pos (hsleep.imp_right sleepReturns_eq_true_iff.mpr)]
      refine ih (fun hrest => ?_) _
      rcases hsleep with rfl | hfinite
      · exact absurd hrest.2.1 (by omega)
      · exact hfinite hrest.1

/-- An attempt that yields a decision ends the loop with it. -/
theorem authorizeLoop_of_decided {body : Json} {n i : ℕ} {cb : CircuitBreaker} {decision : Bool}
    (h : (net i).response = .ok decision) :
    authorizeLoop backoff (.ok body) net clock (n + 1) i cb
      = ⟨some (.ok decision), [(body, net i)], cb.recordSuccess⟩ := by
  rw [authorizeLoop, attempt, h]

/-- An attempt answered with an HTTP error ends the loop with a denial. -/
theorem authorizeLoop_of_status {body : Json} {n i : ℕ} {cb : CircuitBreaker} {status : ℕ}
    (h : (net i).response = .error (.httpStatusError status)) :
    authorizeLoop backoff (.ok body) net clock (n + 1) i cb
      = ⟨some (.ok false), [(body, net i)], cb.recordFailure (clock i)⟩ := by
  rw [authorizeLoop, attempt, h]

/-- An attempt that is retried leaves the decision to the rest, if the sleep
between the two has an end. -/
theorem authorizeLoop_of_retried {body : Json} {n i : ℕ} {cb : CircuitBreaker}
    (hn : n = 0 ∨ backoff ≠ .inf) (h : (net i).Retried) :
    authorizeLoop backoff (.ok body) net clock (n + 1) i cb
      = { authorizeLoop backoff (.ok body) net clock n (i + 1) (cb.recordFailure (clock i)) with
          posts := (body, net i)
            :: (authorizeLoop backoff (.ok body) net clock n (i + 1)
                (cb.recordFailure (clock i))).posts } := by
  obtain ⟨exc, hexc, hne⟩ := PostOutcome.retried_iff.mp h
  rw [authorizeLoop, attempt, hexc]
  split
  · next h => exact absurd (Prod.mk.inj h).1 (by simp)
  · next status posts h => exact absurd (Except.error.inj (Prod.mk.inj h).1) (hne status)
  · next posts _ h =>
    obtain rfl := (Prod.mk.inj h).2
    rw [if_pos (hn.imp_right sleepReturns_eq_true_iff.mpr)]
    rfl

/-- **A sleep without an end is the end of the call**, and no result comes of
it. -/
theorem authorizeLoop_of_sleepsForEver {body : Except PyExc Json} {n i : ℕ}
    (h : SleepsForEver backoff body net i n) (cb : CircuitBreaker) :
    (authorizeLoop backoff body net clock n i cb).result = none := by
  obtain ⟨rfl, hn, hagain⟩ := h
  obtain ⟨n, rfl⟩ : ∃ m, n = m + 2 := ⟨n - 2, by omega⟩
  obtain ⟨exc, posts, hattempt, hne⟩ : ∃ exc posts, attempt body (net i) = (.error exc, posts)
      ∧ ∀ status, exc ≠ .httpStatusError status := by
    cases body with
    | error exc => exact ⟨exc, [], rfl, hagain⟩
    | ok b =>
      obtain ⟨exc, hexc, hne⟩ := PostOutcome.retried_iff.mp hagain
      exact ⟨exc, [(b, net i)], by rw [attempt, hexc], hne⟩
  rw [authorizeLoop, hattempt]
  split
  · next h => exact absurd (Prod.mk.inj h).1 (by simp)
  · next status posts' h => exact absurd (Except.error.inj (Prod.mk.inj h).1) (hne status)
  · rw [if_neg (by simp [sleepReturns])]

/-- A retried outcome grants nothing, so the rest of the loop decides. -/
theorem failsClosed_cons_iff {p : Json × PostOutcome} {rest : Authorization} (h : ¬ p.2.Grants) :
    ({ rest with posts := p :: rest.posts } : Authorization).FailsClosed
      ↔ rest.FailsClosed := by
  constructor
  · rintro ⟨htotal, hexplicit⟩
    refine ⟨htotal, fun htrue => ?_⟩
    obtain ⟨q, hq, hg⟩ := hexplicit htrue
    rcases List.mem_cons.mp hq with rfl | hq
    · exact absurd hg h
    · exact ⟨q, hq, hg⟩
  · rintro ⟨htotal, hexplicit⟩
    refine ⟨htotal, fun htrue => ?_⟩
    obtain ⟨q, hq, hg⟩ := hexplicit htrue
    exact ⟨q, List.mem_cons_of_mem _ hq, hg⟩

/-- **The loop fails closed exactly when the network does not answer leniently**
and no sleep lasts for ever. By induction on the attempts left, one case for each
way an attempt can end. -/
theorem authorizeLoop_failsClosed_iff (body : Json) (n i : ℕ) (cb : CircuitBreaker) :
    (authorizeLoop backoff (.ok body) net clock n i cb).FailsClosed
      ↔ ¬ (SleepsForEver backoff (.ok body) net i n ∨ AnswersLeniently net i n) := by
  induction n generalizing i cb with
  | zero =>
    refine iff_of_true ⟨⟨false, rfl⟩, fun h => absurd h (by simp [authorizeLoop])⟩ ?_
    rintro (⟨-, hn, -⟩ | ⟨k, hk, -⟩)
    · exact Nat.not_lt_zero 1 hn
    · exact Nat.not_lt_zero k hk
  | succ n ih =>
    rw [answersLeniently_succ]
    by_cases hretried : (net i).Retried
    · obtain ⟨exc, hexc, -⟩ := PostOutcome.retried_iff.mp hretried
      have hgrants : ¬ (net i).Grants := fun h => by
        rw [h.response_eq] at hexc
        cases hexc
      have hlenient : ¬ (net i).Lenient := fun h => by
        rw [PostOutcome.response_eq_true_iff.mpr (.inr h)] at hexc
        cases hexc
      by_cases hsleep : n = 0 ∨ backoff ≠ .inf
      · have hnever : ∀ k, k ≤ n + 1 → ∀ j, ¬ SleepsForEver backoff (.ok body) net j k := by
          rintro k hk j ⟨hinf, hmore, -⟩
          rcases hsleep with rfl | hfinite
          · omega
          · exact hfinite hinf
        rw [authorizeLoop_of_retried backoff net clock hsleep hretried,
          failsClosed_cons_iff hgrants, ih]
        simp [hretried, hlenient, hnever n (Nat.le_succ n), hnever (n + 1) le_rfl]
      · obtain ⟨hpos, hinf⟩ := not_or.mp hsleep
        have hforever : SleepsForEver backoff (.ok body) net i (n + 1) :=
          ⟨not_not.mp hinf, by omega, hretried⟩
        refine iff_of_false ?_ (fun h => h (.inl hforever))
        rintro ⟨⟨decision, h⟩, -⟩
        rw [authorizeLoop_of_sleepsForEver backoff net clock hforever cb] at h
        cases h
    · have hawake : ¬ SleepsForEver backoff (.ok body) net i (n + 1) := fun h => hretried h.2.2
      cases hr : (net i).response with
      | ok decision =>
        rw [authorizeLoop_of_decided backoff net clock hr]
        constructor
        · rintro ⟨-, hexplicit⟩ (hforever | hlenient | ⟨h, -⟩)
          · exact hawake hforever
          · rw [PostOutcome.response_eq_true_iff.mpr (.inr hlenient)] at hr
            obtain ⟨p, hp, hgrants⟩ := hexplicit (congrArg (fun x => some x) hr.symm)
            rw [List.mem_singleton.mp hp] at hgrants
            exact hgrants.not_lenient hlenient
          · exact hretried h
        · refine fun h => ⟨⟨decision, rfl⟩, fun htrue => ?_⟩
          rw [Except.ok.inj (Option.some.inj htrue)] at hr
          rcases PostOutcome.response_eq_true_iff.mp hr with hgrants | hlenient
          · exact ⟨_, List.mem_singleton_self _, hgrants⟩
          · exact absurd (.inr (.inl hlenient)) h
      | error exc =>
        have hlenient : ¬ (net i).Lenient := fun h => by
          rw [PostOutcome.response_eq_true_iff.mpr (.inr h)] at hr
          cases hr
        have hstatus : ∃ status, exc = .httpStatusError status := by
          by_contra hno
          exact hretried (PostOutcome.retried_iff.mpr ⟨exc, hr, fun s h => hno ⟨s, h⟩⟩)
        obtain ⟨status, rfl⟩ := hstatus
        rw [authorizeLoop_of_status backoff net clock hr]
        refine iff_of_true ⟨⟨false, rfl⟩, fun h => absurd h (by simp)⟩ ?_
        simp [hretried, hlenient, hawake]

/-- **`authorize` fails closed exactly when it neither sleeps for ever nor is
answered leniently**: the circuit is open; or no infinite backoff comes between
two attempts, and the payload cannot be encoded, or the first outcome within the
retries that is not retried is no `result` that counts as true without being
`true`. -/
theorem authorize_failsClosed_iff (config : MCPConfig) (cb : CircuitBreaker) (toolName : String)
    (payload : Dict String PyValue) (now : ℚ) :
    (authorize { ofConfig config with cb := cb } toolName payload net now clock).FailsClosed
      ↔ ¬ (cb.isOpen now = false
          ∧ (SleepsForEver config.opaRetryBackoff (requestBody (ofConfig config) toolName payload)
              net 0 config.opaMaxRetries.toNat
            ∨ (∃ body, requestBody (ofConfig config) toolName payload = .ok body)
              ∧ AnswersLeniently net 0 config.opaMaxRetries.toNat)) := by
  have hbody : requestBody { ofConfig config with cb := cb } toolName payload
      = requestBody (ofConfig config) toolName payload := rfl
  rw [authorize]
  split
  · next hopen =>
    refine iff_of_true ⟨⟨false, rfl⟩, fun h => absurd h (by simp)⟩ ?_
    rintro ⟨hclosed, -⟩
    rw [hopen] at hclosed
    cases hclosed
  · next hopen =>
    have hclosed : cb.isOpen now = false := eq_false_of_ne_true hopen
    rw [hbody]
    cases hb : requestBody (ofConfig config) toolName payload with
    | error exc =>
      by_cases hforever : SleepsForEver config.opaRetryBackoff (.error exc) net 0
          config.opaMaxRetries.toNat
      · have hnone := authorizeLoop_of_sleepsForEver _ net clock hforever cb
        refine iff_of_false ?_ (fun h => h ⟨hclosed, .inl hforever⟩)
        rintro ⟨⟨decision, h⟩, -⟩
        exact absurd (h.symm.trans hnone) (by simp)
      · have hdenied := authorizeLoop_error _ net clock hforever cb
        refine iff_of_true ⟨⟨false, hdenied⟩, fun h => ?_⟩ ?_
        · exact absurd (h.symm.trans hdenied) (by simp)
        · rintro ⟨-, h | ⟨⟨body, h⟩, -⟩⟩
          · exact hforever h
          · cases h
    | ok body =>
      refine (authorizeLoop_failsClosed_iff config.opaRetryBackoff net clock body _ 0 cb).trans
        (not_congr ⟨fun h => ⟨hclosed, h.imp_right (fun h => ⟨⟨body, rfl⟩, h⟩)⟩, fun h => ?_⟩)
      exact h.2.imp_right And.right

/-- **An object grants**: a response `{"result": {"allow": false}}` is
returned as `True`, and no request was answered with an explicit grant. -/
theorem not_authorize_failsClosed :
    ¬ (authorize (ofConfig { environment := .prod }) "get_inventory" []
        (fun _ => .answered 200 (some (.map [("result", .map [("allow", Json.bool false)])])))
        0 (fun _ => 0)).FailsClosed := by
  rintro ⟨-, hexplicit⟩
  obtain ⟨p, hp, hgrants⟩ := hexplicit rfl
  have hposts :
      p.2 = .answered 200 (some (.map [("result", .map [("allow", Json.bool false)])])) := by
    rw [List.mem_singleton.mp hp]
  rw [hposts] at hgrants
  exact absurd hgrants.2 (by decide)

end OpaClient
