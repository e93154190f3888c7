import PlatformSdk.McpAuth

/-!
# The middleware that binds the caller

`AgentContextMiddleware` decodes the `x-agent-context` header of a request and
binds the context to a `ContextVar` while the inner app handles it. A request
should reach the app once, under its own caller, and leave nothing bound.

A header that does not verify, or does not decode as a payload, is served
without a caller. But the bytes of the header become a `str` before any of
that, where nothing catches the error: a request whose header is no UTF-8
never reaches the app (`handledOnce_serve_iff`).
-/

/-- **What the middleware reads of an ASGI scope.** -/
structure Scope where
  type : String
  /-- `scope.get("headers")`, pairs of a name and a value. -/
  headers : Option (List (List UInt8 × List UInt8))

/-- `dict(scope.get("headers", [])).get(b"x-agent-context", b"")`: of a header
that is there twice the last one counts. -/
def Scope.agentContextHeader (scope : Scope) : List UInt8 :=
  ((Dict.update [] (scope.headers.getD [])).get? (encodeUtf8 "x-agent-context")).getD []

/-- **What became of a request**: under which context the app was invoked,
each time it was, how the middleware ended, and what the `ContextVar` then
holds. The exceptions of the app are in `ε`. -/
structure Served (ε : Type) where
  invoked : List (Option (AgentContext Json))
  result : Except (PyExc ⊕ ε) Unit
  var : Option (AgentContext Json)

/-- **A request** to a middleware: its scope, and what the application below
makes of it. -/
structure HttpRequest (ε : Type) where
  /-- The environment while it is handled. -/
  environ : Environ
  scope : Scope
  isHttp : scope.type = "http" ∨ scope.type = "websocket"
  /-- What the inner app does with it under a context. -/
  app : Option (AgentContext Json) → Except ε Unit

namespace AgentContextMiddleware

variable {ε : Type} (hmac : List UInt8 → List UInt8 → List UInt8)
  (decode : String → Except PyExc Json)

/-- `await self.app(scope, receive, send)` with this in the `ContextVar`. -/
def invoke (app : Option (AgentContext Json) → Except ε Unit)
    (var : Option (AgentContext Json)) : Served ε where
  invoked := [var]
  result := (app var).mapError Sum.inr
  var := var

/-- **`AgentContextMiddleware.__call__`**, the `ContextVar` holding `var`. -/
def call (environ : Environ) (scope : Scope)
    (app : Option (AgentContext Json) → Except ε Unit) (var : Option (AgentContext Json)) :
    Served ε :=
  if scope.type = "http" ∨ scope.type = "websocket" then
    match decodeUtf8 scope.agentContextHeader with
    | .error exc => { invoked := [], result := .error (.inl exc), var := var }
    | .ok raw =>
      if raw ≠ "" then
        match AgentContext.fromHeader hmac decode environ raw with
        -- the `finally` puts back what was bound before
        | .ok ctx => { invoke app (some ctx) with var := var }
        | .error _ => invoke app var
      else invoke app var
  else invoke app var

/-- **Requests one after the other**, each finding in the `ContextVar` what
the one before left there. -/
def serve : Option (AgentContext Json) → List (HttpRequest ε) → List (Served ε)
  | _, [] => []
  | var, r :: rs =>
    let s := call hmac decode r.environ r.scope r.app var
    s :: serve s.var rs

/-- **The caller of a request**: the context its own header decodes to, if it
does. -/
def ownContext (r : HttpRequest ε) : Option (AgentContext Json) :=
  match decodeUtf8 r.scope.agentContextHeader with
  | .ok raw => (AgentContext.fromHeader hmac decode r.environ raw).toOption
  | .error _ => none

/-- **A request is handled once**, under its own caller, and leaves nothing
bound. -/
def HandledOnce (r : HttpRequest ε) (s : Served ε) : Prop :=
  s.invoked = [ownContext hmac decode r] ∧ s.var = none

variable {hmac decode}

/-- A call leaves in the `ContextVar` what it found there. -/
theorem var_call (environ : Environ) (scope : Scope)
    (app : Option (AgentContext Json) → Except ε Unit) (var : Option (AgentContext Json)) :
    (call hmac decode environ scope app var).var = var := by
  unfold call
  split
  · split
    · rfl
    · split
      · split <;> rfl
      · rfl
  · rfl

/-- No request sees another one: each is served as if it were the first. -/
theorem serve_eq_map (var : Option (AgentContext Json)) (rs : List (HttpRequest ε)) :
    serve hmac decode var rs
      = rs.map (fun r => call hmac decode r.environ r.scope r.app var) := by
  induction rs with
  | nil => rfl
  | cons r rs ih =>
    rw [List.map_cons, ← ih]
    show _ :: serve hmac decode (call hmac decode r.environ r.scope r.app var).var rs = _
    rw [var_call]

/-- What the app sees bound is what the header decodes to. -/
theorem getAgentContext_eq_toOption (environ : Environ) (raw : String) :
    getAgentContext hmac decode environ raw
      = (AgentContext.fromHeader hmac decode environ raw).toOption := by
  unfold getAgentContext
  split
  · next h =>
    -- the empty text has no dot to split at
    subst h
    rfl
  · cases AgentContext.fromHeader hmac decode environ raw <;> rfl

/-- A header that is text: the app is invoked under what it decodes to. -/
theorem call_of_decodeUtf8 (r : HttpRequest ε) {raw : String}
    (h : decodeUtf8 r.scope.agentContextHeader = .ok raw) :
    (call hmac decode r.environ r.scope r.app none).invoked
      = [getAgentContext hmac decode r.environ raw] := by
  rw [call, if_pos r.isHttp, h]
  unfold getAgentContext
  by_cases hraw : raw = ""
  · simp only [hraw, ne_eq, not_true, if_false, if_true, invoke]
  · simp only [ne_eq, hraw, not_false_eq_true, if_true, if_false]
    cases AgentContext.fromHeader hmac decode r.environ raw <;> rfl

/-- A header that is no text: the app is not invoked. -/
theorem call_of_not_decodeUtf8 (r : HttpRequest ε) {exc : PyExc}
    (h : decodeUtf8 r.scope.agentContextHeader = .error exc) :
    (call hmac decode r.environ r.scope r.app none).invoked = [] := by
  rw [call, if_pos r.isHttp, h]

/-- One request is handled once exactly when its header is text. -/
theorem handledOnce_call_iff (r : HttpRequest ε) :
    HandledOnce hmac decode r (call hmac decode r.environ r.scope r.app none)
      ↔ ∃ raw, decodeUtf8 r.scope.agentContextHeader = .ok raw := by
  constructor
  · rintro ⟨hinvoked, -⟩
    cases h : decodeUtf8 r.scope.agentContextHeader with
    | ok raw => exact ⟨raw, rfl⟩
    | error exc =>
      rw [call_of_not_decodeUtf8 r h] at hinvoked
      cases hinvoked
  · rintro ⟨raw, h⟩
    refine ⟨?_, var_call _ _ _ _⟩
    rw [call_of_decodeUtf8 r h, getAgentContext_eq_toOption, ownContext, h]

/-- **When every request is handled once**: when the `x-agent-context` header of
each – nothing, where it has none – is UTF-8. The middleware decodes it before
its `try`, so that on other bytes it raises and the inner application is never
called. -/
theorem handledOnce_serve_iff (rs : List (HttpRequest ε)) :
    List.Forall₂ (HandledOnce hmac decode) rs (serve hmac decode none rs)
      ↔ ∀ r ∈ rs, ∃ raw, decodeUtf8 r.scope.agentContextHeader = .ok raw := by
  rw [serve_eq_map, List.forall₂_map_right_iff, List.forall₂_same]
  exact forall₂_congr fun r _ => handledOnce_call_iff r

/-- A request with this header, to an app that returns. -/
def headerRequest (value : List UInt8) : HttpRequest Unit where
  environ := oldEnviron
  scope := { type := "http", headers := some [(encodeUtf8 "x-agent-context", value)] }
  isHttp := .inl rfl
  app := fun _ => .ok ()

/-- **A header that is no UTF-8 keeps the request from the app.** -/
theorem not_handledOnce_serve :
    ¬ List.Forall₂ (HandledOnce keyedDigest decodeEncoded) [headerRequest [0xff]]
        (serve keyedDigest decodeEncoded none [headerRequest [0xff]]) := by
  intro h
  rw [serve_eq_map, List.map_cons, List.map_nil, List.forall₂_cons] at h
  have hheader : (headerRequest [0xff]).scope.agentContextHeader = [0xff] := by decide
  obtain ⟨raw, hraw⟩ := (handledOnce_call_iff (headerRequest [0xff])).mp h.1
  rw [hheader] at hraw
  cases hraw

end AgentContextMiddleware
