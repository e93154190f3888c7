import PlatformSdk.ContextVars
import PlatformSdk.McpBridge
import PlatformSdk.McpMiddleware

/-!
# Many requests at once

Two context variables say on whose behalf code runs: the agent context that
the middleware binds while a request is handled, and the session id that a
service binds around a call of its agent. A server handles many requests at
once, each in a task of its own, and while one is handled its code creates
further tasks, for the tools an agent calls or for work that goes on when the
request is over.

Both are handlers that bind one variable, and so `ContextVars.value_of_run` is
about them. `reads_agentContext` says that whatever code reads as the agent
context is what the request it works for has signed, and `sessionId_invoke`
that a tool call on a shared bridge carries the session of its own request.
-/

namespace AgentContextMiddleware

variable {ε : Type} (hmac : List UInt8 → List UInt8 → List UInt8)
  (decode : String → Except PyExc Json)

/-- **What `__call__` binds for a request** before it awaits the app, if it
gets there. -/
def binding (r : HttpRequest ε) : Except PyExc (Option (AgentContext Json)) :=
  match decodeUtf8 r.scope.agentContextHeader with
  | .error exc => .error exc
  | .ok raw =>
    if raw ≠ "" then
      match AgentContext.fromHeader hmac decode r.environ raw with
      | .ok ctx => .ok (some ctx)
      | .error _ => .ok none
    else .ok none

/-- The requests of a server behind the middleware, in any order. -/
abbrev tasks : Machine (ContextVars.State (HttpRequest ε) (AgentContext Json))
    (ContextVars.Event (HttpRequest ε)) :=
  ContextVars.machine (binding hmac decode) none

variable {hmac decode}

/-- **One request by itself** is what the middleware makes of it: the app is
invoked with what the handler binds, and with what there was where it binds
nothing. -/
theorem invoked_call (r : HttpRequest ε) (var : Option (AgentContext Json)) :
    (call hmac decode r.environ r.scope r.app var).invoked
      = match binding hmac decode r with
        | .error _ => []
        | .ok none => [var]
        | .ok (some ctx) => [some ctx] := by
  rw [call, if_pos r.isHttp, binding]
  cases decodeUtf8 r.scope.agentContextHeader with
  | error exc => rfl
  | ok raw =>
    by_cases hraw : raw = ""
    · simp only [hraw, ne_eq, not_true, if_false, invoke]
    · simp only [ne_eq, hraw, not_false_eq_true, if_true]
      cases AgentContext.fromHeader hmac decode r.environ raw <;> rfl

/-- What a request shows is its own context. -/
theorem shown_binding (r : HttpRequest ε) :
    ContextVars.shown (binding hmac decode) none r = ownContext hmac decode r := by
  rw [ContextVars.shown, binding, ownContext]
  cases decodeUtf8 r.scope.agentContextHeader with
  | error exc => rfl
  | ok raw =>
    by_cases hraw : raw = ""
    · -- the empty text has no dot to split at
      subst hraw
      rfl
    · simp only [ne_eq, hraw, not_false_eq_true, if_true]
      cases AgentContext.fromHeader hmac decode r.environ raw <;> rfl

/-- A context of its own is what the handler binds. -/
theorem binding_of_ownContext {r : HttpRequest ε} {c : AgentContext Json}
    (h : ownContext hmac decode r = some c) : binding hmac decode r = .ok (some c) := by
  rw [← shown_binding, ContextVars.shown] at h
  split at h
  · next v hv => rw [hv, h]
  · cases h

/-- A context of its own is one the request has a signature for. -/
theorem signed_of_ownContext {r : HttpRequest ε} {c : AgentContext Json}
    (h : ownContext hmac decode r = some c) :
    ∃ key ∈ acceptedKeys r.environ, ∃ payload,
      decodeUtf8 r.scope.agentContextHeader = .ok (signed hmac key payload)
        ∧ (decode payload >>= AgentContext.ofData) = .ok c := by
  rw [ownContext] at h
  cases hraw : decodeUtf8 r.scope.agentContextHeader with
  | error exc =>
    rw [hraw] at h
    cases h
  | ok raw =>
    rw [hraw] at h
    have hfrom : AgentContext.fromHeader hmac decode r.environ raw = .ok c := by
      cases hfrom : AgentContext.fromHeader hmac decode r.environ raw with
      | error exc => simp [hfrom, Except.toOption] at h
      | ok c' => simpa [hfrom, Except.toOption] using h
    unfold AgentContext.fromHeader at hfrom
    cases hverify : verifyAndSplit hmac r.environ raw with
    | error exc =>
      rw [hverify] at hfrom
      cases hfrom
    | ok payload =>
      rw [hverify] at hfrom
      obtain ⟨-, key, hkey, rfl⟩ := verifyAndSplit_eq_ok_iff.mp hverify
      exact ⟨key, hkey, payload, rfl, hfrom⟩

/-- **Nobody acts under another caller's identity.** Requests are handled by
tasks that move in any order, and create further tasks. Whatever is read as the
agent context, in any task that works for a request, is what that request's own
header decodes to – a context it carries a signature for under a key accepted
when it was handled, or none – and the task of a request has nothing bound
before its handler begins and after it is through. -/
theorem reads_agentContext (as : List (ContextVars.Event (HttpRequest ε)))
    (t : ContextVars.State (HttpRequest ε) (AgentContext Json))
    (hrun : (tasks hmac decode).run (ContextVars.start none) as = some t) :
    (∀ r v, (r, v) ∈ t.reads → v = ownContext hmac decode r
        ∧ ∀ c, v = some c → ∃ key ∈ acceptedKeys r.environ, ∃ payload,
          decodeUtf8 r.scope.agentContextHeader = .ok (signed hmac key payload)
            ∧ (decode payload >>= AgentContext.ofData) = .ok c)
      ∧ ∀ task r, t.stage task = .waiting r ∨ t.stage task = .ended r →
        t.contexts task = none := by
  refine ⟨fun r v hmem => ?_, fun task => (ContextVars.value_of_run hrun task).2⟩
  have hv : v = ownContext hmac decode r :=
    ((ContextVars.isolated_run hrun).reads (r, v) hmem).trans (shown_binding r)
  exact ⟨hv, fun c hc => signed_of_ownContext (hv.symm.trans hc)⟩

/-- The header a service signs for a context. -/
def signedRequest (c : AgentContext String) : HttpRequest Unit :=
  headerRequest (encodeUtf8
    (AgentContext.toHeaderValue keyedDigest oldEnviron (AgentContext.new c).toJson))

/-- The manager's header is read back as the manager, the sample decoder being
the inverse of the encoder. -/
theorem ownContext_signedRequest :
    ownContext keyedDigest decodeEncoded (signedRequest managerContext)
      = some managerContext.toJson := by
  have hheader : (signedRequest managerContext).scope.agentContextHeader
      = encodeUtf8 (AgentContext.toHeaderValue keyedDigest oldEnviron
          (AgentContext.new managerContext).toJson) := by
    show ((Dict.set [] (encodeUtf8 "x-agent-context") _).get? _).getD [] = _
    rw [Dict.get?_set_self]
    rfl
  have hfrom : AgentContext.fromHeader keyedDigest decodeEncoded oldEnviron
      (AgentContext.toHeaderValue keyedDigest oldEnviron
        (AgentContext.new managerContext).toJson) = .ok (AgentContext.new managerContext).toJson :=
    AgentContext.fromHeader_signed decodesContexts_decodeEncoded List.mem_cons_self managerContext
  have hnew : AgentContext.new managerContext = managerContext := by decide
  rw [ownContext, hheader, decodeUtf8_encodeUtf8]
  show (AgentContext.fromHeader keyedDigest decodeEncoded oldEnviron _).toOption = _
  rw [hfrom, hnew]
  rfl

/-- A request that binds a context, and one that is refused: what a task
that the first has created reads when both are over. -/
theorem overlapping_run {r r' : HttpRequest ε} {c : AgentContext Json} {exc : PyExc}
    (h : binding hmac decode r = .ok (some c)) (h' : binding hmac decode r' = .error exc) :
    ∃ t, (tasks hmac decode).run (ContextVars.start none)
        [.arrive 0 r, .arrive 1 r', .begin 0, .begin 1, .spawn 0 2, .finish 0, .read 2] = some t
      ∧ (r, some c) ∈ t.reads := by
  simp [ContextVars.machine, ContextVars.step, ContextVars.State.begin, h, h',
    ContextVars.start, ContextVars.State.goto, ContextVars.State.finish,
    ContextVars.Stage.request?, ContextVars.Contexts.set, ContextVars.Contexts.copy,
    ContextVars.Contexts.reset, Function.update]

/-- **Two callers at once**: while the request of a manager is handled, one
with a header nobody signed comes and goes; and a task that the manager's
request has created reads the manager's context when both are over. -/
theorem reads_agentContext_overlapping :
    ∃ t v, (tasks keyedDigest decodeEncoded).run (ContextVars.start none)
        [.arrive 0 (signedRequest managerContext), .arrive 1 (headerRequest [0xff]), .begin 0,
          .begin 1, .spawn 0 2, .finish 0, .read 2] = some t
      ∧ (signedRequest managerContext, v) ∈ t.reads ∧ v = some managerContext.toJson := by
  have hmanager : binding keyedDigest decodeEncoded (signedRequest managerContext)
      = .ok (some managerContext.toJson) := binding_of_ownContext ownContext_signedRequest
  have hother : binding keyedDigest decodeEncoded (headerRequest [0xff])
      = .error .unicodeDecodeError := rfl
  obtain ⟨t, hrun, hmem⟩ := overlapping_run hmanager hother
  exact ⟨t, _, hrun, hmem,
    ((reads_agentContext _ t hrun).1 _ _ hmem).1.trans ownContext_signedRequest⟩

end AgentContextMiddleware

/-! ## Session ids -/

/-- **A request to a service that runs an agent**, with the session of its
body. -/
structure SessionRequest where
  sessionId : Option String

namespace SessionRequest

/-- What `set_session_id` binds around the call of the agent. -/
def binding (r : SessionRequest) : Except PyExc (Option String) := .ok r.sessionId

/-- The requests of a service, in any order. -/
abbrev tasks : Machine (ContextVars.State SessionRequest String)
    (ContextVars.Event SessionRequest) :=
  ContextVars.machine binding none

/-- What a request shows is its own session. -/
theorem shown_binding (r : SessionRequest) :
    ContextVars.shown binding none r = r.sessionId := by
  obtain ⟨_ | id⟩ := r <;> rfl

/-- **A tool call carries the session of its own request.** The requests of a
service are handled in tasks that move in any order, over one bridge that has no
session id of its own. A tool that declares `session_id`, invoked by any task
that works for a request, is called with the session of that request where it
has one that is not empty; no call carries another request's session, unless
the model itself puts it there where the request has none. -/
theorem sessionId_invoke (as : List (ContextVars.Event SessionRequest))
    (t : ContextVars.State SessionRequest String)
    (hrun : tasks.run (ContextVars.start none) as = some t) (r : SessionRequest)
    (sessionIdCtx : Option String) (hread : (r, sessionIdCtx) ∈ t.reads) (bridge : Bridge)
    (toolName : String) (userCtx : Option UserContext) (kwargs : Dict String Json)
    (outcome : CallOutcome) :
    ∀ call ∈ (invoke bridge toolName true none sessionIdCtx userCtx kwargs outcome).2,
      call.tool = toolName
        ∧ call.arguments.get? "session_id"
          = match r.sessionId with
            | none | some "" => kwargs.get? "session_id"
            | some id => some (Json.str id) := by
  have hctx : sessionIdCtx = r.sessionId :=
    ((ContextVars.isolated_run hrun).reads (r, sessionIdCtx) hread).trans (shown_binding r)
  intro call hcall
  unfold invoke at hcall
  split at hcall
  · rw [List.mem_singleton.mp hcall, hctx]
    refine ⟨rfl, ?_⟩
    rw [get?_injectTrusted_sessionId, if_pos rfl]
    obtain ⟨_ | id⟩ := r
    · rfl
    · by_cases hid : id = ""
      · subst hid
        rfl
      · simp [trustedId]
  · cases hcall

/-- **Two sessions at once** on one bridge: each call has its own, also when
the other request has begun in between. -/
theorem sessionId_invoke_overlapping :
    ∃ t, tasks.run (ContextVars.start none)
        [.arrive 0 ⟨some "a"⟩, .arrive 1 ⟨some "b"⟩, .begin 0, .begin 1, .read 0] = some t
      ∧ ∃ ctx, (⟨some "a"⟩, ctx) ∈ t.reads
        ∧ ∀ call ∈ (invoke demoBridge "ping" true none ctx none [] .timedOut).2,
          call.tool = "ping" ∧ call.arguments.get? "session_id" = some (Json.str "a") := by
  obtain ⟨t, hrun, hmem⟩ : ∃ t, tasks.run (ContextVars.start none)
      [.arrive 0 ⟨some "a"⟩, .arrive 1 ⟨some "b"⟩, .begin 0, .begin 1, .read 0] = some t
      ∧ (⟨some "a"⟩, some "a") ∈ t.reads := ⟨_, rfl, List.mem_singleton.mpr rfl⟩
  exact ⟨t, hrun, _, hmem, sessionId_invoke _ t hrun _ _ hmem demoBridge "ping" none [] .timedOut⟩

end SessionRequest
