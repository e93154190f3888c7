import Mathlib.Data.List.Infix
import PlatformSdk.Python

/-!
# Calling an MCP tool on behalf of a model

A tool of an MCP server becomes a coroutine the language model may call with
arguments of its choosing. Two of them are not its to choose. `session_id`
says whose workspace a query runs in, and comes from the bridge, or from a
context variable; `auth_context` carries the signed identity of the user.
Both are written over whatever the model supplied.

Over, if there is something to write: without a trusted session id the
model's own value goes through to the server, and so does its `auth_context`
where no user context was given. `trustedFieldsIndependent_iff` says that the
fields of the call are independent of the model in every other case, and in
no further one.

The arguments a model can supply are those the tool declares, since the
argument model generated from the schema drops every other.
-/

/-- **The trusted identity of a user**, as the bridge needs it. -/
structure UserContext where
  authToken : String

/-- What the coroutine reads of its bridge. -/
structure Bridge where
  sseUrl : String
  toolCallTimeout : PyFloat
  /-- Whether there is a live session. -/
  connected : Bool

/-- One piece of content of a tool result: text, or something of another
class that has none. -/
inductive Content where
  | text (s : String)
  | other (className : String)

/-- How `session.call_tool` ends: with what the server returned, too late, or
raising. -/
inductive CallOutcome where
  | returned (content : List Content)
  | timedOut
  | raised (text : String)

/-- **A call the server receives**: the tool, and the arguments as they were
sent. -/
structure ToolCall where
  tool : String
  arguments : Dict String Json

/-- `key in container`, for a value of the schema. -/
def pyIn (key : String) : Json → Except PyExc Bool
  | .map d => .ok (decide (key ∈ Dict.keys d))
  | .list xs => .ok (xs.contains (Json.str key))
  | .leaf (.str s) => .ok (decide (key.toList <:+: s.toList))
  | _ => .error (.typeError "argument is not iterable")

/-- `_is_session_scoped`. -/
def isSessionScoped (inputSchema : Dict String Json) : Except PyExc Bool :=
  pyIn "session_id" ((inputSchema.get? "properties").getD (.map []))

/-- `bridge_session_id or _session_id_ctx.get()`, if it is not empty. -/
def trustedId (bridgeSessionId sessionIdCtx : Option String) : Option String :=
  let id := match bridgeSessionId with
    | none | some "" => sessionIdCtx
    | some id => some id
  match id with
  | none | some "" => none
  | some id => some id

/-- The arguments of the call: the trusted session id and the signed identity
written over the model's. -/
def injectTrusted (sessionScoped : Bool) (bridgeSessionId sessionIdCtx : Option String)
    (userCtx : Option UserContext) (kwargs : Dict String Json) : Dict String Json :=
  let kwargs :=
    if sessionScoped then
      match trustedId bridgeSessionId sessionIdCtx with
      | some id => kwargs.set "session_id" (Json.str id)
      | none => kwargs
    else kwargs
  match userCtx with
  | some u => kwargs.set "auth_context" (Json.str u.authToken)
  | none => kwargs

/-- What the model is told of a finished call. -/
def resultText (bridge : Bridge) (toolName : String) : CallOutcome → String
  | .returned [] => "Tool returned no content."
  | .returned (.text s :: _) => s
  | .returned (.other className :: _) =>
    "Tool execution error: '" ++ className ++ "' object has no attribute 'text'"
  | .timedOut =>
    "Tool '" ++ toolName ++ "' timed out after " ++ String.ofList bridge.toolCallTimeout.text
      ++ "s. The query may be too complex. Please try a simpler request."
  | .raised text => "Tool execution error: " ++ text

/-- **`invoke`**: the text the model gets, and the calls the server gets. -/
def invoke (bridge : Bridge) (toolName : String) (sessionScoped : Bool)
    (bridgeSessionId sessionIdCtx : Option String) (userCtx : Option UserContext)
    (kwargs : Dict String Json) (outcome : CallOutcome) : String × List ToolCall :=
  if bridge.connected then
    (resultText bridge toolName outcome,
      [⟨toolName, injectTrusted sessionScoped bridgeSessionId sessionIdCtx userCtx kwargs⟩])
  else
    ("Tool '" ++ toolName ++ "' is temporarily unavailable: the MCP server "
      ++ "is reconnecting. Please try again in a moment.", [])

/-- **`_make_invoke_fn`**: the coroutine of a tool, from its schema. -/
def makeInvokeFn (bridge : Bridge) (toolName : String) (inputSchema : Dict String Json)
    (bridgeSessionId : Option String) (userCtx : Option UserContext) :
    Except PyExc (Option String → Dict String Json → CallOutcome → String × List ToolCall) :=
  (isSessionScoped inputSchema).map fun sessionScoped sessionIdCtx kwargs outcome =>
    invoke bridge toolName sessionScoped bridgeSessionId sessionIdCtx userCtx kwargs outcome

/-! ## Two runs -/

/-- The fields that are not the model's to choose. -/
def trustedFields : List String := ["session_id", "auth_context"]

/-- The trusted fields of a call. -/
def ToolCall.trusted (call : ToolCall) : List (Option Json) :=
  trustedFields.map call.arguments.get?

/-- **The trusted fields are independent of the model**: two calls with
arguments the tool declares, which agree on every other argument, put the
same trusted fields on the wire. -/
def TrustedFieldsIndependent (bridge : Bridge) (toolName : String)
    (properties : Dict String Json) (bridgeSessionId sessionIdCtx : Option String)
    (userCtx : Option UserContext) : Prop :=
  ∀ inputSchema : Dict String Json, inputSchema.get? "properties" = some (.map properties) →
    ∀ fn, makeInvokeFn bridge toolName inputSchema bridgeSessionId userCtx = .ok fn →
    ∀ kwargs₁ kwargs₂ : Dict String Json,
      (∀ k ∈ kwargs₁.keys, k ∈ properties.keys) → (∀ k ∈ kwargs₂.keys, k ∈ properties.keys) →
      (∀ k ∉ trustedFields, kwargs₁.get? k = kwargs₂.get? k) →
      ∀ outcome₁ outcome₂,
        (fn sessionIdCtx kwargs₁ outcome₁).2.map ToolCall.trusted
          = (fn sessionIdCtx kwargs₂ outcome₂).2.map ToolCall.trusted

/-- The `session_id` of a call is the trusted one where the tool is scoped and
there is one, and the model's otherwise. -/
theorem get?_injectTrusted_sessionId (sessionScoped : Bool)
    (bridgeSessionId sessionIdCtx : Option String) (userCtx : Option UserContext)
    (kwargs : Dict String Json) :
    (injectTrusted sessionScoped bridgeSessionId sessionIdCtx userCtx kwargs).get? "session_id"
      = if sessionScoped then
          ((trustedId bridgeSessionId sessionIdCtx).map Json.str).or (kwargs.get? "session_id")
        else kwargs.get? "session_id" := by
  have hne : "session_id" ≠ "auth_context" := by decide
  unfold injectTrusted
  cases userCtx <;> cases sessionScoped <;> cases trustedId bridgeSessionId sessionIdCtx <;>
    simp [Dict.get?_set_of_ne _ _ hne]

/-- The `auth_context` of a call is the user's where there is one, and the
model's otherwise. -/
theorem get?_injectTrusted_authContext (sessionScoped : Bool)
    (bridgeSessionId sessionIdCtx : Option String) (userCtx : Option UserContext)
    (kwargs : Dict String Json) :
    (injectTrusted sessionScoped bridgeSessionId sessionIdCtx userCtx kwargs).get? "auth_context"
      = (userCtx.map (fun u => Json.str u.authToken)).or (kwargs.get? "auth_context") := by
  have hne : "auth_context" ≠ "session_id" := by decide
  unfold injectTrusted
  cases userCtx <;> cases sessionScoped <;> cases trustedId bridgeSessionId sessionIdCtx <;>
    simp [Dict.get?_set_of_ne _ _ hne]

/-- An argument the tool does not declare is not supplied. -/
theorem get?_eq_none_of_undeclared {properties kwargs : Dict String Json} {k : String}
    (h : ∀ k ∈ kwargs.keys, k ∈ properties.keys) (hk : k ∉ properties.keys) :
    kwargs.get? k = none :=
  (kwargs.get?_eq_none_iff k).mpr fun hmem => hk (h k hmem)

/-- Making the coroutine of a tool whose properties are a mapping. -/
theorem makeInvokeFn_of_properties {bridge : Bridge} {toolName : String}
    {inputSchema properties : Dict String Json} {bridgeSessionId : Option String}
    {userCtx : Option UserContext} (h : inputSchema.get? "properties" = some (.map properties)) :
    makeInvokeFn bridge toolName inputSchema bridgeSessionId userCtx
      = .ok (fun sessionIdCtx kwargs outcome =>
          invoke bridge toolName (decide ("session_id" ∈ properties.keys)) bridgeSessionId
            sessionIdCtx userCtx kwargs outcome) := by
  unfold makeInvokeFn isSessionScoped
  rw [h]
  rfl

/-- A value the model chooses for a field that is let through reaches the
call. -/
theorem not_independent_of_passed {bridge : Bridge} {toolName : String}
    {properties : Dict String Json} {bridgeSessionId sessionIdCtx : Option String}
    {userCtx : Option UserContext} (hconn : bridge.connected = true) {field : String}
    (hfield : field ∈ trustedFields) (hdecl : field ∈ properties.keys)
    (hpass : ∀ v, (injectTrusted (decide ("session_id" ∈ properties.keys)) bridgeSessionId
      sessionIdCtx userCtx [(field, v)]).get? field = some v) :
    ¬ TrustedFieldsIndependent bridge toolName properties bridgeSessionId sessionIdCtx
        userCtx := by
  intro h
  have hsub : ∀ v : Json, ∀ k ∈ Dict.keys [(field, v)], k ∈ properties.keys := by
    intro v k hk
    rw [List.mem_singleton.mp hk]
    exact hdecl
  have hagree : ∀ k ∉ trustedFields,
      Dict.get? [(field, Json.str "a")] k = Dict.get? [(field, Json.str "b")] k := by
    intro k hk
    have hne : field ≠ k := fun e => hk (e ▸ hfield)
    rw [Dict.get?_cons, Dict.get?_cons, if_neg hne, if_neg hne]
  -- the two calls differ in the one field
  have heq := h [("properties", .map properties)] rfl _ (makeInvokeFn_of_properties rfl)
    [(field, Json.str "a")] [(field, Json.str "b")] (hsub _) (hsub _) hagree .timedOut .timedOut
  simp only [invoke, hconn, if_true, List.map_cons, List.map_nil, List.cons.injEq, and_true,
    ToolCall.trusted] at heq
  have hget := List.map_inj_left.mp heq field hfield
  rw [hpass, hpass] at hget
  exact absurd hget (by decide)

/-- Where every trusted field the tool declares has a trusted value, a call
carries the same ones whatever the model supplies. -/
theorem get?_injectTrusted_congr {properties : Dict String Json}
    {bridgeSessionId sessionIdCtx : Option String} {userCtx : Option UserContext}
    (hsession : "session_id" ∈ properties.keys →
      (trustedId bridgeSessionId sessionIdCtx).isSome = true)
    (hauth : "auth_context" ∈ properties.keys → userCtx.isSome = true)
    {kwargs₁ kwargs₂ : Dict String Json} (h₁ : ∀ k ∈ kwargs₁.keys, k ∈ properties.keys)
    (h₂ : ∀ k ∈ kwargs₂.keys, k ∈ properties.keys) {field : String}
    (hfield : field ∈ trustedFields) :
    (injectTrusted (decide ("session_id" ∈ properties.keys)) bridgeSessionId sessionIdCtx userCtx
        kwargs₁).get? field
      = (injectTrusted (decide ("session_id" ∈ properties.keys)) bridgeSessionId sessionIdCtx
          userCtx kwargs₂).get? field := by
  simp only [trustedFields, List.mem_cons, List.not_mem_nil, or_false] at hfield
  rcases hfield with rfl | rfl
  · rw [get?_injectTrusted_sessionId, get?_injectTrusted_sessionId]
    by_cases hdecl : "session_id" ∈ properties.keys
    · obtain ⟨id, hid⟩ := Option.isSome_iff_exists.mp (hsession hdecl)
      simp [hdecl, hid]
    · simp [hdecl, get?_eq_none_of_undeclared h₁ hdecl, get?_eq_none_of_undeclared h₂ hdecl]
  · rw [get?_injectTrusted_authContext, get?_injectTrusted_authContext]
    by_cases hdecl : "auth_context" ∈ properties.keys
    · obtain ⟨u, rfl⟩ := Option.isSome_iff_exists.mp (hauth hdecl)
      rfl
    · rw [get?_eq_none_of_undeclared h₁ hdecl, get?_eq_none_of_undeclared h₂ hdecl]

/-- **When the trusted fields are independent of the model**: there is no
session to call, or every trusted field the tool declares has a trusted value
to be written over it. -/
theorem trustedFieldsIndependent_iff (bridge : Bridge) (toolName : String)
    (properties : Dict String Json) (bridgeSessionId sessionIdCtx : Option String)
    (userCtx : Option UserContext) :
    TrustedFieldsIndependent bridge toolName properties bridgeSessionId sessionIdCtx userCtx
      ↔ bridge.connected = false
        ∨ ("session_id" ∈ properties.keys →
            (trustedId bridgeSessionId sessionIdCtx).isSome = true)
          ∧ ("auth_context" ∈ properties.keys → userCtx.isSome = true) := by
  constructor
  · intro h
    by_cases hconn : bridge.connected = true
    · refine .inr ⟨fun hdecl => ?_, fun hdecl => ?_⟩
      · by_contra hno
        have hnone := Option.not_isSome_iff_eq_none.mp hno
        refine not_independent_of_passed hconn (by decide) hdecl (fun v => ?_) h
        rw [get?_injectTrusted_sessionId, hnone]
        simp [hdecl, Dict.get?]
      · by_contra hno
        have hnone := Option.not_isSome_iff_eq_none.mp hno
        refine not_independent_of_passed hconn (by decide) hdecl (fun v => ?_) h
        rw [get?_injectTrusted_authContext, hnone]
        simp [Dict.get?]
    · exact .inl (Bool.eq_false_iff.mpr hconn)
  · intro h inputSchema hprops fn hfn kwargs₁ kwargs₂ h₁ h₂ _ outcome₁ outcome₂
    rw [makeInvokeFn_of_properties hprops] at hfn
    obtain rfl := Except.ok.inj hfn
    by_cases hconn : bridge.connected = true
    · obtain ⟨hsession, hauth⟩ := h.resolve_left fun hdown => by
        rw [hconn] at hdown
        cases hdown
      simp only [invoke, hconn, if_true, List.map_cons, List.map_nil, ToolCall.trusted]
      refine congrArg (· :: []) (List.map_congr_left fun field hfield => ?_)
      exact get?_injectTrusted_congr hsession hauth h₁ h₂ hfield
    · simp [invoke, hconn]

/-- A connected bridge, which has no session id of its own. -/
def demoBridge : Bridge where
  sseUrl := "http://data-mcp:8080/sse"
  toolCallTimeout := ⟨"30.0".toList, by decide⟩
  connected := true

/-- **A session id the model chose reaches the server**, where neither the
bridge nor the context variable has one. -/
theorem not_trustedFieldsIndependent :
    ¬ TrustedFieldsIndependent demoBridge "execute_read_query"
        [("query", .map []), ("session_id", .map [])] none none none := by
  have hfield : "session_id" ∈ trustedFields := List.mem_cons_self
  refine not_independent_of_passed rfl hfield (by decide) fun v => ?_
  rw [get?_injectTrusted_sessionId]
  rfl
